import OttiliCoder.Proofs.ToolCalls

/-! Each tool call has one outcome, announced when it is reached. -/

namespace OttiliCoder
open Relational Transaction

/-- A tool call stays as it is, or leaves `running`. -/
def CallKept (row row' : ToolCallRow) : Prop := row' = row ∨ row.status = .running ∧ row'.status ≠ .running

abbrev ToolCallStep (s s' : Store) (id : ToolCallId) : Prop :=
  RowStep CallKept (fun row => row.status = .running) ((s .toolCalls).find? id) ((s' .toolCalls).find? id)

/-- A step journals that a call of the Run finished. -/
def FinishJournaled (s s' : Store) (runId : RunId) (id : ToolCallId) (success : Bool) : Prop :=
  ∃ event ∈ s' .runEvents, event ∉ s .runEvents ∧ event.runId = runId ∧ event.type = .toolCallFinished ∧
    event.payload.get? "toolCallId" = some (.string id) ∧ event.payload.get? "success" = some (.boolean success)

/-- A step takes a call of the Run from `running` to its result. -/
def Finishes (s s' : Store) (runId : RunId) (id : ToolCallId) (success : Bool) : Prop :=
  ∃ row row', (s .toolCalls).find? id = some row ∧ row.runId = runId ∧ row.status = .running ∧
    (s' .toolCalls).find? id = some row' ∧ row'.status = if success then .succeeded else .failed

/-- An event an executor writes itself, outside the operations on tool calls. -/
def Call.isOwnEvent : Call → Bool
  | .appendFencedEvent _ _ => true
  | _ => false

/-- One step keeps every outcome, and journals exactly the results it reaches. -/
structure SettlesOnce (s : Store) (call : Call) : Prop where
  rows : ∀ id, ToolCallStep s (call.perform s) id
  events : call.isOwnEvent = false → ∀ runId id success,
    FinishJournaled s (call.perform s) runId id success ↔ Finishes s (call.perform s) runId id success

/-- The completion names a running call of its Run and generation. -/
def Completable (s : Store) (input : CompleteToolCallInput) : Prop :=
  ∃ row, (s .toolCalls).find? input.toolCallId = some row ∧ input.names row = true ∧ row.status = .running

section Steps
variable {s s' : Store} {clock : Date} {call : Call}

theorem CallKept.refl (row : ToolCallRow) : CallKept row row := .inl rfl

private theorem toolCalls_same (same : s' .toolCalls = s .toolCalls) (id : ToolCallId) : ToolCallStep s s' id := by
  rw [ToolCallStep, same]
  exact .same .refl _

/-- A step that finishes no running call journals nothing, and is right not to. -/
private theorem settles_of_silent (rows : ∀ id, ToolCallStep s (call.perform s) id)
    (silent : call.isOwnEvent = false → call.journals .toolCallFinished = false)
    (unfinished : ∀ id row row', (s .toolCalls).find? id = some row → row.status = .running →
      ((call.perform s) .toolCalls).find? id = some row' → row'.status = .running ∨ row'.status = .unknownAfterCrash) :
    SettlesOnce s call := by
  refine ⟨rows, fun plain runId id success => ⟨?_, ?_⟩⟩
  · rintro ⟨event, member, fresh, -, type, -⟩
    exact absurd (Call.no_event (type ▸ silent plain) member) fresh
  · rintro ⟨row, row', found, -, running, found', finished⟩
    rcases unfinished id row row' found running found' with same | unknown
    · cases success <;> simp [same] at finished
    · cases success <;> simp [unknown] at finished

private theorem settles_of_same (same : (call.perform s) .toolCalls = s .toolCalls)
    (silent : call.isOwnEvent = false → call.journals .toolCallFinished = false) : SettlesOnce s call := by
  refine settles_of_silent (toolCalls_same same) silent fun id row row' found running found' => ?_
  rw [same, found] at found'
  cases found'
  exact .inl running

private theorem settles_of_unknown {selected : ToolCallRow → Bool} {now : IsoTimestamp}
    (running : ∀ row, selected row = true → row.status = .running)
    (marked : (call.perform s) .toolCalls = (s .toolCalls).update selected (markedUnknown now) markedUnknown_key)
    (silent : call.isOwnEvent = false → call.journals .toolCallFinished = false) : SettlesOnce s call := by
  refine settles_of_silent (fun id => ?_) silent fun id row row' found isRunning found' => ?_
  · rw [ToolCallStep, marked, Keyed.find?_update]
    refine .map fun row _ => ?_
    split
    next chosen => exact .inr ⟨running row chosen, by simp [markedUnknown]⟩
    next => exact .refl row
  · rw [marked, Keyed.find?_update, found] at found'
    cases found'
    by_cases chosen : selected row = true
    · exact .inr (by simp [chosen, markedUnknown])
    · exact .inl (by simpa [chosen] using isRunning)

theorem recordToolIntent_toolCalls {input : ToolIntentInput} {uuid : String} (id : ToolCallId) :
    ToolCallStep s ((Call.recordToolIntent input uuid clock).perform s) id ∧
      ∀ row, (s .toolCalls).find? id = some row →
        (((Call.recordToolIntent input uuid clock).perform s) .toolCalls).find? id = some row := by
  rw [Call.perform, Call.run, discard, after_map]
  cases outcome : recordToolIntent input uuid clock s with
  | ok result s' =>
    rw [after_ok outcome]
    obtain ⟨-, -, run, charged, authorized, steps⟩ := recordToolIntent_ok.mp outcome
    obtain ⟨event, journaled⟩ := steps.journaled
    have same : authorized .toolCalls = s .toolCalls := by
      rw [← charged_other steps.charge (t := .toolCalls) (by simp) (by simp)]
      rcases given_ok.mp steps.authorize with ⟨-, rfl⟩ | ⟨approvalId, -, consumed⟩
      · rfl
      · obtain ⟨approval, event, -, -, -, journaled⟩ := consumeApproval_ok.mp consumed
        rw [appended_other journaled (by simp) (by simp), withConsumed, Db.set_other _ _ (by simp)]
    have fresh := steps.admitted.fresh
    rw [same] at fresh
    rw [ToolCallStep, appended_other journaled (by simp) (by simp), Db.set_same, same, Keyed.find?_insert fresh]
    constructor
    · split
      next taken =>
        rw [← taken, fresh]
        exact .fresh rfl
      next => exact .same .refl _
    · intro row found
      split
      next taken =>
        rw [← taken, fresh] at found
        cases found
      next => exact found
  | error e s' =>
    rw [after_error outcome]
    have same : s' .toolCalls = s .toolCalls := by
      rcases recordToolIntent_error outcome with rfl | ⟨-, run, charge, -⟩
      · rfl
      · exact charged_other charge (by simp) (by simp)
    exact ⟨toolCalls_same same id, fun row found => by rwa [same]⟩

end Steps

/-! Completion. -/

section Completion
variable {s s' : Store} {input : CompleteToolCallInput} {clock : Date} {now : IsoTimestamp}

theorem finishPayload_get : (finishPayload input).get? "toolCallId" = some (.string input.toolCallId) ∧
    (finishPayload input).get? "success" = some (.boolean input.error.isNone) := by
  unfold finishPayload
  cases input.output <;> cases input.error <;> exact ⟨rfl, rfl⟩

/-- Under a current lease a completion is carried out, whatever it names. -/
theorem completeToolCall_returns (sound : Sound s) (current : CurrentLease s input.lease clock.toISOString) :
    ∃ s' row, completeToolCall input clock s = .ok () s' ∧
      s' .toolCalls = (withCompleted s input clock.toISOString) .toolCalls ∧
      Journaled (withCompleted s input clock.toISOString) s' row ∧ row.runId = input.lease.runId ∧
      row.type = .toolCallFinished ∧ row.payload = finishPayload input := by
  obtain ⟨run, found⟩ := sound.leased current
  have kept : Sound (withCompleted s input clock.toISOString) := (Effect.ledger (t := .toolCalls) rfl).sound sound
  have there : ((withCompleted s input clock.toISOString) .runs).find? input.lease.runId = some run := by
    rwa [withCompleted, Db.set_other _ _ (by simp)]
  have journals : Returns (appendEventInternal input.lease.runId .toolCallFinished (finishPayload input)
      clock.toISOString (some input.lease.generation)) (withCompleted s input clock.toISOString) fun _ s' => Sound s' :=
    appendEvent_returns kept there _ _ _
  obtain ⟨event, s', journaled, -⟩ := journals
  obtain ⟨row, entry, home, type, payload⟩ := appended_journaled journaled
  exact ⟨s', row, completeToolCall_ok.mpr ⟨current, event, journaled⟩,
    appended_other journaled (by simp) (by simp), entry, home, type, payload⟩

/-- A completion settles once exactly when it names a call that is running. -/
theorem settles_complete_iff (sound : Sound s) :
    SettlesOnce s (.completeToolCall input clock) ↔
      (CurrentLease s input.lease clock.toISOString → Completable s input) := by
  by_cases current : CurrentLease s input.lease clock.toISOString
  · obtain ⟨s', entry, returned, rows, journaled, home, type, payload⟩ := completeToolCall_returns sound current
    have performed : (Call.completeToolCall input clock).perform s = s' := after_ok returned
    have events : ∀ event, event ∈ s' .runEvents ∧ event ∉ s .runEvents ↔ event = entry := by
      have same : (withCompleted s input clock.toISOString) .runEvents = s .runEvents := Db.set_other _ _ (by simp)
      have fresh := journaled.fresh
      rw [same] at fresh
      intro event
      rw [journaled.events, same, Keyed.mem_insert fresh]
      constructor
      · rintro ⟨inside | rfl, outside⟩
        · exact absurd inside outside
        · rfl
      · rintro rfl
        exact ⟨.inr rfl, fun inside => Keyed.find?_eq_none.mp fresh event inside rfl⟩
    have found : ∀ id, (s' .toolCalls).find? id = ((s .toolCalls).find? id).map fun row =>
        if input.names row then completed input clock.toISOString row else row := fun id => by
      rw [rows, withCompleted, Db.set_same, Keyed.find?_update]
    have finished : FinishJournaled s s' input.lease.runId input.toolCallId input.error.isNone := by
      obtain ⟨member, fresh⟩ := (events entry).mpr rfl
      exact ⟨entry, member, fresh, home, type, payload ▸ finishPayload_get.1, payload ▸ finishPayload_get.2⟩
    refine ⟨fun settles _ => ?_, fun completable => ⟨fun id => ?_, fun _ runId id success => ⟨?_, ?_⟩⟩⟩
    · obtain ⟨row, row', stored, -, running, stored', status⟩ :=
        (performed ▸ settles.events rfl _ _ _).mp finished
      refine ⟨row, stored, ?_, running⟩
      by_contra other
      rw [found, stored, Option.map_some, if_neg other] at stored'
      cases stored'
      rw [running] at status
      split at status <;> cases status
    · obtain ⟨row, stored, named, running⟩ := completable current
      rw [ToolCallStep, performed, found]
      refine .map fun other there => ?_
      split
      next chosen =>
        have same : other.id = input.toolCallId := by
          simp only [CompleteToolCallInput.names, Bool.and_eq_true, beq_iff_eq] at chosen
          exact chosen.1.1
        have equal : other = row := Keyed.eq_of_key (Keyed.find?_eq_some.mp there).1
          (Keyed.find?_eq_some.mp stored).1 (same.trans (Keyed.find?_eq_some.mp stored).2.symm)
        refine .inr ⟨equal ▸ running, ?_⟩
        unfold completed
        cases input.error <;> simp
      next => exact .refl other
    · rw [performed]
      rintro ⟨event, member, fresh, mine, -, named, result⟩
      obtain rfl := (events event).mp ⟨member, fresh⟩
      obtain ⟨row, stored, names, running⟩ := completable current
      rw [payload, finishPayload_get.1] at named
      rw [payload, finishPayload_get.2] at result
      cases named
      cases result
      have belongs : row.runId = runId := by
        simp only [CompleteToolCallInput.names, Bool.and_eq_true, beq_iff_eq] at names
        exact names.1.2.trans (home.symm.trans mine)
      refine ⟨row, completed input clock.toISOString row, stored, belongs, running, ?_, rfl⟩
      rw [found, stored, Option.map_some, if_pos names]
    · rw [performed]
      rintro ⟨row, row', stored, mine, running, stored', status⟩
      rw [found, stored, Option.map_some, Option.some.injEq] at stored'
      subst stored'
      by_cases names : input.names row = true
      · rw [if_pos names] at status
        have result : input.error.isNone = success := by
          unfold completed at status
          cases outcome : input.error.isNone <;> cases success <;> simp [outcome] at status ⊢
        simp only [CompleteToolCallInput.names, Bool.and_eq_true, beq_iff_eq] at names
        have same : id = input.toolCallId := (Keyed.find?_eq_some.mp stored).2.symm.trans names.1.1
        rw [same, ← mine, names.1.2, ← result]
        exact finished
      · rw [if_neg names, running] at status
        cases success <;> simp at status
  · have thrown : Throws (completeToolCall input clock) s := by
      refine throws_iff.mpr fun u s' returned => current ?_
      exact (completeToolCall_ok.mp returned).1
    have performed : (Call.completeToolCall input clock).perform s = s := by
      obtain ⟨e, s', failed⟩ := thrown
      exact (after_error failed).trans (transaction_error failed)
    refine ⟨fun _ now => absurd now current, fun _ => ⟨fun id => toolCalls_same (by rw [performed]) id, ?_⟩⟩
    rw [performed]
    refine fun _ runId id success => ⟨?_, ?_⟩
    · rintro ⟨event, member, fresh, -⟩
      exact absurd member fresh
    · rintro ⟨row, row', stored, -, running, stored', status⟩
      obtain rfl := Option.some.inj (stored.symm.trans stored')
      rw [running] at status
      cases success <;> simp at status

end Completion

/-- Every other call settles once, in every state. -/
theorem settles_other {s : Store} {call : Call} (other : ∀ input clock, call ≠ .completeToolCall input clock) :
    SettlesOnce s call := by
  cases call with
  | completeToolCall input clock => exact absurd rfl (other input clock)
  | appendFencedEvent input clock =>
    exact settles_of_same (Call.frame _ (Call.appendFencedEvent_writes rfl rfl)) fun own => by cases own
  | recordToolIntent input uuid clock =>
    refine settles_of_silent (fun id => (recordToolIntent_toolCalls id).1) (fun _ => rfl)
      fun id row row' found running found' => ?_
    rw [(recordToolIntent_toolCalls id).2 row found] at found'
    cases found'
    exact .inl running
  | reconcileInterruptedToolCalls runId clock =>
    have atomic : Atomic (reconcileInterruptedToolCalls runId clock) := .transaction _
    rcases atomic.cases (s := s) with ⟨result, returned⟩ | ⟨-, same⟩
    · have marked := markUnknown_rows (reconcileInterruptedToolCalls_ok.mp returned)
      rw [withUnknown, Db.set_same, ← after_map (fun _ => ())] at marked
      refine settles_of_unknown (fun row chosen => ?_) marked fun _ => rfl
      simp only [Bool.and_eq_true, beq_iff_eq] at chosen
      exact chosen.2
    · refine settles_of_same ?_ fun _ => rfl
      rw [Call.perform, Call.run, discard, after_map, same]
  | recoverClaimedWork lease clock =>
    have atomic : Atomic (recoverClaimedWork lease clock) := .transaction _
    rcases atomic.cases (s := s) with ⟨result, returned⟩ | ⟨-, same⟩
    · have marked := markUnknown_rows (recoverClaimedWork_ok.mp returned).2
      rw [withUnknown, Db.set_same, withReleased, Db.set_other _ _ (by simp), ← after_map (fun _ => ())] at marked
      refine settles_of_unknown (fun row chosen => ?_) marked fun _ => rfl
      simp only [FencedLease.strands, Bool.and_eq_true, beq_iff_eq] at chosen
      exact chosen.1.2
    · refine settles_of_same ?_ fun _ => rfl
      rw [Call.perform, Call.run, discard, after_map, same]
  | _ => exact settles_of_same (Call.frame _ rfl) fun _ => rfl

/-- In a history every step settles tool calls once exactly when every completion under a
current lease names a call that is running, of its Run and generation. -/
theorem tool_calls_settle_once_iff (history : List Call) :
    (∀ before call rest, history = before ++ call :: rest → SettlesOnce (storeAfter before) call) ↔
      ∀ before input clock rest, history = before ++ .completeToolCall input clock :: rest →
        CurrentLease (storeAfter before) input.lease clock.toISOString → Completable (storeAfter before) input := by
  constructor
  · intro settles before input clock rest split
    exact (settles_complete_iff (reachable_storeAfter before).sound).mp (settles before _ rest split)
  · intro completable before call rest split
    by_cases completion : ∃ input clock, call = .completeToolCall input clock
    · obtain ⟨input, clock, rfl⟩ := completion
      exact (settles_complete_iff (reachable_storeAfter before).sound).mpr (completable before input clock rest split)
    · exact settles_other fun input clock same => completion ⟨input, clock, same⟩

/-- The executor completes its one call and then reports it failed. -/
def completedHistory : List Call :=
  [sampleRun, takeSample "first" .epoch, .recordToolIntent sampleIntent "t1" .epoch,
    .completeToolCall { lease := sampleLease "first" 1, toolCallId := toolCallId sampleIntent "t1" } .epoch]

theorem completion_rewrites_an_outcome :
    ¬ ∀ (history before : List Call) (call : Call) (rest : List Call), history = before ++ call :: rest →
      SettlesOnce (storeAfter before) call := by
  intro always
  have settles := always _ completedHistory (.completeToolCall
    { error := some [], lease := sampleLease "first" 1, toolCallId := toolCallId sampleIntent "t1" } .epoch) [] rfl
  obtain ⟨row, found, -, running⟩ := (settles_complete_iff (reachable_storeAfter completedHistory).sound).mp settles
    (by decide +kernel)
  have status : (((storeAfter completedHistory) .toolCalls).find? (toolCallId sampleIntent "t1")).map (·.status) =
      some .succeeded := by decide +kernel
  rw [show ((storeAfter completedHistory) .toolCalls).find? (toolCallId sampleIntent "t1") = some row from found]
    at status
  simp [running] at status

end OttiliCoder
