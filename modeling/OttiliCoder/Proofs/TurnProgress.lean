import OttiliCoder.Proofs.Completion
import OttiliCoder.Proofs.Gate
import OttiliCoder.Proofs.Journal
import OttiliCoder.Proofs.ToolCalls
import OttiliCoder.Runtime.Turn

/-! What the turns of a Run count as progress, and what its calls achieved in them. -/

namespace OttiliCoder
open Relational Transaction

def ProgressAttempt.progress (attempt : ProgressAttempt) : Bool := attempt.evidenceAdded || attempt.meaningfulChange

/-! The journal. -/

/-- The event makes its attempt count as progress. -/
def notes (type : RunEventType) (payload : JsonObject) : Bool :=
  match type with
  | .validationFinished => true
  | .taskStatusChanged => decide (JsonObject.text? payload "to" = some "completed")
  | .toolCallFinished => (errorMessage payload).isNone
  | _ => false

theorem noteProgress_progress (attempt : ProgressAttempt) (event : RunEvent) :
    (noteProgress attempt event).progress = (attempt.progress || notes event.type event.payload) := by
  unfold noteProgress notes ProgressAttempt.progress
  cases event.type with
  | taskStatusChanged =>
    simp only
    split <;> simp [*]
  | toolCallFinished =>
    simp only
    cases errorMessage event.payload <;> simp
  | _ => simp

/-- The turns that have begun. -/
def startedIn (events : List RunEvent) : Nat := events.countP fun event => event.type = .agentTurnStarted

/-- Whether one of the events, after `started` turns have begun, counts for the turn. -/
def notedIn (turn : Nat) : Nat → List RunEvent → Bool
  | _, [] => false
  | started, event :: events =>
    if event.type = .agentTurnStarted then notedIn turn (started + 1) events
    else (decide (started = turn + 1) && notes event.type event.payload) || notedIn turn started events

section Log
variable {turn started : Nat} {events more : List RunEvent}

theorem notedIn_append : notedIn turn started (events ++ more) =
    (notedIn turn started events || notedIn turn (started + startedIn events) more) := by
  induction events generalizing started with
  | nil => rfl
  | cons event events ih =>
    by_cases starts : event.type = .agentTurnStarted
    · rw [List.cons_append, notedIn, notedIn, if_pos starts, if_pos starts, ih, startedIn, startedIn,
        List.countP_cons_of_pos (by simpa using starts), Nat.add_assoc, Nat.add_comm 1]
    · rw [List.cons_append, notedIn, notedIn, if_neg starts, if_neg starts, ih, startedIn, startedIn,
        List.countP_cons_of_neg (by simpa using starts), Bool.or_assoc]

theorem notedIn_plain (plain : ∀ event ∈ events, event.type ≠ .agentTurnStarted) :
    notedIn turn started events = (decide (started = turn + 1) && events.any fun event => notes event.type event.payload) := by
  induction events with
  | nil => simp [notedIn]
  | cons event events ih =>
    obtain ⟨here, later⟩ := List.forall_mem_cons.mp plain
    rw [notedIn, if_neg here, ih later, List.any_cons, Bool.and_or_distrib_left]

theorem notedIn_silent (silent : ∀ event ∈ events, notes event.type event.payload = false) : notedIn turn started events = false := by
  induction events generalizing started with
  | nil => rfl
  | cons event events ih =>
    obtain ⟨here, later⟩ := List.forall_mem_cons.mp silent
    rw [notedIn]
    split
    · exact ih later
    · rw [ih later, here, Bool.and_false, Bool.or_false]

theorem attemptsOf_length (current : Option ProgressAttempt) :
    (attemptsOf current events).length = current.toList.length + startedIn events := by
  induction events generalizing current with
  | nil => rfl
  | cons event events ih =>
    rw [attemptsOf]
    split
    next starts =>
      rw [List.length_append, ih, startedIn, startedIn, List.countP_cons_of_pos (by simpa using starts)]
      simp only [Option.toList_some, List.length_singleton]
      omega
    next other =>
      rw [ih, startedIn, startedIn, List.countP_cons_of_neg (by simpa using other)]
      cases current <;> rfl

theorem notedIn_late (late : turn + 1 < started) : notedIn turn started events = false := by
  induction events generalizing started with
  | nil => rfl
  | cons event events ih =>
    rw [notedIn, ih late, ih (by omega), decide_eq_false (by omega), Bool.false_and, Bool.or_false, ite_self]

theorem notedIn_succ : notedIn (turn + 1) (started + 1) events = notedIn turn started events := by
  induction events generalizing started with
  | nil => rfl
  | cons event events ih => simp only [notedIn, ih, Nat.add_right_cancel_iff]

/-- An attempt counts as progress when an event of its turn does. -/
theorem attemptsOf_progress (current : Option ProgressAttempt) :
    (attemptsOf current events)[turn]?.any (·.progress) =
      (current.toList[turn]?.any (·.progress) || notedIn turn current.toList.length events) := by
  induction events generalizing current turn with
  | nil => simp [attemptsOf, notedIn]
  | cons event events ih =>
    rw [attemptsOf, notedIn]
    have fresh (turn : Nat) : ([{}] : List ProgressAttempt)[turn]?.any (·.progress) = false := by
      cases turn <;> rfl
    split
    next starts =>
      cases current with
      | none =>
        refine (ih _).trans ?_
        rw [Option.toList_some, fresh]
        rfl
      | some attempt =>
        cases turn with
        | zero => simp [notedIn_late]
        | succ turn =>
          have shifted : notedIn (turn + 1) 2 events = notedIn turn 1 events := notedIn_succ
          refine (ih (some {})).trans ?_
          rw [Option.toList_some, fresh]
          simp [shifted]
    next other =>
      cases current with
      | none =>
        refine (ih none).trans ?_
        simp
      | some attempt =>
        refine (ih (some (noteProgress attempt event))).trans ?_
        cases turn with
        | zero => simp [noteProgress_progress, Bool.or_assoc]
        | succ turn => simp

end Log

/-! Calls. -/

/-- The tool call a completion names, if it has one that is not read-only. -/
def actsOutside (s : Store) (input : CompleteToolCallInput) : Bool :=
  ((s .toolCalls).find? input.toolCallId).any fun row => input.names row && row.sideEffectClass != .none

/-- What a call is to achieve for a Run: evidence, a validation that passed or is independent, a completed Task, or a tool call that
had a side effect and succeeded. -/
def earns (runId : RunId) (s : Store) : Call → Bool
  | .addEvidence input _ _ => input.runId == runId
  | .recordValidation input _ _ => input.runId == runId && (input.passed || input.independent == some true)
  | .transitionTask input _ => input.target == .completed && rowRun s .tasks input.taskId == some runId
  | .completeToolCall input _ => input.lease.runId == runId && input.error.isNone && actsOutside s input
  | _ => false

/-- What counts without being an achievement: the decision on a completion, a validation that failed and is not independent, a tool
call that had no side effect or whose error has no message, and an event of one of these types that was appended as it is. -/
def pads (runId : RunId) (s : Store) : Call → Bool
  | .proposeCompletion input _ => input.runId == runId
  | .recordValidation input _ _ => input.runId == runId && !input.passed && input.independent != some true
  | .completeToolCall input _ => input.lease.runId == runId &&
    match input.error with
    | none => !actsOutside s input
    | some error => (JsonObject.get? error "message").isNone
  | .appendFencedEvent input _ => input.lease.runId == runId && notes input.type input.payload
  | _ => false

def achieves (runId : RunId) (s : Store) (call : Call) : Bool := !fails call.run s && earns runId s call

def overcounts (runId : RunId) (s : Store) (call : Call) : Bool := !fails call.run s && pads runId s call

/-- The journal of the Run grew by such rows. -/
def Grows (runId : RunId) (only : RunEventRow → Prop) (s s' : Store) : Prop :=
  ∃ more, journalOf s' runId = journalOf s runId ++ more ∧ ∀ row ∈ more, only row

instance {runId : RunId} {only : RunEventRow → Prop} : IsPreorder Store (Grows runId only) where
  refl s := ⟨[], (List.append_nil _).symm, fun _ none => absurd none List.not_mem_nil⟩
  trans s middle s' := by
    rintro ⟨first, grown, each⟩ ⟨second, grownOn, eachOn⟩
    refine ⟨first ++ second, ?_, ?_⟩
    · rw [grownOn, grown, List.append_assoc]
    · intro row member
      exact (List.mem_append.mp member).elim (each row) (eachOn row)

section Grows
variable {s s' : Store} {runId : RunId} {only wider : RunEventRow → Prop}

theorem Grows.of_same (same : s' .runEvents = s .runEvents) : Grows runId only s s' := by
  refine ⟨[], ?_, fun _ none => absurd none List.not_mem_nil⟩
  rw [journalOf, journalOf, same, List.append_nil]

theorem Grows.mono (implies : ∀ row, only row → wider row) (grows : Grows runId only s s') : Grows runId wider s s' := by
  obtain ⟨more, grown, each⟩ := grows
  exact ⟨more, grown, fun row member => implies row (each row member)⟩

/-- One event more. -/
theorem appended_grows {home : RunId} {type : RunEventType} {payload : JsonObject} {now : IsoTimestamp} {leaseGeneration : Option Nat}
    {event : RunEvent} (appended : appendEventInternal home type payload now leaseGeneration s = .ok event s') :
    Grows runId (fun row => home = runId ∧ row.type = type ∧ row.payload = payload) s s' := by
  obtain ⟨row, journaled, mine, kind, carried⟩ := appended_journaled appended
  refine ⟨[row].filter fun row => row.runId == runId, ?_, ?_⟩
  · rw [journalOf, journalOf, journaled.events, Keyed.insert_rows journaled.fresh, List.filter_append]
  · intro other member
    obtain ⟨listed, here⟩ := List.mem_filter.mp member
    obtain rfl := List.mem_singleton.mp listed
    exact ⟨mine.symm.trans (beq_iff_eq.mp here), kind, carried⟩

theorem Effect.grows {k : Kind} (effect : Effect k s s') : Grows runId (fun row => k.eventType = some row.type) s s' := by
  rcases effect.journal_step with same | ⟨row, journaled, type⟩
  · exact .of_same same
  · refine ⟨[row].filter fun row => row.runId == runId, ?_, ?_⟩
    · rw [journalOf, journalOf, journaled.events, Keyed.insert_rows journaled.fresh, List.filter_append]
    · intro other member
      obtain rfl := List.mem_singleton.mp (List.mem_filter.mp member).1
      exact type

/-- A call journals events of its types. -/
theorem Call.grows (call : Call) : Grows runId (fun row => call.journals row.type = true) s (call.perform s) := by
  have kept : ∀ k middle last, k ∈ call.kinds → Effect k middle last →
      Grows runId (fun row => call.journals row.type = true) s middle → Grows runId (fun row => call.journals row.type = true) s last := by
    intro k middle last listed effect sofar
    apply IsTrans.trans _ _ _ sofar
    apply effect.grows.mono
    intro row type
    exact List.any_eq_true.mpr ⟨k, listed, beq_iff_eq.mpr type⟩
  exact (Call.moves s call).keeps kept (Std.Refl.refl s)

/-- A transaction that throws journals nothing. -/
theorem Grows.transaction {α : Type} {m : StoreM α} (returned : ∀ a s', Transaction.transaction m s = .ok a s' → Grows runId only s s') :
    Grows runId only s (after (discard (Transaction.transaction m)) s) := by
  rw [discard, after_map]
  cases outcome : Transaction.transaction m s with
  | ok a s' =>
    rw [after_ok outcome]
    exact returned a s' outcome
  | error e s' =>
    rw [after_error outcome, transaction_error outcome]
    exact Std.Refl.refl s

end Grows

/-- The journal of the Run grew, and if it grew by an event that counts, something holds. -/
abbrev GrowsNoting (runId : RunId) (holds : Prop) : Store → Store → Prop :=
  Grows runId fun row => notes row.type row.payload = true → holds

section Calls
variable {s s' : Store} {runId home : RunId} {clock : Date} {holds : Prop} {type : RunEventType} {payload : JsonObject} {now : IsoTimestamp}
  {leaseGeneration : Option Nat}

theorem appended_noting {event : RunEvent} (appended : appendEventInternal home type payload now leaseGeneration s = .ok event s')
    (implies : home = runId → notes type payload = true → holds) : GrowsNoting runId holds s s' := by
  refine (appended_grows appended).mono ?_
  rintro row ⟨mine, kind, carried⟩ noted
  apply implies mine
  rwa [kind, carried] at noted

theorem yields_noting (implies : home = runId → notes type payload = true → holds) :
    Yields (GrowsNoting runId holds) (appendEventInternal home type payload now leaseGeneration) s fun _ _ => True :=
  fun _ _ appended => ⟨appended_noting appended implies, trivial⟩

theorem succeeds_run (call : Call) {u : Unit} (returned : call.run s = .ok u s') : (!fails call.run s) = true := by
  rw [fails_eq_false.mpr ⟨u, s', returned⟩]
  rfl

theorem proposeCompletion_noting (input : ProposeCompletionInput) :
    GrowsNoting runId (overcounts runId s (.proposeCompletion input clock) = true) s ((Call.proposeCompletion input clock).perform s) := by
  refine Grows.transaction fun run s' returned => ?_
  obtain ⟨payload, event, middle, appended, decided⟩ := proposeCompletion_ok returned
  have goes := succeeds_run (.proposeCompletion input clock) (map_ok.mpr ⟨run, returned, rfl⟩)
  have first : GrowsNoting runId (overcounts runId s (.proposeCompletion input clock) = true) s middle := by
    refine appended_noting appended fun mine _ => ?_
    simp [overcounts, goes, pads, mine]
  rcases decided with ⟨-, moved⟩ | ⟨-, rfl⟩
  · refine IsTrans.trans _ _ _ first ((Effect.transition moved).grows.mono fun row type noted => ?_)
    rw [← Option.some.inj type] at noted
    cases noted
  · exact first

theorem recordValidation_appends {input : RecordValidationInput} {uuid : String} {id : ValidationId}
    (returned : recordValidation input uuid clock s = .ok id s') : ∃ payload event middle, middle .runEvents = s .runEvents ∧
      appendEventInternal input.runId .validationFinished payload clock.toISOString none middle = .ok event s' := by
  simp only [recordValidation, transaction_ok, bind_ok, givenRunLease_ok, insert_ok, pure_ok] at returned
  obtain ⟨_, start, ⟨-, same⟩, _, s₁, ⟨admitted, inserted⟩, _, s₂, named, event, s₃, appended, -, last⟩ := returned
  have unchanged : s₂ = s₁ := by
    rcases given_ok.mp named with ⟨-, left⟩ | ⟨taskId, -, checked⟩
    · exact left
    · exact (readOnly_mustTask.bind fun task => .require _ _).ok checked
  rw [← last] at appended
  refine ⟨_, event, s₂, ?_, appended⟩
  rw [unchanged, inserted, same, Db.set_other _ _ (by simp)]

theorem recordValidation_noting (input : RecordValidationInput) (uuid : String) :
    GrowsNoting runId (achieves runId s (.recordValidation input uuid clock) = true ∨
      overcounts runId s (.recordValidation input uuid clock) = true) s ((Call.recordValidation input uuid clock).perform s) := by
  refine Grows.transaction fun id s' returned => ?_
  obtain ⟨payload, event, middle, same, appended⟩ := recordValidation_appends returned
  have goes := succeeds_run (.recordValidation input uuid clock) (map_ok.mpr ⟨id, returned, rfl⟩)
  have start : GrowsNoting runId (achieves runId s (.recordValidation input uuid clock) = true ∨
      overcounts runId s (.recordValidation input uuid clock) = true) s middle := .of_same same
  refine IsTrans.trans _ _ _ start (appended_noting appended fun mine _ => ?_)
  rw [achieves, overcounts, goes, earns, pads, mine]
  by_cases independent : input.independent = some true <;> cases input.passed <;> simp [independent]

theorem appendFencedEvent_noting (input : AppendFencedEventInput) :
    GrowsNoting runId (overcounts runId s (.appendFencedEvent input clock) = true) s ((Call.appendFencedEvent input clock).perform s) := by
  refine Grows.transaction fun event s' returned => ?_
  have goes := succeeds_run (.appendFencedEvent input clock) (map_ok.mpr ⟨event, returned, rfl⟩)
  obtain ⟨_, middle, checked, appended⟩ := bind_ok.mp (transaction_ok.mp returned)
  obtain ⟨-, rfl⟩ := assertLeaseInternal_ok.mp checked
  refine appended_noting appended fun mine noted => ?_
  simp [overcounts, goes, pads, mine, noted]

theorem errorMessage_finishPayload (input : CompleteToolCallInput) :
    errorMessage (finishPayload input) = input.error.bind fun error => JsonObject.get? error "message" := by
  unfold errorMessage finishPayload JsonObject.get?
  cases input.output <;> cases input.error <;> simp [Json.optionalField, Json.asObject]

theorem completeToolCall_noting (input : CompleteToolCallInput) :
    GrowsNoting runId (achieves runId s (.completeToolCall input clock) = true ∨
      overcounts runId s (.completeToolCall input clock) = true) s ((Call.completeToolCall input clock).perform s) := by
  change Grows _ _ s (after (completeToolCall input clock) s)
  cases outcome : completeToolCall input clock s with
  | error e s' =>
    rw [after_error outcome, transaction_error outcome]
    exact Std.Refl.refl s
  | ok u s' =>
    have goes := succeeds_run (.completeToolCall input clock) outcome
    obtain ⟨-, event, appended⟩ := completeToolCall_ok.mp outcome
    have start : GrowsNoting runId (achieves runId s (.completeToolCall input clock) = true ∨
        overcounts runId s (.completeToolCall input clock) = true) s (withCompleted s input clock.toISOString) := .of_same rfl
    rw [after_ok outcome]
    refine IsTrans.trans _ _ _ start (appended_noting appended fun mine noted => ?_)
    rw [notes, errorMessage_finishPayload] at noted
    rw [achieves, overcounts, goes, earns, pads, mine]
    cases error : input.error with
    | none => cases actsOutside s input <;> simp
    | some error =>
      rw [error, Option.bind_some] at noted
      simp [noted]

/-- What a Task's event says of where it has moved. -/
theorem notes_moved (taskId : TaskId) (target : String) (error : Option Json) :
    notes .taskStatusChanged ([("taskId", .string taskId), ("to", .string target)] ++ Json.optionalField "error" error) =
      decide (target = "completed") := by
  cases error <;> simp [notes, JsonObject.text?, JsonObject.get?, Json.optionalField, Json.asString]

theorem yields_refresh_noting : Yields (GrowsNoting runId holds) (refreshTaskReadinessInternal home now) s fun _ _ => True := by
  unfold refreshTaskReadinessInternal
  refine .read readOnly_selectRows fun pending _ => ?_
  refine Yields.forM trivial fun row _ s₁ _ _ => ?_
  refine .read .get fun _ _ => ?_
  refine .onlyIf (fun _ => trivial) fun _ => ?_
  refine .seq (Yields.update (.of_same rfl)).plain fun _ s₂ _ => ?_
  refine .seq (yields_noting fun _ noted => ?_) fun _ _ _ => .pure trivial
  exact absurd ((notes_moved row.id _ none).symm.trans noted) (by decide)

theorem claimTask_noting (input : ClaimTaskInput) : GrowsNoting runId False s ((Call.claimTask input clock).perform s) := by
  suffices within : Within (GrowsNoting runId False) (claimTask input clock) s from within.map _
  unfold claimTask
  refine Yields.within ?_
  refine .read readOnly_assertLeaseInternal fun _ _ => ?_
  refine .read readOnly_mustTask fun task _ => ?_
  refine .read (.require _ _) fun _ _ => ?_
  refine .read readOnly_mustAgent fun agent _ => ?_
  refine .read (.require _ _) fun _ _ => ?_
  refine .read (.require _ _) fun _ _ => ?_
  refine .seq (Yields.update (.of_same rfl)).plain fun _ s₁ _ => ?_
  refine .read readOnly_mustTask fun claimed _ => ?_
  refine .read (.require _ _) fun _ _ => ?_
  refine .seq (yields_noting fun _ noted => absurd noted Bool.false_ne_true) fun _ s₂ _ => ?_
  refine .seq (yields_noting fun _ noted => ?_) fun _ _ _ => .pure trivial
  exact absurd ((notes_moved task.id _ none).symm.trans noted) (by decide)

theorem createTask_noting (input : CreateTaskInput) (uuid : String) :
    GrowsNoting runId False s ((Call.createTask input uuid clock).perform s) := by
  suffices within : Within (GrowsNoting runId False) (createTask input uuid clock) s from within.map _
  unfold createTask
  refine Yields.within ?_
  refine .read (.given fun _ => readOnly_assertLeaseOfRun) fun _ _ => ?_
  refine .seq (Yields.insert fun _ => .of_same rfl).plain fun _ s₁ _ => ?_
  refine .seq (.forM trivial fun dependency _ s₂ _ _ => (Yields.insert fun _ => .of_same rfl).plain) fun _ s₂ _ => ?_
  refine .seq (.forM trivial fun requirementId _ s₃ _ _ => ?_) fun _ s₃ _ => ?_
  · refine .read readOnly_findRow fun requirement _ => ?_
    refine .read (.require _ _) fun _ _ => ?_
    exact (Yields.insert fun _ => .of_same rfl).plain
  refine .seq (.forM trivial fun scope _ s₄ _ _ => (Yields.insert fun _ => .of_same rfl).plain) fun _ s₄ _ => ?_
  exact .seq yields_refresh_noting fun _ s₅ _ => readOnly_mustTask.plain

theorem transitionTask_noting (input : TransitionTaskInput) :
    GrowsNoting runId (achieves runId s (.transitionTask input clock) = true) s ((Call.transitionTask input clock).perform s) := by
  refine Grows.transaction fun task s' returned => ?_
  have goes := succeeds_run (.transitionTask input clock) (map_ok.mpr ⟨task, returned, rfl⟩)
  have moves : Yields (GrowsNoting runId (achieves runId s (.transitionTask input clock) = true)) (transitionTask input clock) s
      fun _ _ => True := by
    unfold transitionTask
    refine .transaction (.read (.given fun _ => readOnly_assertLeaseInternal) fun _ _ => ?_)
    refine .read readOnly_mustTask fun task got => ?_
    refine .read (.given fun _ => .require _ _) fun _ _ => ?_
    refine .read (.require _ _) fun _ _ => ?_
    refine .seq (Yields.update (.of_same rfl)).plain fun _ s₁ _ => ?_
    refine .seq (yields_noting fun mine noted => ?_) fun _ s₂ _ => ?_
    · rw [notes_moved, decide_eq_true_eq] at noted
      have completed : input.target = .completed := by
        cases target : input.target <;> rw [target] at noted <;> first | rfl | exact absurd noted (by decide)
      obtain ⟨row, found, rfl, -⟩ := mustTask_ok.mp got
      have home : rowRun s .tasks input.taskId = some runId := by
        rw [rowRun, found]
        exact congrArg some mine
      simp [achieves, earns, goes, completed, home]
    · exact .seq yields_refresh_noting fun _ s₃ _ => readOnly_mustTask.plain
  exact (moves _ _ returned).1

theorem notes_types (noted : notes type payload = true) : type = .validationFinished ∨ type = .taskStatusChanged ∨ type = .toolCallFinished := by
  cases type <;> simp [notes] at noted ⊢

/-- Whatever counts in a journal was an achievement, or is counted without being one. -/
theorem Call.noting (call : Call) :
    GrowsNoting runId (achieves runId s call = true ∨ overcounts runId s call = true) s (call.perform s) := by
  by_cases silent : call.journals .validationFinished = false ∧ call.journals .taskStatusChanged = false ∧
      call.journals .toolCallFinished = false
  · obtain ⟨validation, task, tool⟩ := silent
    refine call.grows.mono fun row journals noted => ?_
    rcases notes_types noted with type | type | type <;> simp_all
  cases call with
  | proposeCompletion input clock => exact (proposeCompletion_noting input).mono fun _ holds noted => .inr (holds noted)
  | recordValidation input uuid clock => exact recordValidation_noting input uuid
  | appendFencedEvent input clock => exact (appendFencedEvent_noting input).mono fun _ holds noted => .inr (holds noted)
  | completeToolCall input clock => exact completeToolCall_noting input
  | claimTask input clock => exact (claimTask_noting input).mono fun _ holds noted => (holds noted).elim
  | createTask input uuid clock => exact (createTask_noting input uuid).mono fun _ holds noted => (holds noted).elim
  | transitionTask input clock => exact (transitionTask_noting input).mono fun _ holds noted => .inl (holds noted)
  | _ => exact absurd ⟨rfl, rfl, rfl⟩ silent

/-- The journal of the Run grew, and by such a row. -/
def Wrote (runId : RunId) (row : RunEventRow → Prop) (s s' : Store) : Prop :=
  ∃ more, journalOf s' runId = journalOf s runId ++ more ∧ ∃ written ∈ more, row written

theorem appended_wrote {event : RunEvent} (appended : appendEventInternal home type payload now leaseGeneration s = .ok event s') :
    Wrote home (fun row => row.type = type ∧ row.payload = payload) s s' := by
  obtain ⟨row, journaled, mine, kind, carried⟩ := appended_journaled appended
  refine ⟨[row], ?_, row, List.mem_singleton_self row, kind, carried⟩
  rw [journalOf, journalOf, journaled.events, Keyed.insert_rows journaled.fresh, List.filter_append]
  simp [mine]

theorem Wrote.mono {row wider : RunEventRow → Prop} (wrote : Wrote runId row s s') (implies : ∀ written, row written → wider written) :
    Wrote runId wider s s' := by
  obtain ⟨more, grown, written, member, fits⟩ := wrote
  exact ⟨more, grown, written, member, implies written fits⟩

theorem Wrote.before {middle : Store} {row : RunEventRow → Prop} (same : middle .runEvents = s .runEvents) (wrote : Wrote runId row middle s') :
    Wrote runId row s s' := by
  unfold Wrote journalOf at wrote ⊢
  rwa [same] at wrote

theorem Wrote.andGrows {middle : Store} {row only : RunEventRow → Prop} (wrote : Wrote runId row s middle)
    (grows : Grows runId only middle s') : Wrote runId row s s' := by
  obtain ⟨first, written, one, member, fits⟩ := wrote
  obtain ⟨second, grown, -⟩ := grows
  exact ⟨first ++ second, by rw [grown, written, List.append_assoc], one, List.mem_append_left _ member, fits⟩

theorem run_returned {call : Call} (goes : (!fails call.run s) = true) : ∃ u s', call.run s = .ok u s' :=
  fails_eq_false.mp (by simpa using goes)

/-- What counts without being an achievement is written to the journal. -/
theorem overcounts_wrote (call : Call) (overcounted : overcounts runId s call = true) :
    Wrote runId (fun row => notes row.type row.payload = true) s (call.perform s) := by
  rw [overcounts, Bool.and_eq_true] at overcounted
  obtain ⟨goes, kind⟩ := overcounted
  obtain ⟨u, s', ran⟩ := run_returned goes
  have left : call.perform s = s' := after_ok ran
  have noted (type : RunEventType) (payload : JsonObject) (counts : notes type payload = true) (row : RunEventRow)
      (written : row.type = type ∧ row.payload = payload) : notes row.type row.payload = true := by
    rwa [written.1, written.2]
  rw [left]
  cases call with
  | proposeCompletion input clock =>
    obtain ⟨run, returned, -⟩ := map_ok.mp ran
    obtain ⟨payload, event, middle, appended, decided⟩ := proposeCompletion_ok returned
    obtain rfl : input.runId = runId := beq_iff_eq.mp kind
    have wrote := (appended_wrote appended).mono (noted _ _ rfl)
    rcases decided with ⟨-, moved⟩ | ⟨-, rfl⟩
    · exact wrote.andGrows (Effect.transition moved).grows
    · exact wrote
  | recordValidation input uuid clock =>
    obtain ⟨id, returned, -⟩ := map_ok.mp ran
    obtain ⟨payload, event, middle, same, appended⟩ := recordValidation_appends returned
    simp only [pads, Bool.and_eq_true, beq_iff_eq] at kind
    obtain rfl := kind.1.1
    exact .before same ((appended_wrote appended).mono (noted _ _ rfl))
  | completeToolCall input clock =>
    obtain ⟨-, event, appended⟩ := completeToolCall_ok.mp ran
    rw [pads, Bool.and_eq_true, beq_iff_eq] at kind
    obtain ⟨rfl, silent⟩ := kind
    have same : (withCompleted s input clock.toISOString) .runEvents = s .runEvents := rfl
    refine .before same ((appended_wrote appended).mono (noted _ _ ?_))
    rw [notes, errorMessage_finishPayload]
    cases error : input.error with
    | none => rfl
    | some error =>
      rw [error] at silent
      exact silent
  | appendFencedEvent input clock =>
    obtain ⟨event, returned, -⟩ := map_ok.mp ran
    obtain ⟨_, middle, checked, appended⟩ := bind_ok.mp (transaction_ok.mp returned)
    obtain ⟨-, rfl⟩ := assertLeaseInternal_ok.mp checked
    rw [pads, Bool.and_eq_true, beq_iff_eq] at kind
    obtain ⟨rfl, counts⟩ := kind
    exact (appended_wrote appended).mono (noted _ _ counts)
  | _ => exact absurd kind Bool.false_ne_true

end Calls

end OttiliCoder
