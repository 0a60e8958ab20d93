import Mathlib.Data.List.Count
import OttiliCoder.Proofs.LeaseFencing
import OttiliCoder.Proofs.Outcomes

/-! A takeover loses and repeats nothing: what a recovery leaves behind, and how often
a stranded tool call is reported and announced. -/

namespace OttiliCoder
open Fencing Relational Transaction

/-- The tool calls a call reports unknown when it succeeds. -/
def Call.reported (s : Store) : Call → List ToolCallId
  | reconcileInterruptedToolCalls runId clock =>
    match OttiliCoder.reconcileInterruptedToolCalls runId clock s with
    | .ok calls _ => calls.map (·.id)
    | .error _ _ => []
  | recoverClaimedWork lease clock =>
    match OttiliCoder.recoverClaimedWork lease clock s with
    | .ok calls _ => calls.map (·.id)
    | .error _ _ => []
  | _ => []

/-- Everything the calls report, one after the other. -/
def reportedBy : Store → List Call → List ToolCallId := observed Call.perform fun s call => call.reported s

/-- The tool calls an event names as unknown. -/
def RunEventRow.unknownIds (event : RunEventRow) : List ToolCallId :=
  match event.type, event.payload.get? "unknownToolCallIds" with
  | .recoveryRequired, some (.array ids) => ids.filterMap Json.asString
  | _, _ => []

def RunEventRow.names (id : ToolCallId) (event : RunEventRow) : Bool := id ∈ event.unknownIds

/-- How many recovery events name the tool call. -/
def timesNamed (s : Store) (id : ToolCallId) : Nat := (s .runEvents).rows.countP (RunEventRow.names id)

/-- An executor journals an event of the type itself. -/
def Call.forges (type : RunEventType) : Call → Bool
  | appendFencedEvent input _ => input.type == type
  | _ => false

/-- The tool call runs under a generation its Run has outlived. -/
structure Stranded (s : Store) (row : ToolCallRow) : Prop where
  stored : row ∈ s .toolCalls
  running : row.status = .running
  outlived : ∃ lease, (s .runLeases).find? row.runId = some lease ∧ row.leaseGeneration < lease.generation

/-- What a recovery under the lease returns and leaves. -/
structure Recovered (s : Store) (lease : FencedLease) (calls : List UnknownToolCall) (s' : Store) : Prop where
  settled : ∀ row ∈ s' .toolCalls, lease.strands row = false
  returned : ∀ action ∈ s' .scheduledActions, lease.strandsClaim action = false
  ownCalls : ∀ row, row.leaseGeneration = lease.generation → (row ∈ s' .toolCalls ↔ row ∈ s .toolCalls)
  ownClaims : ∀ action, action.status = .claimed → action.claimedEpoch = some lease.generation →
    (action ∈ s' .scheduledActions ↔ action ∈ s .scheduledActions)
  reported : calls = ((s .toolCalls).rows.filter lease.strands).map unknownFromRow

/-- The call reports and marks exactly the tool calls it selects, and announces them. -/
structure Recovers (s : Store) (call : Call) (selected : ToolCallRow → Bool) (now : IsoTimestamp) : Prop where
  running : ∀ row, selected row = true → row.status = .running
  reported : call.reported s = ((s .toolCalls).rows.filter selected).map (·.id)
  marked : (call.perform s) .toolCalls = (s .toolCalls).update selected (markedUnknown now) markedUnknown_key
  named : ∀ id, timesNamed (call.perform s) id = timesNamed s id + (call.reported s).count id

section Announcements
variable {s s' : Store} {k : Kind} {touched : RunId → Prop} {kinds : Kind → Prop}

/-- Events that no effect of the chain journals stay as many as they were. -/
theorem Moves.countP_events {counted : RunEventRow → Bool} (moves : Moves touched kinds s s')
    (apart : ∀ k event, kinds k → k.eventType = some event.type → counted event = false) :
    (s' .runEvents).rows.countP counted = (s .runEvents).rows.countP counted := by
  induction moves with
  | refl => rfl
  | tail _ last ih =>
    obtain ⟨⟨k, can, effect⟩, -⟩ := last
    rcases effect.journal_step with same | ⟨row, journaled, type⟩
    · rw [same, ih]
    · rw [journaled.events, Keyed.insert_rows journaled.fresh, List.countP_append, ih]
      simp [apart k row can type]

theorem RunEventRow.names_type {event : RunEventRow} {id : ToolCallId} (other : event.type ≠ .recoveryRequired) :
    event.names id = false := by
  unfold names unknownIds
  split
  next type _ => exact absurd type other
  next => rfl

theorem unknownIds_payload {event : RunEventRow} {calls : List ToolCallRow} (type : event.type = .recoveryRequired)
    (payload : event.payload = unknownPayload calls) : event.unknownIds = calls.map (·.id) := by
  have ids : event.payload.get? "unknownToolCallIds" = some (.array (calls.map fun call => .string call.id)) := by
    rw [payload]
    rfl
  unfold RunEventRow.unknownIds
  rw [type, ids]
  simp only [List.filterMap_map]
  exact congrFun List.filterMap_eq_map calls

private theorem ids_nodup (s : Store) (selected : ToolCallRow → Bool) :
    (((s .toolCalls).rows.filter selected).map (·.id)).Nodup :=
  (s .toolCalls).unique.sublist (List.filter_sublist.map _)

/-- Marking names every call it marks in one event. -/
theorem markUnknown_named {runId : RunId} {selected : ToolCallRow → Bool} {now : IsoTimestamp}
    {leaseGeneration : Option Nat} {result : List UnknownToolCall}
    (returned : markUnknown runId ((s .toolCalls).rows.filter selected) now leaseGeneration s = .ok result s') :
    result.map (·.id) = ((s .toolCalls).rows.filter selected).map (·.id) ∧
      ∀ id, timesNamed s' id = timesNamed s id + (result.map (·.id)).count id := by
  obtain ⟨rfl, announced⟩ := markUnknown_ok.mp returned
  have ids : (((s .toolCalls).rows.filter selected).map unknownFromRow).map (·.id) =
      ((s .toolCalls).rows.filter selected).map (·.id) := List.map_map
  refine ⟨ids, fun id => ?_⟩
  rw [ids, (ids_nodup s selected).count]
  have same : (withUnknown s selected now) .runEvents = s .runEvents := Db.set_other _ _ (by simp)
  rcases announced with ⟨-, event, appended⟩ | ⟨none, rfl⟩
  · obtain ⟨row, journaled, -, type, payload⟩ := appended_journaled appended
    rw [timesNamed, journaled.events, Keyed.insert_rows journaled.fresh, same, List.countP_append,
      List.countP_singleton, RunEventRow.names, unknownIds_payload type payload]
    simp only [timesNamed, decide_eq_true_eq]
  · have empty : (s .toolCalls).rows.filter selected = [] := by simpa using none
    rw [timesNamed, same, empty]
    simp [timesNamed]

end Announcements

section Steps
variable {s s' : Store} {call : Call} {lease : FencedLease} {clock : Date} {id : ToolCallId}

theorem reconcile_recovers {runId : RunId} {result : List UnknownToolCall}
    (returned : reconcileInterruptedToolCalls runId clock s = .ok result s') :
    Recovers s (.reconcileInterruptedToolCalls runId clock)
      (fun row => row.runId == runId && row.status == .running) clock.toISOString := by
  have performed : (Call.reconcileInterruptedToolCalls runId clock).perform s = s' := by
    rw [Call.perform, Call.run, discard, after_map]
    exact after_ok returned
  have reported : (Call.reconcileInterruptedToolCalls runId clock).reported s = result.map (·.id) := by
    simp only [Call.reported, returned]
  have marked := reconcileInterruptedToolCalls_ok.mp returned
  have rows := markUnknown_rows marked
  obtain ⟨ids, named⟩ := markUnknown_named marked
  refine ⟨fun row chosen => ?_, reported.trans ids, ?_, ?_⟩
  · simp only [Bool.and_eq_true, beq_iff_eq] at chosen
    exact chosen.2
  · rw [performed, rows, withUnknown, Db.set_same]
  · rw [performed, reported]
    exact named

theorem recover_recovers {result : List UnknownToolCall}
    (returned : recoverClaimedWork lease clock s = .ok result s') :
    Recovers s (.recoverClaimedWork lease clock) lease.strands clock.toISOString := by
  have performed : (Call.recoverClaimedWork lease clock).perform s = s' := by
    rw [Call.perform, Call.run, discard, after_map]
    exact after_ok returned
  have reported : (Call.recoverClaimedWork lease clock).reported s = result.map (·.id) := by
    simp only [Call.reported, returned]
  have marked := (recoverClaimedWork_ok.mp returned).2
  have rows := markUnknown_rows marked
  obtain ⟨ids, named⟩ := markUnknown_named marked
  have calls : (withReleased s lease clock.toISOString) .toolCalls = s .toolCalls := Db.set_other _ _ (by simp)
  have events : (withReleased s lease clock.toISOString) .runEvents = s .runEvents := Db.set_other _ _ (by simp)
  refine ⟨fun row chosen => ?_, ?_, ?_, ?_⟩
  · simp only [FencedLease.strands, Bool.and_eq_true, beq_iff_eq] at chosen
    exact chosen.1.2
  · rw [reported, ids, calls]
  · rw [performed, rows, withUnknown, Db.set_same, calls]
  · rw [performed, reported]
    intro id
    rw [named, timesNamed, timesNamed, events]

/-- A recovery recovers or throws; any other call reports nothing. -/
inductive Reporting (s : Store) (call : Call) : Prop
  | recovers {selected : ToolCallRow → Bool} {now : IsoTimestamp} (recovers : Recovers s call selected now)
  | refused (none : call.reported s = []) (same : call.perform s = s)
  | silent (none : call.reported s = [])
      (plain : call.forges .recoveryRequired = false → call.journals .recoveryRequired = false)

theorem Call.reporting (s : Store) (call : Call) : Reporting s call := by
  cases call with
  | reconcileInterruptedToolCalls runId clock =>
    cases outcome : OttiliCoder.reconcileInterruptedToolCalls runId clock s with
    | ok result s' => exact .recovers (reconcile_recovers outcome)
    | error e s' =>
      refine .refused (by simp only [Call.reported, outcome]) ?_
      rw [perform, run, discard, after_map, after_error outcome]
      exact transaction_error outcome
  | recoverClaimedWork lease clock =>
    cases outcome : OttiliCoder.recoverClaimedWork lease clock s with
    | ok result s' => exact .recovers (recover_recovers outcome)
    | error e s' =>
      refine .refused (by simp only [Call.reported, outcome]) ?_
      rw [perform, run, discard, after_map, after_error outcome]
      exact transaction_error outcome
  | appendFencedEvent input clock =>
    refine .silent rfl fun honest => ?_
    simp only [forges, beq_eq_false_iff_ne] at honest
    simp only [journals, kinds]
    split <;> simp [Kind.eventType, honest]
  | _ => exact .silent rfl fun _ => rfl

/-- The tool call has left `running`. -/
def Finished (s : Store) (id : ToolCallId) : Prop := ∃ row, (s .toolCalls).find? id = some row ∧ row.status ≠ .running

theorem Recovers.mem_reported {selected : ToolCallRow → Bool} {now : IsoTimestamp}
    (recovers : Recovers s call selected now) :
    id ∈ call.reported s ↔ ∃ row, (s .toolCalls).find? id = some row ∧ selected row = true := by
  rw [recovers.reported, List.mem_map]
  constructor
  · rintro ⟨row, inside, rfl⟩
    obtain ⟨member, chosen⟩ := List.mem_filter.mp inside
    exact ⟨row, Keyed.find?_eq_some.mpr ⟨member, rfl⟩, chosen⟩
  · rintro ⟨row, found, chosen⟩
    obtain ⟨member, same⟩ := Keyed.find?_eq_some.mp found
    exact ⟨row, List.mem_filter.mpr ⟨member, chosen⟩, same⟩

theorem Call.reported_nodup (s : Store) (call : Call) : (call.reported s).Nodup := by
  cases Call.reporting s call with
  | recovers recovers =>
    rw [recovers.reported]
    exact ids_nodup s _
  | refused none | silent none =>
    rw [none]
    exact List.nodup_nil

/-- Only a running tool call is reported, and it has then left `running`. -/
theorem Call.reported_finishes (reported : id ∈ call.reported s) : ¬ Finished s id ∧ Finished (call.perform s) id := by
  cases Call.reporting s call with
  | recovers recovers =>
    obtain ⟨row, found, chosen⟩ := recovers.mem_reported.mp reported
    constructor
    · intro finished
      obtain ⟨other, stored, left⟩ := finished
      obtain rfl := Option.some.inj (found.symm.trans stored)
      exact left (recovers.running row chosen)
    · rw [Finished, recovers.marked, Keyed.find?_update, found]
      exact ⟨_, rfl, by simp [chosen, markedUnknown]⟩
  | refused none | silent none =>
    rw [none] at reported
    cases reported

theorem Call.keeps_finished (call : Call) (finished : Finished s id) : Finished (call.perform s) id := by
  obtain ⟨row, found, left⟩ := finished
  by_cases completion : ∃ input clock, call = .completeToolCall input clock
  · obtain ⟨input, clock, rfl⟩ := completion
    rw [perform, run]
    have atomic : Atomic (OttiliCoder.completeToolCall input clock) := .transaction _
    rcases atomic.cases (s := s) with ⟨result, returned⟩ | ⟨-, same⟩
    · obtain ⟨-, event, journaled⟩ := completeToolCall_ok.mp returned
      rw [Finished, appended_other journaled (by simp) (by simp), withCompleted, Db.set_same, Keyed.find?_update, found]
      refine ⟨_, rfl, ?_⟩
      by_cases named : input.names row = true
      · cases outcome : input.error <;> simp [named, completed, outcome]
      · simpa [named] using left
    · rw [same]
      exact ⟨row, found, left⟩
  · have step := (settles_other (s := s) fun input clock same => completion ⟨input, clock, same⟩).rows id
    obtain ⟨row', found', kept⟩ := step.later found
    refine ⟨row', found', ?_⟩
    rcases kept with rfl | ⟨running, -⟩
    · exact left
    · exact absurd running left

/-- A stranded call stays as it is until a recovery reports it. -/
theorem Stranded.perform {row : ToolCallRow} (stranded : Stranded s row) (call : Call) :
    Stranded (call.perform s) row ∨ row.id ∈ call.reported s := by
  obtain ⟨stored, running, lease, held, below⟩ := stranded
  have found : (s .toolCalls).find? row.id = some row := Keyed.find?_eq_some.mpr ⟨stored, rfl⟩
  have outlived : ∃ lease, ((call.perform s) .runLeases).find? row.runId = some lease ∧
      row.leaseGeneration < lease.generation := by
    have token : leaseToken s row.runId = some ⟨lease.holderId, lease.generation⟩ := by
      rw [leaseToken, held, Option.map_some]
    obtain ⟨later, next, larger⟩ := (call.follows row.runId).generation token
    obtain ⟨lease', stored', rfl⟩ := Option.map_eq_some_iff.mp next
    exact ⟨lease', stored', Nat.lt_of_lt_of_le below larger⟩
  have kept : row ∈ (call.perform s) .toolCalls ∨ row.id ∈ call.reported s := by
    by_cases plain : call.writes .toolCalls = false
    · rw [call.frame plain]
      exact .inl stored
    cases call with
    | recordToolIntent input uuid clock =>
      have same : (((Call.recordToolIntent input uuid clock).perform s) .toolCalls).find? row.id = some row :=
        (recordToolIntent_toolCalls row.id).2 row found
      exact .inl (Keyed.find?_eq_some.mp same).1
    | completeToolCall input clock =>
      refine .inl ?_
      rw [Call.perform, Call.run]
      have atomic : Atomic (completeToolCall input clock) := .transaction _
      rcases atomic.cases (s := s) with ⟨result, returned⟩ | ⟨-, same⟩
      · obtain ⟨⟨current, current', -, generation, -⟩, event, journaled⟩ := completeToolCall_ok.mp returned
        rw [appended_other journaled (by simp) (by simp), withCompleted, Db.set_same, Keyed.mem_update]
        refine ⟨row, stored, ?_⟩
        have other : input.names row = false := by
          by_contra named
          simp only [CompleteToolCallInput.names, Bool.not_eq_false, Bool.and_eq_true, beq_iff_eq] at named
          rw [← named.1.2, held, Option.some.injEq] at current'
          subst current'
          omega
        simp [other]
      · rwa [same]
    | reconcileInterruptedToolCalls runId clock | recoverClaimedWork lease clock =>
      cases Call.reporting s _ with
      | recovers recovers =>
        rename_i selected now
        by_cases chosen : selected row = true
        · exact .inr (recovers.mem_reported.mpr ⟨row, found, chosen⟩)
        · refine .inl ?_
          rw [recovers.marked, Keyed.mem_update]
          exact ⟨row, stored, by simp [chosen]⟩
      | refused _ same =>
        rw [same]
        exact .inl stored
      | silent _ plain => exact absurd (show true = false from plain rfl) (by decide)
    | appendFencedEvent input clock => exact absurd (Call.appendFencedEvent_writes rfl rfl) plain
    | _ => exact absurd rfl plain
  exact kept.imp_left fun member => ⟨member, running, outlived⟩

/-- Recovery events name a tool call as often as it is reported. -/
theorem Call.named (honest : call.forges .recoveryRequired = false) (id : ToolCallId) :
    timesNamed (call.perform s) id = timesNamed s id + (call.reported s).count id := by
  cases Call.reporting s call with
  | recovers recovers => exact recovers.named id
  | refused none same => rw [none, same, List.count_nil, Nat.add_zero]
  | silent none plain =>
    rw [none, List.count_nil, Nat.add_zero]
    refine (Call.moves s call).countP_events fun k event can type => ?_
    have silent := List.any_eq_false.mp (plain honest) k can
    refine RunEventRow.names_type fun same => silent ?_
    rw [type, same]
    rfl

end Steps

/-! Recovery under the current lease. -/

section Recovery
variable {s s' : Store} {lease : FencedLease} {clock : Date}

theorem released_key {now : IsoTimestamp} (action : ScheduledActionRow) :
    key .scheduledActions (released now action) = key .scheduledActions action := rfl

theorem recoverClaimedWork_actions {result : List UnknownToolCall}
    (returned : recoverClaimedWork lease clock s = .ok result s') :
    s' .scheduledActions = (withReleased s lease clock.toISOString) .scheduledActions := by
  obtain ⟨-, marked⟩ := recoverClaimedWork_ok.mp returned
  obtain ⟨-, ⟨-, event, journaled⟩ | ⟨-, rfl⟩⟩ := markUnknown_ok.mp marked
  · rw [appended_other journaled (by simp) (by simp), withUnknown, Db.set_other _ _ (by simp)]
  · rw [withUnknown, Db.set_other _ _ (by simp)]

/-- A rewrite of rows no row of the generation is among, to rows of which none is, leaves
the rows of the generation alone. -/
private theorem mem_update_apart {t : Table} {table : Keyed (key t)} {selected : Row t → Bool} {f : Row t → Row t}
    {keeps : ∀ row, key t (f row) = key t row} {row : Row t} (apart : selected row = false)
    (moved : ∀ other, selected other = true → f other ≠ row) : row ∈ table.update selected f keeps ↔ row ∈ table := by
  rw [Keyed.mem_update]
  constructor
  · rintro ⟨other, member, same⟩
    split at same
    next chosen => exact absurd same.symm (moved other chosen)
    next => exact same ▸ member
  · intro member
    exact ⟨row, member, by simp [apart]⟩

theorem recoverClaimedWork_recovers {result : List UnknownToolCall}
    (returned : recoverClaimedWork lease clock s = .ok result s') : Recovered s lease result s' := by
  have marked := (recoverClaimedWork_ok.mp returned).2
  have kept : (withReleased s lease clock.toISOString) .toolCalls = s .toolCalls := Db.set_other _ _ (by simp)
  have calls : s' .toolCalls =
      (s .toolCalls).update lease.strands (markedUnknown clock.toISOString) markedUnknown_key := by
    rw [markUnknown_rows marked, withUnknown, Db.set_same, kept]
  have actions : s' .scheduledActions =
      (s .scheduledActions).update lease.strandsClaim (released clock.toISOString) released_key :=
    (recoverClaimedWork_actions returned).trans (Db.set_same _ _ _)
  refine ⟨fun row member => ?_, fun action member => ?_, fun row own => ?_, fun action claimed own => ?_, ?_⟩
  · rw [calls, Keyed.mem_update] at member
    obtain ⟨old, -, rfl⟩ := member
    split
    next => simp [FencedLease.strands, markedUnknown]
    next plain => simpa using plain
  · rw [actions, Keyed.mem_update] at member
    obtain ⟨old, -, rfl⟩ := member
    split
    next => simp [FencedLease.strandsClaim, released]
    next plain => simpa using plain
  · rw [calls]
    refine mem_update_apart (by simp [FencedLease.strands, own]) fun other chosen same => ?_
    simp only [FencedLease.strands, Bool.and_eq_true, decide_eq_true_eq] at chosen
    rw [← same] at own
    exact absurd own (Nat.ne_of_lt chosen.2)
  · rw [actions]
    refine mem_update_apart (by simp [FencedLease.strandsClaim, own]) fun other _ same => ?_
    rw [← same] at claimed
    cases claimed
  · rw [(markUnknown_ok.mp marked).1, kept]

/-- Under a current lease recovery always goes through. -/
theorem recoverClaimedWork_returns (sound : Sound s) (current : CurrentLease s lease clock.toISOString) :
    Returns (recoverClaimedWork lease clock) s (Recovered s lease) := by
  let selected := lease.strands
  let middle := withUnknown (withReleased s lease clock.toISOString) selected clock.toISOString
  have kept : Sound middle :=
    (Effect.ledger (t := .toolCalls) rfl).sound (Effect.claimed.sound sound)
  obtain ⟨run, found⟩ := sound.leased current
  have there : (middle .runs).find? lease.runId = some run := by
    change ((withUnknown (withReleased s lease clock.toISOString) selected clock.toISOString) .runs).find? _ = _
    rwa [withUnknown, Db.set_other _ _ (by simp), withReleased, Db.set_other _ _ (by simp)]
  have marked : ∃ result s', markUnknown lease.runId
      (((withReleased s lease clock.toISOString) .toolCalls).rows.filter selected) clock.toISOString
      (some lease.generation) (withReleased s lease clock.toISOString) = .ok result s' := by
    by_cases some : (((withReleased s lease clock.toISOString) .toolCalls).rows.filter selected).isEmpty = false
    · have journals : Returns (appendEventInternal lease.runId .recoveryRequired
          (unknownPayload (((withReleased s lease clock.toISOString) .toolCalls).rows.filter selected))
          clock.toISOString (.some lease.generation)) middle fun _ s' => Sound s' :=
        appendEvent_returns kept there _ _ _
      obtain ⟨event, s', journaled, -⟩ := journals
      exact ⟨_, s', markUnknown_ok.mpr ⟨rfl, .inl ⟨some, event, journaled⟩⟩⟩
    · exact ⟨_, _, markUnknown_ok.mpr ⟨rfl, .inr ⟨some, rfl⟩⟩⟩
  obtain ⟨result, s', marked⟩ := marked
  have returned : recoverClaimedWork lease clock s = .ok result s' := recoverClaimedWork_ok.mpr ⟨current, marked⟩
  exact ⟨result, s', returned, recoverClaimedWork_recovers returned⟩

/-- Recovery under the current lease reports every stranded call of its Run. -/
theorem recovery_reports {row : ToolCallRow} (sound : Sound s) (stranded : Stranded s row)
    (mine : lease.runId = row.runId) (current : CurrentLease s lease clock.toISOString) :
    row.id ∈ (Call.recoverClaimedWork lease clock).reported s := by
  obtain ⟨result, s', returned, -⟩ := recoverClaimedWork_returns sound current
  obtain ⟨held, stored, -, generation, -⟩ := current
  obtain ⟨other, stored', below⟩ := stranded.outlived
  rw [← mine, stored, Option.some.injEq] at stored'
  subst stored'
  have strands : lease.strands row = true := by
    simp [FencedLease.strands, mine, stranded.running, ← generation, below]
  exact (recover_recovers returned).mem_reported.mpr
    ⟨row, Keyed.find?_eq_some.mpr ⟨stranded.stored, rfl⟩, strands⟩

end Recovery

/-! Histories. -/

section Runs
variable {s : Store} {id : ToolCallId}

theorem reportedBy_cons (s : Store) (call : Call) (rest : List Call) :
    reportedBy s (call :: rest) = call.reported s ++ reportedBy (call.perform s) rest := rfl

theorem reportedBy_append (first second : List Call) (s : Store) :
    reportedBy s (first ++ second) = reportedBy s first ++ reportedBy (performAll Call.perform first s) second :=
  observed_append first second s

theorem Finished.performAll (finished : Finished s id) (rest : List Call) :
    Finished (performAll Call.perform rest s) id ∧ (reportedBy s rest).count id = 0 := by
  induction rest generalizing s with
  | nil => exact ⟨finished, rfl⟩
  | cons call rest ih =>
    obtain ⟨later, none⟩ := ih (call.keeps_finished finished)
    refine ⟨later, ?_⟩
    have silent : id ∉ call.reported s := fun reported => (Call.reported_finishes reported).1 finished
    rw [reportedBy_cons, List.count_append, none, List.count_eq_zero.mpr silent]

/-- A tool call is reported at most once, and has then left `running`. -/
theorem reportedBy_once (s : Store) (rest : List Call) (id : ToolCallId) : (reportedBy s rest).count id = 0 ∨
    (reportedBy s rest).count id = 1 ∧ Finished (performAll Call.perform rest s) id := by
  induction rest generalizing s with
  | nil => exact .inl rfl
  | cons call rest ih =>
    rw [reportedBy_cons, List.count_append]
    by_cases reported : id ∈ call.reported s
    · obtain ⟨later, none⟩ := (Call.reported_finishes reported).2.performAll rest
      rw [none, (call.reported_nodup s).count, if_pos reported]
      exact .inr ⟨rfl, later⟩
    · rw [List.count_eq_zero.mpr reported, Nat.zero_add]
      exact ih _

theorem Stranded.performAll {row : ToolCallRow} (stranded : Stranded s row) (rest : List Call) :
    Stranded (performAll Call.perform rest s) row ∧ (reportedBy s rest).count row.id = 0 ∨
      (reportedBy s rest).count row.id = 1 := by
  induction rest generalizing s with
  | nil => exact .inl ⟨stranded, rfl⟩
  | cons call rest ih =>
    rw [reportedBy_cons, List.count_append]
    by_cases reported : row.id ∈ call.reported s
    · obtain ⟨-, none⟩ := (Call.reported_finishes reported).2.performAll rest
      rw [none, (call.reported_nodup s).count, if_pos reported]
      exact .inr rfl
    · rw [List.count_eq_zero.mpr reported, Nat.zero_add]
      exact ih ((stranded.perform call).resolve_right reported)

theorem performAll_named {rest : List Call} (honest : ∀ call ∈ rest, call.forges .recoveryRequired = false) :
    timesNamed (performAll Call.perform rest s) id = timesNamed s id + (reportedBy s rest).count id := by
  induction rest generalizing s with
  | nil => rfl
  | cons call rest ih =>
    have later := @ih (call.perform s) fun other member => honest other (List.mem_cons_of_mem _ member)
    change timesNamed (performAll Call.perform rest (call.perform s)) id = _
    rw [later, Call.named (honest call (by simp)), reportedBy_cons, List.count_append, Nat.add_assoc]

end Runs

/-- A call that is running was never reported before. -/
theorem unreported {history : List Call} {row : ToolCallRow} (stranded : Stranded (storeAfter history) row) :
    (reportedBy Store.empty history).count row.id = 0 := by
  rcases reportedBy_once Store.empty history row.id with none | ⟨-, other, found, left⟩
  · exact none
  · have same : some row = some other :=
      (Keyed.find?_eq_some.mpr ⟨stranded.stored, rfl⟩).symm.trans found
    cases same
    exact absurd stranded.running left

/-- A call stranded at some point of a history is still stranded and unreported at its end,
or was reported by exactly one recovery since. -/
theorem stranded_reported_once {before : List Call} {row : ToolCallRow} (stranded : Stranded (storeAfter before) row)
    (rest : List Call) :
    Stranded (storeAfter (before ++ rest)) row ∧ (reportedBy Store.empty (before ++ rest)).count row.id = 0 ∨
      (reportedBy Store.empty (before ++ rest)).count row.id = 1 := by
  have later : storeAfter (before ++ rest) = performAll Call.perform rest (storeAfter before) := by
    simp [storeAfter, performAll]
  rw [later, reportedBy_append, List.count_append, unreported stranded, Nat.zero_add]
  exact stranded.performAll rest

/-- After every history: recovery under the current lease goes through, leaves no tool call
running and no action claimed by an older generation, and nothing of its own generation
changed. Over the whole history no tool call is reported twice; one that was stranded is
reported exactly once as soon as a recovery runs under a current lease of its Run; and
recovery events, other than those an executor journals itself, name a call exactly as often
as it is reported. -/
theorem takeover_recovers_once (history : List Call) :
    (∀ lease clock, CurrentLease (storeAfter history) lease clock.toISOString →
      Returns (recoverClaimedWork lease clock) (storeAfter history) (Recovered (storeAfter history) lease)) ∧
    (∀ id, (reportedBy Store.empty history).count id ≤ 1) ∧
    (∀ before rest row, history = before ++ rest → Stranded (storeAfter before) row →
      Stranded (storeAfter history) row ∧ (reportedBy Store.empty history).count row.id = 0 ∨
        (reportedBy Store.empty history).count row.id = 1) ∧
    (∀ before middle lease clock rest row,
      history = before ++ middle ++ .recoverClaimedWork lease clock :: rest → Stranded (storeAfter before) row →
      lease.runId = row.runId → CurrentLease (storeAfter (before ++ middle)) lease clock.toISOString →
        (reportedBy Store.empty history).count row.id = 1) ∧
    ((∀ call ∈ history, call.forges .recoveryRequired = false) →
      ∀ id, timesNamed (storeAfter history) id = (reportedBy Store.empty history).count id) := by
  have sound := (reachable_storeAfter history).sound
  refine ⟨fun lease clock current => recoverClaimedWork_returns sound current, fun id => ?_, ?_, ?_, fun honest id => ?_⟩
  · rcases reportedBy_once Store.empty history id with none | ⟨once, -⟩ <;> omega
  · intro before rest row split stranded
    rw [split]
    exact stranded_reported_once stranded rest
  · intro before middle lease clock rest row split stranded mine current
    rw [split]
    have reported : row.id ∈ reportedBy Store.empty (before ++ middle ++ .recoverClaimedWork lease clock :: rest) := by
      rw [reportedBy_append, List.mem_append]
      rcases stranded_reported_once stranded middle with ⟨still, -⟩ | once
      · have found := recovery_reports (reachable_storeAfter (before ++ middle)).sound still mine current
        exact .inr (List.mem_append_left _ found)
      · exact .inl (List.count_pos_iff.mp (by omega))
    rw [List.append_assoc] at reported ⊢
    refine (stranded_reported_once stranded _).resolve_left fun ⟨_, unseen⟩ => ?_
    exact List.count_eq_zero.mp unseen reported
  · have none : timesNamed Store.empty id = 0 := rfl
    rw [storeAfter, performAll_named honest, none, Nat.zero_add]

/-- The second executor announces a call again that its recovery has named. -/
def forgedHistory : List Call :=
  [sampleRun, takeSample "first" .epoch, .recordToolIntent sampleIntent "t1" .epoch, takeSample "second" oneMinute,
    .recoverClaimedWork (sampleLease "second" 2) oneMinute,
    .appendFencedEvent
      { lease := sampleLease "second" 2, type := .recoveryRequired
        payload := [("unknownToolCallIds", .array [.string (toolCallId sampleIntent "t1")])] }
      oneMinute]

theorem forged_event_names_a_call_again :
    ¬ ∀ (history : List Call) (id : ToolCallId), (reportedBy Store.empty history).count id = 1 →
      timesNamed (storeAfter history) id = 1 := by
  intro always
  have named := always forgedHistory (toolCallId sampleIntent "t1") (by decide +kernel)
  have twice : timesNamed (storeAfter forgedHistory) (toolCallId sampleIntent "t1") = 2 := by decide +kernel
  omega

end OttiliCoder
