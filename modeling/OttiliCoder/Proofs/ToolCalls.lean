import OttiliCoder.Proofs.Intents
import OttiliCoder.Proofs.Sound

/-! The outcome of a tool call: what completion and recovery make of its row, and what
they journal. -/

namespace OttiliCoder
open Relational Transaction

variable {s s' : Store} {now : IsoTimestamp} {clock : Date} {uuid : String}

/-! Completion. -/

def completed (input : CompleteToolCallInput) (now : IsoTimestamp) (row : ToolCallRow) : ToolCallRow :=
  { row with
    status := if input.error.isNone then .succeeded else .failed
    output := input.output
    error := input.error
    completedAt := some now }

theorem completed_key {input : CompleteToolCallInput} (row : ToolCallRow) :
    key .toolCalls (completed input now row) = key .toolCalls row := rfl

/-- The rows a completion names: by id, Run and generation, whatever their status. -/
def CompleteToolCallInput.names (input : CompleteToolCallInput) (row : ToolCallRow) : Bool :=
  row.id == input.toolCallId && row.runId == input.lease.runId && row.leaseGeneration == input.lease.generation

def withCompleted (s : Store) (input : CompleteToolCallInput) (now : IsoTimestamp) : Store :=
  s.set .toolCalls ((s .toolCalls).update input.names (completed input now) completed_key)

def finishPayload (input : CompleteToolCallInput) : JsonObject :=
  [("toolCallId", .string input.toolCallId), ("success", .boolean input.error.isNone)] ++
    Json.optionalField "output" input.output ++ Json.optionalField "error" (input.error.map .object)

theorem completeToolCall_ok {input : CompleteToolCallInput} :
    completeToolCall input clock s = .ok () s' ↔
      CurrentLease s input.lease clock.toISOString ∧
        ∃ event, appendEventInternal input.lease.runId .toolCallFinished (finishPayload input) clock.toISOString
          (some input.lease.generation) (withCompleted s input clock.toISOString) = .ok event s' := by
  simp only [completeToolCall, transaction_ok, bind_ok, assertLeaseInternal_ok, update_ok, pure_ok]
  constructor
  · rintro ⟨_, _, ⟨current, rfl⟩, _, _, rfl, event, _, journaled, -, rfl⟩
    exact ⟨current, event, journaled⟩
  · rintro ⟨current, event, journaled⟩
    exact ⟨(), _, ⟨current, rfl⟩, (), _, rfl, event, _, journaled, trivial, rfl⟩

/-! Recovery. -/

def markedUnknown (now : IsoTimestamp) (row : ToolCallRow) : ToolCallRow :=
  { row with status := .unknownAfterCrash, completedAt := some now }

theorem markedUnknown_key (row : ToolCallRow) :
    key .toolCalls (markedUnknown now row) = key .toolCalls row := rfl

def withUnknown (s : Store) (selected : ToolCallRow → Bool) (now : IsoTimestamp) : Store :=
  s.set .toolCalls ((s .toolCalls).update selected (markedUnknown now) markedUnknown_key)

/-- The event that names the calls a recovery found. -/
def unknownPayload (calls : List ToolCallRow) : JsonObject :=
  [("unknownToolCallIds", .array (calls.map fun call => .string call.id))]

theorem markUnknown_ok {runId : RunId} {selected : ToolCallRow → Bool} {leaseGeneration : Option Nat}
    {result : List UnknownToolCall} :
    markUnknown runId ((s .toolCalls).rows.filter selected) now leaseGeneration s = .ok result s' ↔
      result = ((s .toolCalls).rows.filter selected).map unknownFromRow ∧
        ((((s .toolCalls).rows.filter selected).isEmpty = false ∧
            ∃ event, appendEventInternal runId .recoveryRequired (unknownPayload ((s .toolCalls).rows.filter selected))
              now leaseGeneration (withUnknown s selected now) = .ok event s') ∨
          (¬ ((s .toolCalls).rows.filter selected).isEmpty = false ∧ s' = withUnknown s selected now)) := by
  have marks : ∀ u middle, (((s .toolCalls).rows.filter selected).forM fun call =>
      (updateRow .toolCalls call.id (markedUnknown now) markedUnknown_key : StoreM PUnit)) s = .ok u middle ↔
        middle = withUnknown s selected now := fun u middle => by
    have looped := @forM_update_ok Table Row Key key StoreError .toolCalls s middle u _ _ ToolCallRow
      ((s .toolCalls).rows.filter selected) ToolCallRow.id (markedUnknown now) markedUnknown_key fun _ => rfl
    rw [Keyed.update_keys] at looped
    exact looped
  simp only [markUnknown, bind_ok, onlyIf_ok, pure_ok]
  constructor
  · rintro ⟨_, middle, marked, _, _, journaled, rfl, rfl⟩
    obtain rfl := (marks _ _).mp marked
    rcases journaled with ⟨some, event, _, journaled, -, rfl⟩ | none
    · exact ⟨rfl, .inl ⟨some, event, journaled⟩⟩
    · exact ⟨rfl, .inr none⟩
  · rintro ⟨rfl, journaled⟩
    refine ⟨(), _, (marks _ _).mpr rfl, (), s', ?_, rfl, rfl⟩
    rcases journaled with ⟨some, event, journaled⟩ | none
    · exact .inl ⟨some, event, s', journaled, trivial, rfl⟩
    · exact .inr none

/-- What marking leaves of the tool calls, whether or not it had any to announce. -/
theorem markUnknown_rows {runId : RunId} {selected : ToolCallRow → Bool} {leaseGeneration : Option Nat}
    {result : List UnknownToolCall}
    (returned : markUnknown runId ((s .toolCalls).rows.filter selected) now leaseGeneration s = .ok result s') :
    s' .toolCalls = (withUnknown s selected now) .toolCalls := by
  obtain ⟨-, ⟨-, event, journaled⟩ | ⟨-, rfl⟩⟩ := markUnknown_ok.mp returned
  · exact appended_other journaled (by simp) (by simp)
  · rfl

theorem reconcileInterruptedToolCalls_ok {runId : RunId} {result : List UnknownToolCall} :
    reconcileInterruptedToolCalls runId clock s = .ok result s' ↔
      markUnknown runId ((s .toolCalls).rows.filter fun row => row.runId == runId && row.status == .running)
        clock.toISOString none s = .ok result s' := by
  simp only [reconcileInterruptedToolCalls, transaction_ok, bind_ok, select_ok]
  constructor
  · rintro ⟨_, _, ⟨rfl, rfl⟩, returned⟩
    exact returned
  · exact fun returned => ⟨_, _, ⟨rfl, rfl⟩, returned⟩

/-- The calls an older generation left running. -/
def FencedLease.strands (lease : FencedLease) (row : ToolCallRow) : Bool :=
  row.runId == lease.runId && row.status == .running && decide (row.leaseGeneration < lease.generation)

/-- The continuations an older generation left claimed. -/
def FencedLease.strandsClaim (lease : FencedLease) (row : ScheduledActionRow) : Bool :=
  row.runId == lease.runId && row.status == .claimed && row.claimedEpoch.all fun epoch => epoch < lease.generation

def released (now : IsoTimestamp) (row : ScheduledActionRow) : ScheduledActionRow :=
  { row with status := .pending, claimedBy := none, claimedEpoch := none, updatedAt := now }

def withReleased (s : Store) (lease : FencedLease) (now : IsoTimestamp) : Store :=
  s.set .scheduledActions ((s .scheduledActions).update lease.strandsClaim (released now) fun _ => rfl)

theorem recoverClaimedWork_ok {lease : FencedLease} {result : List UnknownToolCall} :
    recoverClaimedWork lease clock s = .ok result s' ↔
      CurrentLease s lease clock.toISOString ∧
        markUnknown lease.runId (((withReleased s lease clock.toISOString) .toolCalls).rows.filter lease.strands)
          clock.toISOString (some lease.generation) (withReleased s lease clock.toISOString) = .ok result s' := by
  simp only [recoverClaimedWork, transaction_ok, bind_ok, assertLeaseInternal_ok, update_ok, select_ok]
  constructor
  · rintro ⟨_, _, ⟨current, rfl⟩, _, _, rfl, _, _, ⟨rfl, rfl⟩, returned⟩
    exact ⟨current, returned⟩
  · rintro ⟨current, returned⟩
    exact ⟨(), _, ⟨current, rfl⟩, (), _, rfl, _, _, ⟨rfl, rfl⟩, returned⟩

end OttiliCoder
