import OttiliCoder.Proofs.Journal
import OttiliCoder.Runtime.Turn

/-! Stretches of a journal in which the Run produces nothing, and the provider failures
counted over them. -/

namespace OttiliCoder
open Relational Transaction

/-- The failures are counted anew after such an event. -/
def RunEventType.produces (type : RunEventType) : Bool :=
  [RunEventType.agentMessage, .toolCallFinished, .validationFinished].contains type

/-- The failures at the end of a journal. -/
def trailingFailures (types : List RunEventType) : Nat :=
  ((types.reverse.takeWhile fun type => !type.produces).filter (· == .providerFailed)).length

theorem trailingFailures_append {types more : List RunEventType} (quiet : ∀ type ∈ more, type.produces = false) :
    trailingFailures (types ++ more) = trailingFailures types + (more.filter (· == .providerFailed)).length := by
  have passes : ∀ type ∈ more.reverse, (!type.produces) = true := by
    intro type member
    simp [quiet type (List.mem_reverse.mp member)]
  rw [trailingFailures, List.reverse_append, List.takeWhile_append_of_pos passes, List.filter_append, List.length_append,
    List.filter_reverse, List.length_reverse, Nat.add_comm]
  rfl

/-- The Run's journal only grew, by events that produce nothing. -/
def Quiet (runId : RunId) (s s' : Store) : Prop :=
  ∃ more, journalOf s' runId = journalOf s runId ++ more ∧ ∀ row ∈ more, row.type.produces = false

instance {runId : RunId} : IsPreorder Store (Quiet runId) where
  refl s := ⟨[], (List.append_nil _).symm, fun _ none => absurd none List.not_mem_nil⟩
  trans s middle s' := by
    rintro ⟨first, grown, quiet⟩ ⟨second, grownOn, quietOn⟩
    refine ⟨first ++ second, ?_, ?_⟩
    · rw [grownOn, grown, List.append_assoc]
    · intro row member
      exact (List.mem_append.mp member).elim (quiet row) (quietOn row)

section Quiet
variable {s s' : Store} {k : Kind} {runId : RunId}

theorem Quiet.of_same (same : s' .runEvents = s .runEvents) : Quiet runId s s' := by
  refine ⟨[], ?_, fun _ none => absurd none List.not_mem_nil⟩
  rw [journalOf, journalOf, same, List.append_nil]

theorem Effect.quiet (effect : Effect k s s') (silent : ∀ type, k.eventType = some type → type.produces = false) :
    Quiet runId s s' := by
  rcases effect.journal_step with same | ⟨row, journaled, type⟩
  · exact .of_same same
  · refine ⟨[row].filter fun row => row.runId == runId, ?_, ?_⟩
    · rw [journalOf, journalOf, journaled.events, Keyed.insert_rows journaled.fresh, List.filter_append]
    · intro other member
      obtain rfl := List.mem_singleton.mp (List.mem_filter.mp member).1
      exact silent _ type

/-- The call journals nothing that produces something. -/
def Call.silent (call : Call) : Bool := call.kinds.all fun k => k.eventType.all fun type => !type.produces

theorem Call.quiet (call : Call) (silent : call.silent = true) : Quiet runId s (call.perform s) := by
  have kept : ∀ k middle last, k ∈ call.kinds → Effect k middle last → Quiet runId s middle → Quiet runId s last := by
    intro k middle last listed effect sofar
    apply IsTrans.trans _ _ _ sofar
    apply effect.quiet
    intro type journals
    have each := List.all_eq_true.mp silent k listed
    simpa [journals] using each
  exact (Call.moves s call).keeps kept (Std.Refl.refl s)

/-- What the coordinator counts. -/
theorem consecutiveProviderFailures_eq (numbered : Numbered s) (runId : RunId) :
    consecutiveProviderFailures s runId = trailingFailures ((journalOf s runId).map (·.type)) := by
  rw [consecutiveProviderFailures, listEvents_eq numbered, List.drop_zero, List.map_map]
  rfl

/-- Nothing but what is produced lets the count fall. -/
theorem Quiet.failures (quiet : Quiet runId s s') (numbered : Numbered s) (renumbered : Numbered s') :
    consecutiveProviderFailures s runId ≤ consecutiveProviderFailures s' runId := by
  obtain ⟨more, grown, silent⟩ := quiet
  rw [consecutiveProviderFailures_eq numbered, consecutiveProviderFailures_eq renumbered, grown, List.map_append,
    trailingFailures_append]
  · exact Nat.le_add_right ..
  · intro type member
    obtain ⟨row, listed, rfl⟩ := List.mem_map.mp member
    exact silent row listed

end Quiet

end OttiliCoder
