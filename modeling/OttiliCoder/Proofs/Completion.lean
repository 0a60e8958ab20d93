import Mathlib.Data.List.Induction
import OttiliCoder.Proofs.Sound

/-! A Run completes only by a proposal that its own ledger supports. -/

namespace OttiliCoder
open Relational Transaction

/-- What the ledger has to say for a proposal to complete the Run, with both
verdicts the proposal brings along. -/
structure Supported (s : Store) (input : ProposeCompletionInput) : Prop where
  gate : input.accepted = true
  verifier : input.independentlyVerified = some true
  proven : ∀ requirement ∈ s .requirements, requirement.runId = input.runId → requirement.required = true →
    requirement.status ≠ .waived → requirement.status = .proven ∧
      ∃ evidence ∈ s .evidence, evidence.requirementId = requirement.id ∧ evidence.strength = .strong
  valid : ∀ validation ∈ s .validations, validation.runId = input.runId → validation.passed = true
  independent : ∃ validation ∈ s .validations, validation.runId = input.runId ∧ validation.passed = true ∧
    validation.independent = true

/-- What the store decides on a proposal. -/
def proposalAccepted (s : Store) (input : ProposeCompletionInput) : Bool :=
  input.accepted && (controlPlaneReasons (listRequirements s input.runId) (listValidations s input.runId)
    input.independentlyVerified).isEmpty

section Ledger
variable {s : Store} {runId : RunId}

theorem mem_listRequirements {record : RequirementRecord} :
    record ∈ listRequirements s runId ↔
      ∃ row ∈ s .requirements, row.runId = runId ∧ record = requirementFromRow s row := by
  simp only [listRequirements, List.mem_map, List.mem_insertionSort, List.mem_filter, beq_iff_eq, Keyed.mem_def]
  constructor
  · rintro ⟨row, ⟨member, mine⟩, rfl⟩
    exact ⟨row, member, mine, rfl⟩
  · rintro ⟨row, member, mine, rfl⟩
    exact ⟨row, ⟨member, mine⟩, rfl⟩

theorem mem_listValidations {record : ValidationRecord} :
    record ∈ listValidations s runId ↔
      ∃ row ∈ s .validations, row.runId = runId ∧ record = validationFromRow row := by
  simp only [listValidations, orderByTexts, List.mem_map, List.mem_insertionSort, List.mem_filter, beq_iff_eq,
    Keyed.mem_def]
  constructor
  · rintro ⟨row, ⟨member, mine⟩, rfl⟩
    exact ⟨row, member, mine, rfl⟩
  · rintro ⟨row, member, mine, rfl⟩
    exact ⟨row, ⟨member, mine⟩, rfl⟩

theorem mem_requirement_evidence {row : RequirementRow} {evidence : RequirementEvidence} :
    evidence ∈ (requirementFromRow s row).evidence ↔
      ∃ stored ∈ s .evidence, stored.requirementId = row.id ∧ evidence = evidenceFromRow stored := by
  simp only [requirementFromRow, List.mem_map, List.mem_insertionSort, List.mem_filter, beq_iff_eq, Keyed.mem_def]
  constructor
  · rintro ⟨stored, ⟨member, mine⟩, rfl⟩
    exact ⟨stored, member, mine, rfl⟩
  · rintro ⟨stored, member, mine, rfl⟩
    exact ⟨stored, ⟨member, mine⟩, rfl⟩

theorem settled_iff {row : RequirementRow} :
    (requirementFromRow s row).isUnproven = false ↔
      (row.required = true → row.status ≠ .waived → row.status = .proven ∧
        ∃ evidence ∈ s .evidence, evidence.requirementId = row.id ∧ evidence.strength = .strong) := by
  have strong : (requirementFromRow s row).evidence.any (fun evidence => evidence.strength == .strong) = true ↔
      ∃ evidence ∈ s .evidence, evidence.requirementId = row.id ∧ evidence.strength = .strong := by
    simp only [List.any_eq_true, beq_iff_eq]
    constructor
    · rintro ⟨evidence, listed, strong⟩
      obtain ⟨stored, member, mine, rfl⟩ := mem_requirement_evidence.mp listed
      exact ⟨stored, member, mine, strong⟩
    · rintro ⟨stored, member, mine, strong⟩
      exact ⟨_, mem_requirement_evidence.mpr ⟨stored, member, mine, rfl⟩, strong⟩
  rw [← strong]
  have same : (requirementFromRow s row).status = row.status := rfl
  have needed : (requirementFromRow s row).required = row.required := rfl
  simp only [RequirementRecord.isUnproven, same, needed]
  cases row.required <;> cases row.status <;> simp

/-- A proposal is accepted exactly when the ledger it is checked against supports it. -/
theorem proposalAccepted_iff {input : ProposeCompletionInput} :
    proposalAccepted s input = true ↔ Supported s input := by
  have proven : (listRequirements s input.runId).filter RequirementRecord.isUnproven = [] ↔
      ∀ row ∈ s .requirements, row.runId = input.runId → (requirementFromRow s row).isUnproven = false := by
    simp only [List.filter_eq_nil_iff, Bool.not_eq_true]
    constructor
    · exact fun none row member mine => none _ (mem_listRequirements.mpr ⟨row, member, mine, rfl⟩)
    · rintro all record listed
      obtain ⟨row, member, mine, rfl⟩ := mem_listRequirements.mp listed
      exact all row member mine
  have valid : (listValidations s input.runId).filter (fun validation => !validation.passed) = [] ↔
      ∀ row ∈ s .validations, row.runId = input.runId → row.passed = true := by
    simp only [List.filter_eq_nil_iff, Bool.not_eq_true, Bool.not_eq_false']
    constructor
    · exact fun none row member mine => none _ (mem_listValidations.mpr ⟨row, member, mine, rfl⟩)
    · rintro all record listed
      obtain ⟨row, member, mine, rfl⟩ := mem_listValidations.mp listed
      exact all row member mine
  have independent : (listValidations s input.runId).any
        (fun validation => validation.passed && validation.independent) = true ↔
      ∃ row ∈ s .validations, row.runId = input.runId ∧ row.passed = true ∧ row.independent = true := by
    simp only [List.any_eq_true, Bool.and_eq_true]
    constructor
    · rintro ⟨record, listed, passed⟩
      obtain ⟨row, member, mine, rfl⟩ := mem_listValidations.mp listed
      exact ⟨row, member, mine, passed⟩
    · rintro ⟨row, member, mine, passed⟩
      exact ⟨_, mem_listValidations.mpr ⟨row, member, mine, rfl⟩, passed⟩
  have decision : proposalAccepted s input = true ↔ input.accepted = true ∧
      (listRequirements s input.runId).filter RequirementRecord.isUnproven = [] ∧
      (listValidations s input.runId).filter (fun validation => !validation.passed) = [] ∧
      (listValidations s input.runId).any (fun validation => validation.passed && validation.independent) = true ∧
      input.independentlyVerified = some true := by
    simp [proposalAccepted, controlPlaneReasons]
  rw [decision, proven, valid, independent]
  constructor
  · rintro ⟨gate, settled, valid, independent, verifier⟩
    exact ⟨gate, verifier, fun row member mine => settled_iff.mp (settled row member mine), valid, independent⟩
  · rintro ⟨gate, verifier, proven, valid, independent⟩
    exact ⟨gate, fun row member mine => settled_iff.mpr (proven row member mine), valid, independent, verifier⟩

end Ledger

/-! Proposals. -/

section Proposals
variable {s s' : Store} {clock : Date} {runId : RunId}

/-- What a proposal journals. -/
def proposalPayload (s : Store) (input : ProposeCompletionInput) : JsonObject :=
  let controlPlane :=
    controlPlaneReasons (listRequirements s input.runId) (listValidations s input.runId) input.independentlyVerified
  [("accepted", .boolean (proposalAccepted s input)), ("reasons", .array ((input.reasons ++ controlPlane).map .string))]

/-- A proposal journals its decision; only an accepted one goes on to complete the Run. -/
theorem proposeCompletion_journals {input : ProposeCompletionInput} {run : Run}
    (returned : proposeCompletion input clock s = .ok run s') :
    ∃ event middle, appendEventInternal input.runId .validationFinished (proposalPayload s input) clock.toISOString none s =
        .ok event middle ∧
      (proposalAccepted s input = true ∧
          transitionRunInternal input.runId .completed clock.toISOString none middle = .ok () s' ∨
        proposalAccepted s input = false ∧ s' = middle) := by
  simp only [proposeCompletion, transaction_ok, bind_ok] at returned
  obtain ⟨_, before, leased, stored, _, looked, current, _, got, event, middle, appended, _, _, decided, last⟩ := returned
  obtain rfl := (ReadOnly.given fun _ => readOnly_assertRunLeaseInternal).ok leased
  obtain rfl := readOnly_mustRun.ok looked
  obtain ⟨rfl, rfl⟩ := get_ok.mp got
  have same : stored.id = input.runId := mustRun_id looked
  rw [same] at appended decided
  have kept := readOnly_mustRun.ok last
  refine ⟨event, middle, appended, ?_⟩
  rcases onlyIf_ok.mp decided with ⟨accepted, rest⟩ | ⟨refused, rfl⟩
  · obtain ⟨_, _, allowed, moved⟩ := bind_ok.mp rest
    obtain rfl := (assertRunTransition_ok.mp allowed).2
    exact .inl ⟨accepted, kept ▸ moved⟩
  · exact .inr ⟨by simpa [proposalAccepted] using refused, kept⟩

theorem proposeCompletion_ok {input : ProposeCompletionInput} {run : Run}
    (returned : proposeCompletion input clock s = .ok run s') :
    ∃ payload event middle, appendEventInternal input.runId .validationFinished payload clock.toISOString none s =
        .ok event middle ∧
      (proposalAccepted s input = true ∧
          transitionRunInternal input.runId .completed clock.toISOString none middle = .ok () s' ∨
        proposalAccepted s input = false ∧ s' = middle) :=
  ⟨_, proposeCompletion_journals returned⟩

def Completed (s : Store) (runId : RunId) : Prop :=
  ∃ run, (s .runs).find? runId = some run ∧ run.status = .completed

/-- No effect but a transition to `completed` completes a Run. -/
theorem Effect.completed {k : Kind} (effect : Effect k s s') (other : k ≠ .transition .completed)
    (completed : Completed s' runId) : Completed s runId := by
  obtain ⟨run', found, status⟩ := completed
  rcases (effect.runs runId).earlier found with ⟨-, -, queued⟩ | ⟨run, stored, kept⟩
  · simp [queued] at status
  · rcases kept.status with same | ⟨moved, -⟩
    · exact ⟨run, stored, same ▸ status⟩
    · exact absurd (status ▸ moved) other

theorem Moves.completed {touched : RunId → Prop} {kinds : Kind → Prop} (moves : Moves touched kinds s s')
    (other : ¬ kinds (.transition .completed)) (completed : Completed s' runId) : Completed s runId := by
  induction moves with
  | refl => exact completed
  | tail _ last ih =>
    obtain ⟨⟨k, can, effect⟩, -⟩ := last
    exact ih (effect.completed (fun same => other (same ▸ can)) completed)

theorem Call.completes_only {call : Call} (completes : .transition .completed ∈ call.kinds) :
    ∃ input clock, call = .proposeCompletion input clock := by
  cases call with
  | proposeCompletion input clock => exact ⟨input, clock, rfl⟩
  | transitionRun input clock =>
    exact absurd completes (by simpa [kinds] using input.target.property.symm)
  | appendFencedEvent input clock =>
    exact absurd completes (by simp only [kinds]; split <;> simp)
  | _ => exact absurd completes (by simp [kinds])

/-- The step in which a Run becomes completed is a proposal its ledger supports. -/
theorem Call.completes {call : Call} (before : ¬ Completed s runId) (completed : Completed (call.perform s) runId) :
    ∃ input clock, call = .proposeCompletion input clock ∧ input.runId = runId ∧ Supported s input := by
  by_cases completes : .transition .completed ∈ call.kinds
  · obtain ⟨input, clock, rfl⟩ := Call.completes_only completes
    refine ⟨input, clock, rfl, ?_⟩
    have mine : runId = input.runId := by
      by_contra other
      obtain ⟨run, found, status⟩ := completed
      have untouched : ¬ runId ∈ (Call.proposeCompletion input clock).concerns s := by simpa [concerns] using other
      have direct : (owner .runs run).direct = some runId := congrArg some (Keyed.find?_eq_some.mp found).2
      exact before ⟨run, ((Call.moves s _).same.found untouched direct).mp found, status⟩
    refine ⟨mine.symm, ?_⟩
    rw [perform, run, discard, after_map] at completed
    have atomic : Atomic (OttiliCoder.proposeCompletion input clock) := .transaction _
    rcases atomic.cases (s := s) with ⟨result, returned⟩ | ⟨-, same⟩
    · obtain ⟨payload, event, middle, appended, ⟨accepted, -⟩ | ⟨-, same⟩⟩ := proposeCompletion_ok returned
      · exact proposalAccepted_iff.mp accepted
      · rw [same] at completed
        exact absurd ((Effect.journal rfl appended).completed (by simp) completed) before
    · rw [same] at completed
      exact absurd completed before
  · exact absurd ((Call.moves s call).completed completes completed) before

/-- A refused proposal writes nothing but its decision to the journal. -/
structure OnlyJournaled (s s' : Store) (runId : RunId) (now : IsoTimestamp) : Prop where
  tables : ∀ t, t ≠ .runs → t ≠ .runEvents → s' t = s t
  runs : ∀ id, (s' .runs).find? id = (s .runs).find? id ∨ id = runId ∧
    (s' .runs).find? id = ((s .runs).find? id).map fun run =>
      { run with nextSequence := run.nextSequence + 1, revision := run.revision + 1, updatedAt := now }

theorem refused_journals {input : ProposeCompletionInput} (refused : proposalAccepted s input = false) :
    OnlyJournaled s ((Call.proposeCompletion input clock).perform s) input.runId clock.toISOString := by
  rw [Call.perform, Call.run, discard, after_map]
  have atomic : Atomic (OttiliCoder.proposeCompletion input clock) := .transaction _
  rcases atomic.cases (s := s) with ⟨result, returned⟩ | ⟨-, same⟩
  · obtain ⟨payload, event, middle, appended, ⟨accepted, -⟩ | ⟨-, same⟩⟩ := proposeCompletion_ok returned
    · simp [refused] at accepted
    · rw [same]
      refine ⟨fun t runs events => appended_other appended runs events, fun id => ?_⟩
      obtain ⟨run, found, -, -, rfl⟩ := appendEventInternal_ok.mp appended
      have mine : run.id = input.runId := (Keyed.find?_eq_some.mp found).2
      rw [journaled_runs]
      by_cases own : id = input.runId
      · refine .inr ⟨own, ?_⟩
        rw [own, found]
        simp [nextEvent]
      · refine .inl ?_
        cases stored : (s .runs).find? id with
        | none => rfl
        | some other =>
          have apart : other.id ≠ input.runId := fun equal =>
            own ((Keyed.find?_eq_some.mp stored).2.symm.trans equal)
          simp [nextEvent, mine, apart]
  · rw [same]
    exact ⟨fun _ _ _ => rfl, fun _ => .inl rfl⟩

end Proposals

end OttiliCoder
