import Mathlib.Data.List.Induction
import OttiliCoder.Proofs.Admission
import OttiliCoder.Proofs.Completion
import OttiliCoder.Proofs.Problems
import OttiliCoder.Runtime.Coordinator

/-! The completion gate against the store: the coordinator completes a Run exactly when
its gate accepts. -/

namespace OttiliCoder
open Relational Transaction

/-- Nothing required is outstanding, and no validation has failed. -/
structure Settled (input : CompletionEvidence) : Prop where
  proven : ∀ requirement ∈ input.requirements, requirement.isUnproven = false
  valid : ∀ validation ∈ input.validations, validation.passed = true

section Gate
variable {input : CompletionEvidence} {requirements : List LedgerRequirement} {requirement : LedgerRequirement}

@[simp] theorem listed_eq_nil {label : String} {ids : List String} : listed label ids = [] ↔ ids = [] := by
  cases ids <;> simp [listed]

/-- The audit holds back exactly the requirements the store calls unproven. -/
theorem mem_outstanding : requirement ∈ (auditRequirements requirements).unproven ∨
    requirement ∈ (auditRequirements requirements).contradicted ↔
      requirement ∈ requirements ∧ requirement.isUnproven = true := by
  induction requirements using List.reverseRecOn with
  | nil => simp [auditRequirements]
  | append_singleton earlier last ih =>
    have audited : auditRequirements (earlier ++ [last]) = auditRequirement (auditRequirements earlier) last := by
      simp [auditRequirements]
    have added : (requirement ∈ (auditRequirement (auditRequirements earlier) last).unproven ∨
        requirement ∈ (auditRequirement (auditRequirements earlier) last).contradicted) ↔
          (requirement ∈ (auditRequirements earlier).unproven ∨ requirement ∈ (auditRequirements earlier).contradicted) ∨
            (requirement = last ∧ last.isUnproven = true) := by
      unfold auditRequirement RequirementRecord.isUnproven
      cases last.required <;> cases last.status <;>
        cases last.evidence.any (fun evidence => evidence.strength == .strong) <;> simp <;> tauto
    rw [audited, added, ih, List.mem_append, List.mem_singleton, or_and_right]
    constructor
    · rintro (before | ⟨rfl, unproven⟩)
      · exact .inl before
      · exact .inr ⟨rfl, unproven⟩
    · rintro (before | ⟨rfl, unproven⟩)
      · exact .inl before
      · exact .inr ⟨rfl, unproven⟩

theorem outstanding_eq_nil : (auditRequirements requirements).unproven = [] ∧ (auditRequirements requirements).contradicted = [] ↔
    ∀ requirement ∈ requirements, requirement.isUnproven = false := by
  constructor
  · rintro ⟨unproven, contradicted⟩ requirement member
    by_contra held
    have outstanding := mem_outstanding.mpr ⟨member, Bool.not_eq_false _ ▸ held⟩
    rw [unproven, contradicted] at outstanding
    rcases outstanding with none | none <;> cases none
  · intro settled
    have none : ∀ requirement, ¬ (requirement ∈ (auditRequirements requirements).unproven ∨
        requirement ∈ (auditRequirements requirements).contradicted) := by
      intro requirement outstanding
      obtain ⟨member, held⟩ := mem_outstanding.mp outstanding
      rw [settled requirement member] at held
      cases held
    exact ⟨List.eq_nil_iff_forall_not_mem.mpr fun requirement member => none requirement (.inl member),
      List.eq_nil_iff_forall_not_mem.mpr fun requirement member => none requirement (.inr member)⟩

theorem failed_eq_nil : (input.validations.filter fun validation => !validation.passed) = [] ↔
    ∀ validation ∈ input.validations, validation.passed = true := by
  simp [List.filter_eq_nil_iff]

/-- The deterministic verifier finds nothing missing exactly when the evidence is settled. -/
theorem verifier_complete : (deterministicIndependentVerifier input).complete = true ↔ Settled input := by
  simp only [deterministicIndependentVerifier, List.isEmpty_iff, List.append_eq_nil_iff, listed_eq_nil, List.map_eq_nil_iff,
    outstanding_eq_nil, failed_eq_nil]
  constructor
  · rintro ⟨proven, valid⟩
    exact ⟨proven, valid⟩
  · rintro ⟨proven, valid⟩
    exact ⟨proven, valid⟩

/-- The gate accepts settled evidence, and gives reasons against any other. -/
theorem evaluate_cases (input : CompletionEvidence) :
    (Settled input ∧ (CompletionGate.evaluate (some deterministicIndependentVerifier) input).accepted = true ∧
      (CompletionGate.evaluate (some deterministicIndependentVerifier) input).verifier.any (·.complete) = true) ∨
    (¬ Settled input ∧ (CompletionGate.evaluate (some deterministicIndependentVerifier) input).accepted = false ∧
      (CompletionGate.evaluate (some deterministicIndependentVerifier) input).verifier.any (·.complete) = false ∧
      (CompletionGate.evaluate (some deterministicIndependentVerifier) input).reasons ≠ []) := by
  have reasons : listed "Required requirements remain unproven: " ((auditRequirements input.requirements).unproven.map (·.id)) ++
      listed "Required requirements are contradicted: " ((auditRequirements input.requirements).contradicted.map (·.id)) ++
      listed "Deterministic validation failed: " ((input.validations.filter fun validation => !validation.passed).map (·.id))
        = [] ↔ Settled input := by
    simp only [List.append_eq_nil_iff, listed_eq_nil, List.map_eq_nil_iff, outstanding_eq_nil, failed_eq_nil]
    constructor
    · rintro ⟨proven, valid⟩
      exact ⟨proven, valid⟩
    · rintro ⟨proven, valid⟩
      exact ⟨proven, valid⟩
  by_cases settled : Settled input
  · have complete := verifier_complete.mpr settled
    refine .inl ⟨settled, ?_⟩
    simp [CompletionGate.evaluate, reasons.mpr settled, complete]
  · have given := mt reasons.mp settled
    refine .inr ⟨settled, ?_⟩
    simp only [CompletionGate.evaluate]
    rw [if_pos (by simpa using given)]
    exact ⟨rfl, rfl, given⟩

end Gate

/-! The end of a turn. -/

section Turn
variable {s s' : Store} {runId : RunId} {lease : FencedLease} {uuid : String} {clock recorded proposed : Date}

theorem settled_completionEvidence : Settled (completionEvidence s runId) ↔
    (∀ row ∈ s .requirements, row.runId = runId → (requirementFromRow s row).isUnproven = false) ∧
      ∀ row ∈ s .validations, row.runId = runId → row.passed = true := by
  constructor
  · rintro ⟨proven, valid⟩
    constructor
    · intro row member mine
      exact proven _ (mem_listRequirements.mpr ⟨row, member, mine, rfl⟩)
    · intro row member mine
      exact valid _ (List.mem_map_of_mem (mem_listValidations.mpr ⟨row, member, mine, rfl⟩))
  · rintro ⟨proven, valid⟩
    constructor
    · intro requirement listed
      obtain ⟨row, member, mine, rfl⟩ := mem_listRequirements.mp listed
      exact proven row member mine
    · intro validation listed
      obtain ⟨record, inside, rfl⟩ := List.mem_map.mp listed
      obtain ⟨row, member, mine, rfl⟩ := mem_listValidations.mp inside
      exact valid row member mine

/-- What a recorded validation leaves. -/
structure ValidationRecorded (s s' : Store) (input : RecordValidationInput) (row : ValidationRow) : Prop where
  home : row.runId = input.runId
  passed : row.passed = input.passed
  independent : row.independent = (input.independent == some true)
  fresh : (s .validations).find? row.id = none
  validations : s' .validations = (s .validations).insert row
  others : ∀ t, t ≠ .validations → t ≠ .runs → t ≠ .runEvents → s' t = s t
  status : ∀ id status, statusOf s id = some status → statusOf s' id = some status

theorem recordValidation_records {input : RecordValidationInput} {id : ValidationId}
    (returned : recordValidation input uuid clock s = .ok id s') : ∃ row, ValidationRecorded s s' input row := by
  simp only [recordValidation, transaction_ok, bind_ok, givenRunLease_ok, insert_ok, pure_ok] at returned
  obtain ⟨_, start, ⟨-, same⟩, _, s₁, ⟨admitted, inserted⟩, _, s₂, named, event, s₃, appended, -, last⟩ := returned
  rw [same] at admitted inserted
  have unchanged : s₂ = s₁ := by
    rcases given_ok.mp named with ⟨-, left⟩ | ⟨taskId, -, checked⟩
    · exact left
    · exact (readOnly_mustTask.bind fun task => .require _ _).ok checked
  rw [← last, unchanged] at appended
  have start : statusOf s₁ = statusOf s := by
    funext id
    rw [statusOf, inserted, Db.set_other _ _ (by simp), statusOf]
  refine ⟨_, rfl, rfl, rfl, admitted.fresh, ?_, ?_, ?_⟩
  · rw [appended_other appended (by simp) (by simp), inserted, Db.set_same]
  · intro t validations runs events
    rw [appended_other appended runs events, inserted, Db.set_other _ _ validations]
  · intro id status before
    exact appended_status appended (start ▸ before)

/-- A recorded independent validation supports an accepted proposal on settled evidence. -/
theorem ValidationRecorded.supported {input : RecordValidationInput} {row : ValidationRow} {proposal : ProposeCompletionInput}
    (written : ValidationRecorded s s' input row) (settled : Settled (completionEvidence s input.runId))
    (passed : input.passed = true) (independent : input.independent = some true) (home : proposal.runId = input.runId)
    (accepted : proposal.accepted = true) (verified : proposal.independentlyVerified = some true) :
    Supported s' proposal := by
  obtain ⟨proven, valid⟩ := settled_completionEvidence.mp settled
  have member : row ∈ s' .validations := by
    rw [written.validations, Keyed.mem_insert written.fresh]
    exact .inr rfl
  refine ⟨accepted, verified, fun requirement inside mine => ?_, fun validation inside mine => ?_, row, member, ?_, ?_, ?_⟩
  · rw [written.others .requirements (by simp) (by simp) (by simp)] at inside
    rw [written.others .evidence (by simp) (by simp) (by simp)]
    exact settled_iff.mp (proven requirement inside (mine.trans home))
  · rw [written.validations, Keyed.mem_insert written.fresh] at inside
    rcases inside with before | rfl
    · exact valid validation before (mine.trans home)
    · exact written.passed.trans passed
  · exact written.home.trans home.symm
  · exact written.passed.trans passed
  · rw [written.independent, independent]
    rfl

/-- A refused decision goes to the journal with the gate's reasons, and the Run keeps its status. -/
structure RefusalPassedOn (s s' : Store) (runId : RunId) (decision : CompletionDecision) : Prop where
  reasons : decision.reasons ≠ []
  controlPlane : controlPlaneReasons (listRequirements s runId) (listValidations s runId)
    (some (decision.verifier.any (·.complete))) ≠ []
  journaled : ∃ event ∈ s' .runEvents, event ∉ s .runEvents ∧ event.runId = runId ∧ event.type = .validationFinished ∧
    event.payload = [("accepted", .boolean false), ("reasons", .array ((decision.reasons ++
      controlPlaneReasons (listRequirements s runId) (listValidations s runId)
        (some (decision.verifier.any (·.complete)))).map .string))]
  status : ∀ status, statusOf s runId = some status → statusOf s' runId = some status

/-- What the gate says of the Run's ledger, with the deterministic verifier. -/
def gateDecision (s : Store) (runId : RunId) : CompletionDecision :=
  CompletionGate.evaluate (some deterministicIndependentVerifier) (completionEvidence s runId)

/-- The validation a turn records when its gate accepts. -/
def turnValidation (runId : RunId) (lease : FencedLease) : RecordValidationInput where
  independent := some true
  lease := some lease
  name := "completion-ledger-audit"
  passed := true
  runId := runId
  summary := "A separate deterministic verifier re-audited the durable requirement ledger and validation records."

def turnProposal (decision : CompletionDecision) (runId : RunId) (lease : FencedLease) : ProposeCompletionInput where
  accepted := decision.accepted
  independentlyVerified := some (decision.verifier.any (·.complete))
  lease := some lease
  reasons := decision.reasons
  runId := runId

theorem concludeTurn_ok {requeue : Bool}
    (returned : concludeTurn (some deterministicIndependentVerifier) runId lease uuid recorded proposed s = .ok requeue s') :
    ∃ s₁ run, (((gateDecision s runId).accepted = true ∧ (gateDecision s runId).verifier.any (·.complete) = true ∧
        ∃ id, recordValidation (turnValidation runId lease) uuid recorded s = .ok id s₁) ∨
      (¬ ((gateDecision s runId).accepted = true ∧ (gateDecision s runId).verifier.any (·.complete) = true) ∧ s₁ = s)) ∧
      proposeCompletion (turnProposal (gateDecision s runId) runId lease) proposed s₁ = .ok run s' := by
  simp only [concludeTurn, bind_ok, get_ok, pure_ok] at returned
  obtain ⟨current, start, ⟨looked, same⟩, _, s₁, checked, run, s₂, completes, -, last⟩ := returned
  rw [looked, same] at checked
  rw [looked, ← last] at completes
  refine ⟨s₁, run, ?_, completes⟩
  rcases onlyIf_ok.mp checked with ⟨⟨accepted, verified⟩, audits⟩ | ⟨other, left⟩
  · obtain ⟨id, s₃, audited, done⟩ := bind_ok.mp audits
    rw [(pure_ok.mp done).2]
    exact .inl ⟨accepted, verified, id, audited⟩
  · exact .inr ⟨other, left⟩

/-- An accepted turn records its validation and completes the Run. -/
theorem concludeTurn_accepted {requeue : Bool} (settled : Settled (completionEvidence s runId))
    (accepted : (gateDecision s runId).accepted = true) (verified : (gateDecision s runId).verifier.any (·.complete) = true)
    (returned : concludeTurn (some deterministicIndependentVerifier) runId lease uuid recorded proposed s = .ok requeue s') :
    statusOf s' runId = some .completed := by
  obtain ⟨s₁, run, ⟨-, -, id, audited⟩ | ⟨other, -⟩, completes⟩ := concludeTurn_ok returned
  · obtain ⟨row, written⟩ := recordValidation_records audited
    have supported : Supported s₁ (turnProposal (gateDecision s runId) runId lease) :=
      written.supported settled rfl rfl rfl accepted (congrArg some verified)
    obtain ⟨event, middle, -, ⟨-, moved⟩ | ⟨refused, -⟩⟩ := proposeCompletion_journals completes
    · exact statusOf_eq_some.mpr (transitionRun_status moved)
    · rw [proposalAccepted_iff.mpr supported] at refused
      cases refused
  · exact absurd ⟨accepted, verified⟩ other

/-- A refused turn writes nothing but the refusal. -/
theorem concludeTurn_refused {requeue : Bool} (refused : (gateDecision s runId).accepted = false)
    (unverified : (gateDecision s runId).verifier.any (·.complete) = false) (reasons : (gateDecision s runId).reasons ≠ [])
    (returned : concludeTurn (some deterministicIndependentVerifier) runId lease uuid recorded proposed s = .ok requeue s') :
    RefusalPassedOn s s' runId (gateDecision s runId) := by
  obtain ⟨s₁, run, ⟨accepted, -⟩ | ⟨-, rfl⟩, completes⟩ := concludeTurn_ok returned
  · rw [refused] at accepted
    cases accepted
  · have rejected : proposalAccepted s₁ (turnProposal (gateDecision s₁ runId) runId lease) = false := by
      rw [proposalAccepted, turnProposal, refused, Bool.false_and]
    obtain ⟨event, middle, appended, ⟨accepted, -⟩ | ⟨-, left⟩⟩ := proposeCompletion_journals completes
    · rw [rejected] at accepted
      cases accepted
    · rw [left]
      refine ⟨reasons, ?_, ?_, fun status => appended_status appended⟩
      · simp [controlPlaneReasons, unverified]
      · obtain ⟨row, journaled, home, type, payload⟩ := appended_journaled appended
        refine ⟨row, ?_, fun old => ?_, home, type, ?_⟩
        · rw [journaled.events, Keyed.mem_insert journaled.fresh]
          exact .inr rfl
        · have found := Keyed.find?_key old
          have key : key .runEvents row = (row.runId, row.seq) := rfl
          rw [key, journaled.fresh] at found
          cases found
        · rw [payload, proposalPayload, rejected]
          rfl

def RecordValidationInput.row (input : RecordValidationInput) (uuid : String) (now : IsoTimestamp) : ValidationRow where
  id := "validation_" ++ uuid
  runId := input.runId
  taskId := input.taskId
  name := input.name
  passed := input.passed
  summary := input.summary
  independent := input.independent == some true
  createdAt := now
  updatedAt := now

theorem recordValidation_returns (sound : Sound s) {input : RecordValidationInput} (running : statusOf s input.runId = some .running)
    (held : OwnLease s input.lease input.runId clock.toISOString) (untasked : input.taskId = none)
    (fresh : (s .validations).find? ("validation_" ++ uuid) = none) :
    Returns (recordValidation input uuid clock) s fun _ s' => Sound s' := by
  obtain ⟨run, found, -⟩ := statusOf_eq_some.mp running
  have admitted : schema.Admits s .validations (input.row uuid clock.toISOString) := by
    refine ⟨fresh, by simp [schema, clash], ?_⟩
    simp [schema, references, Store.has, Store.hasOptional, RecordValidationInput.row, found, untasked]
  obtain ⟨s₁, inserted⟩ : ∃ s₁, s₁ = s.set .validations ((s .validations).insert (input.row uuid clock.toISOString)) := ⟨_, rfl⟩
  have sound₁ : Sound s₁ := by
    refine sound.of_same fun t plain => ?_
    rw [inserted, Db.set_other _ _]
    rintro rfl
    cases plain
  have there : (s₁ .runs).find? input.runId = some run := by rwa [inserted, Db.set_other _ _ (by simp)]
  refine .transaction (.step (a := ()) (givenRunLease_ok.mpr ⟨held, rfl⟩) ?_)
  refine .step (a := ()) (insert_ok.mpr ⟨admitted, inserted⟩) (.step (a := ()) (given_ok.mpr (.inl ⟨untasked, rfl⟩)) ?_)
  refine .bind (appendEvent_returns sound₁ there _ _ _) fun event s' _ sound => ?_
  exact .pure sound

theorem proposeCompletion_returns (sound : Sound s) {input : ProposeCompletionInput} (running : statusOf s input.runId = some .running)
    (held : OwnLease s input.lease input.runId clock.toISOString) : Succeeds (proposeCompletion input clock) s := by
  obtain ⟨run, found, status⟩ := statusOf_eq_some.mp running
  have same : run.toRun.id = input.runId := (Keyed.find?_eq_some.mp found).2
  have edge : canTransitionRun .running .completed = true := by decide
  have returns : Returns (proposeCompletion input clock) s fun _ _ => True := by
    refine .transaction (.step (a := ()) (givenRunLease_ok.mpr ⟨held, rfl⟩) (.step (mustRun_ok.mpr ⟨run, found, rfl, rfl⟩) ?_))
    refine .step (get_ok.mpr ⟨rfl, rfl⟩) ?_
    rw [same]
    have journals : Returns (appendEventInternal input.runId .validationFinished (proposalPayload s input)
        clock.toISOString none) s fun _ s' => Sound s' := appendEvent_returns sound found _ _ _
    obtain ⟨event, s₁, appended, sound₁⟩ := journals
    obtain ⟨run₁, found₁, status₁⟩ := statusOf_eq_some.mp (appended_status appended running)
    refine .step appended ?_
    by_cases accepted : proposalAccepted s input = true
    · have moves : Returns (transitionRunInternal input.runId .completed clock.toISOString none) s₁ fun _ s' => Sound s' :=
        transitionRun_returns sound₁ found₁ (status₁ ▸ edge) none
      obtain ⟨_, s₂, moved, -⟩ := moves
      obtain ⟨last, known, -⟩ := transitionRun_status moved
      refine .step (a := ()) (onlyIf_ok.mpr (.inl ⟨accepted, bind_ok.mpr ⟨(), s₁, ?_, moved⟩⟩)) ?_
      · exact assertRunTransition_ok.mpr ⟨by rw [status]; exact edge, rfl⟩
      · exact ⟨_, _, mustRun_ok.mpr ⟨last, known, rfl, rfl⟩, trivial⟩
    · refine .step (a := ()) (onlyIf_ok.mpr (.inr ⟨accepted, rfl⟩)) ?_
      exact ⟨_, _, mustRun_ok.mpr ⟨run₁, found₁, rfl, rfl⟩, trivial⟩
  exact .of_returns returns

end Turn

end OttiliCoder
