import OttiliCoder.Store.Runs

/-! The completion gate: the audit of the requirement ledger, the deterministic verifier,
and the decision the coordinator proposes to the store. -/

namespace OttiliCoder

/-- The ledger's own type of a requirement has the fields of the store's. -/
abbrev LedgerRequirement := RequirementRecord

structure RequirementAudit where
  contradicted : List LedgerRequirement
  proven : List LedgerRequirement
  unproven : List LedgerRequirement

def auditRequirement (audit : RequirementAudit) (requirement : LedgerRequirement) : RequirementAudit :=
  if !requirement.required || requirement.status == .waived then audit
  else if requirement.status == .contradicted then
    { audit with contradicted := audit.contradicted ++ [requirement] }
  else if requirement.status == .proven && requirement.evidence.any fun evidence => evidence.strength == .strong then
    { audit with proven := audit.proven ++ [requirement] }
  else { audit with unproven := audit.unproven ++ [requirement] }

def auditRequirements (requirements : List LedgerRequirement) : RequirementAudit :=
  requirements.foldl auditRequirement ⟨[], [], []⟩

structure DeterministicValidationResult where
  id : ValidationId
  passed : Bool
  summary : String

structure IndependentVerdict where
  complete : Bool
  concerns : List String
  missingRequirementIds : List RequirementId
  confidence : Number

/-- What the gate and its verifier look at. -/
structure CompletionEvidence where
  requirements : List LedgerRequirement
  validations : List DeterministicValidationResult

abbrev IndependentVerifier := CompletionEvidence → IndependentVerdict

/-- `label` and the ids, when there are any. -/
def listed (label : String) (ids : List String) : List String :=
  if ids.isEmpty then [] else [label ++ ", ".intercalate ids ++ "."]

/-- A verifier that never trusts model text: it audits the durable records. -/
def deterministicIndependentVerifier : IndependentVerifier := fun input =>
  let requirements := auditRequirements input.requirements
  let failed := input.validations.filter fun validation => !validation.passed
  let missingRequirementIds := requirements.unproven.map (·.id) ++ requirements.contradicted.map (·.id)
  let concerns :=
    listed "Durable requirement audit is incomplete: " missingRequirementIds ++
      listed "Deterministic validation failed: " (failed.map (·.id))
  { complete := concerns.isEmpty
    concerns := concerns
    confidence := if concerns.isEmpty then 1 else 0
    missingRequirementIds := missingRequirementIds }

structure CompletionDecision where
  accepted : Bool
  reasons : List String
  verifier : Option IndependentVerdict := none

namespace CompletionGate

def evaluate (verifier : Option IndependentVerifier) (input : CompletionEvidence) : CompletionDecision :=
  let requirements := auditRequirements input.requirements
  let failures := input.validations.filter fun validation => !validation.passed
  let reasons :=
    listed "Required requirements remain unproven: " (requirements.unproven.map (·.id)) ++
      listed "Required requirements are contradicted: " (requirements.contradicted.map (·.id)) ++
      listed "Deterministic validation failed: " (failures.map (·.id))
  if !reasons.isEmpty then { accepted := false, reasons := reasons }
  else
    match verifier with
    | none => { accepted := false, reasons := ["No independent verifier is configured."] }
    | some verify =>
      let verdict := verify input
      if !verdict.complete then
        { accepted := false
          reasons := verdict.concerns ++ listed "Verifier found missing requirements: " verdict.missingRequirementIds
          verifier := some verdict }
      else { accepted := true, reasons := [], verifier := some verdict }

end CompletionGate

end OttiliCoder
