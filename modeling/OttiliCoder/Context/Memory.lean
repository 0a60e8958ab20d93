import OttiliCoder.Context.Redaction
import OttiliCoder.Core.Values
import OttiliCoder.Library.Transaction
import Mathlib.Data.List.Infix

/-! The memory of a project: facts are captured for the session, and promoted to the run or to the project when
they pass the gate of that scope. -/

namespace OttiliCoder.Memory
open Host Host.Pattern Relational Transaction RepoMap

/-- What the platform gives: the tables of the language behind its texts, and a hash in hexadecimal digits. -/
structure Platform where
  /-- `normalize("NFKC")`. -/
  normalize : JsString → JsString
  toLowerCase : JsString → JsString
  localeCompare : JsString → JsString → Ordering
  sha256 : JsString → JsString

inductive MemoryCategory where
  | repository | architecture | decision | convention | knownProblem | learnedSolution | userPreference | historicalLearning
deriving DecidableEq

def MemoryCategory.text : MemoryCategory → JsString
  | .repository => units "repository" | .architecture => units "architecture" | .decision => units "decision"
  | .convention => units "convention" | .knownProblem => units "known_problem" | .learnedSolution => units "learned_solution"
  | .userPreference => units "user_preference" | .historicalLearning => units "historical_learning"

inductive MemoryScope where
  | ephemeral | run | project
deriving DecidableEq

def MemoryScope.text : MemoryScope → JsString
  | .ephemeral => units "ephemeral" | .run => units "run" | .project => units "project"

/-- The message of a `TypeError`. -/
structure MemoryError where
  message : JsString
deriving DecidableEq

abbrev Checking := Except MemoryError

/-- A number between 0 and 1. -/
structure Confidence where
  value : Rat
  valid : 0 ≤ value ∧ value ≤ 1
deriving DecidableEq

def Confidence.zero : Confidence := ⟨0, by decide⟩

def Confidence.max (first second : Confidence) : Confidence := if first.value < second.value then second else first

def validateConfidence (value : Number) (label : String) : Checking Confidence :=
  match value with
  | .finite number =>
    if valid : 0 ≤ number ∧ number ≤ 1 then .ok ⟨number, valid⟩
    else .error ⟨units (label ++ " must be a finite number between 0 and 1")⟩
  | .notFinite => .error ⟨units (label ++ " must be a finite number between 0 and 1")⟩

structure MemoryCandidate where
  id : Option JsString := none
  content : JsString
  category : Option MemoryCategory := none
  confidence : Option Number := none
  validated : Option Bool := none
  reusable : Option Bool := none
  source : Option JsString := none
  sourceEvidenceIds : List JsString := []
  tags : List JsString := []

structure MemoryRecord where
  id : JsString
  scope : MemoryScope
  content : JsString
  category : MemoryCategory
  confidence : Confidence
  validated : Bool
  reusable : Bool
  source : Option JsString
  sourceEvidenceIds : List JsString
  tags : List JsString
  redactions : List MemoryRedaction
  occurrences : Nat
  createdAt : String
  updatedAt : String
deriving DecidableEq

structure NormalizedCandidate where
  id : Option JsString
  content : JsString
  category : MemoryCategory
  confidence : Confidence
  validated : Bool
  reusable : Bool
  source : Option JsString
  sourceEvidenceIds : List JsString
  tags : List JsString
  redactions : List MemoryRedaction

/-- `text.trim().length === 0`. -/
def blank (text : JsString) : Bool := (trim text).isEmpty

/-- `text.replace(/\s+/gu, " ")`. -/
def collapseSpaces (text : JsString) : JsString := (spaces 1).replaceAll (fun _ => units " ") text

/-- The values, trimmed, each once, in their order. -/
def stableUnique (localeCompare : JsString → JsString → Ordering) (values : List JsString) : List JsString :=
  (((values.map trim).filter fun value => decide (0 < value.length)).eraseDups).insertionSort fun left right =>
    localeCompare left right ≠ .gt

/-- The double nearest to 0.5. -/
def defaultConfidence : Number := .finite (1 / 2)

section Candidates
variable (platform : Platform)

def normalizeText (value : JsString) : JsString := platform.toLowerCase (collapseSpaces (trim (platform.normalize value)))

def digest (value : JsString) : JsString := (platform.sha256 value).take 20

/-- The candidate, redacted, with a confidence that has been checked. -/
def redactedCandidate (candidate : MemoryCandidate) (confidence : Confidence) : NormalizedCandidate :=
  let content := redactSecrets platform.localeCompare candidate.content
  let sourceResult := candidate.source.map (redactSecrets platform.localeCompare)
  let tagResults := candidate.tags.map (redactSecrets platform.localeCompare)
  { id := candidate.id
    content := content.text
    category := candidate.category.getD .repository
    confidence
    validated := candidate.validated.getD false
    reusable := candidate.reusable.getD false
    source := sourceResult.map (·.text)
    sourceEvidenceIds := stableUnique platform.localeCompare candidate.sourceEvidenceIds
    tags := stableUnique platform.localeCompare (tagResults.map (·.text))
    redactions := mergeRedactions platform.localeCompare
      (content.redactions :: (sourceResult.map (·.redactions)).getD [] :: tagResults.map (·.redactions)) }

def normalizeCandidate (candidate : MemoryCandidate) : Checking NormalizedCandidate :=
  if blank candidate.content then throw ⟨units "Memory content must not be empty"⟩
  else if candidate.id.any blank then throw ⟨units "Memory id must not be empty"⟩
  else do
    let confidence ← validateConfidence (candidate.confidence.getD defaultConfidence) "Memory confidence"
    return redactedCandidate platform candidate confidence

def toCandidate (record : MemoryRecord) : MemoryCandidate where
  id := some record.id
  content := record.content
  category := some record.category
  confidence := some (.finite record.confidence.value)
  validated := some record.validated
  reusable := some record.reusable
  source := record.source
  sourceEvidenceIds := record.sourceEvidenceIds
  tags := record.tags

def memoryKey (candidate : NormalizedCandidate) : JsString :=
  candidate.category.text ++ units ":" ++ normalizeText platform candidate.content

/-- The key of a record that is read again as a candidate. -/
def recordKey (record : MemoryRecord) : Checking JsString := (memoryKey platform) <$> normalizeCandidate platform (toCandidate record)

/-- The first of the records with the key. -/
def findExisting (key : JsString) : List MemoryRecord → Checking (Option MemoryRecord)
  | [] => .ok none
  | record :: rest => do
    if (← recordKey platform record) = key then return some record
    findExisting key rest

end Candidates

/-- The records of a scope, in the order in which their ids came. -/
abbrev Records := Keyed MemoryRecord.id

/-- The maps of the three scopes. -/
structure Scopes where
  ephemeral : Records
  run : Records
  project : Records

namespace Scopes

def empty : Scopes := ⟨.empty, .empty, .empty⟩

def of (scopes : Scopes) : MemoryScope → Records
  | .ephemeral => scopes.ephemeral
  | .run => scopes.run
  | .project => scopes.project

def with_ (scopes : Scopes) (scope : MemoryScope) (records : Records) : Scopes :=
  match scope with
  | .ephemeral => { scopes with ephemeral := records }
  | .run => { scopes with run := records }
  | .project => { scopes with project := records }

/-- The record with an id, from the first scope that has one. -/
def firstFound (scopes : Scopes) (id : JsString) : Option MemoryRecord :=
  (scopes.ephemeral.find? id).or ((scopes.run.find? id).or (scopes.project.find? id))

end Scopes

structure ProjectMemoryOptions where
  minimumRunConfidence : Option Number := none
  minimumProjectConfidence : Option Number := none

/-- The gates of a memory: that of the project is no lower than that of the run. -/
structure Gates where
  minimumRunConfidence : Confidence
  minimumProjectConfidence : Confidence
  ordered : minimumRunConfidence.value ≤ minimumProjectConfidence.value

/-- The doubles nearest to 0.6 and 0.8. -/
def defaultRunConfidence : Number := .finite (5404319552844595 / 9007199254740992)

def defaultProjectConfidence : Number := .finite (3602879701896397 / 4503599627370496)

def Gates.ofOptions (options : ProjectMemoryOptions) : Checking Gates := do
  let minimumRunConfidence ← validateConfidence (options.minimumRunConfidence.getD defaultRunConfidence) "minimumRunConfidence"
  let minimumProjectConfidence ←
    validateConfidence (options.minimumProjectConfidence.getD defaultProjectConfidence) "minimumProjectConfidence"
  if ordered : minimumRunConfidence.value ≤ minimumProjectConfidence.value then
    return { minimumRunConfidence, minimumProjectConfidence, ordered }
  else throw ⟨units "minimumProjectConfidence must be at least minimumRunConfidence"⟩

/-- What a call does to the maps; one that throws leaves what it has written before. -/
abbrev MemoryM := EStateM MemoryError Scopes

/-- The reason why a fact is not promoted. -/
inductive PromotionRefusal where
  | notStaged (id : JsString)
  | runConfidence (minimum : Confidence)
  | projectConfidence (minimum : Confidence)
  | notValidated
  | notReusable
deriving DecidableEq

/-- The text of the reason, given how a number is printed. -/
def PromotionRefusal.reason (printed : Rat → JsString) : PromotionRefusal → JsString
  | .notStaged id => units "No staged memory with id " ++ id
  | .runConfidence minimum => units "Run promotion requires confidence >= " ++ printed minimum.value
  | .projectConfidence minimum => units "Project promotion requires confidence >= " ++ printed minimum.value
  | .notValidated => units "Project promotion requires validation"
  | .notReusable => units "Project promotion requires reusable knowledge"

inductive MemoryPromotionResult where
  | promoted (record : MemoryRecord)
  | refused (reason : PromotionRefusal)
deriving DecidableEq

inductive PromotionTarget where
  | run | project
deriving DecidableEq

def PromotionTarget.scope : PromotionTarget → MemoryScope
  | .run => .run
  | .project => .project

/-- What is promoted: a candidate, which is captured first, or the id of a fact that is there. -/
inductive Promoting where
  | candidate (candidate : MemoryCandidate)
  | staged (id : JsString)

def raise {α : Type} : Checking α → MemoryM α
  | .ok value => pure value
  | .error failure => throw failure

section Calls
variable (platform : Platform) (gates : Gates)

/-- The record that takes the place of the existing one, if there is one. -/
def mergedRecord (scope : MemoryScope) (candidate : NormalizedCandidate) (existing : Option MemoryRecord) (id : JsString)
    (now : String) : MemoryRecord where
  id
  scope
  content := candidate.content
  category := candidate.category
  confidence := Confidence.max ((existing.map (·.confidence)).getD .zero) candidate.confidence
  validated := (existing.map (·.validated)).getD false || candidate.validated
  reusable := (existing.map (·.reusable)).getD false || candidate.reusable
  source := candidate.source.or (existing.bind (·.source))
  sourceEvidenceIds := stableUnique platform.localeCompare
    ((existing.map (·.sourceEvidenceIds)).getD [] ++ candidate.sourceEvidenceIds)
  tags := stableUnique platform.localeCompare ((existing.map (·.tags)).getD [] ++ candidate.tags)
  redactions := mergeRedactions platform.localeCompare [(existing.map (·.redactions)).getD [], candidate.redactions]
  occurrences := (existing.map (·.occurrences)).getD 0 + 1
  createdAt := (existing.map (·.createdAt)).getD now
  updatedAt := now

/-- The id of the record: that of the existing one, that of the candidate, or one made from the key. -/
def recordId (scope : MemoryScope) (candidate : NormalizedCandidate) (existing : Option MemoryRecord) : JsString :=
  ((existing.map (·.id)).or candidate.id).getD
    (units "memory_" ++ digest platform (scope.text ++ units ":" ++ memoryKey platform candidate))

/-- An id that another fact has in the scope is refused. -/
def checkColliding (scope : MemoryScope) (entries : Records) (key : JsString) (existing : Option MemoryRecord) (id : JsString) :
    Checking Unit :=
  match entries.find? id with
  | none => .ok ()
  | some colliding =>
    if existing.map (·.id) = some colliding.id then .ok ()
    else do
      let own ← recordKey platform colliding
      if own = key then return ()
      else throw ⟨units "Memory id " ++ id ++ units " already belongs to a different fact in " ++ scope.text ++ units " scope"⟩

def upsert (scope : MemoryScope) (candidate : NormalizedCandidate) (now : String) : MemoryM MemoryRecord := do
  let entries := (← get).of scope
  let key := memoryKey platform candidate
  let existing ← raise (findExisting platform key entries.rows)
  let id := recordId platform scope candidate existing
  raise (checkColliding platform scope entries key existing id)
  let record := mergedRecord platform scope candidate existing id now
  modify fun scopes => scopes.with_ scope (entries.put record)
  return record

/-- A session-local candidate, redacted. -/
def capture (candidate : MemoryCandidate) (now : String) : MemoryM MemoryRecord := do
  let normalized ← raise (normalizeCandidate platform candidate)
  upsert platform .ephemeral normalized now

def findCandidate (id : JsString) : MemoryM (Option NormalizedCandidate) := do
  match (← get).firstFound id with
  | some record => do
    let normalized ← raise (normalizeCandidate platform (toCandidate record))
    return some { normalized with redactions := mergeRedactions platform.localeCompare [record.redactions, normalized.redactions] }
  | none => return none

/-- Why the gate of the target stays closed, if it does. -/
def refusal (candidate : NormalizedCandidate) : PromotionTarget → Option PromotionRefusal
  | .run => if candidate.confidence.value < gates.minimumRunConfidence.value then some (.runConfidence gates.minimumRunConfidence) else none
  | .project =>
    if candidate.confidence.value < gates.minimumProjectConfidence.value then
      some (.projectConfidence gates.minimumProjectConfidence)
    else if !candidate.validated then some .notValidated
    else if !candidate.reusable then some .notReusable
    else none

/-- The promotion of the fact that is found under an id. -/
def promoteFound (id : JsString) (target : Option PromotionTarget) (now : String) :
    Option NormalizedCandidate → MemoryM MemoryPromotionResult
  | none => return .refused (.notStaged id)
  | some candidate =>
    let target := target.getD (if candidate.reusable then .project else .run)
    match refusal gates candidate target with
    | some reason => return .refused reason
    | none => .promoted <$> upsert platform target.scope candidate now

/-- The two dates are those of the capture and of the promotion. -/
def promote (promoting : Promoting) (target : Option PromotionTarget) (captured promoted : String) : MemoryM MemoryPromotionResult := do
  let id ← match promoting with
    | .staged id => pure id
    | .candidate candidate => (·.id) <$> capture platform candidate captured
  promoteFound platform gates id target promoted (← findCandidate platform id)

end Calls

/-! Recall. Scores are computed with rational numbers. -/

structure MemoryRecallOptions where
  scopes : List PromotionTarget := [.run, .project]
  limit : Option Number := none
  minimumConfidence : Option Number := none

structure MemoryRecallResult where
  record : MemoryRecord
  score : Rat

section Recall
variable (platform : Platform)

/-- The words of a query, each once. -/
def recallTerms (query : JsString) : List JsString :=
  (((normalizeText platform query).splitOn (unit ' ')).filter fun term => decide (1 < term.length)).eraseDups

def corpus (record : MemoryRecord) : JsString :=
  platform.toLowerCase (platform.normalize
    (record.content ++ units " " ++ [unit ' '].intercalate record.tags ++ units " " ++ record.category.text))

def recallScore (terms : List JsString) (record : MemoryRecord) : Rat :=
  let found := (terms.filter fun term => decide (term <:+: corpus platform record)).length
  if found = 0 then 0
  else found / terms.length + record.confidence.value * (1 / 10) + (if record.validated then 1 / 20 else 0)

def recallAtMost (left right : MemoryRecallResult) : Prop :=
  right.score < left.score ∨ (left.score = right.score ∧
    (right.record.confidence.value < left.record.confidence.value ∨
      (left.record.confidence.value = right.record.confidence.value ∧
        platform.localeCompare left.record.id right.record.id ≠ .gt)))

instance decidableRecallAtMost (left right : MemoryRecallResult) : Decidable (recallAtMost platform left right) := by
  unfold recallAtMost
  infer_instance

/-- The records of the scopes that match one of the words, the best first. -/
def ranked (scopes : Scopes) (targets : List PromotionTarget) (minimumConfidence : Confidence) (terms : List JsString) :
    List MemoryRecallResult :=
  let eligible := targets.flatMap fun target => (scopes.of target.scope).rows
  let scored := (eligible.filter fun record => decide (minimumConfidence.value ≤ record.confidence.value)).map fun record =>
    (⟨record, recallScore platform terms record⟩ : MemoryRecallResult)
  (scored.filter fun result => decide (0 < result.score)).insertionSort (recallAtMost platform)

def recallRecords (scopes : Scopes) (query : JsString) (options : MemoryRecallOptions) : Checking (List MemoryRecallResult) := do
  let minimumConfidence ← validateConfidence (options.minimumConfidence.getD 0) "minimumConfidence"
  match options.limit.getD 12 with
  | .finite limit =>
    if Number.isSafeInteger (.finite limit) && decide (0 ≤ limit) then
      if recallTerms platform query = [] ∨ limit = 0 then return []
      else return (ranked platform scopes options.scopes minimumConfidence (recallTerms platform query)).take limit.num.toNat
    else throw ⟨units "Memory recall limit must be a non-negative safe integer"⟩
  | .notFinite => throw ⟨units "Memory recall limit must be a non-negative safe integer"⟩

end Recall

end OttiliCoder.Memory
