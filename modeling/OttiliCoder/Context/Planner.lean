import OttiliCoder.ContextFormat.Tokens
import OttiliCoder.Core.Policies
import OttiliCoder.Library.Bisection
import OttiliCoder.Library.StableSort

/-! The selector of a turn's context: fixed items first, then candidates by rank, as far
as the budget of tokens goes. -/

namespace OttiliCoder
open Host StableSort

structure ContextItem where
  id : String
  source : String
  content : JsString
  /-- Higher priority wins before relevance. -/
  priority : Option Number := none
  relevance : Option Number := none
  required : Option Bool := none
  /-- The item may use the remaining budget with its beginning. -/
  allowTruncate : Option Bool := none
  /-- A cap of the item's own. -/
  maxTokens : Option Number := none

structure ContextPlanInput where
  budgetTokens : Number
  fixed : List ContextItem := []
  candidates : List ContextItem := []
  items : List ContextItem := []

structure PlannedContextItem where
  id : String
  source : String
  content : JsString
  rendered : JsString
  estimatedTokens : Nat
  priority : Rat
  relevance : Rat
  required : Bool
  truncated : Bool
deriving DecidableEq

inductive OmissionReason where
  | budgetExhausted | itemTooLarge
deriving DecidableEq

def OmissionReason.text : OmissionReason → String
  | .budgetExhausted => "budget_exhausted" | .itemTooLarge => "item_too_large"

structure OmittedContextItem where
  id : String
  source : String
  reason : OmissionReason
deriving DecidableEq

structure ContextPlan where
  budgetTokens : Nat
  usedTokens : Nat
  text : JsString
  selected : List PlannedContextItem
  omitted : List OmittedContextItem

structure NormalizedItem where
  id : String
  source : String
  content : JsString
  priority : Rat
  relevance : Rat
  required : Bool
  allowTruncate : Bool
  maxTokens : Option Nat

def sourceWeight : List (String × Nat) :=
  [("mission", 10), ("goal", 9), ("policy", 9), ("task", 8), ("run_state", 7), ("validation", 6), ("file", 5), ("git", 5),
    ("lsp", 5), ("semantic", 4), ("memory", 4), ("repo_map", 3), ("tool_history", 2)]

/-- What the planner refuses, with the message of its `TypeError`. -/
abbrev Planning := Except String

def validateBudget (value : Number) (label : String) : Planning Nat :=
  match value with
  | .finite number =>
    if Number.isSafeInteger value && decide (0 ≤ number) then return number.num.toNat
    else throw (label ++ " must be a non-negative safe integer")
  | .notFinite => throw (label ++ " must be a non-negative safe integer")

def finiteOr (value : Option Number) (otherwise : Rat) (message : String) : Planning Rat :=
  match value with
  | none => return otherwise
  | some (.finite number) => return number
  | some .notFinite => throw message

def normalizeItem (item : ContextItem) (forceRequired : Bool) : Planning NormalizedItem :=
  let range := "Context item " ++ item.id ++ " relevance must be between 0 and 1"
  if isBlank item.id then throw "Context item id must not be empty"
  else if isBlank item.source then throw ("Context item " ++ item.id ++ " must have a source")
  else do
    let priority ← finiteOr item.priority 0 ("Context item " ++ item.id ++ " priority must be finite")
    let relevance ← finiteOr item.relevance (1 / 2) range
    if relevance < 0 ∨ 1 < relevance then throw range
    else
      let required := forceRequired || item.required == some true
      let maxTokens ← item.maxTokens.mapM fun value => validateBudget value ("Context item " ++ item.id ++ " maxTokens")
      return {
        id := item.id
        source := item.source
        content := item.content
        priority := priority
        relevance := relevance
        required := required
        allowTruncate := item.allowTruncate.getD required
        maxTokens := maxTokens }

def sourcePriority (source : String) : Nat := ((sourceWeight.find? fun entry => entry.1 == source).map (·.2)).getD 0

def rank (item : NormalizedItem) : Rat := item.priority * 100 + item.relevance * 10 + sourcePriority item.source

def blockFor (item : NormalizedItem) (content : JsString) : JsString :=
  unit '[' :: (utf16 item.source ++ unit ':' :: utf16 item.id ++ units "]\n" ++ content)

def truncationMarker : JsString := units "\n…[truncated]"

/-- The content that fits, and whether it was cut; the bounds of the search are `low` and
`high + 1`. -/
def truncateToBudget (item : NormalizedItem) (separator : JsString) (budget : Nat) : Option (JsString × Bool) :=
  let localBudget := match item.maxTokens with
    | none => budget
    | some maxTokens => min budget maxTokens
  if estimateTokens (separator ++ blockFor item item.content) ≤ localBudget then some (item.content, false)
  else if item.allowTruncate = false then none
  else
    let points := codePoints item.content
    let candidate := fun middle => (points.take middle).flatten ++ truncationMarker
    let fits := fun middle => decide (estimateTokens (separator ++ blockFor item (candidate middle)) ≤ localBudget)
    (Bisection.lastFitting fits (points.length + 1) 0 (points.length + 1) none).map fun middle => (candidate middle, true)

def toPlanItem (item : NormalizedItem) (separator : JsString) (remaining : Nat) : Option PlannedContextItem :=
  match truncateToBudget item separator remaining with
  | none => none
  | some (content, truncated) =>
    let rendered := separator ++ blockFor item content
    let estimatedTokens := estimateTokens rendered
    if remaining < estimatedTokens then none
    else some {
      id := item.id
      source := item.source
      content := content
      rendered := rendered
      estimatedTokens := estimatedTokens
      priority := item.priority
      relevance := item.relevance
      required := item.required
      truncated := truncated }

def blockSeparator : JsString := units "\n\n"

def omission (item : NormalizedItem) (remaining : Nat) : OmittedContextItem :=
  let minimum := estimateTokens (blockFor item []) + if remaining = 0 then 0 else estimateTokens blockSeparator
  { id := item.id
    source := item.source
    reason := if remaining < minimum then .itemTooLarge else .budgetExhausted }

/-- What the planner has chosen so far. -/
structure Selection where
  selected : List PlannedContextItem := []
  omitted : List OmittedContextItem := []
  used : Nat := 0

def Selection.text (selection : Selection) : JsString := (selection.selected.map (·.rendered)).flatten

def choose (budgetTokens : Nat) (selection : Selection) (item : NormalizedItem) : Selection :=
  let separator := if selection.selected.isEmpty then [] else blockSeparator
  let remaining := budgetTokens - selection.used
  match toPlanItem item separator remaining with
  | none => { selection with omitted := selection.omitted ++ [omission item remaining] }
  | some planned => { selection with
      selected := selection.selected ++ [planned]
      used := selection.used + planned.estimatedTokens }

/-- Drops the last items while the text is measured beyond the budget. -/
def withinBudget (budgetTokens : Nat) : Nat → Selection → Selection
  | 0, selection => selection
  | rounds + 1, selection =>
    match selection.selected.getLast? with
    | none => selection
    | some removed =>
      if estimateTokens selection.text ≤ budgetTokens then selection
      else withinBudget budgetTokens rounds { selection with
        selected := selection.selected.dropLast
        omitted := selection.omitted ++ [{ id := removed.id, source := removed.source, reason := .budgetExhausted }] }

/-- The first id that an earlier item has. -/
def repeatedId : List String → List String → Option String
  | _, [] => none
  | identifiers, id :: ids => if identifiers.contains id then some id else repeatedId (identifiers ++ [id]) ids

section Planner
variable (collation : Collation)

def fixedAtMost (left right : NormalizedItem) : Prop :=
  right.priority < left.priority ∨ (left.priority = right.priority ∧
    (sourcePriority right.source < sourcePriority left.source ∨
      (sourcePriority left.source = sourcePriority right.source ∧ collation.AtMost left.id right.id)))

def candidateAtMost (left right : NormalizedItem) : Prop :=
  rank right < rank left ∨ (rank left = rank right ∧ collation.AtMost left.id right.id)

instance (left right : NormalizedItem) : Decidable (fixedAtMost collation left right) := by
  unfold fixedAtMost
  infer_instance

instance (left right : NormalizedItem) : Decidable (candidateAtMost collation left right) := by
  unfold candidateAtMost
  infer_instance

def planContext (input : ContextPlanInput) : Planning ContextPlan := do
  let budgetTokens ← validateBudget input.budgetTokens "Context budget"
  let fixed ← input.fixed.mapM fun item => normalizeItem item true
  let candidates ← (input.candidates ++ input.items).mapM fun item => normalizeItem item false
  match repeatedId [] ((fixed ++ candidates).map (·.id)) with
  | some id => throw ("Duplicate context item id " ++ id)
  | none =>
    let ordered := fixed.insertionSort (fixedAtMost collation) ++ candidates.insertionSort (candidateAtMost collation)
    let chosen := ordered.foldl (choose budgetTokens) {}
    let final := withinBudget budgetTokens chosen.selected.length chosen
    return {
      budgetTokens := budgetTokens
      usedTokens := estimateTokens final.text
      text := final.text
      selected := final.selected
      omitted := final.omitted }

end Planner

end OttiliCoder
