import OttiliCoder.Context.Planner
import OttiliCoder.Proofs.Budget
import Mathlib.Tactic.SplitIfs

/-! What the planner selects: items in order while the tokens last, an item that may be cut
taking what is left. -/

namespace OttiliCoder.Planner
open Host StableSort Results

/-! What a block costs. -/

def header (item : NormalizedItem) : JsString :=
  unit '[' :: (utf16 item.source ++ unit ':' :: (utf16 item.id ++ [unit ']']))

theorem blockFor_eq (item : NormalizedItem) (content : JsString) :
    blockFor item content = header item ++ unit '\n' :: content := by
  simp [blockFor, header, units]

theorem opensBlock_blockFor (item : NormalizedItem) (content : JsString) : opensBlock (blockFor item content) = true := rfl

def headerTokens (item : NormalizedItem) : Nat := lexicalTokens [] (codePoints (header item))

theorem estimateTokens_blockFor (item : NormalizedItem) (content : JsString) :
    estimateTokens (blockFor item content) = headerTokens item + lexicalTokens [] (codePoints content) := by
  rw [estimateTokens_block (opensBlock_blockFor item content), blockFor_eq, lexicalTokens_lines, headerTokens]

/-- A separator costs nothing. -/
theorem estimateTokens_separated {text : JsString} (block : opensBlock text = true) :
    estimateTokens (blockSeparator ++ text) = estimateTokens text := by
  have points : codePoints (blockSeparator ++ text) = [unit '\n'] :: [unit '\n'] :: codePoints text := by
    change codePoints (unit '\n' :: unit '\n' :: text) = _
    rw [codePoints_plain (by decide), codePoints_plain (by decide)]
  have pieces : ∀ points, lexicalPieces [] ([unit '\n'] :: points) = lexicalPieces [] points := by
    intro points
    rw [lexicalPieces, if_neg (by decide)]
    rfl
  obtain ⟨rest, rfl⟩ := opensBlock_iff.mp block
  have some : lexicalPieces [] (codePoints (unit '[' :: rest)) ≠ [] := by
    rw [codePoints_block, lexicalPieces, if_neg (by decide)]
    simp [isSpacePoint, isWhiteSpace, unit]
  rw [estimateTokens, if_neg (by simp), points, pieces, pieces, estimateTokens, if_neg (by simp)]
  cases listed : lexicalPieces [] (codePoints (unit '[' :: rest)) with
  | nil => exact absurd listed some
  | cons piece pieces => rfl

/-- What follows a separator is counted by itself. -/
theorem estimateTokens_append {text : JsString} (block : opensBlock text = true) (item : NormalizedItem) (content : JsString) :
    estimateTokens (text ++ (blockSeparator ++ blockFor item content)) =
      estimateTokens text + estimateTokens (blockFor item content) := by
  have opens : opensBlock (text ++ (blockSeparator ++ blockFor item content)) = true := by
    obtain ⟨rest, rfl⟩ := opensBlock_iff.mp block
    rfl
  have parted : text ++ (blockSeparator ++ blockFor item content) = text ++ unit '\n' :: ([] ++ unit '\n' :: blockFor item content) := rfl
  rw [estimateTokens_block opens, estimateTokens_block block, estimateTokens_block (opensBlock_blockFor item content), parted,
    lexicalTokens_lines, lexicalTokens_lines]
  simp [codePoints, lexicalTokens_nil]

/-! What is left of an item that is cut. -/

/-- The tokens of the block in full. -/
def fullTokens (item : NormalizedItem) : Nat := estimateTokens (blockFor item item.content)

/-- The tokens of the block when nothing is left but the mark. -/
def leastTokens (item : NormalizedItem) : Nat := estimateTokens (blockFor item truncationMarker)

def markerTokens : Nat := 6

theorem lexicalTokens_marker : lexicalTokens [] (codePoints truncationMarker) = markerTokens := by decide

theorem leastTokens_eq (item : NormalizedItem) : leastTokens item = headerTokens item + markerTokens := by
  rw [leastTokens, estimateTokens_blockFor, lexicalTokens_marker]

def cutContent (content : JsString) (count : Nat) : JsString := ((codePoints content).take count).flatten ++ truncationMarker

theorem estimateTokens_cut (item : NormalizedItem) (content : JsString) (count : Nat) :
    estimateTokens (blockFor item (cutContent content count)) =
      headerTokens item + lexicalTokens [] ((codePoints content).take count) + markerTokens := by
  have marker : truncationMarker = unit '\n' :: units "…[truncated]" := rfl
  have cost : lexicalTokens [] (codePoints (units "…[truncated]")) = markerTokens := by decide
  rw [estimateTokens_blockFor, cutContent, marker, lexicalTokens_lines, codePoints_take, cost, Nat.add_assoc]

theorem cut_step (item : NormalizedItem) (content : JsString) (count : Nat) :
    estimateTokens (blockFor item (cutContent content count)) ≤ estimateTokens (blockFor item (cutContent content (count + 1))) ∧
      estimateTokens (blockFor item (cutContent content (count + 1))) ≤
        estimateTokens (blockFor item (cutContent content count)) + 1 := by
  rw [estimateTokens_cut, estimateTokens_cut, List.take_add_one]
  cases next : (codePoints content)[count]? with
  | none => simp
  | some point =>
    have grows : lexicalTokens [] ((codePoints content).take count) ≤ _ ∧ _ ≤ _ :=
      lexicalTokens_concat (length_codePoint point (List.mem_of_getElem? next)).2
    simp only [Option.toList_some]
    omega

theorem cut_whole (item : NormalizedItem) (content : JsString) {count : Nat} (whole : (codePoints content).length ≤ count) :
    estimateTokens (blockFor item content) < estimateTokens (blockFor item (cutContent content count)) := by
  rw [estimateTokens_cut, estimateTokens_blockFor, List.take_of_length_le whole, markerTokens]
  omega

/-! One item. A separator or none goes before it. -/

def Separates (separator : JsString) : Prop := separator = [] ∨ separator = blockSeparator

theorem estimateTokens_rendered {separator : JsString} (separates : Separates separator) (item : NormalizedItem) (content : JsString) :
    estimateTokens (separator ++ blockFor item content) = estimateTokens (blockFor item content) := by
  obtain rfl | rfl := separates
  · rfl
  · exact estimateTokens_separated (opensBlock_blockFor item content)

/-- The item as it is planned, with this content. -/
def planned (item : NormalizedItem) (separator content : JsString) (truncated : Bool) : PlannedContextItem where
  id := item.id
  source := item.source
  content := content
  rendered := separator ++ blockFor item content
  estimatedTokens := estimateTokens (blockFor item content)
  priority := item.priority
  relevance := item.relevance
  required := item.required
  truncated := truncated

section Item
variable {item : NormalizedItem} {separator : JsString} {remaining : Nat}

theorem toPlanItem_eq (separates : Separates separator) :
    toPlanItem item separator remaining = (truncateToBudget item separator remaining).bind fun (content, truncated) =>
      if remaining < estimateTokens (blockFor item content) then none else some (planned item separator content truncated) := by
  rw [toPlanItem]
  cases truncateToBudget item separator remaining with
  | none => rfl
  | some fitted => simp only [Option.bind_some, estimateTokens_rendered separates]; rfl

/-- What an item may take of what remains. -/
def allowance (item : NormalizedItem) (remaining : Nat) : Nat :=
  match item.maxTokens with
  | none => remaining
  | some maxTokens => min remaining maxTokens

theorem allowance_le : allowance item remaining ≤ remaining := by
  unfold allowance
  split
  · exact Nat.le_refl _
  · exact Nat.min_le_left _ _

theorem allowance_uncapped (uncapped : item.maxTokens = none) : allowance item remaining = remaining := by
  rw [allowance, uncapped]

def fitsCut (item : NormalizedItem) (allowed count : Nat) : Bool :=
  decide (estimateTokens (blockFor item (cutContent item.content count)) ≤ allowed)

theorem truncateToBudget_eq (separates : Separates separator) :
    truncateToBudget item separator remaining =
      if fullTokens item ≤ allowance item remaining then some (item.content, false)
      else if item.allowTruncate = false then none
      else (Bisection.lastFitting (fitsCut item (allowance item remaining)) ((codePoints item.content).length + 1) 0
        ((codePoints item.content).length + 1) none).map fun count => (cutContent item.content count, true) := by
  simp only [truncateToBudget, estimateTokens_rendered separates]
  rfl

theorem toPlanItem_full (separates : Separates separator) (fits : fullTokens item ≤ allowance item remaining) :
    toPlanItem item separator remaining = some (planned item separator item.content false) := by
  rw [toPlanItem_eq separates, truncateToBudget_eq separates, if_pos fits]
  exact if_neg (Nat.not_lt.mpr (fits.trans allowance_le))

/-- An item that may not be cut is left out when its block does not fit. -/
theorem toPlanItem_uncut (separates : Separates separator) (uncut : item.allowTruncate = false)
    (long : allowance item remaining < fullTokens item) : toPlanItem item separator remaining = none := by
  rw [toPlanItem_eq separates, truncateToBudget_eq separates, if_neg (Nat.not_le.mpr long), if_pos uncut, Option.bind_none]

/-- The longest beginning of an item that fits with the mark, in code points. -/
structure LongestCut (item : NormalizedItem) (allowed : Nat) (content : JsString) : Prop where
  cut : ∃ count < (codePoints item.content).length, content = cutContent item.content count ∧
    ∀ more, count < more → allowed < estimateTokens (blockFor item (cutContent item.content more))
  fits : estimateTokens (blockFor item content) ≤ allowed

/-- An item that is cut keeps its longest beginning that fits, and takes all that it may. -/
theorem toPlanItem_cut (separates : Separates separator) (cuts : item.allowTruncate = true)
    (long : allowance item remaining < fullTokens item) :
    if leastTokens item ≤ allowance item remaining then
      ∃ content, toPlanItem item separator remaining = some (planned item separator content true) ∧
        LongestCut item (allowance item remaining) content ∧ estimateTokens (blockFor item content) = allowance item remaining
    else toPlanItem item separator remaining = none := by
  have falls : ∀ n, fitsCut item (allowance item remaining) (n + 1) = true → fitsCut item (allowance item remaining) n = true := by
    intro n passes
    have step := cut_step item item.content n
    simp only [fitsCut, decide_eq_true_eq] at passes ⊢
    omega
  have above : ∀ n, (codePoints item.content).length ≤ n → fitsCut item (allowance item remaining) n = false := by
    intro n beyond
    have whole := cut_whole item item.content beyond
    simp only [fitsCut, decide_eq_false_iff_not]
    unfold fullTokens at long
    omega
  have found := Bisection.lastFitting_last falls fun n beyond => above n (Nat.le_of_succ_le beyond)
  rw [toPlanItem_eq separates, truncateToBudget_eq separates, if_neg (Nat.not_le.mpr long),
    if_neg (show ¬ item.allowTruncate = false by simp [cuts])]
  cases result : Bisection.lastFitting (fitsCut item (allowance item remaining)) ((codePoints item.content).length + 1) 0
    ((codePoints item.content).length + 1) none with
  | none =>
    rw [result] at found
    have short : ¬ leastTokens item ≤ allowance item remaining := of_decide_eq_false found
    rw [if_neg short]
    rfl
  | some last =>
    rw [result] at found
    obtain ⟨fits, beyond⟩ := found
    have within : allowance item remaining ≤ remaining := allowance_le
    have least : leastTokens item ≤ estimateTokens (blockFor item (cutContent item.content last)) := by
      rw [leastTokens_eq, estimateTokens_cut]
      omega
    have step := cut_step item item.content last
    have next := beyond (last + 1) (Nat.lt_succ_self last)
    have short : last < (codePoints item.content).length := by
      by_contra whole
      rw [above last (Nat.not_lt.mp whole)] at fits
      cases fits
    simp only [fitsCut, decide_eq_true_eq, decide_eq_false_iff_not] at fits next
    rw [if_pos (by omega)]
    refine ⟨cutContent item.content last, ?_, ⟨⟨last, short, rfl, ?_⟩, fits⟩, by omega⟩
    · simp only [Option.map_some, Option.bind_some]
      rw [if_neg (by omega)]
    · intro more later
      simpa [fitsCut] using beyond more later

end Item

/-- Whatever is planned is the item's block, within what remains. -/
theorem toPlanItem_some {item : NormalizedItem} {separator : JsString} {remaining : Nat} {entry : PlannedContextItem}
    (separates : Separates separator) (chosen : toPlanItem item separator remaining = some entry) :
    ∃ content truncated, entry = planned item separator content truncated ∧ entry.estimatedTokens ≤ remaining := by
  rw [toPlanItem_eq separates] at chosen
  obtain ⟨⟨content, truncated⟩, _, fitted⟩ := Option.bind_eq_some_iff.mp chosen
  simp only at fitted
  split at fitted
  · cases fitted
  · next fits =>
    cases fitted
    exact ⟨content, truncated, rfl, Nat.not_lt.mp fits⟩

/-! The selection as it grows. -/

/-- What is used is what the text costs, so the text is never measured beyond the budget. -/
structure Measured (budget : Nat) (selection : Selection) : Prop where
  opens : selection.selected ≠ [] → opensBlock selection.text = true
  used : selection.used = estimateTokens selection.text
  within : selection.used ≤ budget

def separatorAfter (selection : Selection) : JsString := if selection.selected.isEmpty then [] else blockSeparator

theorem separates_after (selection : Selection) : Separates (separatorAfter selection) := by
  unfold separatorAfter Separates
  split <;> simp

def remaining (budget : Nat) (selection : Selection) : Nat := budget - selection.used

section Choose
variable {budget : Nat} {selection : Selection} {item : NormalizedItem}

theorem choose_eq (budget : Nat) (selection : Selection) (item : NormalizedItem) :
    choose budget selection item =
      match toPlanItem item (separatorAfter selection) (remaining budget selection) with
      | none => { selection with omitted := selection.omitted ++ [omission item (remaining budget selection)] }
      | some planned => { selection with
          selected := selection.selected ++ [planned]
          used := selection.used + planned.estimatedTokens } := rfl

theorem choose_cases (budget : Nat) (selection : Selection) (item : NormalizedItem) :
    (toPlanItem item (separatorAfter selection) (remaining budget selection) = none ∧
        (choose budget selection item).selected = selection.selected ∧
        (choose budget selection item).used = selection.used) ∨
      ∃ content truncated,
        toPlanItem item (separatorAfter selection) (remaining budget selection) =
          some (planned item (separatorAfter selection) content truncated) ∧
        estimateTokens (blockFor item content) ≤ remaining budget selection ∧
        (choose budget selection item).selected =
          selection.selected ++ [planned item (separatorAfter selection) content truncated] ∧
        (choose budget selection item).used = selection.used + estimateTokens (blockFor item content) := by
  rw [choose_eq]
  cases result : toPlanItem item (separatorAfter selection) (remaining budget selection) with
  | none => exact .inl ⟨rfl, rfl, rfl⟩
  | some entry =>
    obtain ⟨content, truncated, rfl, fits⟩ := toPlanItem_some (separates_after selection) result
    exact .inr ⟨content, truncated, rfl, fits, rfl, rfl⟩

theorem Measured.empty (budget : Nat) : Measured budget {} := by
  constructor
  · exact fun some => absurd rfl some
  · rfl
  · exact Nat.zero_le budget

theorem Measured.choose (measured : Measured budget selection) : Measured budget (choose budget selection item) := by
  obtain ⟨_, same, kept⟩ | ⟨content, truncated, _, fits, grown, spent⟩ := choose_cases budget selection item
  · have text : (OttiliCoder.choose budget selection item).text = selection.text := by
      unfold Selection.text
      rw [same]
    exact ⟨by rw [same, text]; exact measured.opens, by rw [kept, text]; exact measured.used, by rw [kept]; exact measured.within⟩
  · have text : (OttiliCoder.choose budget selection item).text =
        selection.text ++ (separatorAfter selection ++ blockFor item content) := by
      unfold Selection.text
      rw [grown]
      simp [planned]
    have within : (OttiliCoder.choose budget selection item).used ≤ budget := by
      have before := measured.within
      unfold remaining at fits
      omega
    by_cases first : selection.selected = []
    · have nothing : selection.text = [] := by simp [Selection.text, first]
      have separator : separatorAfter selection = [] := by simp [separatorAfter, first]
      rw [nothing, separator, List.nil_append, List.nil_append] at text
      refine ⟨fun _ => by rw [text]; exact opensBlock_blockFor item content, ?_, within⟩
      rw [spent, text, measured.used, nothing]
      exact Nat.zero_add _
    · have separator : separatorAfter selection = blockSeparator := by simp [separatorAfter, first]
      have block := measured.opens first
      rw [separator] at text
      constructor
      · intro _
        rw [text]
        obtain ⟨rest, opened⟩ := opensBlock_iff.mp block
        rw [opened]
        rfl
      · rw [spent, text, estimateTokens_append block, measured.used]
      · exact within

theorem Measured.foldl (items : List NormalizedItem) (measured : Measured budget selection) :
    Measured budget (items.foldl (OttiliCoder.choose budget) selection) := by
  induction items generalizing selection with
  | nil => exact measured
  | cons item items ih => exact ih measured.choose

/-- What is measured as it grows is never cut back. -/
theorem Measured.withinBudget (measured : Measured budget selection) (rounds : Nat) :
    withinBudget budget rounds selection = selection := by
  cases rounds with
  | zero => rfl
  | succ rounds =>
    rw [OttiliCoder.withinBudget]
    cases selection.selected.getLast? with
    | none => rfl
    | some last =>
      have within := measured.within
      rw [measured.used] at within
      exact if_pos within

theorem selected_grows (items : List NormalizedItem) :
    selection.selected <+: (items.foldl (OttiliCoder.choose budget) selection).selected := by
  induction items generalizing selection with
  | nil => exact List.prefix_refl _
  | cons item items ih =>
    apply List.IsPrefix.trans _ ih
    obtain ⟨_, same, _⟩ | ⟨content, truncated, _, _, grown, _⟩ := choose_cases budget selection item
    · exact same ▸ List.prefix_refl _
    · rw [grown]
      exact List.prefix_append _ _

theorem remaining_choose_le : remaining budget (OttiliCoder.choose budget selection item) ≤ remaining budget selection := by
  unfold remaining
  obtain ⟨_, _, kept⟩ | ⟨content, truncated, _, _, _, spent⟩ := choose_cases budget selection item <;> omega

theorem remaining_le (items : List NormalizedItem) :
    remaining budget (items.foldl (OttiliCoder.choose budget) selection) ≤ remaining budget selection := by
  induction items generalizing selection with
  | nil => exact Nat.le_refl _
  | cons item items ih => exact Nat.le_trans ih remaining_choose_le

/-- An item that fits is selected in full. -/
theorem choose_full (uncapped : item.maxTokens = none) (fits : fullTokens item ≤ remaining budget selection) :
    planned item (separatorAfter selection) item.content false ∈ (OttiliCoder.choose budget selection item).selected ∧
      remaining budget (OttiliCoder.choose budget selection item) + fullTokens item = remaining budget selection := by
  have result := toPlanItem_full (separates_after selection) (fits.trans_eq (allowance_uncapped uncapped).symm)
  obtain ⟨none, _, _⟩ | ⟨content, truncated, chosen, _, grown, spent⟩ := choose_cases budget selection item
  · rw [result] at none
    cases none
  · rw [result] at chosen
    have same : item.content = content := congrArg PlannedContextItem.content (Option.some.inj chosen)
    rw [grown, ← Option.some.inj chosen]
    refine ⟨List.mem_append_right _ (List.mem_singleton_self _), ?_⟩
    unfold remaining fullTokens at fits ⊢
    rw [spent, ← same]
    omega

/-- An item that may not be cut and does not fit changes nothing but what is omitted. -/
theorem choose_uncut (uncapped : item.maxTokens = none) (uncut : item.allowTruncate = false)
    (long : remaining budget selection < fullTokens item) :
    (OttiliCoder.choose budget selection item).selected = selection.selected ∧
      (OttiliCoder.choose budget selection item).used = selection.used := by
  have result := toPlanItem_uncut (separates_after selection) uncut ((allowance_uncapped uncapped).trans_lt long)
  obtain ⟨_, same, kept⟩ | ⟨content, truncated, chosen, _, _, _⟩ := choose_cases budget selection item
  · exact ⟨same, kept⟩
  · rw [result] at chosen
    cases chosen

/-- After an item that is cut or left out, less remains than `least`. -/
theorem choose_cut {least : Nat} (uncapped : item.maxTokens = none) (cuts : item.allowTruncate = true)
    (short : leastTokens item ≤ least) (some : 0 < least) (long : remaining budget selection < fullTokens item) :
    remaining budget (OttiliCoder.choose budget selection item) < least := by
  have result := toPlanItem_cut (separates_after selection) cuts ((allowance_uncapped uncapped).trans_lt long)
  rw [allowance_uncapped uncapped] at result
  split at result
  · next fits =>
    obtain ⟨content, planned, -, all⟩ := result
    obtain ⟨none, _, _⟩ | ⟨other, truncated, chosen, _, _, spent⟩ := choose_cases budget selection item
    · rw [planned] at none
      cases none
    · rw [planned] at chosen
      have same : content = other := congrArg PlannedContextItem.content (Option.some.inj chosen)
      unfold remaining at all ⊢
      rw [spent, ← same]
      omega
  · next tight =>
    exact Nat.lt_of_le_of_lt remaining_choose_le (by omega)

end Choose

/-! The fixed items. -/

/-- A fixed item may be cut, and has no cap of its own. -/
structure Fixed (item : NormalizedItem) : Prop where
  cuts : item.allowTruncate = true
  uncapped : item.maxTokens = none

/-- An item that costs more than any mark does fits after the fixed ones exactly when they all
fit in full with it. -/
theorem fits_after_fixed {budget needed : Nat} {items : List NormalizedItem} (fixed : ∀ item ∈ items, Fixed item)
    (marks : ∀ item ∈ items, leastTokens item ≤ needed) (some : 0 < needed) (selection : Selection) :
    needed ≤ remaining budget (items.foldl (choose budget) selection) ↔
      (items.map fullTokens).sum + needed ≤ remaining budget selection := by
  induction items generalizing selection with
  | nil => simp
  | cons item items ih =>
    rw [List.foldl_cons, List.map_cons, List.sum_cons]
    have here := fixed item List.mem_cons_self
    by_cases fits : fullTokens item ≤ remaining budget selection
    · have left := (choose_full here.uncapped fits).2
      rw [ih (fun other later => fixed other (List.mem_cons_of_mem _ later))
        (fun other later => marks other (List.mem_cons_of_mem _ later))]
      omega
    · have cut := choose_cut here.uncapped here.cuts (marks item List.mem_cons_self) some (Nat.not_le.mp fits)
      have later : remaining budget (items.foldl _ _) ≤ remaining budget (choose budget selection item) := remaining_le items
      omega

/-! What it takes for a context to be planned. -/

theorem unless_ok {ε α : Type} {refused : Prop} [Decidable refused] {e : ε} {next : Except ε α} {result : α} :
    (if refused then throw e else next) = .ok result ↔ ¬refused ∧ next = .ok result := by
  by_cases holds : refused <;> simp [holds, throw, throwThe, MonadExceptOf.throw]

section Read
variable {α β : Type} {R : α → β → Prop} {first rest : List α} {results : List β}

theorem read_append : List.Forall₂ R (first ++ rest) results ↔
    ∃ one other, List.Forall₂ R first one ∧ List.Forall₂ R rest other ∧ results = one ++ other := by
  constructor
  · intro read
    induction first generalizing results with
    | nil => exact ⟨[], results, .nil, read, rfl⟩
    | cons item first ih =>
      cases read with
      | cons here later =>
        obtain ⟨one, other, leading, trailing, rfl⟩ := ih later
        exact ⟨_ :: one, other, .cons here leading, trailing, rfl⟩
  · rintro ⟨one, other, leading, trailing, made⟩
    rw [made]
    exact List.rel_append leading trailing

theorem read_from (read : List.Forall₂ R first results) : ∀ result ∈ results, ∃ item ∈ first, R item result := by
  induction read with
  | nil => exact fun _ listed => absurd listed List.not_mem_nil
  | cons here later ih =>
    intro result listed
    obtain rfl | listed := List.mem_cons.mp listed
    · exact ⟨_, List.mem_cons_self, here⟩
    · obtain ⟨item, within, made⟩ := ih result listed
      exact ⟨item, List.mem_cons_of_mem _ within, made⟩

end Read

theorem repeatedId_none {seen ids : List String} :
    repeatedId seen ids = none ↔ ids.Nodup ∧ ∀ id ∈ ids, id ∉ seen := by
  induction ids generalizing seen with
  | nil => simp [repeatedId]
  | cons id ids ih =>
    rw [repeatedId]
    by_cases before : id ∈ seen
    · simp [before]
    · rw [if_neg (by simpa using before), ih, List.nodup_cons]
      constructor
      · rintro ⟨distinct, fresh⟩
        refine ⟨⟨fun later => ?_, distinct⟩, ?_⟩
        · exact fresh id later (List.mem_append_right _ (List.mem_singleton_self _))
        · intro other listed
          obtain rfl | later := List.mem_cons.mp listed
          · exact before
          · exact fun old => fresh other later (List.mem_append_left _ old)
      · rintro ⟨⟨alone, distinct⟩, fresh⟩
        refine ⟨distinct, ?_⟩
        intro other later old
        obtain old | same := List.mem_append.mp old
        · exact fresh other (List.mem_cons_of_mem _ later) old
        · rw [List.mem_singleton.mp same] at later
          exact alone later

section Plan
variable (collation : Collation)

/-- What a plan selects, in the order it is asked for. -/
def selectionOf (budget : Nat) (fixed candidates : List NormalizedItem) : Selection :=
  (fixed.insertionSort (fixedAtMost collation) ++ candidates.insertionSort (candidateAtMost collation)).foldl (choose budget) {}

def planOf (budget : Nat) (selection : Selection) : ContextPlan where
  budgetTokens := budget
  usedTokens := estimateTokens selection.text
  text := selection.text
  selected := selection.selected
  omitted := selection.omitted

theorem planContext_ok {input : ContextPlanInput} {plan : ContextPlan} :
    planContext collation input = .ok plan ↔ ∃ budget fixed candidates,
      validateBudget input.budgetTokens "Context budget" = .ok budget ∧
      List.Forall₂ (fun item normal => normalizeItem item true = .ok normal) input.fixed fixed ∧
      List.Forall₂ (fun item normal => normalizeItem item false = .ok normal) (input.candidates ++ input.items) candidates ∧
      ((fixed ++ candidates).map (·.id)).Nodup ∧ plan = planOf budget (selectionOf collation budget fixed candidates) := by
  unfold planContext
  simp only [except_bind_ok, mapM_ok, ← exists_and_left]
  refine exists_congr fun budget => exists_congr fun fixed => exists_congr fun candidates => ?_
  refine and_congr_right fun _ => and_congr_right fun _ => and_congr_right fun _ => ?_
  have measured := (Measured.empty budget).foldl
    (fixed.insertionSort (fixedAtMost collation) ++ candidates.insertionSort (candidateAtMost collation))
  cases found : repeatedId [] ((fixed ++ candidates).map fun item => item.id) with
  | some id =>
    have twice : ¬((fixed ++ candidates).map (·.id)).Nodup := by
      intro distinct
      rw [repeatedId_none.mpr ⟨distinct, fun _ _ => List.not_mem_nil⟩] at found
      cases found
    simp only [twice, false_and, iff_false]
    intro made
    cases made
  | none =>
    have distinct := (repeatedId_none.mp found).1
    simp only [measured.withinBudget, distinct, true_and]
    exact ⟨fun made => (Except.ok.inj made).symm, fun made => congrArg Except.ok made.symm⟩

end Plan

end OttiliCoder.Planner
