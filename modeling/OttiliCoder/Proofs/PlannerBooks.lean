import OttiliCoder.Proofs.Planner

/-! The books of a plan: each item is selected or omitted once, and what the selected ones
cost is what the text costs, within the budget. -/

namespace OttiliCoder.Planner
open Host StableSort Results

/-! One entry. -/

/-- The entry holds the item in full, or its longest beginning that fits with the mark what is left. -/
structure Fills (item : NormalizedItem) (separator : JsString) (left : Nat) (entry : PlannedContextItem) : Prop where
  id : entry.id = item.id
  source : entry.source = item.source
  rendered : entry.rendered = separator ++ blockFor item entry.content
  estimated : entry.estimatedTokens = estimateTokens entry.rendered
  fits : entry.estimatedTokens ≤ left
  capped : ∀ maxTokens, item.maxTokens = some maxTokens → entry.estimatedTokens ≤ maxTokens
  content : (entry.truncated = false ∧ entry.content = item.content) ∨
    entry.truncated = true ∧ ∃ count < (codePoints item.content).length, entry.content = cutContent item.content count ∧
      ∀ more, count < more → allowance item left < estimateTokens (separator ++ blockFor item (cutContent item.content more))

section Entry
variable {item : NormalizedItem} {separator content : JsString} {left : Nat} {truncated : Bool}

theorem allowance_capped {maxTokens : Nat} (capped : item.maxTokens = some maxTokens) : allowance item left ≤ maxTokens := by
  rw [allowance, capped]
  exact Nat.min_le_right _ _

theorem planned_fills (separates : Separates separator) (fits : estimateTokens (blockFor item content) ≤ allowance item left)
    (holds : (truncated = false ∧ content = item.content) ∨ truncated = true ∧ LongestCut item (allowance item left) content) :
    Fills item separator left (planned item separator content truncated) where
  id := rfl
  source := rfl
  rendered := rfl
  estimated := (estimateTokens_rendered separates item content).symm
  fits := fits.trans allowance_le
  capped _ capped := fits.trans (allowance_capped capped)
  content := by
    rcases holds with whole | ⟨mark, longest⟩
    · exact .inl whole
    · obtain ⟨count, short, same, beyond⟩ := longest.cut
      refine .inr ⟨mark, count, short, same, fun more later => ?_⟩
      rw [estimateTokens_rendered separates]
      exact beyond more later

theorem toPlanItem_fills (separates : Separates separator) {entry : PlannedContextItem}
    (chosen : toPlanItem item separator left = some entry) : Fills item separator left entry := by
  by_cases full : fullTokens item ≤ allowance item left
  · rw [toPlanItem_full separates full] at chosen
    cases chosen
    exact planned_fills separates full (.inl ⟨rfl, rfl⟩)
  · by_cases cuts : item.allowTruncate = true
    · have cut := toPlanItem_cut separates cuts (Nat.not_le.mp full)
      split at cut
      next least =>
        obtain ⟨content, made, longest, all⟩ := cut
        rw [made] at chosen
        cases chosen
        exact planned_fills separates (Nat.le_of_eq all) (.inr ⟨rfl, longest⟩)
      next short =>
        rw [cut] at chosen
        cases chosen
    · rw [toPlanItem_uncut separates (Bool.eq_false_iff.mpr cuts) (Nat.not_le.mp full)] at chosen
      cases chosen

end Entry

/-! The selection. -/

def costOf (entries : List PlannedContextItem) : Nat := (entries.map (·.estimatedTokens)).sum

def separatorBehind (entries : List PlannedContextItem) : JsString := if entries.isEmpty then [] else blockSeparator

/-- Each entry comes from an item, with what the entries before it have left of the budget. -/
def Filled (budget : Nat) (items : List NormalizedItem) (entries : List PlannedContextItem) : Prop :=
  ∀ before entry after, entries = before ++ entry :: after →
    ∃ item ∈ items, Fills item (separatorBehind before) (budget - costOf before) entry

/-- What has been chosen among the items. -/
structure Booked (budget : Nat) (items : List NormalizedItem) (selection : Selection) : Prop where
  spent : selection.used = costOf selection.selected
  once : (selection.selected.map (·.id) ++ selection.omitted.map (·.id)).Perm (items.map (·.id))
  filled : Filled budget items selection.selected

section Run
variable {budget : Nat} {items : List NormalizedItem} {selection : Selection} {item : NormalizedItem}

theorem Filled.more {entries : List PlannedContextItem} (filled : Filled budget items entries) :
    Filled budget (items ++ [item]) entries := by
  intro before entry after same
  obtain ⟨from_, listed, fills⟩ := filled before entry after same
  exact ⟨from_, List.mem_append_left _ listed, fills⟩

theorem Booked.choose (booked : Booked budget items selection) : Booked budget (items ++ [item]) (choose budget selection item) := by
  rw [choose_eq]
  cases chosen : toPlanItem item (separatorAfter selection) (remaining budget selection) with
  | none =>
    refine ⟨booked.spent, ?_, booked.filled.more⟩
    simp only [List.map_append, ← List.append_assoc]
    exact booked.once.append_right _
  | some entry =>
    have fills := toPlanItem_fills (separates_after selection) chosen
    refine ⟨?_, ?_, ?_⟩
    · simp [booked.spent, costOf]
    · simp only [List.map_append, List.map_cons, List.map_nil, fills.id]
      apply List.Perm.trans _ (booked.once.append_right [item.id])
      rw [List.append_assoc, List.append_assoc]
      exact List.perm_append_comm.append_left _
    · intro before other after same
      rcases List.eq_nil_or_concat after with rfl | ⟨rest, last, rfl⟩
      · obtain ⟨rfl, here⟩ := List.append_inj' same rfl
        obtain rfl : entry = other := by simpa using here
        rw [remaining, booked.spent] at fills
        exact ⟨item, List.mem_append_right _ (List.mem_singleton_self _), fills⟩
      · have parts : selection.selected ++ [entry] = (before ++ other :: rest) ++ [last] := by simpa using same
        exact booked.filled.more before other rest (List.append_inj' parts rfl).1

theorem Booked.foldl (later : List NormalizedItem) (booked : Booked budget items selection) :
    Booked budget (items ++ later) (later.foldl (OttiliCoder.choose budget) selection) := by
  induction later generalizing items selection with
  | nil => rwa [List.append_nil]
  | cons item later ih =>
    rw [List.foldl_cons, ← List.singleton_append, ← List.append_assoc]
    exact ih booked.choose

theorem Booked.empty (budget : Nat) : Booked budget [] {} := by
  refine ⟨rfl, List.Perm.refl _, fun before entry after same => ?_⟩
  exact absurd same.symm (by simp)

end Run

/-! The plan. -/

/-- A plan for normalized items, with the selection it is taken from. -/
structure Books (collation : Collation) (fixed candidates : List NormalizedItem) (plan : ContextPlan) : Prop where
  spent : plan.usedTokens = costOf plan.selected
  within : plan.usedTokens ≤ plan.budgetTokens
  once : (plan.selected.map (·.id) ++ plan.omitted.map (·.id)).Perm ((fixed ++ candidates).map (·.id))
  apart : (plan.selected.map (·.id) ++ plan.omitted.map (·.id)).Nodup
  filled : Filled plan.budgetTokens (fixed ++ candidates) plan.selected
  selected : plan.selected = (selectionOf collation plan.budgetTokens fixed candidates).selected
  omitted : plan.omitted = (selectionOf collation plan.budgetTokens fixed candidates).omitted
  /-- The clean-up after the selection. -/
  kept : ∀ rounds, withinBudget plan.budgetTokens rounds (selectionOf collation plan.budgetTokens fixed candidates) =
    selectionOf collation plan.budgetTokens fixed candidates

theorem sorted_perm (collation : Collation) (fixed candidates : List NormalizedItem) :
    (fixed.insertionSort (fixedAtMost collation) ++ candidates.insertionSort (candidateAtMost collation)).Perm (fixed ++ candidates) :=
  (List.perm_insertionSort _ fixed).append (List.perm_insertionSort _ candidates)

theorem books_planOf (collation : Collation) (budget : Nat) {fixed candidates : List NormalizedItem}
    (distinct : ((fixed ++ candidates).map (·.id)).Nodup) :
    Books collation fixed candidates (planOf budget (selectionOf collation budget fixed candidates)) := by
  have perm := sorted_perm collation fixed candidates
  have measured : Measured budget (selectionOf collation budget fixed candidates) := (Measured.empty budget).foldl _
  have booked := (Booked.empty budget).foldl
    (fixed.insertionSort (fixedAtMost collation) ++ candidates.insertionSort (candidateAtMost collation))
  rw [List.nil_append] at booked
  have once := booked.once.trans (perm.map _)
  have used : (planOf budget (selectionOf collation budget fixed candidates)).usedTokens =
      (selectionOf collation budget fixed candidates).used := measured.used.symm
  exact {
    spent := used.trans booked.spent
    within := used ▸ measured.within
    once := once
    apart := once.nodup_iff.mpr distinct
    filled := fun before entry after same =>
      (booked.filled before entry after same).imp fun item ⟨listed, fills⟩ => ⟨perm.mem_iff.mp listed, fills⟩
    selected := rfl
    omitted := rfl
    kept := measured.withinBudget }

/-- Every plan keeps its budget and its books. -/
theorem plan_keeps_books (collation : Collation) (input : ContextPlanInput) (plan : ContextPlan)
    (accepted : planContext collation input = .ok plan) : ∃ fixed candidates,
      validateBudget input.budgetTokens "Context budget" = .ok plan.budgetTokens ∧
      input.fixed.mapM (fun item => normalizeItem item true) = .ok fixed ∧
      (input.candidates ++ input.items).mapM (fun item => normalizeItem item false) = .ok candidates ∧
      Books collation fixed candidates plan := by
  obtain ⟨budget, fixed, candidates, valid, fixedRead, candidatesRead, distinct, rfl⟩ := (planContext_ok collation).mp accepted
  exact ⟨fixed, candidates, valid, mapM_ok.mpr fixedRead, mapM_ok.mpr candidatesRead, books_planOf collation budget distinct⟩

def shortPlanInput : ContextPlanInput where
  budgetTokens := 30
  fixed := [{ id := "m", source := "mission", content := units "one two three" }]
  candidates := [{ id := "f", source := "file", content := units "a b c d e f g h i j k l", allowTruncate := some true, maxTokens := some 14 }]

theorem plan_keeps_books_short : ∃ plan, planContext (.byWeight String.length) shortPlanInput = .ok plan ∧
    plan.selected.map (·.truncated) = [false, true] ∧ plan.usedTokens = costOf plan.selected ∧ plan.usedTokens ≤ plan.budgetTokens := by
  have evaluated : (planContext (.byWeight String.length) shortPlanInput).toOption.any
      (fun plan => plan.selected.map (·.truncated) == [false, true]) = true := by decide +kernel
  cases made : planContext (.byWeight String.length) shortPlanInput with
  | error message =>
    rw [made] at evaluated
    cases evaluated
  | ok plan =>
    rw [made] at evaluated
    obtain ⟨_, _, -, -, -, books⟩ := plan_keeps_books _ _ plan made
    exact ⟨plan, rfl, by simpa [Except.toOption] using evaluated, books.spent, books.within⟩

end OttiliCoder.Planner
