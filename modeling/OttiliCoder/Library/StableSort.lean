import Mathlib.Data.List.Sort
import Mathlib.Order.Compare

/-! Sorting rows by a text with a comparator that may take different texts to be
equal. The sort is stable, so its result is known from the rows of each class of
equal texts, in the order they had. -/

namespace StableSort

/-- How a locale compares two texts: a total preorder. -/
structure Collation where
  compare : String → String → Ordering
  oriented : ∀ left right, compare right left = (compare left right).swap
  transitive : ∀ first second third, compare first second ≠ .gt → compare second third ≠ .gt → compare first third ≠ .gt

namespace Collation
variable {α : Type} (collation : Collation)

def AtMost (left right : String) : Prop := collation.compare left right ≠ .gt

instance (left right : String) : Decidable (collation.AtMost left right) := by
  unfold AtMost
  infer_instance

/-- `rows.sort((left, right) => left.key.localeCompare(right.key))`. -/
def sortOn (key : α → String) (rows : List α) : List α :=
  rows.insertionSort fun left right => collation.AtMost (key left) (key right)

/-- The comparator does not tell the two texts apart. -/
def Ties (left right : String) : Prop := collation.compare left right = .eq

instance (left right : String) : Decidable (collation.Ties left right) := by
  unfold Ties
  infer_instance

/-- A locale that compares texts by their weights. -/
def byWeight {β : Type} [LinearOrder β] (weight : String → β) : Collation where
  compare left right := cmp (weight left) (weight right)
  oriented left right := (cmp_swap (weight left) (weight right)).symm
  transitive _ _ _ up upward :=
    (cmp_compares _ _).ne_gt.mpr (((cmp_compares _ _).ne_gt.mp up).trans ((cmp_compares _ _).ne_gt.mp upward))

end Collation

section Order
variable {α : Type} {collation : Collation} {key : α → String} {rows others : List α} {left right : String}

theorem ties_iff : collation.Ties left right ↔ collation.AtMost left right ∧ collation.AtMost right left := by
  unfold Collation.Ties Collation.AtMost
  rw [collation.oriented left right]
  cases collation.compare left right <;> simp [Ordering.swap]

theorem ties_refl (text : String) : collation.Ties text text := by
  have oriented := collation.oriented text text
  unfold Collation.Ties
  cases same : collation.compare text text <;> simp [same, Ordering.swap] at oriented ⊢

theorem Collation.Ties.symm (ties : collation.Ties left right) : collation.Ties right left :=
  ties_iff.mpr (ties_iff.mp ties).symm

theorem Collation.Ties.trans {third : String} (first : collation.Ties left right) (second : collation.Ties right third) :
    collation.Ties left third := by
  obtain ⟨up, down⟩ := ties_iff.mp first
  obtain ⟨upward, downward⟩ := ties_iff.mp second
  exact ties_iff.mpr ⟨collation.transitive _ _ _ up upward, collation.transitive _ _ _ downward down⟩

instance : Std.Total fun one other : α => collation.AtMost (key one) (key other) where
  total one other := by
    unfold Collation.AtMost
    rw [collation.oriented (key one) (key other)]
    cases collation.compare (key one) (key other) <;> simp [Ordering.swap]

instance : IsTrans α fun one other : α => collation.AtMost (key one) (key other) where
  trans one other third := collation.transitive (key one) (key other) (key third)

theorem sortOn_sorted : (collation.sortOn key rows).Pairwise fun one other => collation.AtMost (key one) (key other) :=
  List.pairwise_insertionSort _ rows

theorem sortOn_perm : (collation.sortOn key rows).Perm rows := List.perm_insertionSort _ rows

@[simp] theorem mem_sortOn {row : α} : row ∈ collation.sortOn key rows ↔ row ∈ rows := sortOn_perm.mem_iff

/-- The rows whose text ties with a given one. -/
def tied (collation : Collation) (key : α → String) (text : String) (rows : List α) : List α :=
  rows.filter fun row => collation.Ties text (key row)

theorem mem_tied {text : String} {row : α} :
    row ∈ tied collation key text rows ↔ row ∈ rows ∧ collation.Ties text (key row) := by
  simp [tied]

/-- Rows that tie keep their order. -/
theorem tied_sortOn (text : String) : tied collation key text (collation.sortOn key rows) = tied collation key text rows := by
  have sorted : (tied collation key text rows).Pairwise fun one other => collation.AtMost (key one) (key other) := by
    apply List.pairwise_of_forall_mem_list
    intro one first other second
    exact (ties_iff.mp ((mem_tied.mp first).2.symm.trans (mem_tied.mp second).2)).1
  have kept : (tied collation key text rows).Sublist (collation.sortOn key rows) :=
    List.sublist_insertionSort sorted List.filter_sublist
  have within : (tied collation key text rows).Sublist (tied collation key text (collation.sortOn key rows)) := by
    have filtered := kept.filter fun row => decide (collation.Ties text (key row))
    simpa only [tied, List.filter_filter, Bool.and_self] using filtered
  exact (within.eq_of_length (sortOn_perm.filter _).length_eq.symm).symm

/-- Sorted rows are known from what they hold of each class of equal texts. -/
theorem eq_of_tied (sorted : rows.Pairwise fun one other => collation.AtMost (key one) (key other))
    (ordered : others.Pairwise fun one other => collation.AtMost (key one) (key other))
    (same : ∀ text, tied collation key text rows = tied collation key text others) : rows = others := by
  induction rows generalizing others with
  | nil =>
    cases others with
    | nil => rfl
    | cons other others =>
      have present : other ∈ tied collation key (key other) (other :: others) := mem_tied.mpr ⟨by simp, ties_refl _⟩
      rw [← same] at present
      cases present
  | cons row rows ih =>
    have present : row ∈ tied collation key (key row) (row :: rows) := mem_tied.mpr ⟨by simp, ties_refl _⟩
    rw [same] at present
    cases others with
    | nil => cases present
    | cons other others =>
      have there : other ∈ tied collation key (key other) (other :: others) := mem_tied.mpr ⟨by simp, ties_refl _⟩
      rw [← same] at there
      have up : collation.AtMost (key row) (key other) := by
        rcases List.mem_cons.mp (mem_tied.mp there).1 with rfl | later
        · exact (ties_iff.mp (ties_refl _)).1
        · exact (List.pairwise_cons.mp sorted).1 other later
      have down : collation.AtMost (key other) (key row) := by
        rcases List.mem_cons.mp (mem_tied.mp present).1 with rfl | later
        · exact (ties_iff.mp (ties_refl _)).1
        · exact (List.pairwise_cons.mp ordered).1 row later
      have ties : collation.Ties (key row) (key other) := ties_iff.mpr ⟨up, down⟩
      have first := same (key row)
      simp only [tied, List.filter_cons, ties_refl, ties, decide_true, if_true] at first
      obtain ⟨rfl, -⟩ := List.cons.inj first
      congr 1
      refine ih (List.pairwise_cons.mp sorted).2 (List.pairwise_cons.mp ordered).2 fun text => ?_
      have whole := same text
      simp only [tied, List.filter_cons] at whole
      split at whole
      next => exact (List.cons.inj whole).2
      next => exact whole

/-- Two lists of rows sort alike when they hold each class of equal texts in one order. -/
theorem sortOn_eq_iff :
    collation.sortOn key rows = collation.sortOn key others ↔
      ∀ text, tied collation key text rows = tied collation key text others := by
  constructor
  · intro same text
    rw [← tied_sortOn, same, tied_sortOn]
  · intro same
    refine eq_of_tied sortOn_sorted sortOn_sorted fun text => ?_
    rw [tied_sortOn, tied_sortOn, same]

theorem sortOn_sortOn : collation.sortOn key (collation.sortOn key rows) = collation.sortOn key rows :=
  sortOn_eq_iff.mpr fun _ => tied_sortOn _

/-- Lists that sort alike still do when the same rows are added to both. -/
theorem sortOn_append (same : collation.sortOn key rows = collation.sortOn key others) (added : List α) :
    collation.sortOn key (rows ++ added) = collation.sortOn key (others ++ added) := by
  rw [sortOn_eq_iff] at same ⊢
  intro text
  simp only [tied, List.filter_append] at same ⊢
  rw [same]

/-- Lists that sort alike still do when their rows are rewritten alike, each keeping its text. -/
theorem sortOn_map (same : collation.sortOn key rows = collation.sortOn key others) {f : α → α}
    (keeps : ∀ row ∈ rows, key (f row) = key row) : collation.sortOn key (rows.map f) = collation.sortOn key (others.map f) := by
  have members : ∀ row ∈ others, key (f row) = key row := by
    intro row member
    have sorted : row ∈ collation.sortOn key others := mem_sortOn.mpr member
    rw [← same, mem_sortOn] at sorted
    exact keeps row sorted
  rw [sortOn_eq_iff] at same ⊢
  intro text
  have rewritten : ∀ list : List α, (∀ row ∈ list, key (f row) = key row) →
      tied collation key text (list.map f) = (tied collation key text list).map f := by
    intro list kept
    rw [tied, List.filter_map, tied]
    congr 1
    apply List.filter_congr
    intro row member
    rw [Function.comp_apply, kept row member]
  rw [rewritten rows keeps, rewritten others members, same]

/-- Rows no two of which tie sort into the one sorted order they have. -/
theorem sortOn_of_perm (perm : rows.Perm others) (apart : ∀ one ∈ rows, ∀ other ∈ rows, collation.Ties (key one) (key other) → one = other) :
    collation.sortOn key rows = collation.sortOn key others := by
  refine List.Perm.eq_of_pairwise (fun one other first second up down => ?_) sortOn_sorted sortOn_sorted
    (sortOn_perm.trans (perm.trans sortOn_perm.symm))
  exact apart one (mem_sortOn.mp first) other (perm.mem_iff.mpr (mem_sortOn.mp second)) (ties_iff.mpr ⟨up, down⟩)

end Order

/-! What leads all the others. -/

/-- A row that is before every other comes first, and the others keep the order they have without it. -/
theorem insertionSort_leading {α : Type} {r : α → α → Prop} [DecidableRel r] {first rest : List α} {row : α}
    (leads : ∀ other ∈ first ++ rest, r row other ∧ ¬r other row) :
    (first ++ row :: rest).insertionSort r = row :: (first ++ rest).insertionSort r := by
  induction first with
  | nil =>
    rw [List.nil_append, List.nil_append, List.insertionSort_cons]
    cases sorted : rest.insertionSort r with
    | nil => rfl
    | cons other others =>
      have listed : other ∈ rest := (List.mem_insertionSort r).mp (sorted ▸ List.mem_cons_self)
      exact List.orderedInsert_cons_of_le r others (leads other listed).1
  | cons earlier first ih =>
    rw [List.cons_append, List.insertionSort_cons, ih fun other listed => leads other (List.mem_cons_of_mem _ listed),
      List.orderedInsert_of_not_le r _ (leads earlier List.mem_cons_self).2]
    rfl

/-- An order that follows from the comparator, whichever way it decides, is kept though the comparator be no order. -/
theorem pairwise_insertionSort_of {α : Type} {r s : α → α → Prop} [DecidableRel r] [IsTrans α s] (before : ∀ row other, r row other → s row other)
    (after : ∀ row other, ¬r row other → s other row) (rows : List α) : (rows.insertionSort r).Pairwise s := by
  induction rows with
  | nil => exact .nil
  | cons row rows ih =>
    rw [List.insertionSort_cons]
    generalize rows.insertionSort r = sorted at ih
    induction sorted with
    | nil => exact List.pairwise_singleton s row
    | cons first sorted insert =>
      obtain ⟨ahead, rest⟩ := List.pairwise_cons.mp ih
      by_cases decided : r row first
      · rw [List.orderedInsert_cons_of_le r sorted decided]
        refine .cons ?_ ih
        intro other listed
        rcases List.mem_cons.mp listed with rfl | later
        · exact before row other decided
        · exact IsTrans.trans _ _ _ (before row first decided) (ahead other later)
      · rw [List.orderedInsert_of_not_le r sorted decided]
        refine .cons ?_ (insert rest)
        intro other listed
        rcases (List.mem_orderedInsert r).mp listed with rfl | later
        · exact after other first decided
        · exact ahead other later

/-! What is sorted of a part. -/

section Part
variable {α : Type} {r : α → α → Prop} [DecidableRel r] [IsTrans α r]

theorem orderedInsert_filter {kept : α → Bool} {row : α} {rows : List α} (keeps : kept row = true) (sorted : rows.Pairwise r) :
    (rows.orderedInsert r row).filter kept = (rows.filter kept).orderedInsert r row := by
  induction rows with
  | nil => simp [keeps]
  | cons first rows ih =>
    obtain ⟨ahead, sorted⟩ := List.pairwise_cons.mp sorted
    by_cases before : r row first
    · rw [List.orderedInsert_cons_of_le r rows before, List.filter_cons_of_pos keeps]
      cases part : (first :: rows).filter kept with
      | nil => rfl
      | cons other others =>
        have listed : other ∈ first :: rows := List.mem_of_mem_filter (part ▸ List.mem_cons_self)
        have earlier : r row other := by
          rcases List.mem_cons.mp listed with rfl | later
          · exact before
          · exact IsTrans.trans _ _ _ before (ahead other later)
        rw [List.orderedInsert_cons_of_le r others earlier]
    · rw [List.orderedInsert_of_not_le r rows before]
      by_cases stays : kept first = true
      · rw [List.filter_cons_of_pos stays, List.filter_cons_of_pos stays, ih sorted, List.orderedInsert_of_not_le r _ before]
      · rw [List.filter_cons_of_neg stays, List.filter_cons_of_neg stays, ih sorted]

/-- The rows that are kept are sorted as they are sorted among the others. -/
theorem insertionSort_filter [Std.Total r] (kept : α → Bool) (rows : List α) :
    (rows.insertionSort r).filter kept = (rows.filter kept).insertionSort r := by
  induction rows with
  | nil => rfl
  | cons row rows ih =>
    rw [List.insertionSort_cons]
    by_cases keeps : kept row = true
    · rw [orderedInsert_filter keeps (List.pairwise_insertionSort r rows), ih, List.filter_cons_of_pos keeps, List.insertionSort_cons]
    · rw [List.filter_cons_of_neg keeps, ← ih]
      have perm : ∀ sorted : List α, (sorted.orderedInsert r row).filter kept = sorted.filter kept := by
        intro sorted
        induction sorted with
        | nil => simp [keeps]
        | cons first sorted ih =>
          rw [List.orderedInsert]
          split
          · rw [List.filter_cons_of_neg keeps]
          · rw [List.filter_cons, List.filter_cons, ih]
      exact perm _

end Part

end StableSort
