import Mathlib.Algebra.BigOperators.Group.List.Basic

/-! Charges that count once a key. A charge may carry a key, and only the first charge
under a key counts; charges without one always do. -/

namespace Tally

variable {α κ : Type} [DecidableEq κ] {keyOf : α → Option κ}

/-- An item under the same key is there already. -/
def repeats (keyOf : α → Option κ) (items : List α) (item : α) : Bool :=
  (keyOf item).any fun k => items.any fun other => keyOf other == some k

/-- The items without a key and the first item of each key, in order. -/
def firsts (keyOf : α → Option κ) (items : List α) : List α :=
  items.foldl (fun kept item => if repeats keyOf kept item then kept else kept ++ [item]) []

theorem firsts_concat (items : List α) (item : α) :
    firsts keyOf (items ++ [item]) =
      if repeats keyOf (firsts keyOf items) item then firsts keyOf items else firsts keyOf items ++ [item] := by
  rw [firsts, List.foldl_append]
  rfl

/-- The items that carry a key. -/
def keyed (keyOf : α → Option κ) (items : List α) : List α := items.filter fun item => (keyOf item).isSome

theorem repeats_keyed (items : List α) (item : α) : repeats keyOf (keyed keyOf items) item = repeats keyOf items item := by
  unfold repeats keyed
  cases keyOf item with
  | none => rfl
  | some k =>
    rw [Option.any_some, Option.any_some, List.any_filter]
    congr 1
    funext other
    cases keyOf other <;> rfl

omit [DecidableEq κ] in
theorem keyed_concat (items : List α) (item : α) :
    keyed keyOf (items ++ [item]) = keyed keyOf items ++ if (keyOf item).isSome then [item] else [] := by
  simp only [keyed, List.filter_append, List.filter_cons, List.filter_nil]

end Tally
