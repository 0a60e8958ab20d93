import Mathlib.Data.List.Infix

/-! Where a pattern first occurs in a list. -/

namespace Search
variable {α : Type} [DecidableEq α]

def indexOf (pattern : List α) : List α → Option Nat
  | [] => if pattern.isEmpty then some 0 else none
  | first :: rest => if pattern.isPrefixOf (first :: rest) then some 0 else (indexOf pattern rest).map (· + 1)

/-- The pattern stands at this place. -/
def At (pattern list : List α) (place : Nat) : Prop := pattern <+: list.drop place

instance (pattern list : List α) (place : Nat) : Decidable (At pattern list place) :=
  inferInstanceAs (Decidable (_ <+: _))

variable {pattern list : List α} {place : Nat}

theorem indexOf_eq_some_iff : indexOf pattern list = some place ↔
    place ≤ list.length ∧ At pattern list place ∧ ∀ earlier < place, ¬At pattern list earlier := by
  induction list generalizing place with
  | nil =>
    unfold indexOf At
    cases pattern with
    | nil =>
      constructor
      · intro found
        obtain rfl := Option.some.inj found
        exact ⟨Nat.le_refl _, List.prefix_refl _, fun earlier less => absurd less (Nat.not_lt_zero _)⟩
      · rintro ⟨bound, _, _⟩
        rw [Nat.le_zero.mp bound]
        rfl
    | cons first rest => simp
  | cons first rest ih =>
    unfold indexOf
    split
    · next starts =>
      have here : At pattern (first :: rest) 0 := List.isPrefixOf_iff_prefix.mp starts
      constructor
      · intro found
        obtain rfl := Option.some.inj found
        exact ⟨Nat.zero_le _, here, fun earlier less => absurd less (Nat.not_lt_zero _)⟩
      · rintro ⟨_, _, first⟩
        cases place with
        | zero => rfl
        | succ place => exact absurd here (first 0 (Nat.succ_pos _))
    · next starts =>
      have elsewhere : ¬At pattern (first :: rest) 0 := fun here => starts (List.isPrefixOf_iff_prefix.mpr here)
      rw [Option.map_eq_some_iff]
      constructor
      · rintro ⟨before, found, same⟩
        obtain rfl := same
        obtain ⟨bound, here, minimal⟩ := ih.mp found
        refine ⟨Nat.succ_le_succ bound, here, ?_⟩
        intro earlier less
        cases earlier with
        | zero => exact elsewhere
        | succ earlier => exact minimal earlier (Nat.lt_of_succ_lt_succ less)
      · rintro ⟨bound, here, minimal⟩
        cases place with
        | zero => exact absurd here elsewhere
        | succ place =>
          refine ⟨place, ih.mpr ⟨Nat.le_of_succ_le_succ bound, here, ?_⟩, rfl⟩
          exact fun earlier less => minimal (earlier + 1) (Nat.succ_lt_succ less)

theorem indexOf_eq_none_iff (some : pattern ≠ []) : indexOf pattern list = none ↔ ∀ place, ¬At pattern list place := by
  constructor
  · intro none place here
    induction list generalizing place with
    | nil => simp [At, some] at here
    | cons first rest ih =>
      unfold indexOf at none
      split at none
      · cases none
      · next starts =>
        cases place with
        | zero => exact starts (List.isPrefixOf_iff_prefix.mpr here)
        | succ place => exact ih (Option.map_eq_none_iff.mp none) place here
  · intro nowhere
    cases found : indexOf pattern list with
    | none => rfl
    | some place => exact absurd (indexOf_eq_some_iff.mp found).2.1 (nowhere place)

/-- The items of a pattern where it stands. -/
theorem At.get (here : At pattern list place) (offset : Nat) (inside : offset < pattern.length) :
    list[place + offset]? = some pattern[offset] := by
  rw [← List.getElem?_drop]
  exact List.prefix_iff_getElem?.mp here offset inside

theorem At.bound (here : At pattern list place) (some : pattern ≠ []) : place + pattern.length ≤ list.length := by
  have length := List.IsPrefix.length_le here
  rw [List.length_drop] at length
  have := List.length_pos_of_ne_nil some
  omega

theorem At.append (here : At pattern list place) (some : pattern ≠ []) (more : List α) : At pattern (list ++ more) place := by
  have bound := here.bound some
  unfold At
  rw [List.drop_append_of_le_length (by omega)]
  exact List.IsPrefix.trans here (List.prefix_append _ _)

theorem At.of_append {more : List α} (here : At pattern (list ++ more) place) (bound : place + pattern.length ≤ list.length) :
    At pattern list place := by
  unfold At at here ⊢
  rw [List.drop_append_of_le_length (by omega)] at here
  refine List.prefix_of_prefix_length_le here (List.prefix_append _ _) ?_
  rw [List.length_drop]
  omega

/-- A pattern is found where it is whatever follows. -/
theorem indexOf_append (some : pattern ≠ []) (found : indexOf pattern list = .some place) (more : List α) :
    indexOf pattern (list ++ more) = .some place := by
  obtain ⟨bound, here, minimal⟩ := indexOf_eq_some_iff.mp found
  have inside := here.bound some
  refine indexOf_eq_some_iff.mpr ⟨?_, here.append some more, ?_⟩
  · rw [List.length_append]
    omega
  · intro earlier less there
    exact minimal earlier less (there.of_append (by omega))

end Search
