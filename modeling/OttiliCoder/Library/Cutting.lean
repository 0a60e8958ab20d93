import Mathlib.Data.List.Infix

/-! Items cut off the front of a buffer, which is there as a whole or arrives piece by piece. -/

namespace Cutting
variable {α Item : Type}

/-- How the first item is cut off, and what is left then. What arrives later changes no complete item. -/
structure Cutter (α Item : Type) where
  cut : List α → Option (Item × List α)
  shorter : ∀ {buffer item rest}, cut buffer = some (item, rest) → rest.length < buffer.length
  stable : ∀ {buffer item rest} (more : List α), cut buffer = some (item, rest) → cut (buffer ++ more) = some (item, rest ++ more)

namespace Cutter
variable (cutter : Cutter α Item)

/-- At most so many items, and what is left. -/
def cutMany : Nat → List α → List Item × List α
  | 0, buffer => ([], buffer)
  | count + 1, buffer =>
    match cutter.cut buffer with
    | none => ([], buffer)
    | some (item, rest) => (item :: (cutMany count rest).1, (cutMany count rest).2)

attribute [grind =] cutMany

/-- All items, and what is left: there are no more of them than the buffer is long. -/
def cutAll (buffer : List α) : List Item × List α := cutter.cutMany buffer.length buffer

variable {cutter} {buffer rest : List α} {item : Item}

theorem cutMany_none (none : cutter.cut buffer = none) (count : Nat) : cutter.cutMany count buffer = ([], buffer) := by
  cases count with
  | zero => rfl
  | succ count => rw [cutMany, none]

theorem cutMany_enough {count other : Nat} (enough : buffer.length ≤ count) (too : buffer.length ≤ other) :
    cutter.cutMany count buffer = cutter.cutMany other buffer := by
  induction count generalizing other buffer with
  | zero =>
    obtain rfl := List.eq_nil_of_length_eq_zero (Nat.le_zero.mp enough)
    have none : cutter.cut [] = none := by
      cases cut : cutter.cut [] with
      | none => rfl
      | some found => exact absurd (cutter.shorter cut) (Nat.not_lt_zero _)
    rw [cutMany_none none, cutMany_none none]
  | succ count ih =>
    cases cut : cutter.cut buffer with
    | none => rw [cutMany_none cut, cutMany_none cut]
    | some found =>
      obtain ⟨item, rest⟩ := found
      have shorter := cutter.shorter cut
      obtain ⟨other, rfl⟩ : ∃ fewer, other = fewer + 1 := Nat.exists_eq_succ_of_ne_zero (by omega)
      rw [cutMany, cutMany, cut]
      dsimp only
      rw [ih (by omega) (by omega : rest.length ≤ other)]

theorem cutAll_none (none : cutter.cut buffer = none) : cutter.cutAll buffer = ([], buffer) := cutMany_none none _

theorem cutAll_some (cut : cutter.cut buffer = some (item, rest)) :
    cutter.cutAll buffer = (item :: (cutter.cutAll rest).1, (cutter.cutAll rest).2) := by
  have shorter := cutter.shorter cut
  obtain ⟨count, length⟩ : ∃ count, buffer.length = count + 1 := Nat.exists_eq_succ_of_ne_zero (by omega)
  rw [cutAll, length, cutMany, cut]
  dsimp only
  rw [cutMany_enough (by omega) (Nat.le_refl _)]
  rfl

/-- A buffer is cut to its end item by item. -/
theorem cutting (cutter : Cutter α Item) {motive : List α → Prop} (nothing : ∀ buffer, cutter.cut buffer = none → motive buffer)
    (item : ∀ buffer item rest, cutter.cut buffer = some (item, rest) → motive rest → motive buffer) (buffer : List α) :
    motive buffer := by
  induction length : buffer.length using Nat.strongRecOn generalizing buffer with
  | ind count ih =>
    cases cut : cutter.cut buffer with
    | none => exact nothing buffer cut
    | some found => exact item buffer found.1 found.2 cut (ih found.2.length (length ▸ cutter.shorter cut) found.2 rfl)

/-- What is left is not cut further. -/
theorem cut_left (buffer : List α) : cutter.cut (cutter.cutAll buffer).2 = none := by
  induction buffer using cutting cutter with
  | nothing buffer none => rwa [cutAll_none none]
  | item buffer item rest cut ih => rwa [cutAll_some cut]

/-- What arrives later is cut together with what was left. -/
theorem cutAll_append (first second : List α) : cutter.cutAll (first ++ second) =
    ((cutter.cutAll first).1 ++ (cutter.cutAll ((cutter.cutAll first).2 ++ second)).1,
      (cutter.cutAll ((cutter.cutAll first).2 ++ second)).2) := by
  induction first using cutting cutter with
  | nothing buffer none => rw [cutAll_none none, List.nil_append]
  | item buffer item rest cut ih => rw [cutAll_some cut, cutAll_some (cutter.stable second cut), ih, List.cons_append]

/-- A piece arrives: the items it completes are added to those before. -/
def feed (cutter : Cutter α Item) (so : List Item × List α) (piece : List α) : List Item × List α :=
  (so.1 ++ (cutter.cutAll (so.2 ++ piece)).1, (cutter.cutAll (so.2 ++ piece)).2)

/-- However the buffer arrives, the same items are cut off it. -/
theorem feed_pieces (pieces : List (List α)) (start : List α) :
    pieces.foldl cutter.feed (cutter.cutAll start) = cutter.cutAll (start ++ pieces.flatten) := by
  induction pieces generalizing start with
  | nil => rw [List.foldl_nil, List.flatten_nil, List.append_nil]
  | cons piece rest ih =>
    have fed : cutter.feed (cutter.cutAll start) piece = cutter.cutAll (start ++ piece) := (cutAll_append start piece).symm
    rw [List.foldl_cons, fed, ih, List.append_assoc, List.flatten_cons]

end Cutter

end Cutting
