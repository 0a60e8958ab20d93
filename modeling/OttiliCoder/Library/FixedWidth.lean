import Mathlib.Data.List.Basic
import Mathlib.Tactic.Linarith

/-! Decimal texts of a fixed width, and records of them: they are ordered as their numbers are. -/

namespace FixedWidth

/-- Texts that differ within their first parts, of one length, are ordered by them. -/
theorem append_lt_append {first second rest later : List Char} (same : first.length = second.length) (less : first < second) :
    first ++ rest < second ++ later := by
  induction first generalizing second with
  | nil =>
    obtain rfl : second = [] := List.length_eq_zero_iff.mp same.symm
    exact absurd less (List.lt_irrefl [])
  | cons head tail ih =>
    cases second with
    | nil => cases same
    | cons head' tail' =>
      rw [List.cons_append, List.cons_append, List.cons_lt_cons_iff]
      rcases List.cons_lt_cons_iff.mp less with differs | ⟨equal, less⟩
      · exact .inl differs
      · exact .inr ⟨equal, ih (Nat.succ.inj same) less⟩

/-- The last `width` decimal digits of a number. -/
def digits : Nat → Nat → List Char
  | 0, _ => []
  | width + 1, n => digits width (n / 10) ++ [Nat.digitChar (n % 10)]

theorem digits_length (width n : Nat) : (digits width n).length = width := by
  induction width generalizing n with
  | zero => rfl
  | succ width ih => rw [digits, List.length_append, ih, List.length_singleton]

theorem digitChar_lt {a b : Nat} (less : a < b) (small : b < 10) : Nat.digitChar a < Nat.digitChar b := by
  have all : ∀ b : Fin 10, ∀ a : Fin 10, a < b → Nat.digitChar a.val < Nat.digitChar b.val := by decide
  exact all ⟨b, small⟩ ⟨a, by omega⟩ less

theorem digits_lt {width a b : Nat} (less : a < b) (small : b < 10 ^ width) : digits width a < digits width b := by
  induction width generalizing a b with
  | zero =>
    rw [pow_zero] at small
    omega
  | succ width ih =>
    rw [digits, digits]
    have shorter : b / 10 < 10 ^ width := by
      rw [pow_succ] at small
      omega
    by_cases leading : a / 10 < b / 10
    · exact append_lt_append (by rw [digits_length, digits_length]) (ih leading shorter)
    · have same : a / 10 = b / 10 := by omega
      rw [same]
      apply List.append_left_lt
      exact List.cons_lt_cons_iff.mpr (.inl (digitChar_lt (by omega) (by omega)))

/-- A number starts with a digit. -/
theorem digits_head (width n : Nat) : ∃ first rest, digits (width + 1) n = first :: rest ∧ '0' ≤ first := by
  induction width generalizing n with
  | zero =>
    have all : ∀ digit : Fin 10, '0' ≤ Nat.digitChar digit.val := by decide
    exact ⟨_, [], rfl, all ⟨n % 10, Nat.mod_lt n (by decide)⟩⟩
  | succ width ih =>
    obtain ⟨first, rest, starts, digit⟩ := ih (n / 10)
    exact ⟨first, rest ++ [Nat.digitChar (n % 10)], by rw [digits, starts, List.cons_append], digit⟩

/-- A sign that stands before the digits stands before every number. -/
theorem signed_lt {sign : Char} {width n : Nat} {signed rest : List Char} (before : sign < '0') :
    sign :: signed < digits (width + 1) n ++ rest := by
  obtain ⟨first, others, starts, digit⟩ := digits_head width n
  rw [starts, List.cons_append]
  exact List.cons_lt_cons_iff.mpr (.inl (Std.lt_of_lt_of_le before digit))

theorem digits_zero (width : Nat) : digits width 0 = List.replicate width '0' := by
  induction width with
  | zero => rfl
  | succ width ih =>
    rw [digits, Nat.zero_div, ih, List.replicate_succ']
    rfl

/-- A short number is its own digits, with zeros in front. -/
theorem padded (width n : Nat) (small : n < 10 ^ (width + 1)) :
    List.replicate (width + 1 - (Nat.toDigits 10 n).length) '0' ++ Nat.toDigits 10 n = digits (width + 1) n := by
  induction width generalizing n with
  | zero =>
    have single : n < 10 := by simpa using small
    rw [Nat.toDigits_of_lt_base single, digits, digits, Nat.mod_eq_of_lt single]
    rfl
  | succ width ih =>
    by_cases single : n < 10
    · rw [Nat.toDigits_of_lt_base single, digits, Nat.div_eq_of_lt single, digits_zero, Nat.mod_eq_of_lt single]
      rfl
    · have shorter : n / 10 < 10 ^ (width + 1) := by
        rw [pow_succ] at small
        omega
      rw [Nat.toDigits_of_base_le (by decide) (by omega), digits, ← ih (n / 10) shorter, List.append_assoc, List.length_append,
        List.length_singleton, Nat.add_sub_add_right]

/-- Fields of given widths, each with a separator behind it. -/
def record : List (Nat × Char) → List Nat → List Char
  | (width, separator) :: widths, value :: values => digits width value ++ separator :: record widths values
  | _, _ => []

/-- Each value fits its field. -/
def Fits : List (Nat × Char) → List Nat → Prop
  | [], [] => True
  | (width, _) :: widths, value :: values => value < 10 ^ width ∧ Fits widths values
  | _, _ => False

theorem record_lt {widths : List (Nat × Char)} {first second : List Nat} (fits : Fits widths first) (fits' : Fits widths second)
    (less : first < second) : record widths first < record widths second := by
  induction widths generalizing first second with
  | nil =>
    cases first with
    | nil =>
      cases second with
      | nil => exact absurd less (List.lt_irrefl [])
      | cons _ _ => exact fits'.elim
    | cons _ _ => exact fits.elim
  | cons field widths ih =>
    cases first with
    | nil => exact fits.elim
    | cons value values =>
      cases second with
      | nil => exact fits'.elim
      | cons value' values' =>
        rcases List.cons_lt_cons_iff.mp less with smaller | ⟨rfl, later⟩
        · exact append_lt_append (by rw [digits_length, digits_length]) (digits_lt smaller fits'.1)
        · apply List.append_left_lt
          exact List.cons_lt_cons_iff.mpr (.inr ⟨rfl, ih fits.2 fits'.2 later⟩)

end FixedWidth
