import Mathlib.Order.Monotone.Basic

/-! Bisection: the last number that passes a test which no number passes after one has
failed it. -/

namespace Bisection

/-- The search below `stop`, with what has passed so far; `rounds` bounds its length. -/
def lastFitting (fits : Nat → Bool) : Nat → Nat → Nat → Option Nat → Option Nat
  | 0, _, _, found => found
  | rounds + 1, low, stop, found =>
    if low < stop then
      let middle := (low + stop - 1) / 2
      if fits middle then lastFitting fits rounds (middle + 1) stop (some middle)
      else lastFitting fits rounds low middle found
    else found

/-- What a search has found is the last number below `low` that fits. -/
def Found (fits : Nat → Bool) (low : Nat) : Option Nat → Prop
  | none => low = 0
  | some last => fits last = true ∧ low = last + 1

section Search
variable {fits : Nat → Bool}

/-- The search keeps that the numbers from `stop` on do not fit. -/
theorem lastFitting_found (falls : ∀ n, fits (n + 1) = true → fits n = true) :
    ∀ (rounds low stop : Nat) (found : Option Nat), stop ≤ low + rounds → low ≤ stop → Found fits low found →
      (∀ n, stop ≤ n → fits n = false) →
      ∃ next, Found fits next (lastFitting fits rounds low stop found) ∧ ∀ n, next ≤ n → fits n = false := by
  have lower : ∀ gap n, fits (n + gap) = true → fits n = true := by
    intro gap
    induction gap with
    | zero => exact fun _ passes => passes
    | succ gap ih => exact fun n passes => ih n (falls _ passes)
  intro rounds
  induction rounds with
  | zero =>
    intro low stop found short ordered known above
    exact ⟨low, known, fun n beyond => above n (by omega)⟩
  | succ rounds ih =>
    intro low stop found short ordered known above
    rw [lastFitting]
    split
    · next inside =>
      simp only
      split
      · next passes => exact ih _ stop _ (by omega) (by omega) ⟨passes, rfl⟩ above
      · next fails =>
        apply ih low _ found (by omega) (by omega) known
        intro n beyond
        apply Bool.eq_false_iff.mpr
        intro passes
        apply fails
        apply lower (n - (low + stop - 1) / 2)
        rwa [Nat.add_sub_cancel' beyond]
    · next outside => exact ⟨low, known, fun n beyond => above n (by omega)⟩

/-- The search returns the last of all the numbers that fit. -/
theorem lastFitting_last (falls : ∀ n, fits (n + 1) = true → fits n = true) {stop : Nat}
    (above : ∀ n, stop ≤ n → fits n = false) :
    match lastFitting fits stop 0 stop none with
    | none => fits 0 = false
    | some last => fits last = true ∧ ∀ n, last < n → fits n = false := by
  obtain ⟨next, known, beyond⟩ :=
    lastFitting_found falls stop 0 stop none (by omega) (Nat.zero_le stop) rfl above
  cases found : lastFitting fits stop 0 stop none with
  | none =>
    rw [found] at known
    exact beyond 0 (Nat.le_of_eq known)
  | some last =>
    rw [found] at known
    exact ⟨known.1, fun n later => beyond n (known.2 ▸ later)⟩

end Search

end Bisection
