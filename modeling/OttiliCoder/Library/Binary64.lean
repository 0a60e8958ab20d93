import Mathlib.Data.Int.Log
import Mathlib.Data.Rat.Floor
import Mathlib.Tactic.Linarith
import Mathlib.Tactic.Positivity

/-! The finite double-precision numbers as rationals, and rounding to the nearest of them. -/

namespace Binary64

def Representable (value : ℚ) : Prop :=
  ∃ significand exponent : ℤ, |significand| < 2 ^ 53 ∧ -1074 ≤ exponent ∧ exponent ≤ 971 ∧
    value = significand * 2 ^ exponent

structure Double where
  value : ℚ
  representable : Representable value

instance : DecidableEq Double := fun first second =>
  decidable_of_iff (first.value = second.value) (by cases first; cases second; simp)

/-- The nearest integer, the even one of two that are as near. -/
def roundHalfEven (value : ℚ) : ℤ :=
  let below := ⌊value⌋
  let rest := value - below
  if rest < 1 / 2 then below
  else if 1 / 2 < rest then below + 1
  else if below % 2 = 0 then below
  else below + 1

/-- The exponent of the last place of the doubles around a value. -/
def lastPlace (value : ℚ) : ℤ := max (Int.log 2 |value| - 52) (-1074)

/-- Rounding with no bound on the exponent. -/
def roundValue (value : ℚ) : ℚ := roundHalfEven (value / 2 ^ lastPlace value) * 2 ^ lastPlace value

theorem roundHalfEven_intCast (n : ℤ) : roundHalfEven n = n := by
  simp [roundHalfEven]

theorem roundHalfEven_bounds (value : ℚ) : ⌊value⌋ ≤ roundHalfEven value ∧ roundHalfEven value ≤ ⌊value⌋ + 1 := by
  unfold roundHalfEven
  dsimp only
  split
  · omega
  · split
    · omega
    · split <;> omega

theorem abs_roundHalfEven_le {value : ℚ} {bound : ℤ} (below : |value| < bound) : |roundHalfEven value| ≤ bound := by
  obtain ⟨low, high⟩ := abs_lt.mp below
  have lower : -bound ≤ ⌊value⌋ := Int.le_floor.mpr (by push_cast; exact low.le)
  have upper : ⌊value⌋ < bound := Int.floor_lt.mpr high
  obtain ⟨first, last⟩ := roundHalfEven_bounds value
  rw [abs_le]
  omega

private theorem two_zpow_pos (exponent : ℤ) : (0 : ℚ) < 2 ^ exponent := zpow_pos (by norm_num) exponent

private theorem abs_scaled (significand exponent : ℤ) :
    |(significand * 2 ^ exponent : ℚ)| = |significand| * 2 ^ exponent := by
  rw [abs_mul, abs_of_pos (two_zpow_pos exponent), Int.cast_abs]

theorem representable_of_bounded {significand exponent : ℤ} (small : |significand| ≤ 2 ^ 53) (low : -1074 ≤ exponent)
    (bounded : |(significand * 2 ^ exponent : ℚ)| < 2 ^ (1024 : ℤ)) : Representable (significand * 2 ^ exponent) := by
  rw [abs_scaled] at bounded
  by_cases high : exponent ≤ 971
  · rcases small.lt_or_eq with less | full
    · exact ⟨significand, exponent, less, low, high, rfl⟩
    · have room : exponent + 1 ≤ 971 := by
        rw [full, Int.cast_pow, Int.cast_ofNat, ← zpow_natCast, ← zpow_add₀ (by norm_num)] at bounded
        have := (zpow_lt_zpow_iff_right₀ (by norm_num : (1 : ℚ) < 2)).mp bounded
        push_cast at this
        omega
      obtain ⟨half, rfl⟩ : ∃ half, significand = half * 2 := by
        rcases abs_eq (by norm_num) |>.mp full with rfl | rfl
        · exact ⟨2 ^ 52, by norm_num⟩
        · exact ⟨-2 ^ 52, by norm_num⟩
      refine ⟨half, exponent + 1, ?_, by omega, room, ?_⟩
      · rw [abs_mul] at full
        norm_num at full ⊢
        omega
      · rw [zpow_add₀ (by norm_num)]
        push_cast
        ring
  · obtain ⟨shift, rfl⟩ : ∃ shift : ℕ, exponent = 971 + shift := ⟨(exponent - 971).toNat, by omega⟩
    refine ⟨significand * 2 ^ shift, 971, ?_, by norm_num, le_refl _, ?_⟩
    · have shifted : |significand * 2 ^ shift| = |significand| * 2 ^ shift := by
        rw [abs_mul, abs_of_pos (by positivity : (0 : ℤ) < 2 ^ shift)]
      have split : ((|significand * 2 ^ shift| : ℤ) : ℚ) * 2 ^ (971 : ℤ) < 2 ^ (53 : ℤ) * 2 ^ (971 : ℤ) := by
        rw [← zpow_add₀ (by norm_num), show (53 + 971 : ℤ) = 1024 from rfl, shifted, Int.cast_mul, Int.cast_pow,
          Int.cast_ofNat]
        rw [zpow_add₀ (by norm_num), zpow_natCast, mul_comm (2 ^ (971 : ℤ)), ← mul_assoc] at bounded
        exact bounded
      have := lt_of_mul_lt_mul_right split (two_zpow_pos 971).le
      exact_mod_cast this
    · rw [zpow_add₀ (by norm_num), zpow_natCast]
      generalize (2 : ℚ) ^ (971 : ℤ) = scale
      push_cast
      ring

theorem abs_scaled_lt (value : ℚ) : |value / 2 ^ lastPlace value| < ((2 ^ 53 : ℤ) : ℚ) := by
  rw [abs_div, abs_of_pos (two_zpow_pos _), div_lt_iff₀ (two_zpow_pos _)]
  have place : Int.log 2 |value| + 1 ≤ 53 + lastPlace value := by
    unfold lastPlace
    omega
  calc |value| < ((2 : ℕ) : ℚ) ^ (Int.log 2 |value| + 1) := Int.lt_zpow_succ_log_self (by norm_num) _
    _ ≤ ((2 : ℕ) : ℚ) ^ (53 + lastPlace value) := zpow_le_zpow_right₀ (by norm_num) place
    _ = ((2 ^ 53 : ℤ) : ℚ) * 2 ^ lastPlace value := by
      rw [Nat.cast_ofNat, zpow_add₀ (by norm_num), Int.cast_pow, Int.cast_ofNat, ← zpow_natCast]
      rfl

theorem roundValue_representable {value : ℚ} (bounded : |roundValue value| < 2 ^ (1024 : ℤ)) :
    Representable (roundValue value) :=
  representable_of_bounded (abs_roundHalfEven_le (abs_scaled_lt value)) (le_max_right _ _) bounded

/-- The nearest double, if the value is not rounded to an infinity. -/
def nearest (value : ℚ) : Option Double :=
  if bounded : |roundValue value| < 2 ^ (1024 : ℤ) then some ⟨roundValue value, roundValue_representable bounded⟩
  else none

/-- A multiple of the unit of the last place is not rounded. -/
theorem roundValue_of_multiple {value : ℚ} {significand exponent : ℤ} (multiple : value = significand * 2 ^ exponent)
    (coarse : lastPlace value ≤ exponent) : roundValue value = value := by
  obtain ⟨shift, rfl⟩ : ∃ shift : ℕ, exponent = lastPlace value + shift := ⟨(exponent - lastPlace value).toNat, by omega⟩
  have scaled : value / 2 ^ lastPlace value = ((significand * 2 ^ shift : ℤ) : ℚ) := by
    rw [div_eq_iff (two_zpow_pos _).ne']
    conv_lhs => rw [multiple, zpow_add₀ (by norm_num), zpow_natCast]
    generalize (2 : ℚ) ^ lastPlace value = scale
    push_cast
    ring
  rw [roundValue, scaled, roundHalfEven_intCast, ← scaled, div_mul_cancel₀ _ (two_zpow_pos _).ne']

theorem lastPlace_le {value : ℚ} {significand exponent : ℤ} (nonzero : value ≠ 0) (small : |significand| < 2 ^ 53)
    (low : -1074 ≤ exponent) (multiple : value = significand * 2 ^ exponent) : lastPlace value ≤ exponent := by
  have below : ((2 : ℕ) : ℚ) ^ Int.log 2 |value| < 2 ^ (53 + exponent) := by
    calc ((2 : ℕ) : ℚ) ^ Int.log 2 |value| ≤ |value| := Int.zpow_log_le_self (by norm_num) (abs_pos.mpr nonzero)
      _ = |significand| * 2 ^ exponent := by rw [multiple, abs_scaled]
      _ < ((2 ^ 53 : ℤ) : ℚ) * 2 ^ exponent := by
        apply mul_lt_mul_of_pos_right _ (two_zpow_pos _)
        exact_mod_cast small
      _ = 2 ^ (53 + exponent) := by
        rw [zpow_add₀ (by norm_num), Int.cast_pow, Int.cast_ofNat, ← zpow_natCast]
        rfl
  rw [Nat.cast_ofNat] at below
  have := (zpow_lt_zpow_iff_right₀ (by norm_num : (1 : ℚ) < 2)).mp below
  unfold lastPlace
  omega

theorem roundValue_representable_self {value : ℚ} (representable : Representable value) : roundValue value = value := by
  by_cases zero : value = 0
  · simp [zero, roundValue, roundHalfEven]
  · obtain ⟨significand, exponent, small, low, -, multiple⟩ := representable
    exact roundValue_of_multiple multiple (lastPlace_le zero small low multiple)

theorem abs_lt_of_representable {value : ℚ} (representable : Representable value) : |value| < 2 ^ (1024 : ℤ) := by
  obtain ⟨significand, exponent, small, -, high, rfl⟩ := representable
  rw [abs_scaled]
  calc ((|significand| : ℤ) : ℚ) * 2 ^ exponent < ((2 ^ 53 : ℤ) : ℚ) * 2 ^ exponent := by
        apply mul_lt_mul_of_pos_right _ (two_zpow_pos _)
        exact_mod_cast small
    _ = 2 ^ (53 + exponent) := by
      rw [zpow_add₀ (by norm_num), Int.cast_pow, Int.cast_ofNat, ← zpow_natCast]
      rfl
    _ ≤ 2 ^ (1024 : ℤ) := zpow_le_zpow_right₀ (by norm_num) (by omega)

/-- A double is its own nearest double. -/
theorem nearest_value (double : Double) : nearest double.value = some double := by
  have same := roundValue_representable_self double.representable
  have bounded : |roundValue double.value| < 2 ^ (1024 : ℤ) := by
    rw [same]
    exact abs_lt_of_representable double.representable
  rw [nearest, dif_pos bounded]
  simp only [same]

theorem representable_intCast {n : ℤ} (small : |n| < 2 ^ 53) : Representable n :=
  ⟨n, 0, small, by norm_num, by norm_num, by simp⟩

theorem representable_natCast {n : Nat} (small : n < 2 ^ 53) : Representable (n : ℤ) :=
  representable_intCast (by simpa using mod_cast small)

/-- An integer is rounded to an integer. -/
theorem roundValue_intCast (n : ℤ) : ∃ m : ℤ, roundValue n = m := by
  by_cases small : |n| < 2 ^ 53
  · exact ⟨n, roundValue_representable_self (representable_intCast small)⟩
  · have large : ((2 : ℕ) : ℚ) ^ (53 : ℤ) ≤ |(n : ℚ)| := by
      rw [← Int.cast_abs, Nat.cast_ofNat]
      exact_mod_cast not_lt.mp small
    have places : (53 : ℤ) ≤ Int.log 2 |(n : ℚ)| := by
      rw [← Int.log_zpow (R := ℚ) (by norm_num : 1 < 2) 53]
      exact Int.log_mono_right (by positivity) large
    obtain ⟨shift, same⟩ : ∃ shift : ℕ, lastPlace n = shift :=
      ⟨(lastPlace n).toNat, by unfold lastPlace; omega⟩
    refine ⟨roundHalfEven (n / 2 ^ lastPlace n) * 2 ^ shift, ?_⟩
    rw [roundValue, same, zpow_natCast]
    push_cast
    rfl

end Binary64
