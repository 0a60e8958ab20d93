import OttiliCoder.Library.Binary64
import OttiliCoder.Library.NumberLiteral

/-! Numbers of the host language: doubles, how they are printed and how a literal is read. -/

namespace Host
open Binary64

inductive JsNumber where
  | nan
  | infinity (negative : Bool)
  | negativeZero
  | finite (double : Double)
deriving DecidableEq

namespace JsNumber

def isFinite : JsNumber → Bool
  | nan => false
  | infinity _ => false
  | negativeZero => true
  | finite _ => true

/-- The mathematical value; zero where there is none. -/
def toRat : JsNumber → ℚ
  | finite double => double.value
  | _ => 0

def isInteger (number : JsNumber) : Bool := number.isFinite && number.toRat.den == 1

def isSafeInteger (number : JsNumber) : Bool := number.isInteger && decide (|number.toRat| < 2 ^ 53)

/-- `===`: the zeros are equal and NaN equals nothing. -/
def strictEqual : JsNumber → JsNumber → Bool
  | nan, _ => false
  | _, nan => false
  | infinity negative, infinity other => negative == other
  | infinity _, _ => false
  | _, infinity _ => false
  | number, other => number.toRat == other.toRat

/-! Printing: the fewest digits that are read back as the number. -/

def sign (negative : Bool) : ℚ := if negative then -1 else 1

/-- The double is the one nearest to the decimal. -/
def Denotes (decimal : ℚ) (double : Double) : Prop := nearest decimal = some double

instance (decimal : ℚ) (double : Double) : Decidable (Denotes decimal double) :=
  inferInstanceAs (Decidable (_ = _))

/-- The power of ten of the last one of `count` digits. -/
def lastPower (double : Double) (count : Nat) : ℤ := Int.log 10 |double.value| + 1 - count

def candidate (double : Double) (count significand : Nat) : ℚ :=
  sign (decide (double.value < 0)) * significand * 10 ^ lastPower double count

/-- The one of the two decimals of `count` digits around a double that denotes it, the
nearer one where both do; with no digits, the power of ten above it. -/
def nearestDecimal (double : Double) (count : Nat) : Option Nat :=
  let scaled : ℚ := |double.value| / 10 ^ lastPower double count
  let below := ⌊scaled⌋₊
  if Denotes (candidate double count below) double ∧
      (¬ Denotes (candidate double count (below + 1)) double ∨ scaled - below ≤ 1 / 2) then some below
  else if Denotes (candidate double count (below + 1)) double then some (below + 1)
  else none

theorem nearestDecimal_denotes {double : Double} {count significand : Nat}
    (found : nearestDecimal double count = some significand) : Denotes (candidate double count significand) double := by
  unfold nearestDecimal at found
  dsimp only at found
  split at found
  next down => cases found; exact down.1
  next =>
    split at found
    next up => cases found; exact up
    next => cases found

theorem sign_mul_abs (value : ℚ) : sign (decide (value < 0)) * |value| = value := by
  by_cases negative : value < 0
  · simp [sign, negative, abs_of_neg negative]
  · simp [sign, negative, abs_of_nonneg (not_lt.mp negative)]

/-- A double has finitely many decimal places. -/
theorem scaled_natural (double : Double) {power : ℤ} (fine : power ≤ -1074) :
    ∃ significand : Nat, |double.value| / 10 ^ power = significand := by
  obtain ⟨significand, exponent, -, low, -, same⟩ := double.representable
  obtain ⟨twos, places⟩ : ∃ twos : Nat, exponent - power = twos := ⟨(exponent - power).toNat, by omega⟩
  obtain ⟨fives, scale⟩ : ∃ fives : Nat, -power = fives := ⟨(-power).toNat, by omega⟩
  refine ⟨significand.natAbs * 2 ^ twos * 5 ^ fives, ?_⟩
  have powers : ((10 : ℚ) ^ power)⁻¹ = 2 ^ (-power) * 5 ^ (-power) := by
    rw [← zpow_neg, ← mul_zpow]
    norm_num
  rw [same, abs_mul, abs_of_pos (zpow_pos (by norm_num) exponent : (0 : ℚ) < 2 ^ exponent), div_eq_mul_inv, powers]
  have twice : (2 : ℚ) ^ exponent * 2 ^ (-power) = 2 ^ twos := by
    rw [← zpow_add₀ (by norm_num), ← sub_eq_add_neg, places, zpow_natCast]
  calc |(significand : ℚ)| * 2 ^ exponent * (2 ^ (-power) * 5 ^ (-power))
      = |(significand : ℚ)| * (2 ^ exponent * 2 ^ (-power)) * 5 ^ (-power) := by ring
    _ = |(significand : ℚ)| * 2 ^ twos * 5 ^ fives := by rw [twice, scale, zpow_natCast]
    _ = ((significand.natAbs * 2 ^ twos * 5 ^ fives : Nat) : ℚ) := by
      rw [Nat.cast_mul, Nat.cast_mul, Nat.cast_natAbs, Int.cast_abs, Nat.cast_pow, Nat.cast_pow, Nat.cast_ofNat,
        Nat.cast_ofNat]

theorem exists_nearestDecimal (double : Double) : ∃ count, (nearestDecimal double count).isSome := by
  refine ⟨(Int.log 10 |double.value| + 1 + 1074).toNat, ?_⟩
  generalize counted : (Int.log 10 |double.value| + 1 + 1074).toNat = count
  have fine : lastPower double count ≤ -1074 := by
    unfold lastPower
    omega
  obtain ⟨significand, scaled⟩ := scaled_natural double fine
  have exactly : candidate double count significand = double.value := by
    rw [candidate, ← scaled, mul_assoc, div_mul_cancel₀ _ (zpow_pos (by norm_num) _).ne', sign_mul_abs]
  have denotes : Denotes (candidate double count significand) double := by
    rw [Denotes, exactly]
    exact nearest_value double
  unfold nearestDecimal
  simp only [scaled, Nat.floor_natCast]
  rw [if_pos ⟨denotes, .inr (by norm_num)⟩]
  rfl

/-- A significand of canonical digits and the power of ten of the last of them. -/
structure Decimal where
  first : Digit
  rest : List Digit
  nonzero : first ≠ 0
  power : ℤ

namespace Decimal

def digits (decimal : Decimal) : List Digit := decimal.first :: decimal.rest

/-- The place of the decimal point after the first digit. -/
def point (decimal : Decimal) : ℤ := decimal.digits.length + decimal.power

theorem canonical (decimal : Decimal) (more : List Digit) : Canonical (decimal.digits ++ more) :=
  .inr ⟨decimal.first, decimal.rest ++ more, rfl, decimal.nonzero⟩

def ofNat (significand : Nat) (positive : significand ≠ 0) (power : ℤ) : Decimal :=
  match digits : digitsOf significand with
  | [] => absurd (digits ▸ digitsOf_canonical significand) not_canonical_nil
  | first :: rest =>
    { first, rest, power
      nonzero := by
        intro zero
        rcases digits ▸ digitsOf_canonical significand with alone | ⟨_, _, same, leading⟩
        · have value := digitsValue_digitsOf significand
          rw [digits, alone] at value
          exact positive value.symm
        · cases same
          exact leading zero }

theorem ofNat_digits (significand : Nat) (positive : significand ≠ 0) (power : ℤ) :
    (ofNat significand positive power).digits = digitsOf significand := by
  unfold ofNat
  split
  next digits => exact absurd (digits ▸ digitsOf_canonical significand) not_canonical_nil
  next first rest digits => exact digits.symm

theorem ofNat_power (significand : Nat) (positive : significand ≠ 0) (power : ℤ) :
    (ofNat significand positive power).power = power := by
  unfold ofNat
  split
  next digits => exact absurd (digits ▸ digitsOf_canonical significand) not_canonical_nil
  next => rfl

/-- One digit before the point. -/
def exponential (decimal : Decimal) (negative : Bool) : NumberLiteral where
  negative := negative
  whole := [decimal.first]
  fraction := decimal.rest
  exponent := some (decimal.point - 1)
  canonical := .inr ⟨decimal.first, [], rfl, decimal.nonzero⟩

/-- Positions up to 21 digits before and 6 zeros after the point, else an exponent. -/
def positional (decimal : Decimal) (negative : Bool) : NumberLiteral :=
  if 0 ≤ decimal.power ∧ decimal.point ≤ 21 then
    { negative := negative, whole := decimal.digits ++ List.replicate decimal.power.toNat 0
      canonical := decimal.canonical _ }
  else if placed : 0 < decimal.point ∧ decimal.point ≤ 21 then
    { negative := negative, whole := decimal.digits.take decimal.point.toNat
      fraction := decimal.digits.drop decimal.point.toNat
      canonical := by
        obtain ⟨count, same⟩ : ∃ count, decimal.point.toNat = count + 1 := ⟨decimal.point.toNat - 1, by omega⟩
        rw [same]
        exact .inr ⟨decimal.first, decimal.rest.take count, rfl, decimal.nonzero⟩ }
  else if -6 < decimal.point ∧ decimal.point ≤ 0 then
    { negative := negative, whole := [0], fraction := List.replicate (-decimal.point).toNat 0 ++ decimal.digits
      canonical := .inl rfl }
  else decimal.exponential negative

theorem exponential_value (decimal : Decimal) (negative : Bool) :
    (decimal.exponential negative).value = sign negative * digitsValue decimal.digits * 10 ^ decimal.power := by
  have places : decimal.point - 1 - decimal.rest.length = decimal.power := by
    simp only [point, digits, List.length_cons]
    push_cast
    ring
  simp only [exponential, NumberLiteral.value, Option.getD_some, places]
  rfl

theorem positional_value (decimal : Decimal) (negative : Bool) :
    (decimal.positional negative).value = sign negative * digitsValue decimal.digits * 10 ^ decimal.power := by
  unfold positional
  split
  next whole =>
    obtain ⟨zeros, same⟩ : ∃ zeros : Nat, decimal.power = zeros := ⟨decimal.power.toNat, by omega⟩
    simp only [NumberLiteral.value, List.append_nil, Option.getD_none, List.length_nil, same, Int.toNat_natCast,
      digitsValue_append, digitsValue_zeros, List.length_replicate, Nat.add_zero, zpow_natCast]
    push_cast
    simp only [sign, mul_one, mul_assoc]
  · split
    next inside placed =>
      have places : (0 : ℤ) - ((decimal.digits.drop decimal.point.toNat).length : ℤ) = decimal.power := by
        rw [List.length_drop]
        unfold point at inside placed ⊢
        omega
      simp only [NumberLiteral.value, Option.getD_none, List.take_append_drop, places]
      rfl
    next =>
      split
      next fractional =>
        have places : (0 : ℤ) - ((List.replicate (-decimal.point).toNat 0 ++ decimal.digits).length : ℤ) =
            decimal.power := by
          rw [List.length_append, List.length_replicate]
          unfold point at fractional ⊢
          omega
        have same : digitsValue ([0] ++ (List.replicate (-decimal.point).toNat 0 ++ decimal.digits)) =
            digitsValue decimal.digits := by
          rw [digitsValue_append, digitsValue_append, digitsValue_zeros]
          simp [digitsValue]
        simp only [NumberLiteral.value, Option.getD_none, places, same]
        rfl
      next => exact exponential_value decimal negative

end Decimal

/-- The fewest digits that denote the double. -/
def significantDigits (double : Double) : Nat := Nat.find (exists_nearestDecimal double)

def significand (double : Double) : Nat :=
  (nearestDecimal double (significantDigits double)).get (Nat.find_spec (exists_nearestDecimal double))

theorem significand_denotes (double : Double) :
    Denotes (candidate double (significantDigits double) (significand double)) double :=
  nearestDecimal_denotes (Option.some_get _).symm

theorem significand_ne_zero {double : Double} (nonzero : double.value ≠ 0) : significand double ≠ 0 := by
  intro zero
  have denotes := significand_denotes double
  rw [zero, candidate, Nat.cast_zero, mul_zero, zero_mul, Denotes, nearest] at denotes
  split at denotes
  · apply nonzero
    rw [← Option.some.inj denotes]
    simp [roundValue, roundHalfEven]
  · cases denotes

def shortest (double : Double) (nonzero : double.value ≠ 0) : Decimal :=
  .ofNat (significand double) (significand_ne_zero nonzero) (lastPower double (significantDigits double))

def zeroLiteral (exponent : Option Int) : NumberLiteral where
  negative := false
  whole := [0]
  exponent := exponent
  canonical := .inl rfl

def positionalLiteral (double : Double) : NumberLiteral :=
  if zero : double.value = 0 then zeroLiteral none
  else (shortest double zero).positional (decide (double.value < 0))

def exponentialLiteral (double : Double) : NumberLiteral :=
  if zero : double.value = 0 then zeroLiteral (some 0)
  else (shortest double zero).exponential (decide (double.value < 0))

/-- `String(number)`. -/
def toString : JsNumber → JsString
  | nan => units "NaN"
  | infinity negative => if negative then units "-Infinity" else units "Infinity"
  | negativeZero => units "0"
  | finite double => (positionalLiteral double).text

/-- `number.toExponential()`. -/
def toExponential : JsNumber → JsString
  | nan => units "NaN"
  | infinity negative => if negative then units "-Infinity" else units "Infinity"
  | negativeZero => units "0e+0"
  | finite double => (exponentialLiteral double).text

/-! Reading: a literal is read as the double nearest to its value. -/

def ofLiteral (literal : NumberLiteral) : JsNumber :=
  match nearest literal.value with
  | none => infinity literal.negative
  | some double => if literal.negative = true ∧ double.value = 0 then negativeZero else finite double

theorem ofLiteral_denotes {literal : NumberLiteral} {double : Double} (nonzero : double.value ≠ 0)
    (denotes : Denotes literal.value double) : ofLiteral literal = finite double := by
  rw [Denotes] at denotes
  unfold ofLiteral
  rw [denotes]
  exact if_neg fun both => nonzero both.2

theorem shortest_denotes {double : Double} (nonzero : double.value ≠ 0) :
    Denotes (sign (decide (double.value < 0)) * digitsValue (shortest double nonzero).digits *
      10 ^ (shortest double nonzero).power) double := by
  have denotes := significand_denotes double
  rw [candidate] at denotes
  rwa [shortest, Decimal.ofNat_digits, Decimal.ofNat_power, digitsValue_digitsOf]

theorem ofLiteral_zero {double : Double} (zero : double.value = 0) (exponent : Option Int) :
    ofLiteral (zeroLiteral exponent) = finite double := by
  have value : (zeroLiteral exponent).value = double.value := by
    simp [zeroLiteral, NumberLiteral.value, digitsValue, zero]
  unfold ofLiteral
  rw [value, nearest_value]
  rfl

theorem ofLiteral_positional (double : Double) : ofLiteral (positionalLiteral double) = finite double := by
  unfold positionalLiteral
  split
  next zero => exact ofLiteral_zero zero none
  next nonzero =>
    apply ofLiteral_denotes nonzero
    rw [Decimal.positional_value]
    exact shortest_denotes nonzero

theorem ofLiteral_exponential (double : Double) : ofLiteral (exponentialLiteral double) = finite double := by
  unfold exponentialLiteral
  split
  next zero => exact ofLiteral_zero zero (some 0)
  next nonzero =>
    apply ofLiteral_denotes nonzero
    rw [Decimal.exponential_value]
    exact shortest_denotes nonzero

theorem isInteger_exponential (double : Double) : (exponentialLiteral double).isInteger = false := by
  unfold exponentialLiteral
  split
  next => rfl
  next =>
    simp [NumberLiteral.isInteger, Decimal.exponential]

theorem ofLiteral_negativeZero : ofLiteral { negative := true, whole := [0], canonical := .inl rfl } = negativeZero := by
  let zero : Double := ⟨0, 0, 0, by norm_num, by norm_num, by norm_num, by norm_num⟩
  have value : ({ negative := true, whole := [0], canonical := .inl rfl } : NumberLiteral).value = zero.value := by
    simp [NumberLiteral.value, digitsValue, zero]
  unfold ofLiteral
  rw [value, nearest_value]
  exact if_pos ⟨rfl, rfl⟩

/-- A literal without point and exponent is read as an integer. -/
theorem isInteger_ofLiteral {literal : NumberLiteral} {double : Double} (integer : literal.isInteger = true)
    (read : ofLiteral literal = finite double) : (finite double).isInteger = true := by
  obtain ⟨n, integral⟩ : ∃ n : ℤ, literal.value = n := by
    obtain ⟨negative, whole, fraction, exponent, canonical⟩ := literal
    simp only [NumberLiteral.isInteger, Bool.and_eq_true, beq_iff_eq, Option.isNone_iff_eq_none] at integer
    obtain ⟨rfl, rfl⟩ := integer
    refine ⟨(if negative then -1 else 1) * digitsValue whole, ?_⟩
    cases negative <;> simp [NumberLiteral.value]
  obtain ⟨m, rounded⟩ := roundValue_intCast n
  have value : double.value = m := by
    unfold ofLiteral at read
    rw [integral, nearest] at read
    split at read
    next none => cases read
    next some found =>
      split at found
      · cases found
        split at read
        · cases read
        · cases read
          exact rounded
      · cases found
  simp [isInteger, isFinite, toRat, value]

end JsNumber

end Host
