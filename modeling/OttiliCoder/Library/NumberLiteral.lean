import OttiliCoder.Library.JsString
import Mathlib.Data.Nat.Digits.Lemmas
import Mathlib.Data.Rat.Defs
import Mathlib.Tactic.Ring

/-! Decimal digits, and number literals with their values. -/

namespace Host

abbrev Digit := Fin 10

instance neZeroTen : NeZero (10 : Nat) := ⟨by decide⟩

def digitsValue (digits : List Digit) : Nat := digits.foldl (fun total digit => total * 10 + digit.val) 0

/-- The decimal digits of a number, the first one not zero. -/
def digitsOf (n : Nat) : List Digit :=
  if n = 0 then [0] else (Nat.digits 10 n).reverse.map (Fin.ofNat 10)

/-- Zero alone, or no zero in front. -/
def Canonical (digits : List Digit) : Prop := digits = [0] ∨ ∃ first rest, digits = first :: rest ∧ first ≠ 0

theorem not_canonical_nil : ¬Canonical [] := by simp [Canonical]

instance : DecidablePred Canonical := fun digits =>
  match digits with
  | [] => .isFalse not_canonical_nil
  | first :: rest => decidable_of_iff (first :: rest = [0] ∨ first ≠ 0) (by simp [Canonical])

theorem digitsValue_append (first last : List Digit) :
    digitsValue (first ++ last) = digitsValue first * 10 ^ last.length + digitsValue last := by
  have shift : ∀ (digits : List Digit) (total : Nat),
      digits.foldl (fun total digit => total * 10 + digit.val) total =
        total * 10 ^ digits.length + digitsValue digits := by
    intro digits
    induction digits with
    | nil => simp [digitsValue]
    | cons digit rest ih =>
      intro total
      have whole : digitsValue (digit :: rest) = digit.val * 10 ^ rest.length + digitsValue rest := by
        rw [digitsValue, List.foldl_cons, ih, Nat.zero_mul, Nat.zero_add]
      rw [List.foldl_cons, ih, whole, List.length_cons]
      ring
  rw [digitsValue, List.foldl_append, shift]
  rfl

@[simp] theorem digitsValue_zeros (count : Nat) : digitsValue (List.replicate count 0) = 0 := by
  induction count with
  | zero => rfl
  | succ count ih => rw [List.replicate_succ', digitsValue_append, ih]; rfl

theorem digitsValue_digitsOf (n : Nat) : digitsValue (digitsOf n) = n := by
  unfold digitsOf
  split
  next zero => rw [zero]; rfl
  next positive =>
    have digitsValue_reverse : ∀ digits : List Nat, (∀ digit ∈ digits, digit < 10) →
        digitsValue (digits.reverse.map (Fin.ofNat 10)) = Nat.ofDigits 10 digits := by
      intro digits small
      induction digits with
      | nil => rfl
      | cons digit rest ih =>
        rw [List.reverse_cons, List.map_append, digitsValue_append, ih fun other member => small other (by simp [member]),
          Nat.ofDigits_cons]
        have := small digit (by simp)
        simp [digitsValue, Fin.ofNat, Nat.mod_eq_of_lt this]
        ring
    rw [digitsValue_reverse _ fun digit member => Nat.digits_lt_base (by norm_num) member, Nat.ofDigits_digits]

theorem digitsOf_canonical (n : Nat) : Canonical (digitsOf n) := by
  unfold digitsOf
  split
  · exact .inl rfl
  next positive =>
    right
    have nonempty : Nat.digits 10 n ≠ [] := Nat.digits_ne_nil_iff_ne_zero.mpr positive
    have leading := Nat.getLast_digit_ne_zero 10 positive
    have small := Nat.digits_lt_base (b := 10) (m := n) (by norm_num) (List.getLast_mem nonempty)
    rw [← List.dropLast_append_getLast nonempty, List.reverse_append, List.map_append]
    refine ⟨Fin.ofNat 10 ((Nat.digits 10 n).getLast nonempty), _, rfl, ?_⟩
    intro zero
    have value := congrArg Fin.val zero
    simp only [Fin.ofNat, Nat.mod_eq_of_lt small] at value
    exact leading value

/-! Literals: a sign, canonical whole digits, and possibly a fraction and an exponent. -/

structure NumberLiteral where
  negative : Bool
  whole : List Digit
  fraction : List Digit := []
  exponent : Option Int := none
  canonical : Canonical whole

namespace NumberLiteral

/-- No point and no exponent. -/
def isInteger (literal : NumberLiteral) : Bool := literal.fraction == [] && literal.exponent.isNone

def value (literal : NumberLiteral) : ℚ :=
  (if literal.negative then -1 else 1) * digitsValue (literal.whole ++ literal.fraction) *
    10 ^ (literal.exponent.getD 0 - literal.fraction.length)

end NumberLiteral

def digitUnits (digits : List Digit) : JsString := digits.map fun digit => unit '0' + digit.val

def exponentUnits (exponent : Int) : JsString :=
  unit 'e' :: (if exponent < 0 then unit '-' else unit '+') :: digitUnits (digitsOf exponent.natAbs)

def NumberLiteral.text (literal : NumberLiteral) : JsString :=
  (if literal.negative then [unit '-'] else []) ++ (digitUnits literal.whole ++
    ((if literal.fraction = [] then [] else unit '.' :: digitUnits literal.fraction) ++
      (literal.exponent.map exponentUnits).getD []))

/-! Reading a literal:
`^-?(?:0|[1-9][0-9]*)(?:\.[0-9]+)?(?:[eE][+-]?(?:0|[1-9][0-9]*))?$`. -/

def scanDigits : JsString → List Digit × JsString
  | [] => ([], [])
  | first :: rest =>
    if isDigit first then
      let (digits, left) := scanDigits rest
      (Fin.ofNat 10 (first - unit '0') :: digits, left)
    else ([], first :: rest)

def scanSign : JsString → Bool × JsString
  | [] => (false, [])
  | first :: rest => if first = unit '-' then (true, rest) else (false, first :: rest)

def scanFraction : JsString → Option (List Digit × JsString)
  | [] => some ([], [])
  | first :: rest =>
    if first = unit '.' then
      let (digits, left) := scanDigits rest
      if digits = [] then none else some (digits, left)
    else some ([], first :: rest)

def scanExponent : JsString → Option (Option Int)
  | [] => some none
  | first :: rest =>
    if first = unit 'e' ∨ first = unit 'E' then
      let (negative, unsigned) :=
        match rest with
        | [] => (false, [])
        | sign :: more =>
          if sign = unit '-' then (true, more) else if sign = unit '+' then (false, more) else (false, rest)
      let (digits, left) := scanDigits unsigned
      if Canonical digits ∧ left = [] then
        some (some (if negative then -(digitsValue digits : Int) else digitsValue digits))
      else none
    else none

def scanNumber (text : JsString) : Option NumberLiteral :=
  let (negative, unsigned) := scanSign text
  let (whole, afterWhole) := scanDigits unsigned
  if canonical : Canonical whole then do
    let (fraction, afterFraction) ← scanFraction afterWhole
    let exponent ← scanExponent afterFraction
    return { negative, whole, fraction, exponent, canonical }
  else none

/-- The text does not go on with a digit. -/
def Stops (text : JsString) : Prop := ∀ first rest, text = first :: rest → isDigit first = false

theorem isDigit_digit (digit : Digit) : isDigit (unit '0' + digit.val) = true := by
  revert digit
  decide

theorem scanDigits_digitUnits (digits : List Digit) {rest : JsString} (stops : Stops rest) :
    scanDigits (digitUnits digits ++ rest) = (digits, rest) := by
  induction digits with
  | nil =>
    cases rest with
    | nil => rfl
    | cons first more =>
      have plain := stops first more rfl
      simp [digitUnits, scanDigits, plain]
  | cons digit digits ih =>
    have tail : scanDigits (List.map (fun digit : Digit => unit '0' + digit.val) digits ++ rest) = (digits, rest) := ih
    simp only [digitUnits, List.map_cons, List.cons_append, scanDigits, isDigit_digit, if_true, tail,
      Nat.add_sub_cancel_left]
    simp [Fin.ofNat, Nat.mod_eq_of_lt digit.isLt]

theorem digitUnits_cons_of_canonical {digits : List Digit} (canonical : Canonical digits) :
    ∃ (digit : Digit) (rest : JsString), digitUnits digits = (unit '0' + digit.val) :: rest := by
  rcases canonical with rfl | ⟨first, rest, rfl, -⟩
  · exact ⟨0, [], rfl⟩
  · exact ⟨first, digitUnits rest, rfl⟩

theorem scanExponent_exponentUnits (exponent : Int) : scanExponent (exponentUnits exponent) = some (some exponent) := by
  have digits : scanDigits (digitUnits (digitsOf exponent.natAbs) ++ []) = (digitsOf exponent.natAbs, []) :=
    scanDigits_digitUnits _ (by simp [Stops])
  rw [List.append_nil] at digits
  by_cases negative : exponent < 0
  · simp only [exponentUnits, negative, if_true, scanExponent, true_or, digits, digitsOf_canonical, and_self,
      digitsValue_digitsOf]
    congr 2
    omega
  · simp only [exponentUnits, negative, if_false, scanExponent, true_or, if_true,
      if_neg (show unit '+' ≠ unit '-' by decide), digits, digitsOf_canonical, and_self, digitsValue_digitsOf]
    congr 2
    simp
    omega

theorem stops_exponent (exponent : Option Int) : Stops ((exponent.map exponentUnits).getD []) := by
  intro first rest same
  cases exponent with
  | none => cases same
  | some exponent =>
    obtain ⟨rfl, -⟩ := List.cons.inj same
    decide

theorem scanExponent_text (exponent : Option Int) :
    scanExponent ((exponent.map exponentUnits).getD []) = some exponent := by
  cases exponent with
  | none => rfl
  | some exponent => exact scanExponent_exponentUnits exponent

theorem scanFraction_text (fraction : List Digit) (exponent : Option Int) :
    scanFraction ((if fraction = [] then [] else unit '.' :: digitUnits fraction) ++
      (exponent.map exponentUnits).getD []) = some (fraction, (exponent.map exponentUnits).getD []) := by
  by_cases whole : fraction = []
  · rw [if_pos whole, whole, List.nil_append]
    cases exponent with
    | none => rfl
    | some exponent => rfl
  · rw [if_neg whole, List.cons_append, scanFraction, if_pos rfl, scanDigits_digitUnits fraction (stops_exponent exponent)]
    simp [whole]

theorem scanNumber_text (literal : NumberLiteral) : scanNumber literal.text = some literal := by
  obtain ⟨negative, whole, fraction, exponent, canonical⟩ := literal
  have stops : Stops ((if fraction = [] then [] else unit '.' :: digitUnits fraction) ++
      (exponent.map exponentUnits).getD []) := by
    intro first rest same
    by_cases integral : fraction = []
    · rw [if_pos integral, List.nil_append] at same
      exact stops_exponent exponent first rest same
    · rw [if_neg integral, List.cons_append] at same
      obtain ⟨rfl, -⟩ := List.cons.inj same
      decide
  have sign : scanSign ((if negative then [unit '-'] else []) ++ (digitUnits whole ++
      ((if fraction = [] then [] else unit '.' :: digitUnits fraction) ++ (exponent.map exponentUnits).getD []))) =
      (negative, digitUnits whole ++ ((if fraction = [] then [] else unit '.' :: digitUnits fraction) ++
        (exponent.map exponentUnits).getD [])) := by
    cases negative with
    | true => rfl
    | false =>
      obtain ⟨digit, rest, same⟩ := digitUnits_cons_of_canonical canonical
      have plain : ∀ digit : Digit, unit '0' + digit.val ≠ unit '-' := by decide
      simp [same, scanSign, plain]
  simp only [scanNumber, NumberLiteral.text, sign, scanDigits_digitUnits whole stops, dif_pos canonical,
    scanFraction_text, scanExponent_text, Option.bind_eq_bind, Option.bind_some]
  rfl

end Host
