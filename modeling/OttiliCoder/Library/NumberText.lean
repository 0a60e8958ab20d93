import OttiliCoder.Library.JsNumber

/-! `Number(text)`: the number a whole text stands for, which may have white space around it. -/

namespace Host
open Binary64

/-- A mark in front of a number, and what follows it. -/
def scanMark : JsString → Bool × JsString
  | [] => (false, [])
  | first :: rest =>
    if first = unit '-' then (true, rest) else if first = unit '+' then (false, rest) else (false, first :: rest)

/-- The value of digits of a base, of which there is at least one. -/
def baseValue (base : Nat) (digits : JsString) : Option Nat :=
  if digits = [] then none
  else digits.foldlM (fun total u => ((hexDigitValue u).filter (· < base)).map fun digit => total * base + digit) 0

/-- `0x1F`, `0o17` and `0b11`, which have no mark. -/
def nonDecimalValue : JsString → Option Nat
  | first :: letter :: digits =>
    if first ≠ unit '0' then none
    else if letter = unit 'x' ∨ letter = unit 'X' then baseValue 16 digits
    else if letter = unit 'o' ∨ letter = unit 'O' then baseValue 8 digits
    else if letter = unit 'b' ∨ letter = unit 'B' then baseValue 2 digits
    else none
  | _ => none

/-- The exponent that ends a decimal, zero where there is none. -/
def exponentValue : JsString → Option ℤ
  | [] => some 0
  | first :: rest =>
    let (negative, unsigned) := scanMark rest
    let (digits, left) := scanDigits unsigned
    if (first = unit 'e' ∨ first = unit 'E') ∧ digits ≠ [] ∧ left = [] then
      some (if negative then -(digitsValue digits : ℤ) else digitsValue digits)
    else none

/-- The digits behind a decimal point, and what follows them. -/
def scanPoint : JsString → List Digit × JsString
  | [] => ([], [])
  | first :: rest => if first = unit '.' then scanDigits rest else ([], first :: rest)

/-- `12`, `12.`, `.5` and `1.5e3`: digits may be missing on one side of the point. -/
def decimalValue (text : JsString) : Option ℚ :=
  let (whole, afterWhole) := scanDigits text
  let (fraction, afterFraction) := scanPoint afterWhole
  if whole = [] ∧ fraction = [] then none
  else (exponentValue afterFraction).map fun exponent : ℤ =>
    (digitsValue (whole ++ fraction) : ℚ) * 10 ^ (exponent - fraction.length : ℤ)

namespace JsNumber

/-- The double nearest to a value with a mark. -/
def ofMarked (negative : Bool) (value : ℚ) : JsNumber :=
  match nearest (sign negative * value) with
  | none => infinity negative
  | some double => if negative = true ∧ double.value = 0 then negativeZero else finite double

/-- `Number(text)`. -/
def ofText (text : JsString) : JsNumber :=
  let trimmed := trim text
  if trimmed = [] then ofMarked false 0
  else
    match nonDecimalValue trimmed with
    | some value => ofMarked false value
    | none =>
      let (negative, unsigned) := scanMark trimmed
      if unsigned = units "Infinity" then infinity negative
      else
        match decimalValue unsigned with
        | some value => ofMarked negative value
        | none => nan

end JsNumber

/-! Whole numbers in a text. -/

theorem digitsOf_small {n : Nat} (single : n < 10) : digitsOf n = [Fin.ofNat 10 n] := by
  unfold digitsOf
  split
  · next zero => rw [zero]; rfl
  · next positive => rw [Nat.digits_of_lt 10 n positive single]; rfl

theorem digitsOf_concat {n : Nat} (long : 10 ≤ n) : digitsOf n = digitsOf (n / 10) ++ [Fin.ofNat 10 n] := by
  have positive : n ≠ 0 := by omega
  have more : n / 10 ≠ 0 := by omega
  unfold digitsOf
  rw [if_neg positive, if_neg more, Nat.digits_def' (by decide) (by omega), List.reverse_cons, List.map_append]
  simp [Fin.ofNat]

theorem unit_digitChar {n : Nat} (single : n < 10) : unit n.digitChar = unit '0' + n := by
  revert single
  revert n
  decide

/-- A number as it stands in a text. -/
theorem units_toString (n : Nat) : units (toString n) = digitUnits (digitsOf n) := by
  unfold units
  rw [Nat.toString_eq_repr, Nat.toList_repr]
  induction n using Nat.strongRecOn with
  | ind n ih =>
    by_cases single : n < 10
    · rw [Nat.toDigits_of_lt_base single, digitsOf_small single]
      simp [digitUnits, unit_digitChar single, Fin.ofNat, Nat.mod_eq_of_lt single]
    · have less : n % 10 < 10 := Nat.mod_lt n (by decide)
      rw [Nat.toDigits_of_base_le (by decide) (by omega), digitsOf_concat (by omega), List.map_append, ih (n / 10) (by omega)]
      simp [digitUnits, unit_digitChar less, Fin.ofNat]

theorem isDigit_of_mem_digitUnits {digits : List Digit} {u : Nat} (listed : u ∈ digitUnits digits) : isDigit u = true := by
  obtain ⟨digit, _, rfl⟩ := List.mem_map.mp listed
  exact isDigit_digit digit

theorem isDigit_bounds {u : Nat} (digit : isDigit u = true) : 48 ≤ u ∧ u ≤ 57 := by
  unfold isDigit at digit
  simpa [unit] using digit

theorem isWhiteSpace_of_isDigit {u : Nat} (digit : isDigit u = true) : isWhiteSpace u = false := by
  have bounds := isDigit_bounds digit
  unfold isWhiteSpace
  simp
  omega

theorem trim_of_visible {text : JsString} (visible : ∀ u ∈ text, isWhiteSpace u = false) : trim text = text := by
  have start : trimStart text = text := by
    unfold trimStart
    rw [List.dropWhile_eq_self_iff]
    intro some
    rw [visible _ (List.getElem_mem _)]
    decide
  unfold trim
  rw [start, List.rdropWhile_eq_self_iff]
  intro some
  rw [visible _ (List.getLast_mem some)]
  decide

namespace JsNumber

theorem nonDecimalValue_digits {text : JsString} (digits : ∀ u ∈ text, isDigit u = true) : nonDecimalValue text = none := by
  unfold nonDecimalValue
  split
  · next first letter rest =>
    have second := isDigit_bounds (digits letter (by simp))
    have others : ∀ other : Char, 57 < unit other → letter ≠ unit other := fun other beyond => by omega
    split
    · rfl
    · rw [if_neg (not_or.mpr ⟨others 'x' (by decide), others 'X' (by decide)⟩),
        if_neg (not_or.mpr ⟨others 'o' (by decide), others 'O' (by decide)⟩),
        if_neg (not_or.mpr ⟨others 'b' (by decide), others 'B' (by decide)⟩)]
  · rfl

theorem decimalValue_digits (n : Nat) : decimalValue (digitUnits (digitsOf n)) = some (n : ℚ) := by
  have scanned : scanDigits (digitUnits (digitsOf n) ++ []) = (digitsOf n, []) := scanDigits_digitUnits _ (by simp [Stops])
  rw [List.append_nil] at scanned
  have some : digitsOf n ≠ [] := by
    intro none
    have canonical := digitsOf_canonical n
    simp [none, Canonical] at canonical
  unfold decimalValue
  rw [scanned]
  simp [scanPoint, exponentValue, some, digitsValue_digitsOf]

/-- `Number(text)` of a number that is written in digits. -/
theorem ofText_digits {n : Nat} (safe : n < 2 ^ 53) :
    ofText (digitUnits (digitsOf n)) = finite ⟨(n : ℤ), representable_natCast safe⟩ := by
  have digits : ∀ u ∈ digitUnits (digitsOf n), isDigit u = true := fun u => isDigit_of_mem_digitUnits
  obtain ⟨digit, more, same⟩ := digitUnits_cons_of_canonical (digitsOf_canonical n)
  have value : decimalValue (digitUnits (digitsOf n)) = some (n : ℚ) := decimalValue_digits n
  have infinite : digitUnits (digitsOf n) ≠ units "Infinity" := by
    intro same
    have letter := digits (unit 'I') (same ▸ by decide)
    cases letter
  have marked : scanMark (digitUnits (digitsOf n)) = (false, digitUnits (digitsOf n)) := by
    have bounds := isDigit_bounds (isDigit_digit digit)
    have others : ∀ other : Char, unit other < 48 → unit '0' + digit.val ≠ unit other := fun other before => by omega
    rw [same, scanMark, if_neg (others '-' (by decide)), if_neg (others '+' (by decide))]
  unfold ofText
  rw [trim_of_visible fun u listed => isWhiteSpace_of_isDigit (digits u listed), if_neg (same ▸ List.cons_ne_nil _ _),
    nonDecimalValue_digits digits]
  dsimp only
  rw [marked]
  dsimp only
  rw [if_neg infinite, value]
  dsimp only
  unfold ofMarked
  have nearestIs := nearest_value ⟨(n : ℤ), representable_natCast safe⟩
  simp [sign] at nearestIs ⊢
  rw [nearestIs]

theorem isSafeInteger_finite {n : ℤ} (representable : Representable n) (safe : |n| < 2 ^ 53) :
    (finite ⟨(n : ℤ), representable⟩).isSafeInteger = true := by
  have bounded : |(n : ℚ)| < 2 ^ 53 := by exact_mod_cast safe
  simp [isSafeInteger, isInteger, isFinite, toRat, bounded]

end JsNumber

end Host
