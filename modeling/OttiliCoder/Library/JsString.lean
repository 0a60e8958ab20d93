import Mathlib.Data.List.Basic
import Mathlib.Data.List.DropRight

/-! Strings of the host language: sequences of UTF-16 code units, and their JSON quoting. -/

namespace Host

/-- The code units are numbers; nothing here depends on their bound. -/
abbrev JsString := List Nat

instance lawfulBEqJsString : LawfulBEq JsString := inferInstance

abbrev unit (character : Char) : Nat := character.toNat

/-- The code units of a text of the basic plane. -/
def units (text : String) : JsString := text.toList.map unit

def isDigit (u : Nat) : Bool := unit '0' ≤ u && u ≤ unit '9'

def isLetter (u : Nat) : Bool := (unit 'A' ≤ u && u ≤ unit 'Z') || (unit 'a' ≤ u && u ≤ unit 'z')

/-- White space and line ends, as `trim` sees them. -/
def isWhiteSpace (u : Nat) : Bool :=
  (9 ≤ u && u ≤ 13) || (0x2000 ≤ u && u ≤ 0x200A) ||
    [32, 0xA0, 0x1680, 0x2028, 0x2029, 0x202F, 0x205F, 0x3000, 0xFEFF].contains u

def trimStart (text : JsString) : JsString := text.dropWhile isWhiteSpace

def trim (text : JsString) : JsString := (trimStart text).rdropWhile isWhiteSpace

theorem trim_trim (text : JsString) : trim (trim text) = trim text := by
  have start : trimStart (trim text) = trim text := by
    unfold trimStart
    rw [List.dropWhile_eq_self_iff]
    intro some first
    have kept := (List.rdropWhile_prefix isWhiteSpace (l := trimStart text)).getElem some
    have nonempty : 0 < (text.dropWhile isWhiteSpace).length := by
      have bound := (List.rdropWhile_prefix isWhiteSpace (l := trimStart text)).length_le
      exact Nat.lt_of_lt_of_le some bound
    apply List.dropWhile_get_zero_not isWhiteSpace text nonempty
    rw [← first]
    exact congrArg isWhiteSpace kept.symm
  rw [trim, start]
  exact List.rdropWhile_idempotent isWhiteSpace (trimStart text)

/-- `toLowerCase` of a text in which no letter beyond ASCII counts. -/
def toLowerCase (text : JsString) : JsString := text.map fun u => if unit 'A' ≤ u ∧ u ≤ unit 'Z' then u + 32 else u

def isHighSurrogate (u : Nat) : Bool := 0xD800 ≤ u && u ≤ 0xDBFF

def isLowSurrogate (u : Nat) : Bool := 0xDC00 ≤ u && u ≤ 0xDFFF

/-! Quoting, as `JSON.stringify` does it: surrogates without a partner are escaped. -/

def hexDigit (value : Nat) : Nat := if value < 10 then unit '0' + value else unit 'a' + (value - 10)

def hexDigits (u : Nat) : JsString :=
  [hexDigit (u / 4096 % 16), hexDigit (u / 256 % 16), hexDigit (u / 16 % 16), hexDigit (u % 16)]

/-- The letter after the backslash, of the units with a short escape. -/
def shortEscape (u : Nat) : Option Nat :=
  if u = unit '"' then some (unit '"')
  else if u = unit '\\' then some (unit '\\')
  else if u = 8 then some (unit 'b')
  else if u = 9 then some (unit 't')
  else if u = 10 then some (unit 'n')
  else if u = 12 then some (unit 'f')
  else if u = 13 then some (unit 'r')
  else none

def quoteUnit (u : Nat) : JsString :=
  match shortEscape u with
  | some letter => [unit '\\', letter]
  | none =>
    if u < 32 ∨ isHighSurrogate u ∨ isLowSurrogate u then unit '\\' :: unit 'u' :: hexDigits u else [u]

def quoteUnits : JsString → JsString
  | [] => []
  | [last] => quoteUnit last
  | first :: second :: more =>
    if isHighSurrogate first ∧ isLowSurrogate second then first :: second :: quoteUnits more
    else quoteUnit first ++ quoteUnits (second :: more)

def quote (s : JsString) : JsString := unit '"' :: (quoteUnits s ++ [unit '"'])

/-! Reading a quoted string, as `JSON.parse` does. -/

def hexDigitValue (u : Nat) : Option Nat :=
  if isDigit u then some (u - unit '0')
  else if unit 'a' ≤ u ∧ u ≤ unit 'f' then some (u - unit 'a' + 10)
  else if unit 'A' ≤ u ∧ u ≤ unit 'F' then some (u - unit 'A' + 10)
  else none

def unescape (letter : Nat) : Option Nat :=
  if letter = unit '"' ∨ letter = unit '\\' ∨ letter = unit '/' then some letter
  else if letter = unit 'b' then some 8
  else if letter = unit 't' then some 9
  else if letter = unit 'n' then some 10
  else if letter = unit 'f' then some 12
  else if letter = unit 'r' then some 13
  else none

/-- The units up to the closing quote, which ends the text. -/
def unquoteUnits : JsString → Option JsString
  | [] => none
  | first :: rest =>
    if first = unit '"' then
      if rest = [] then some [] else none
    else if first = unit '\\' then
      match rest with
      | letter :: more =>
        if letter = unit 'u' then
          match more with
          | a :: b :: c :: d :: tail => do
            let value := 4096 * (← hexDigitValue a) + 256 * (← hexDigitValue b) + 16 * (← hexDigitValue c) +
              (← hexDigitValue d)
            return value :: (← unquoteUnits tail)
          | _ => none
        else do
          return (← unescape letter) :: (← unquoteUnits more)
      | [] => none
    else if first < 32 then none
    else do
      return first :: (← unquoteUnits rest)

attribute [grind =] unquoteUnits

def unquote : JsString → Option JsString
  | [] => none
  | first :: rest => if first = unit '"' then unquoteUnits rest else none

/-! What is quoted is read back. -/

theorem hexDigitValue_hexDigit : ∀ value < 16, hexDigitValue (hexDigit value) = some value := by decide

theorem unquoteUnits_hex {u : Nat} (small : u < 65536) (tail : JsString) :
    unquoteUnits (unit '\\' :: unit 'u' :: (hexDigits u ++ tail)) = (unquoteUnits tail).map (u :: ·) := by
  have value : 4096 * (u / 4096 % 16) + 256 * (u / 256 % 16) + 16 * (u / 16 % 16) + u % 16 = u := by omega
  have nibble : ∀ n, hexDigitValue (hexDigit (n % 16)) = some (n % 16) := fun n =>
    hexDigitValue_hexDigit _ (Nat.mod_lt _ (by decide))
  simp only [hexDigits, List.cons_append, List.nil_append]
  rw [unquoteUnits, if_neg (by decide), if_pos rfl]
  simp only [if_true, nibble, Option.bind_eq_bind, Option.bind_some, value]
  cases unquoteUnits tail with
  | none => rfl
  | some read => rfl

theorem shortEscape_some {u letter : Nat} (short : shortEscape u = some letter) :
    (u, letter) ∈ [(unit '"', unit '"'), (unit '\\', unit '\\'), (8, unit 'b'), (9, unit 't'), (10, unit 'n'),
      (12, unit 'f'), (13, unit 'r')] := by
  unfold shortEscape at short
  grind

theorem unquoteUnits_short {u letter : Nat} (short : shortEscape u = some letter) (tail : JsString) :
    unquoteUnits (unit '\\' :: letter :: tail) = (unquoteUnits tail).map (u :: ·) := by
  have back : letter ≠ unit 'u' ∧ unescape letter = some u := by
    have listed := shortEscape_some short
    simp only [List.mem_cons, Prod.mk.injEq, List.not_mem_nil, or_false] at listed
    rcases listed with ⟨rfl, rfl⟩ | ⟨rfl, rfl⟩ | ⟨rfl, rfl⟩ | ⟨rfl, rfl⟩ | ⟨rfl, rfl⟩ | ⟨rfl, rfl⟩ | ⟨rfl, rfl⟩ <;> decide
  rw [unquoteUnits.eq_def]
  simp only [if_neg (show unit '\\' ≠ unit '"' by decide), if_true, if_neg back.1, back.2, Option.bind_eq_bind,
    Option.bind_some]
  cases unquoteUnits tail with
  | none => rfl
  | some read => rfl

theorem unquoteUnits_plain {u : Nat} (plain : 32 ≤ u) (quote : u ≠ unit '"') (escape : u ≠ unit '\\') (tail : JsString) :
    unquoteUnits (u :: tail) = (unquoteUnits tail).map (u :: ·) := by
  rw [unquoteUnits.eq_def]
  simp only [if_neg quote, if_neg escape, if_neg (Nat.not_lt.mpr plain)]
  cases unquoteUnits tail with
  | none => rfl
  | some read => rfl

theorem unquoteUnits_quoteUnit (u : Nat) (tail : JsString) :
    unquoteUnits (quoteUnit u ++ tail) = (unquoteUnits tail).map (u :: ·) := by
  unfold quoteUnit
  cases short : shortEscape u with
  | some letter => exact unquoteUnits_short short tail
  | none =>
    have quote : u ≠ unit '"' := by rintro rfl; exact absurd short (by decide)
    have escape : u ≠ unit '\\' := by rintro rfl; exact absurd short (by decide)
    by_cases escaped : u < 32 ∨ isHighSurrogate u ∨ isLowSurrogate u
    · have small : u < 65536 := by
        simp only [isHighSurrogate, isLowSurrogate, Bool.and_eq_true, decide_eq_true_eq] at escaped
        omega
      simp only [if_pos escaped]
      exact unquoteUnits_hex small tail
    · simp only [if_neg escaped]
      exact unquoteUnits_plain (by omega) quote escape tail

theorem unquoteUnits_quoteUnits (s : JsString) : unquoteUnits (quoteUnits s ++ [unit '"']) = some s := by
  fun_induction quoteUnits s with
  | case1 => decide
  | case2 last => rw [unquoteUnits_quoteUnit]; rfl
  | case3 first second more pair ih =>
    have high : 0xD800 ≤ first := by
      have := pair.1
      simp only [isHighSurrogate, Bool.and_eq_true, decide_eq_true_eq] at this
      exact this.1
    have low : 0xDC00 ≤ second := by
      have := pair.2
      simp only [isLowSurrogate, Bool.and_eq_true, decide_eq_true_eq] at this
      exact this.1
    have plain : ∀ u, 0xD800 ≤ u → u ≠ unit '"' ∧ u ≠ unit '\\' := by
      intro u high
      simp only [unit, Char.reduceToNat]
      omega
    rw [List.cons_append, unquoteUnits_plain (by omega) (plain first high).1 (plain first high).2, List.cons_append,
      unquoteUnits_plain (by omega) (plain second (by omega)).1 (plain second (by omega)).2, ih]
    rfl
  | case4 first second more apart ih => rw [List.append_assoc, unquoteUnits_quoteUnit, ih]; rfl

theorem unquote_quote (s : JsString) : unquote (quote s) = some s := by
  rw [quote, unquote.eq_def]
  simp only [if_true]
  exact unquoteUnits_quoteUnits s

/-! Quoting writes no control characters. -/

theorem hexDigits_bounds {u : Nat} : ∀ digit ∈ hexDigits u, 48 ≤ digit ∧ digit ≤ 102 := by
  have nibble : ∀ n < 16, 48 ≤ hexDigit n ∧ hexDigit n ≤ 102 := by decide
  intro digit member
  simp only [hexDigits, List.mem_cons, List.not_mem_nil, or_false] at member
  rcases member with rfl | rfl | rfl | rfl <;> exact nibble _ (Nat.mod_lt _ (by decide))

theorem shortEscape_letter {u letter : Nat} (short : shortEscape u = some letter) : 34 ≤ letter ∧ letter ≤ 116 := by
  have listed := shortEscape_some short
  simp only [List.mem_cons, Prod.mk.injEq, List.not_mem_nil, or_false] at listed
  rcases listed with ⟨rfl, rfl⟩ | ⟨rfl, rfl⟩ | ⟨rfl, rfl⟩ | ⟨rfl, rfl⟩ | ⟨rfl, rfl⟩ | ⟨rfl, rfl⟩ | ⟨rfl, rfl⟩ <;> decide

theorem quoteUnit_printable {u : Nat} : ∀ other ∈ quoteUnit u, 32 ≤ other := by
  intro other member
  unfold quoteUnit at member
  split at member
  next letter short =>
    have letters := shortEscape_letter short
    rcases List.mem_pair.mp member with rfl | rfl
    · decide
    · omega
  next =>
    split at member
    next =>
      rcases List.mem_cons.mp member with rfl | member
      · decide
      rcases List.mem_cons.mp member with rfl | member
      · decide
      · have digits := hexDigits_bounds other member
        omega
    next plain =>
      rw [List.mem_singleton.mp member]
      omega

theorem quoteUnits_printable {s : JsString} : ∀ u ∈ quoteUnits s, 32 ≤ u := by
  fun_induction quoteUnits s with
  | case1 => simp
  | case2 last => exact quoteUnit_printable
  | case3 first second more pair ih =>
    simp only [isHighSurrogate, isLowSurrogate, Bool.and_eq_true, decide_eq_true_eq] at pair
    intro u member
    rcases List.mem_cons.mp member with rfl | member
    · omega
    rcases List.mem_cons.mp member with rfl | member
    · omega
    · exact ih u member
  | case4 first second more apart ih =>
    intro u member
    rcases List.mem_append.mp member with here | later
    · exact quoteUnit_printable u here
    · exact ih u later

theorem quote_printable {s : JsString} : ∀ u ∈ quote s, 32 ≤ u := by
  intro u member
  rw [quote, List.mem_cons, List.mem_append, List.mem_singleton] at member
  rcases member with rfl | inside | rfl
  · decide
  · exact quoteUnits_printable u inside
  · decide

end Host
