import OttiliCoder.Library.Utf8

/-! The code points of a text, as its iterator gives them: a pair of surrogates is one. -/

namespace Host

/-- `[...text]`. -/
def codePoints : JsString → List JsString
  | first :: second :: rest =>
    if isHighSurrogate first && isLowSurrogate second then [first, second] :: codePoints rest
    else [first] :: codePoints (second :: rest)
  | [last] => [[last]]
  | [] => []

attribute [grind =] codePoints

/-- `text.trim().length === 0`. -/
def isBlank (text : String) : Bool := (utf16 text).all isWhiteSpace

/-- The character of a code point; a surrogate without a partner is replaced. -/
def pointChar : JsString → Char
  | [first, second] => Char.ofNat (0x10000 + (first - 0xD800) * 0x400 + (second - 0xDC00))
  | point => if point.any isSurrogate then Char.ofNat replacementPoint else Char.ofNat (point.headD 0)

/-- A text as it is stored. -/
def storedText (text : JsString) : String := String.ofList ((codePoints text).map pointChar)

theorem flatten_codePoints (text : JsString) : (codePoints text).flatten = text := by
  fun_induction codePoints text with
  | case1 first second rest pair ih => exact congrArg (first :: second :: ·) ih
  | case2 first second rest pair ih => exact congrArg (first :: ·) ih
  | case3 last => rfl
  | case4 => rfl

/-- A code point has one unit or two. -/
theorem length_codePoint {text : JsString} : ∀ point ∈ codePoints text, 1 ≤ point.length ∧ point.length ≤ 2 := by
  fun_induction codePoints text with
  | case1 first second rest pair ih =>
    intro point member
    cases List.mem_cons.mp member with
    | inl same => simp [same]
    | inr later => exact ih point later
  | case2 first second rest pair ih =>
    intro point member
    cases List.mem_cons.mp member with
    | inl same => simp [same]
    | inr later => exact ih point later
  | case3 last => simp
  | case4 => simp

/-- A code point of one unit starts before a unit that is no low surrogate. -/
theorem codePoints_append (text : JsString) {u : Nat} (plain : isLowSurrogate u = false) (rest : JsString) :
    codePoints (text ++ u :: rest) = codePoints text ++ codePoints (u :: rest) := by
  fun_induction codePoints text with
  | case1 first second more pair ih => simp only [List.cons_append, codePoints, pair, if_true, ih]
  | case2 first second more pair ih =>
    rw [List.cons_append, List.cons_append, codePoints, if_neg pair, List.cons_append, ← ih]
    rfl
  | case3 last => simp [codePoints, plain]
  | case4 => rfl

theorem codePoints_plain {u : Nat} (plain : isHighSurrogate u = false) (rest : JsString) :
    codePoints (u :: rest) = [u] :: codePoints rest := by
  cases rest with
  | nil => rfl
  | cons next more => simp [codePoints, plain]

/-- The first unit of a text stays first in its first code points. -/
theorem take_codePoints_head (u : Nat) (rest : JsString) (count : Nat) :
    ∃ more, ((codePoints (u :: rest)).take (count + 1)).flatten = u :: more := by
  cases rest with
  | nil => exact ⟨[], by simp [codePoints]⟩
  | cons next rest =>
    rw [codePoints]
    split <;> simp

/-- Cutting a text between code points makes no new pair. -/
theorem codePoints_take (text : JsString) (count : Nat) :
    codePoints ((codePoints text).take count).flatten = (codePoints text).take count := by
  fun_induction codePoints text generalizing count with
  | case1 first second rest pair ih =>
    cases count with
    | zero => rfl
    | succ count => simp [codePoints, pair, ih]
  | case2 first second rest pair ih =>
    cases count with
    | zero => rfl
    | succ count =>
      cases count with
      | zero => simp [codePoints]
      | succ count =>
        obtain ⟨more, starts⟩ := take_codePoints_head second rest count
        have kept := ih (count + 1)
        rw [starts] at kept
        rw [List.take_succ_cons, List.flatten_cons, starts, List.singleton_append, codePoints, if_neg pair, kept]
  | case3 last =>
    cases count with
    | zero => rfl
    | succ count => simp [codePoints]
  | case4 => simp [codePoints]

end Host
