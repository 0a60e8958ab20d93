import Mathlib.Algebra.GroupWithZero.Nat
import OttiliCoder.Library.CodePoints

/-! The tokens a text is taken to cost when no model tokenizer is configured. -/

namespace OttiliCoder
open Host

/-- `[A-Za-z0-9_]`. -/
def isWordPoint : JsString → Bool
  | [u] => isLetter u || isDigit u || u == unit '_'
  | _ => false

def isSpacePoint : JsString → Bool
  | [u] => isWhiteSpace u
  | _ => false

/-- The matches of `/[A-Za-z0-9_]+|[^\sA-Za-z0-9_]/gu`, after the word characters read so far. -/
def lexicalPieces (word : JsString) : List JsString → List JsString
  | [] => if word = [] then [] else [word]
  | point :: points =>
    if isWordPoint point then lexicalPieces (word ++ point) points
    else (if word = [] then [] else [word]) ++ (if isSpacePoint point then [] else [point]) ++ lexicalPieces [] points

attribute [grind =] lexicalPieces

/-- `Math.ceil(length / 4)`. -/
def quarters (length : Nat) : Nat := (length + 3) / 4

def pieceTokens (piece : JsString) : Nat := max 1 (quarters piece.length)

def estimateTokens (text : JsString) : Nat :=
  if text = [] then 0
  else
    match lexicalPieces [] (codePoints text) with
    | [] => quarters text.length
    | pieces => (pieces.map pieceTokens).sum

/-! What the pieces cost, word characters read so far included. -/

def lexicalTokens (word : JsString) (points : List JsString) : Nat := ((lexicalPieces word points).map pieceTokens).sum

section Tokens
variable {word point : JsString} {points : List JsString}

theorem lexicalTokens_nil (word : JsString) : lexicalTokens word [] = if word = [] then 0 else pieceTokens word := by
  rw [lexicalTokens, lexicalPieces]
  split <;> simp

theorem lexicalTokens_word (character : isWordPoint point = true) :
    lexicalTokens word (point :: points) = lexicalTokens (word ++ point) points := by
  rw [lexicalTokens, lexicalPieces, if_pos character, lexicalTokens]

theorem lexicalTokens_other (other : isWordPoint point = false) :
    lexicalTokens word (point :: points) =
      lexicalTokens word [] + (if isSpacePoint point then 0 else pieceTokens point) + lexicalTokens [] points := by
  rw [lexicalTokens_nil, lexicalTokens, lexicalPieces, if_neg (by simp [other])]
  split <;> split <;> simp [lexicalTokens, Nat.add_assoc]

/-- A word ends before a point that is no word character. -/
theorem lexicalTokens_append (first : List JsString) (other : isWordPoint point = false) :
    lexicalTokens word (first ++ point :: points) = lexicalTokens word first + lexicalTokens [] (point :: points) := by
  induction first generalizing word with
  | nil =>
    rw [List.nil_append, lexicalTokens_other other, lexicalTokens_other other, lexicalTokens_nil []]
    simp only [if_true]
    omega
  | cons next first ih =>
    cases character : isWordPoint next with
    | true => rw [List.cons_append, lexicalTokens_word character, lexicalTokens_word character, ih]
    | false =>
      rw [List.cons_append, lexicalTokens_other character, lexicalTokens_other character, ih]
      omega

/-- One code point more costs one token at most. -/
theorem lexicalTokens_concat (small : point.length ≤ 2) :
    lexicalTokens word points ≤ lexicalTokens word (points ++ [point]) ∧
      lexicalTokens word (points ++ [point]) ≤ lexicalTokens word points + 1 := by
  induction points generalizing word with
  | nil =>
    rw [List.nil_append]
    cases character : isWordPoint point with
    | true =>
      rw [lexicalTokens_word character, lexicalTokens_nil, lexicalTokens_nil]
      have single : point.length = 1 := by
        match point, character with
        | [_], _ => rfl
      by_cases fresh : word = []
      · have piece : point ≠ [] := by
          intro none
          simp [none] at single
        simp [fresh, piece, pieceTokens, quarters, single]
      · simp only [List.append_eq_nil_iff, fresh, false_and, if_false, pieceTokens, quarters, List.length_append, single]
        omega
    | false =>
      rw [lexicalTokens_other character, lexicalTokens_nil []]
      have piece : pieceTokens point = 1 := by
        unfold pieceTokens quarters
        omega
      simp only [if_true, piece]
      split <;> omega
  | cons next points ih =>
    rw [List.cons_append]
    cases character : isWordPoint next with
    | true =>
      rw [lexicalTokens_word character, lexicalTokens_word character]
      exact ih
    | false =>
      rw [lexicalTokens_other character, lexicalTokens_other character]
      have later := @ih []
      omega

end Tokens

/-! Texts that open with a bracket, as every block of the context does. -/

def opensBlock : JsString → Bool
  | first :: _ => first == unit '['
  | [] => false

section Blocks
variable {text : JsString}

theorem opensBlock_iff : opensBlock text = true ↔ ∃ rest, text = unit '[' :: rest := by
  cases text with
  | nil => simp [opensBlock]
  | cons first rest => simp [opensBlock]

theorem codePoints_block (rest : JsString) : codePoints (unit '[' :: rest) = [unit '['] :: codePoints rest :=
  codePoints_plain (by decide) rest

theorem isWordPoint_bracket : isWordPoint [unit '['] = false := by decide

/-- The bracket is a piece, so the text is never without one. -/
theorem estimateTokens_block (block : opensBlock text = true) : estimateTokens text = lexicalTokens [] (codePoints text) := by
  obtain ⟨rest, rfl⟩ := opensBlock_iff.mp block
  have pieces : lexicalPieces [] (codePoints (unit '[' :: rest)) = [unit '['] :: lexicalPieces [] (codePoints rest) := by
    rw [codePoints_block, lexicalPieces, if_neg (by decide)]
    rfl
  rw [estimateTokens, if_neg (List.cons_ne_nil _ _), lexicalTokens, pieces]

theorem lexicalTokens_block (rest : JsString) :
    lexicalTokens [] (codePoints (unit '[' :: rest)) = 1 + lexicalTokens [] (codePoints rest) := by
  rw [codePoints_block, lexicalTokens_other isWordPoint_bracket, lexicalTokens_nil]
  have cost : (if isSpacePoint [unit '['] then 0 else pieceTokens [unit '[']) = 1 := by decide
  rw [cost]
  simp

theorem estimateTokens_pos (block : opensBlock text = true) : 0 < estimateTokens text := by
  rw [estimateTokens_block block]
  obtain ⟨rest, rfl⟩ := opensBlock_iff.mp block
  rw [lexicalTokens_block]
  omega

end Blocks

/-! Texts of several lines. -/

section Lines
variable {text : JsString}

theorem lexicalTokens_newline (points : List JsString) : lexicalTokens [] ([unit '\n'] :: points) = lexicalTokens [] points := by
  rw [lexicalTokens_other (by decide), lexicalTokens_nil]
  simp [isSpacePoint, isWhiteSpace, unit]

/-- A line break parts the words on its two sides. -/
theorem lexicalTokens_lines (first rest : JsString) :
    lexicalTokens [] (codePoints (first ++ unit '\n' :: rest)) =
      lexicalTokens [] (codePoints first) + lexicalTokens [] (codePoints rest) := by
  rw [codePoints_append first (by decide), codePoints_plain (by decide), lexicalTokens_append _ (by decide),
    lexicalTokens_newline]

theorem lexicalTokens_joined (lines : List JsString) :
    lexicalTokens [] (codePoints ([unit '\n'].intercalate lines)) =
      (lines.map fun line => lexicalTokens [] (codePoints line)).sum := by
  induction lines with
  | nil => rfl
  | cons line rest ih =>
    cases rest with
    | nil =>
      rw [List.intercalate_singleton]
      rfl
    | cons next more =>
      rw [List.intercalate_cons_cons, List.append_assoc, List.singleton_append, lexicalTokens_lines, ih]
      rfl

theorem estimateTokens_of_pos (some : 0 < lexicalTokens [] (codePoints text)) :
    estimateTokens text = lexicalTokens [] (codePoints text) := by
  have filled : text ≠ [] := by
    rintro rfl
    cases some
  unfold estimateTokens lexicalTokens at *
  rw [if_neg filled]
  split
  next none =>
    rw [none] at some
    cases some
  next => rfl

/-- White space alone costs its length. -/
theorem lexicalTokens_le (text : JsString) : lexicalTokens [] (codePoints text) ≤ estimateTokens text := by
  rcases Nat.eq_zero_or_pos (lexicalTokens [] (codePoints text)) with none | some
  · rw [none]
    exact Nat.zero_le _
  · exact (estimateTokens_of_pos some).ge

end Lines

end OttiliCoder
