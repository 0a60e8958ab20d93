import OttiliCoder.Library.JsString

/-! Regular expressions of the host language without flags, as far as texts written for one line need them:
anchors, single units, escaped ones, the dot, and stars behind a unit. They are read from their source. -/

namespace Host

def isLineTerminatorUnit (u : Nat) : Bool := u == 10 || u == 13 || u == 0x2028 || u == 0x2029

/-- What a syntax character is not: a character of itself. -/
def isSyntaxCharacter (u : Nat) : Bool :=
  (units ".*+?^$").contains u || u == 0x7B || u == 0x7D || (units "()|[]").contains u || u == unit '\\'

inductive Atom where
  | exactly (u : Nat)
  | dot
deriving DecidableEq

/-- Without flags the dot stands for any unit that does not end a line. -/
def Atom.matches : Atom → Nat → Bool
  | .exactly u, other => u == other
  | .dot, other => !isLineTerminatorUnit other

inductive RegExpTerm where
  | start
  | finish
  | once (atom : Atom)
  | star (atom : Atom)
deriving DecidableEq

/-- An atom with the star behind it, if there is one. -/
def quantified (atom : Atom) (rest : JsString) : RegExpTerm × JsString :=
  match rest with
  | next :: more => if next = unit '*' then (.star atom, more) else (.once atom, rest)
  | [] => (.once atom, [])

/-- The first term of a source and what is behind it; nothing for what is not modelled. -/
def readTerm : JsString → Option (RegExpTerm × JsString)
  | [] => none
  | first :: rest =>
    if first = unit '^' then some (.start, rest)
    else if first = unit '$' then some (.finish, rest)
    else if first = unit '.' then some (quantified .dot rest)
    else if first = unit '\\' then
      match rest with
      | escaped :: more => if isSyntaxCharacter escaped then some (quantified (.exactly escaped) more) else none
      | [] => none
    else if isSyntaxCharacter first then none
    else some (quantified (.exactly first) rest)

theorem readTerm_escaped {escaped : Nat} (given : isSyntaxCharacter escaped = true) (rest : JsString) :
    readTerm (unit '\\' :: escaped :: rest) = some (quantified (.exactly escaped) rest) := by
  unfold readTerm
  simp only [unit, Char.reduceToNat, Nat.reduceEqDiff, if_false, if_true, given]

theorem readTerm_plain {first : Nat} (plain : isSyntaxCharacter first = false) (rest : JsString) :
    readTerm (first :: rest) = some (quantified (.exactly first) rest) := by
  have apart : ∀ other, isSyntaxCharacter other = true → first ≠ other := by
    rintro other syntaxed rfl
    cases plain.symm.trans syntaxed
  unfold readTerm
  simp only [if_neg (apart (unit '^') (by decide)), if_neg (apart (unit '$') (by decide)),
    if_neg (apart (unit '.') (by decide)), if_neg (apart (unit '\\') (by decide)), plain, Bool.false_eq_true, if_false]

def readTerms : Nat → JsString → Option (List RegExpTerm)
  | _, [] => some []
  | 0, _ :: _ => none
  | fuel + 1, source => do
    let (term, rest) ← readTerm source
    return term :: (← readTerms fuel rest)

theorem readTerms_read {fuel : Nat} {source rest : JsString} {term : RegExpTerm} {terms : List RegExpTerm}
    (read : readTerm source = some (term, rest)) (later : readTerms fuel rest = some terms) :
    readTerms (fuel + 1) source = some (term :: terms) := by
  cases source with
  | nil => cases read
  | cons first source => simp [readTerms, read, later]

/-- `new RegExp(source)`. -/
def regExp (source : JsString) : Option (List RegExpTerm) := readTerms source.length source

/-- Runs of an atom before the rest matches, the shortest first. -/
def matchRun (atom : Atom) (rest : Bool → JsString → Bool) : Bool → JsString → Bool
  | first, [] => rest first []
  | first, u :: text => rest first (u :: text) || (atom.matches u && matchRun atom rest false text)

/-- Whether the terms match at a place of a text, which may be its start. -/
def matchTerms : List RegExpTerm → Bool → JsString → Bool
  | [], _, _ => true
  | .start :: terms, first, text => first && matchTerms terms first text
  | .finish :: terms, first, text => text.isEmpty && matchTerms terms first text
  | .once _ :: _, _, [] => false
  | .once atom :: terms, _, u :: text => atom.matches u && matchTerms terms false text
  | .star atom :: terms, first, text => matchRun atom (matchTerms terms) first text

/-- A match at the place or behind it. -/
def searchTerms (terms : List RegExpTerm) : Bool → JsString → Bool
  | first, [] => matchTerms terms first []
  | first, u :: text => matchTerms terms first (u :: text) || searchTerms terms false text

/-- `regExp.test(text)`. -/
def testTerms (terms : List RegExpTerm) (text : JsString) : Bool := searchTerms terms true text

end Host
