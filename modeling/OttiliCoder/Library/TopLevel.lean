import OttiliCoder.Library.JsString

/-! Text cut at a delimiter that stands outside all brackets and quoted strings. -/

namespace Host

/-- Where a scan is: how deep in brackets, whether in a quoted string, and whether behind a backslash there. -/
structure Scan where
  depth : Nat := 0
  inString : Bool := false
  escaped : Bool := false
deriving DecidableEq

namespace Scan

/-- Outside of strings, this deep in brackets. -/
abbrev outside (depth : Nat) : Scan := { depth }

/-- Inside of a string. -/
abbrev inside (depth : Nat) : Scan := { depth, inString := true }

/-- One unit; a closing bracket that was never opened ends the scan. -/
def next (scan : Scan) (u : Nat) : Option Scan :=
  if scan.inString then
    if scan.escaped then some { scan with escaped := false }
    else if u = unit '\\' then some { scan with escaped := true }
    else if u = unit '"' then some { scan with inString := false }
    else some scan
  else if u = unit '"' then some { scan with inString := true }
  else if u = unit '[' ∨ u = unit '{' then some { scan with depth := scan.depth + 1 }
  else if u = unit ']' ∨ u = unit '}' then if scan.depth = 0 then none else some { scan with depth := scan.depth - 1 }
  else some scan

/-- The text is cut here. -/
def cutsAt (scan : Scan) (delimiter u : Nat) : Bool := !scan.inString && scan.depth == 0 && u == delimiter

/-- The scan of a text in which nothing is cut. -/
def pass (delimiter : Nat) (scan : Scan) : JsString → Option Scan
  | [] => some scan
  | u :: rest => if scan.cutsAt delimiter u then none else (scan.next u).bind fun following => following.pass delimiter rest

end Scan

inductive SplitFault where
  | unexpectedClosing
  | unterminatedString
  | unbalanced
deriving DecidableEq

structure SplitPart where
  text : JsString
  offset : Nat

/-- The parts from here on, where `part` is what was read since the last delimiter. A fault comes
with the index it was found at. -/
def splitFrom (delimiter : Nat) (scan : Scan) (index : Nat) (part : SplitPart) :
    JsString → Except (SplitFault × Nat) (List SplitPart)
  | [] =>
    if scan.inString then throw (.unterminatedString, index)
    else if scan.depth ≠ 0 then throw (.unbalanced, index)
    else return [part]
  | u :: rest =>
    match scan.next u with
    | none => throw (.unexpectedClosing, index)
    | some following =>
      if scan.cutsAt delimiter u then do
        let parts ← splitFrom delimiter following (index + 1) { text := [], offset := index + 1 } rest
        return part :: parts
      else splitFrom delimiter following (index + 1) { part with text := part.text ++ [u] } rest

attribute [grind =] splitFrom

def splitParts (delimiter : Nat) (source : JsString) : Except (SplitFault × Nat) (List SplitPart) :=
  splitFrom delimiter {} 0 { text := [], offset := 0 } source

/-- Wherever it stands outside of strings, the text is passed without a cut and leaves the scan as it was. -/
def Solid (delimiter : Nat) (text : JsString) : Prop := ∀ depth, (Scan.outside depth).pass delimiter text = some (.outside depth)

/-- Such a text in brackets, where a delimiter does not count. -/
def Enclosed (delimiter : Nat) (text : JsString) : Prop :=
  ∀ depth, (Scan.outside (depth + 1)).pass delimiter text = some (.outside (depth + 1))

section Pass
variable {delimiter depth : Nat} {scan following last : Scan} {text rest first second : JsString}

theorem pass_append (passed : scan.pass delimiter first = some following) :
    scan.pass delimiter (first ++ second) = following.pass delimiter second := by
  induction first generalizing scan with
  | nil => cases passed; rfl
  | cons u first ih =>
    rw [Scan.pass] at passed
    rw [List.cons_append, Scan.pass]
    split at passed
    next => cases passed
    next whole =>
      obtain ⟨middle, stepped, passed⟩ := Option.bind_eq_some_iff.mp passed
      rw [if_neg whole, stepped, Option.bind_some, ih passed]

theorem Solid.append (one : Solid delimiter first) (other : Solid delimiter second) : Solid delimiter (first ++ second) := by
  intro depth
  rw [pass_append (one depth), other depth]

theorem Enclosed.append (one : Enclosed delimiter first) (other : Enclosed delimiter second) :
    Enclosed delimiter (first ++ second) := by
  intro depth
  rw [pass_append (one depth), other depth]

theorem Solid.enclosed (solid : Solid delimiter text) : Enclosed delimiter text := fun depth => solid (depth + 1)

/-- A unit without a meaning of its own. -/
def Plain (u : Nat) : Prop := u ∉ [unit '"', unit '[', unit ']', unit '{', unit '}']

instance : DecidablePred Plain := fun u => inferInstanceAs (Decidable (u ∉ [unit '"', unit '[', unit ']', unit '{', unit '}']))

theorem next_plain {u : Nat} (plain : Plain u) (depth : Nat) : (Scan.outside depth).next u = some (.outside depth) := by
  simp only [Plain, List.mem_cons, List.not_mem_nil, or_false, not_or] at plain
  obtain ⟨quoted, opens, closes, openBrace, closeBrace⟩ := plain
  simp [Scan.next, quoted, opens, closes, openBrace, closeBrace]

theorem solid_plain (plain : ∀ u ∈ text, Plain u ∧ u ≠ delimiter) : Solid delimiter text := by
  intro depth
  induction text with
  | nil => rfl
  | cons u text ih =>
    obtain ⟨clean, other⟩ := plain u (List.mem_cons_self ..)
    rw [Scan.pass, if_neg (by simp [Scan.cutsAt, other]), next_plain clean, Option.bind_some]
    exact ih fun u member => plain u (List.mem_cons_of_mem _ member)

theorem enclosed_plain (plain : ∀ u ∈ text, Plain u) : Enclosed delimiter text := by
  intro depth
  induction text with
  | nil => rfl
  | cons u text ih =>
    rw [Scan.pass, if_neg (by simp [Scan.cutsAt]), next_plain (plain u (List.mem_cons_self ..)), Option.bind_some]
    exact ih fun u member => plain u (List.mem_cons_of_mem _ member)

/-- Brackets around an enclosed text make it solid. -/
theorem solid_bracketed {opening closing : Nat} (opens : opening = unit '[' ∨ opening = unit '{')
    (closes : closing = unit ']' ∨ closing = unit '}') (apart : opening ≠ delimiter) (enclosed : Enclosed delimiter text) :
    Solid delimiter (opening :: (text ++ [closing])) := by
  intro depth
  have entered : (Scan.outside depth).next opening = some (.outside (depth + 1)) := by
    rcases opens with rfl | rfl <;> rfl
  have left : (Scan.outside (depth + 1)).next closing = some (.outside depth) := by
    rcases closes with rfl | rfl <;> rfl
  rw [Scan.pass, if_neg (by simp [Scan.cutsAt, apart]), entered, Option.bind_some, pass_append (enclosed depth), Scan.pass,
    if_neg (by simp [Scan.cutsAt]), left]
  rfl

/-! What a quoted string holds keeps the scan inside of it. -/

theorem pass_inside (plain : ∀ u ∈ text, u ≠ unit '"' ∧ u ≠ unit '\\') :
    (Scan.inside depth).pass delimiter text = some (.inside depth) := by
  induction text with
  | nil => rfl
  | cons u text ih =>
    obtain ⟨quoted, escape⟩ := plain u (List.mem_cons_self ..)
    have stays : (Scan.inside depth).next u = some (.inside depth) := by simp [Scan.next, quoted, escape]
    rw [Scan.pass, if_neg (by simp [Scan.cutsAt]), stays, Option.bind_some]
    exact ih fun other member => plain other (List.mem_cons_of_mem _ member)

theorem pass_escape (letter : Nat) : (Scan.inside depth).pass delimiter [unit '\\', letter] = some (.inside depth) := by
  have escapes : (Scan.inside depth).next (unit '\\') = some { depth, inString := true, escaped := true } := rfl
  have back : Scan.next { depth, inString := true, escaped := true } letter = some (.inside depth) := rfl
  rw [Scan.pass, if_neg (by simp [Scan.cutsAt]), escapes, Option.bind_some, Scan.pass, if_neg (by simp [Scan.cutsAt]), back]
  rfl

theorem pass_quoteUnit (u : Nat) : (Scan.inside depth).pass delimiter (quoteUnit u) = some (.inside depth) := by
  unfold quoteUnit
  cases short : shortEscape u with
  | some letter => exact pass_escape letter
  | none =>
    have quoted : u ≠ unit '"' := by rintro rfl; exact absurd short (by decide)
    have escape : u ≠ unit '\\' := by rintro rfl; exact absurd short (by decide)
    simp only
    split
    · have digits : ∀ digit ∈ hexDigits u, digit ≠ unit '"' ∧ digit ≠ unit '\\' := by
        have nibble : ∀ n < 16, hexDigit n ≠ unit '"' ∧ hexDigit n ≠ unit '\\' := by decide
        intro digit member
        simp only [hexDigits, List.mem_cons, List.not_mem_nil, or_false] at member
        rcases member with rfl | rfl | rfl | rfl <;> exact nibble _ (Nat.mod_lt _ (by decide))
      exact (pass_append (pass_escape (unit 'u'))).trans (pass_inside digits)
    · refine pass_inside fun other member => ?_
      rw [List.mem_singleton.mp member]
      exact ⟨quoted, escape⟩

theorem pass_quoteUnits (s : JsString) : (Scan.inside depth).pass delimiter (quoteUnits s) = some (.inside depth) := by
  fun_induction quoteUnits s with
  | case1 => rfl
  | case2 last => exact pass_quoteUnit last
  | case3 first second more pair ih =>
    simp only [isHighSurrogate, isLowSurrogate, Bool.and_eq_true, decide_eq_true_eq] at pair
    have both : (Scan.inside depth).pass delimiter [first, second] = some (.inside depth) := by
      have quotes : unit '"' = 34 := rfl
      have escapes : unit '\\' = 92 := rfl
      refine pass_inside fun u member => ?_
      rcases List.mem_pair.mp member with rfl | rfl <;> omega
    exact (pass_append both).trans ih
  | case4 first second more apart ih => exact (pass_append (pass_quoteUnit first)).trans ih

theorem solid_quote (other : delimiter ≠ unit '"') (s : JsString) : Solid delimiter (quote s) := by
  intro depth
  have entered : (Scan.outside depth).next (unit '"') = some (.inside depth) := rfl
  have left : (Scan.inside depth).next (unit '"') = some (.outside depth) := rfl
  rw [quote, Scan.pass, if_neg (by simp [Scan.cutsAt, Ne.symm other]), entered, Option.bind_some,
    pass_append (pass_quoteUnits s), Scan.pass, if_neg (by simp [Scan.cutsAt]), left]
  rfl

/-! Solid parts are cut apart again where they were joined. -/

theorem splitFrom_pass (index : Nat) (part : SplitPart) (passed : scan.pass delimiter text = some following) (rest : JsString) :
    splitFrom delimiter scan index part (text ++ rest) =
      splitFrom delimiter following (index + text.length) { part with text := part.text ++ text } rest := by
  induction text generalizing scan index part with
  | nil =>
    cases passed
    simp
  | cons u text ih =>
    rw [Scan.pass] at passed
    split at passed
    next => cases passed
    next whole =>
      obtain ⟨middle, stepped, passed⟩ := Option.bind_eq_some_iff.mp passed
      rw [List.cons_append, splitFrom, stepped]
      simp only [whole, Bool.false_eq_true, if_false]
      rw [ih _ _ passed]
      simp only [List.append_assoc, List.singleton_append, List.length_cons]
      congr 1
      omega

theorem splitFrom_solid {index : Nat} {part : SplitPart} (solid : Solid delimiter text) :
    splitFrom delimiter {} index part text = .ok [{ part with text := part.text ++ text }] := by
  have passed := splitFrom_pass index part (solid 0) []
  rw [List.append_nil] at passed
  exact passed

theorem splitFrom_join (plain : Plain delimiter) {texts : List JsString} (some : texts ≠ [])
    (solid : ∀ text ∈ texts, Solid delimiter text) (index start : Nat) :
    ∃ parts, splitFrom delimiter {} index { text := [], offset := start } ([delimiter].intercalate texts) = .ok parts ∧
      parts.map (·.text) = texts := by
  induction texts generalizing index start with
  | nil => exact absurd rfl some
  | cons text texts ih =>
    have first := solid text (List.mem_cons_self ..)
    cases texts with
    | nil =>
      rw [List.intercalate_singleton, splitFrom_solid first]
      exact ⟨_, rfl, rfl⟩
    | cons second texts =>
      obtain ⟨parts, split, same⟩ := ih (List.cons_ne_nil _ _) (fun other member => solid other (List.mem_cons_of_mem _ member))
        (index + text.length + 1) (index + text.length + 1)
      have cut : (Scan.outside 0).cutsAt delimiter delimiter = true := by simp [Scan.cutsAt]
      have passed := splitFrom_pass index { text := [], offset := start } (first 0)
        (delimiter :: [delimiter].intercalate (second :: texts))
      rw [splitFrom, next_plain plain] at passed
      simp only [cut, if_true, split] at passed
      rw [List.intercalate_cons_cons, List.append_assoc, List.singleton_append]
      exact ⟨_, passed, by simp [same]⟩

theorem splitParts_join (plain : Plain delimiter) {texts : List JsString} (some : texts ≠ [])
    (solid : ∀ text ∈ texts, Solid delimiter text) :
    ∃ parts, splitParts delimiter ([delimiter].intercalate texts) = .ok parts ∧ parts.map (·.text) = texts :=
  splitFrom_join plain some solid 0 0

/-- No part is longer than the text. -/
theorem splitFrom_length {index : Nat} {part : SplitPart} {parts : List SplitPart}
    (split : splitFrom delimiter scan index part text = .ok parts) :
    ∀ cut ∈ parts, cut.text.length ≤ part.text.length + text.length := by
  induction text generalizing scan index part parts with
  | nil =>
    rw [splitFrom] at split
    split at split
    next => cases split
    next =>
      split at split
      next => cases split
      next =>
        cases split
        simp
  | cons u text ih =>
    rw [splitFrom] at split
    split at split
    next => cases split
    next following _ =>
      split at split
      next =>
        cases later : splitFrom delimiter following (index + 1) { text := [], offset := index + 1 } text with
        | error fault =>
          rw [later] at split
          cases split
        | ok others =>
          rw [later] at split
          cases split
          intro cut member
          rcases List.mem_cons.mp member with rfl | inside
          · exact Nat.le_add_right ..
          · have bound := ih later cut inside
            simp only [List.length_nil, List.length_cons] at bound ⊢
            omega
      next =>
        intro cut member
        have bound := ih split cut member
        simp only [List.length_append, List.length_cons, List.length_nil] at bound ⊢
        omega

theorem splitParts_length {parts : List SplitPart} (split : splitParts delimiter text = .ok parts) :
    ∀ cut ∈ parts, cut.text.length ≤ text.length := by
  intro cut member
  have bound := splitFrom_length split cut member
  simpa using bound

end Pass

end Host
