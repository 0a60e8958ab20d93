import OttiliCoder.Core.WildcardText
import OttiliCoder.Library.Utf8
import OttiliCoder.Proofs.Permissions

/-! What a wildcard pattern matches: the texts that come from it by putting some text for every star, as long
as none of those texts has a line terminator. -/

namespace OttiliCoder.WildcardTexts
open Host Wildcards Permissions

/-! The source of the expression. -/

/-- What a pattern's unit is in the source. -/
def piece (u : Nat) : JsString :=
  if u = unit '*' then [unit '.', unit '*'] else if escapedUnits.contains u then [unit '\\', u] else [u]

/-- What the engine reads there. -/
def termOf (u : Nat) : RegExpTerm := if u = unit '*' then .star .dot else .once (.exactly u)

theorem isSyntaxCharacter_iff (u : Nat) : isSyntaxCharacter u = escapedUnits.contains u := by
  rw [Bool.eq_iff_iff]
  simp [isSyntaxCharacter, escapedUnits, units, unit, Char.reduceToNat]
  omega

theorem escapedUnits_star : escapedUnits.contains (unit '*') = true := by decide

theorem escape_head (pattern : JsString) : (escapePattern pattern).head? ≠ some (unit '*') := by
  cases pattern with
  | nil => simp [escapePattern]
  | cons u pattern =>
    rw [escapePattern, List.flatMap_cons]
    split
    · simp [unit]
    · next plain =>
      simp only [List.cons_append, List.nil_append, List.head?_cons, ne_eq, Option.some.injEq]
      rintro rfl
      exact plain escapedUnits_star

theorem replaceStars_other {first second : Nat} {rest : JsString} (apart : ¬(first = unit '\\' ∧ second = unit '*')) :
    replaceStars (first :: second :: rest) = first :: replaceStars (second :: rest) := by
  rw [replaceStars, if_neg apart]

theorem replaceStars_plain {u : Nat} {rest : JsString} (head : rest.head? ≠ some (unit '*')) :
    replaceStars (u :: rest) = u :: replaceStars rest := by
  cases rest with
  | nil => rfl
  | cons second rest =>
    apply replaceStars_other
    rintro ⟨_, star⟩
    exact head (congrArg some star)

theorem replaceStars_escape (pattern : JsString) : replaceStars (escapePattern pattern) = pattern.flatMap piece := by
  induction pattern with
  | nil => rfl
  | cons u pattern ih =>
    have head := escape_head pattern
    rw [List.flatMap_cons, ← ih, piece]
    rw [escapePattern, List.flatMap_cons]
    change replaceStars (_ ++ escapePattern pattern) = _
    by_cases star : u = unit '*'
    · subst star
      rw [if_pos escapedUnits_star, if_pos rfl, List.cons_append, List.singleton_append, replaceStars, if_pos ⟨rfl, rfl⟩]
      rfl
    · rw [if_neg star]
      split
      · rw [List.cons_append, List.singleton_append, replaceStars_other fun both => star both.2, replaceStars_plain head]
        rfl
      · rw [List.singleton_append, replaceStars_plain head]
        rfl

theorem quantified_once {atom : Atom} {rest : JsString} (head : rest.head? ≠ some (unit '*')) :
    quantified atom rest = (.once atom, rest) := by
  cases rest with
  | nil => rfl
  | cons next rest =>
    rw [quantified, if_neg]
    intro star
    exact head (congrArg some star)

theorem readTerm_piece (u : Nat) {rest : JsString} (head : rest.head? ≠ some (unit '*')) :
    readTerm (piece u ++ rest) = some (termOf u, rest) := by
  rw [piece, termOf]
  by_cases star : u = unit '*'
  · rw [if_pos star, if_pos star]
    rfl
  rw [if_neg star, if_neg star]
  split
  · next escaped =>
    rw [List.cons_append, List.singleton_append, readTerm_escaped ((isSyntaxCharacter_iff u).trans escaped),
      quantified_once head]
  · next plain =>
    rw [Bool.not_eq_true] at plain
    rw [List.singleton_append, readTerm_plain ((isSyntaxCharacter_iff u).trans plain), quantified_once head]

theorem piece_head (u : Nat) (rest : JsString) : (piece u ++ rest).head? ≠ some (unit '*') := by
  rw [piece]
  split
  · simp [unit]
  · next apart =>
    split
    · simp [unit]
    · simpa using apart

theorem length_piece (u : Nat) : 1 ≤ (piece u).length := by
  rw [piece]
  split
  · simp
  · split <;> simp

theorem pieces_head (pattern : JsString) : (pattern.flatMap piece ++ [unit '$']).head? ≠ some (unit '*') := by
  cases pattern with
  | nil => decide
  | cons u pattern =>
    rw [List.flatMap_cons, List.append_assoc]
    exact piece_head u _

theorem readTerms_pieces {fuel : Nat} {pattern : JsString} (enough : pattern.length < fuel) :
    readTerms fuel (pattern.flatMap piece ++ [unit '$']) = some (pattern.map termOf ++ [.finish]) := by
  induction pattern generalizing fuel with
  | nil =>
    cases fuel with
    | zero => cases enough
    | succ fuel => cases fuel <;> rfl
  | cons u pattern ih =>
    cases fuel with
    | zero => cases enough
    | succ fuel =>
      rw [List.flatMap_cons, List.append_assoc]
      exact readTerms_read (readTerm_piece u (pieces_head pattern)) (ih (Nat.lt_of_succ_lt_succ enough))

/-- The source is always an expression. -/
theorem regExp_source (pattern : JsString) :
    regExp (wildcardSource pattern) = some (.start :: (pattern.map termOf ++ [.finish])) := by
  have long : pattern.length ≤ (pattern.flatMap piece).length := by
    induction pattern with
    | nil => exact Nat.le_refl _
    | cons u pattern ih =>
      have filled := length_piece u
      rw [List.flatMap_cons, List.length_append, List.length_cons]
      omega
  rw [regExp, wildcardSource, replaceStars_escape, List.length_cons]
  apply readTerms_read rfl
  apply readTerms_pieces
  rw [List.length_append, List.length_singleton]
  omega

/-! The match. -/

theorem matchRun_iff {atom : Atom} {rest : Bool → JsString → Bool} {first : Bool} {text : JsString} :
    matchRun atom rest first text = true ↔ ∃ skipped more, text = skipped ++ more ∧
      (∀ u ∈ skipped, atom.matches u = true) ∧ rest (first && skipped.isEmpty) more = true := by
  induction text generalizing first with
  | nil =>
    rw [matchRun]
    constructor
    · exact fun matched => ⟨[], [], rfl, by simp, by simpa using matched⟩
    · rintro ⟨skipped, more, parted, _, matched⟩
      obtain ⟨rfl, rfl⟩ := List.append_eq_nil_iff.mp parted.symm
      simpa using matched
  | cons u text ih =>
    rw [matchRun, Bool.or_eq_true, Bool.and_eq_true, ih]
    constructor
    · rintro (here | ⟨one, skipped, more, rfl, allowed, matched⟩)
      · exact ⟨[], u :: text, rfl, by simp, by simpa using here⟩
      · exact ⟨u :: skipped, more, rfl, List.forall_mem_cons.mpr ⟨one, allowed⟩, by simpa using matched⟩
    · rintro ⟨skipped, more, parted, allowed, matched⟩
      cases skipped with
      | nil =>
        rw [List.nil_append] at parted
        exact .inl (by simpa [parted] using matched)
      | cons v skipped =>
        rw [List.cons_append, List.cons.injEq] at parted
        obtain ⟨rfl, rfl⟩ := parted
        obtain ⟨one, allowed⟩ := List.forall_mem_cons.mp allowed
        exact .inr ⟨one, skipped, more, rfl, allowed, by simpa using matched⟩

/-- `*` is `.*`, which no line terminator matches. -/
abbrev SpellsUnits : JsString → JsString → Prop := Spells (unit '*') fun u => isLineTerminatorUnit u = false

theorem matchTerms_iff {first : Bool} {pattern text : JsString} :
    matchTerms (pattern.map termOf ++ [.finish]) first text = true ↔ SpellsUnits pattern text := by
  induction pattern generalizing first text with
  | nil =>
    rw [List.map_nil, List.nil_append, matchTerms, matchTerms, Bool.and_true, List.isEmpty_iff, SpellsUnits,
      spells_plain List.not_mem_nil]
  | cons u pattern ih =>
    rw [List.map_cons, List.cons_append, termOf]
    by_cases star : u = unit '*'
    · rw [if_pos star, matchTerms, matchRun_iff, star, SpellsUnits, spells_star]
      simp only [Atom.matches, Bool.not_eq_true', ih]
    · rw [if_neg star, SpellsUnits, spells_literal star]
      cases text with
      | nil => simp [matchTerms]
      | cons v text =>
        rw [matchTerms, Bool.and_eq_true, ih, Atom.matches, beq_iff_eq]
        constructor
        · rintro ⟨rfl, spelled⟩
          exact ⟨text, rfl, spelled⟩
        · rintro ⟨rest, same, spelled⟩
          rw [List.cons.injEq] at same
          exact ⟨same.1.symm, same.2 ▸ spelled⟩

/-- Behind the start of a text the anchor does not match. -/
theorem searchTerms_start (terms : List RegExpTerm) (text : JsString) : searchTerms (.start :: terms) false text = false := by
  induction text with
  | nil => simp [searchTerms, matchTerms]
  | cons u text ih => simp [searchTerms, matchTerms, ih]

theorem wildcardTest_iff {pattern value : JsString} :
    wildcardTest pattern value = some true ↔ SpellsUnits pattern value := by
  have matched : matchTerms (pattern.map termOf ++ [.finish]) true value = true ↔ SpellsUnits pattern value := matchTerms_iff
  rw [wildcardTest, regExp_source, Option.map_some, Option.some.injEq, ← matched, testTerms]
  cases value with
  | nil => rw [searchTerms, matchTerms, Bool.true_and]
  | cons u value => rw [searchTerms, searchTerms_start, Bool.or_false, matchTerms, Bool.true_and]

theorem wildcardTest_some (pattern value : JsString) : ∃ matched, wildcardTest pattern value = some matched := by
  rw [wildcardTest, regExp_source]
  exact ⟨_, rfl⟩

/-! Texts of characters. -/

theorem scalar (c : Char) : IsScalar c.toNat := by
  obtain low | ⟨above, high⟩ := c.valid
  · exact .inl low
  · exact .inr ⟨above, high⟩

theorem utf16_encodes : Encodes (fun c : Char => pointUnits c.toNat) fun u => isLowSurrogate u = false where
  lead c := by
    have valid := scalar c
    unfold IsScalar at valid
    unfold pointUnits
    split
    · refine ⟨c.toNat, [], rfl, ?_, by simp⟩
      simp only [isLowSurrogate, Bool.and_eq_false_iff, decide_eq_false_iff_not]
      omega
    · refine ⟨_, _, rfl, ?_, ?_⟩
      · simp only [isLowSurrogate, Bool.and_eq_false_iff, decide_eq_false_iff_not]
        omega
      · intro u listed
        rw [List.mem_singleton.mp listed, Bool.not_eq_false]
        simp only [isLowSurrogate, Bool.and_eq_true, decide_eq_true_eq]
        omega
  apart {c d left right} same := by
    have validC := scalar c
    have validD := scalar d
    apply Char.toNat_inj.mp
    unfold IsScalar at validC validD
    unfold pointUnits at same
    split at same <;> split at same <;> simp only [List.cons_append, List.nil_append, List.cons.injEq] at same <;> omega

theorem beq_char (c d : Char) : (c == d) = (c.toNat == d.toNat) := by
  rw [Bool.eq_iff_iff, beq_iff_eq, beq_iff_eq, Char.toNat_inj]

/-- The engine on the units decides as the matcher on characters does. -/
theorem wildcardTest_utf16 (pattern value : String) :
    wildcardTest (utf16 pattern) (utf16 value) = some (wildcardMatches pattern value) := by
  have same : SpellsUnits (utf16 pattern) (utf16 value) ↔ Scopes.SpellsLine pattern.toList value.toList := by
    apply utf16_encodes.spells_iff
    · rfl
    · intro c apart listed
      unfold pointUnits at listed
      split at listed
      · rw [List.mem_singleton] at listed
        exact apart (Char.toNat_inj.mp listed.symm)
      · simp only [unit, Char.reduceToNat, List.mem_cons, List.not_mem_nil, or_false] at listed
        omega
    · intro c u listed
      unfold pointUnits at listed
      split at listed
      · rw [List.mem_singleton] at listed
        rw [listed, isLineTerminatorUnit, isLineTerminator, beq_char, beq_char]
        rfl
      · next outside =>
        have unitPlain : isLineTerminatorUnit u = false := by
          simp only [List.mem_cons, List.not_mem_nil, or_false] at listed
          simp only [isLineTerminatorUnit, Bool.or_eq_false_iff, beq_eq_false_iff_ne]
          omega
        have charPlain : isLineTerminator c = false := by
          rw [isLineTerminator, beq_char, beq_char]
          simp only [Char.reduceToNat, Bool.or_eq_false_iff, beq_eq_false_iff_ne]
          omega
        rw [unitPlain, charPlain]
  obtain ⟨matched, tested⟩ := wildcardTest_some (utf16 pattern) (utf16 value)
  rw [tested, Option.some.injEq, Bool.eq_iff_iff, Scopes.wildcardMatches_iff, ← same, ← wildcardTest_iff, tested,
    Option.some.injEq]

/-! What a pattern says. -/

/-- The value comes from the pattern by putting some text for every star. -/
def Covers (pattern value : JsString) : Prop := SpellsAny (unit '*') pattern value

def lineTerminators (text : JsString) : Nat := text.countP isLineTerminatorUnit

/-- A deny rule for the pattern that asks nothing else which the request does not have. -/
structure DeniesBy (pattern value : JsString) (rule : PermissionRule) (input : PermissionEvaluationInput) : Prop where
  denies : rule.effect = .deny
  action : rule.action = none ∨ rule.action = some input.action
  toolName : rule.toolName = none ∨ rule.toolName = input.toolName
  pattern : ∃ written, rule.resourcePattern = some written ∧ utf16 written = pattern
  identifier : ∃ scope, input.resourceScope = some scope ∧ utf16 scope.identifier = value

/-- The matcher agrees with the pattern, and a deny rule for it is not skipped. -/
structure MeansWhatItSays (pattern value : JsString) : Prop where
  exact : wildcardTest pattern value = some true ↔ Covers pattern value
  denied : ∀ policy input rule, Consulted input policy → rule ∈ policy.rules → DeniesBy pattern value rule input →
    Covers pattern value → (evaluatePermission input).decision = .deny

theorem wildcardTest_covers {pattern value : JsString} : wildcardTest pattern value = some true ↔
    Covers pattern value ∧ lineTerminators value = lineTerminators pattern := by
  rw [wildcardTest_iff]
  exact spells_held (by decide)

theorem lineTerminators_le {pattern value : JsString} (covers : Covers pattern value) :
    lineTerminators pattern ≤ lineTerminators value := covers.countP_le (by decide)

theorem DeniesBy.decision {pattern value : JsString} {policy : PermissionPolicy} {rule : PermissionRule}
    {input : PermissionEvaluationInput} (consulted : Consulted input policy) (listed : rule ∈ policy.rules)
    (denies : DeniesBy pattern value rule input) (matched : wildcardTest pattern value = some true) :
    (evaluatePermission input).decision = .deny := by
  obtain ⟨effect, action, toolName, ⟨written, patterned, rfl⟩, scope, asked, rfl⟩ := denies
  rw [wildcardTest_utf16, Option.some.injEq] at matched
  refine consulted.denies ⟨rule, listed, ?_, effect⟩
  rw [ruleMatches, patterned, asked]
  simp only [Option.any_some, matched, Bool.and_true, Bool.and_eq_true]
  refine ⟨?_, ?_⟩
  · obtain none | same := action
    · rw [none]
      rfl
    · simp [same]
  · obtain none | same := toolName
    · rw [none]
      rfl
    · simp [same]

/-- A pattern is taken at its word exactly when the text it covers has no line terminator of its own. -/
theorem means_what_it_says_iff (pattern value : JsString) : MeansWhatItSays pattern value ↔
    (Covers pattern value → lineTerminators value ≤ lineTerminators pattern) := by
  constructor
  · rintro ⟨exact, _⟩ covers
    exact (wildcardTest_covers.mp (exact.mpr covers)).2.le
  · intro held
    have tests : ∀ covers : Covers pattern value, wildcardTest pattern value = some true := fun covers =>
      wildcardTest_covers.mpr ⟨covers, Nat.le_antisymm (held covers) (lineTerminators_le covers)⟩
    refine ⟨⟨fun matched => (wildcardTest_covers.mp matched).1, tests⟩, ?_⟩
    intro policy input rule consulted listed denies covers
    exact denies.decision consulted listed (tests covers)

/-- A rule for everything does not see an identifier of two lines. -/
def denyAll : PermissionRule := { action := none, effect := .deny, resourcePattern := some "*" }

def twoLines : PermissionEvaluationInput where
  action := .write
  resourceScope := some { kind := .file, identifier := "a\nb", access := .write }
  runPolicy := { mode := .unrestricted, rules := [denyAll] }

theorem line_terminator_skipped : ¬MeansWhatItSays (utf16 "*") (utf16 "a\nb") ∧
    wildcardTest (utf16 "*") (utf16 "a\nb") = some false ∧ (evaluatePermission twoLines).decision = .allow := by
  have skipped : wildcardTest (utf16 "*") (utf16 "a\nb") = some false := by decide +kernel
  refine ⟨?_, skipped, by decide +kernel⟩
  rintro ⟨exact, _⟩
  have covers : Covers (utf16 "*") (utf16 "a\nb") := .skip (utf16 "a\nb") (fun _ _ => trivial) .nil
  cases skipped.symm.trans (exact.mpr covers)

end OttiliCoder.WildcardTexts
