import Mathlib.Data.List.Count
import Mathlib.Data.List.Infix

/-! Patterns in which one letter, the star, stands for any text of the letters it may skip. When two
patterns spell a common text is known from their ends alone, once both have a star. -/

namespace Wildcards

variable {α : Type} {star : α} {free : α → Prop} {pattern text : List α}

inductive Spells (star : α) (free : α → Prop) : List α → List α → Prop
  | nil : Spells star free [] []
  | literal {c : α} {pattern text : List α} (plain : c ≠ star) (rest : Spells star free pattern text) :
      Spells star free (c :: pattern) (c :: text)
  | skip {pattern text : List α} (skipped : List α) (allowed : ∀ c ∈ skipped, free c)
      (rest : Spells star free pattern text) : Spells star free (star :: pattern) (skipped ++ text)

/-- The star stands for any text at all. -/
abbrev SpellsAny (star : α) : List α → List α → Prop := Spells star fun _ => True

theorem Spells.mono {wider : α → Prop} (implies : ∀ c, free c → wider c) (spelled : Spells star free pattern text) :
    Spells star wider pattern text := by
  induction spelled with
  | nil => exact .nil
  | literal plain rest ih => exact .literal plain ih
  | skip skipped allowed rest ih => exact .skip skipped (fun c listed => implies c (allowed c listed)) ih

theorem Spells.any (spelled : Spells star free pattern text) : SpellsAny star pattern text :=
  spelled.mono fun _ _ => trivial

theorem spells_literal {c : α} (plain : c ≠ star) :
    Spells star free (c :: pattern) text ↔ ∃ rest, text = c :: rest ∧ Spells star free pattern rest := by
  constructor
  · intro spelled
    cases spelled with
    | literal _ rest => exact ⟨_, rfl, rest⟩
    | skip => exact absurd rfl plain
  · rintro ⟨rest, rfl, spelled⟩
    exact .literal plain spelled

theorem spells_star : Spells star free (star :: pattern) text ↔
    ∃ skipped rest, text = skipped ++ rest ∧ (∀ c ∈ skipped, free c) ∧ Spells star free pattern rest := by
  constructor
  · intro spelled
    cases spelled with
    | literal plain => exact absurd rfl plain
    | skip skipped allowed rest => exact ⟨skipped, _, rfl, allowed, rest⟩
  · rintro ⟨skipped, rest, rfl, allowed, spelled⟩
    exact .skip skipped allowed spelled

theorem spells_plain (plain : star ∉ pattern) : Spells star free pattern text ↔ text = pattern := by
  constructor
  · intro spelled
    induction spelled with
    | nil => rfl
    | literal apart rest ih => rw [ih fun listed => plain (List.mem_cons_of_mem _ listed)]
    | skip skipped allowed rest ih => exact absurd List.mem_cons_self plain
  · rintro rfl
    induction text with
    | nil => exact .nil
    | cons c text ih =>
      have apart : c ≠ star := fun same => plain (same ▸ List.mem_cons_self)
      exact .literal apart (ih fun listed => plain (List.mem_cons_of_mem _ listed))

section Ends
variable [DecidableEq α]

/-- What comes before the first star. -/
def stem (star : α) : List α → List α
  | [] => []
  | c :: pattern => if c = star then [] else c :: stem star pattern

/-- What comes after the last star. -/
def ending (star : α) : List α → List α
  | [] => []
  | c :: pattern => if star ∈ pattern then ending star pattern else if c = star then pattern else c :: pattern

theorem Spells.stem_prefix (spelled : Spells star free pattern text) : stem star pattern <+: text := by
  induction spelled with
  | nil => exact List.prefix_refl _
  | literal plain rest ih =>
    rw [stem, if_neg plain]
    exact List.cons_prefix_cons.mpr ⟨rfl, ih⟩
  | skip skipped allowed rest ih =>
    rw [stem, if_pos rfl]
    exact List.nil_prefix

theorem Spells.ending_suffix (spelled : Spells star free pattern text) : ending star pattern <:+ text := by
  induction spelled with
  | nil => exact List.suffix_refl _
  | @literal c pattern text plain rest ih =>
    rw [ending]
    split
    · exact ih.trans (List.suffix_cons c text)
    · next last =>
      rw [(spells_plain last).mp rest]
  | @skip pattern text skipped allowed rest ih =>
    rw [ending]
    split
    · exact ih.trans (List.suffix_append skipped text)
    · next last =>
      rw [if_pos rfl, (spells_plain last).mp rest]
      exact List.suffix_append skipped pattern

/-- A pattern with a star spells its stem and its ending with anything around some text between them. -/
theorem spells_around (starred : star ∈ pattern) : ∃ core, ∀ before after,
    SpellsAny star pattern (stem star pattern ++ before ++ core ++ after ++ ending star pattern) := by
  induction pattern with
  | nil => cases starred
  | cons c pattern ih =>
    by_cases first : c = star
    · subst first
      by_cases more : c ∈ pattern
      · obtain ⟨core, spells⟩ := ih more
        refine ⟨stem c pattern ++ core, ?_⟩
        intro before after
        have spelled := Spells.skip before (fun _ _ => trivial) (spells [] after)
        simpa [stem, ending, more] using spelled
      · refine ⟨[], ?_⟩
        intro before after
        have spelled : SpellsAny c (c :: pattern) ((before ++ after) ++ pattern) :=
          .skip (before ++ after) (fun _ _ => trivial) ((spells_plain more).mpr rfl)
        simpa [stem, ending, more] using spelled
    · have more : star ∈ pattern := (List.mem_cons.mp starred).resolve_left fun same => first same.symm
      obtain ⟨core, spells⟩ := ih more
      refine ⟨core, ?_⟩
      intro before after
      have spelled := Spells.literal first (spells before after)
      simpa [stem, ending, more, first] using spelled

end Ends

/-- One of the two begins the other. -/
def Alongside (first second : List α) : Prop := first <+: second ∨ second <+: first

theorem Alongside.symm {first second : List α} (along : Alongside first second) : Alongside second first := Or.symm along

theorem alongside_within {first second : List α} (one : first <+: text) (other : second <+: text) : Alongside first second :=
  List.prefix_or_prefix_of_prefix one other

theorem Alongside.shorten {first second part : List α} (along : Alongside first second) (shorter : part <+: first) :
    Alongside part second := by
  obtain on | back := along
  · exact .inl (shorter.trans on)
  · exact alongside_within shorter back

/-- One of the two ends the other. -/
def EndsWith (first second : List α) : Prop := first <:+ second ∨ second <:+ first

/-- Two patterns with stars spell a common text exactly when neither their stems nor their endings contradict
each other. -/
theorem common_starred [DecidableEq α] {other : List α} (starred : star ∈ pattern) (otherStarred : star ∈ other) :
    (∃ text, SpellsAny star pattern text ∧ SpellsAny star other text) ↔
      Alongside (stem star pattern) (stem star other) ∧ EndsWith (ending star pattern) (ending star other) := by
  constructor
  · rintro ⟨text, one, two⟩
    exact ⟨alongside_within one.stem_prefix two.stem_prefix,
      List.suffix_or_suffix_of_suffix one.ending_suffix two.ending_suffix⟩
  · rintro ⟨stems, endings⟩
    obtain ⟨core, spells⟩ := spells_around starred
    obtain ⟨otherCore, otherSpells⟩ := spells_around otherStarred
    -- the longer stem, both cores, and the longer ending
    have opened : ∃ opening left right, opening = stem star pattern ++ left ∧ opening = stem star other ++ right := by
      obtain ⟨rest, longer⟩ | ⟨rest, longer⟩ := stems
      · exact ⟨stem star other, rest, [], longer.symm, (List.append_nil _).symm⟩
      · exact ⟨stem star pattern, [], rest, (List.append_nil _).symm, longer.symm⟩
    have closed : ∃ closing left right, closing = left ++ ending star pattern ∧ closing = right ++ ending star other := by
      obtain ⟨rest, longer⟩ | ⟨rest, longer⟩ := endings
      · exact ⟨ending star other, rest, [], longer.symm, rfl⟩
      · exact ⟨ending star pattern, [], rest, rfl, longer.symm⟩
    obtain ⟨opening, left, right, open₁, open₂⟩ := opened
    obtain ⟨closing, last, otherLast, close₁, close₂⟩ := closed
    refine ⟨opening ++ core ++ otherCore ++ closing, ?_, ?_⟩
    · have spelled := spells left (otherCore ++ last)
      rw [open₁, close₁]
      simpa using spelled
    · have spelled := otherSpells (right ++ core) otherLast
      rw [open₂, close₂]
      simpa using spelled

/-! A letter in the place of the stars, which stands for all their texts when no other pattern has it. -/

theorem spells_append {first second : List α} : Spells star free (first ++ second) text ↔
    ∃ one other, text = one ++ other ∧ Spells star free first one ∧ Spells star free second other := by
  induction first generalizing text with
  | nil =>
    constructor
    · exact fun spelled => ⟨[], text, rfl, .nil, spelled⟩
    · rintro ⟨one, other, rfl, none, spelled⟩
      cases none
      exact spelled
  | cons c first ih =>
    by_cases starred : c = star
    · subst starred
      rw [List.cons_append, spells_star]
      simp only [spells_star, ih]
      constructor
      · rintro ⟨skipped, _, rfl, allowed, one, other, rfl, leading, trailing⟩
        exact ⟨skipped ++ one, other, (List.append_assoc _ _ _).symm, ⟨skipped, one, rfl, allowed, leading⟩, trailing⟩
      · rintro ⟨_, other, rfl, ⟨skipped, one, rfl, allowed, leading⟩, trailing⟩
        exact ⟨skipped, one ++ other, List.append_assoc _ _ _, allowed, one, other, rfl, leading, trailing⟩
    · rw [List.cons_append, spells_literal starred]
      simp only [spells_literal starred, ih]
      constructor
      · rintro ⟨_, rfl, one, other, rfl, leading, trailing⟩
        exact ⟨c :: one, other, rfl, ⟨one, rfl, leading⟩, trailing⟩
      · rintro ⟨_, other, rfl, ⟨one, rfl, leading⟩, trailing⟩
        exact ⟨one ++ other, rfl, one, other, rfl, leading, trailing⟩

def relabel [DecidableEq α] (star letter : α) (pattern : List α) : List α :=
  pattern.map fun c => if c = star then letter else c

theorem spells_relabel [DecidableEq α] (letter : α) (pattern : List α) : SpellsAny star pattern (relabel star letter pattern) := by
  induction pattern with
  | nil => exact .nil
  | cons c pattern ih =>
    rw [relabel, List.map_cons]
    by_cases starred : c = star
    · subst starred
      rw [if_pos rfl]
      exact .skip [letter] (fun _ _ => trivial) ih
    · rw [if_neg starred]
      exact .literal starred ih

/-- Whatever a pattern spells, it spells with a new letter for the star. -/
theorem Spells.relabel [DecidableEq α] {letter : α} (new : letter ∉ pattern) (spelled : SpellsAny star pattern text) :
    SpellsAny letter (relabel star letter pattern) text := by
  induction spelled with
  | nil => exact .nil
  | @literal c pattern text plain rest ih =>
    rw [Wildcards.relabel, List.map_cons, if_neg plain]
    exact .literal (fun same => new (same ▸ List.mem_cons_self)) (ih fun listed => new (List.mem_cons_of_mem _ listed))
  | skip skipped allowed rest ih =>
    rw [Wildcards.relabel, List.map_cons, if_pos rfl]
    exact .skip skipped allowed (ih fun listed => new (List.mem_cons_of_mem _ listed))

/-- What a pattern spells with a letter it does not have, it spells with any text for the letter. -/
theorem Spells.refill {letter : α} {filled : List α} (new : letter ∉ pattern) (spelled : SpellsAny star pattern text)
    (fills : SpellsAny letter text filled) : SpellsAny star pattern filled := by
  induction spelled generalizing filled with
  | nil =>
    cases fills
    exact .nil
  | @literal c pattern text plain rest ih =>
    have apart : c ≠ letter := fun same => new (same ▸ List.mem_cons_self)
    obtain ⟨later, rfl, on⟩ := (spells_literal apart).mp fills
    exact .literal plain (ih (fun listed => new (List.mem_cons_of_mem _ listed)) on)
  | skip skipped allowed rest ih =>
    obtain ⟨one, other, rfl, _, on⟩ := spells_append.mp fills
    exact .skip one (fun _ _ => trivial) (ih (fun listed => new (List.mem_cons_of_mem _ listed)) on)

/-! The letters the star may not skip come from the pattern. -/

section Held
variable {held : α → Bool}

theorem SpellsAny.countP_le (plain : held star = false) (spelled : SpellsAny star pattern text) :
    pattern.countP held ≤ text.countP held := by
  induction spelled with
  | nil => exact Nat.le_refl _
  | @literal c pattern text apart rest ih =>
    rw [List.countP_cons, List.countP_cons]
    omega
  | skip skipped allowed rest ih =>
    rw [List.countP_cons_of_neg (by simp [plain]), List.countP_append]
    omega

/-- A text of the pattern is one without held letters in the places of the stars when it has as many as the pattern. -/
theorem spells_held (plain : held star = false) : Spells star (fun c => held c = false) pattern text ↔
    SpellsAny star pattern text ∧ text.countP held = pattern.countP held := by
  constructor
  · intro spelled
    refine ⟨spelled.any, ?_⟩
    induction spelled with
    | nil => rfl
    | @literal c pattern text apart rest ih => rw [List.countP_cons, List.countP_cons, ih]
    | skip skipped allowed rest ih =>
      have none : skipped.countP held = 0 := by
        rw [List.countP_eq_zero]
        intro c listed
        simp [allowed c listed]
      rw [List.countP_append, none, ih, List.countP_cons_of_neg (by simp [plain]), Nat.zero_add]
  · rintro ⟨spelled, same⟩
    induction spelled with
    | nil => exact .nil
    | @literal c pattern text apart rest ih =>
      rw [List.countP_cons, List.countP_cons] at same
      exact .literal apart (ih (by omega))
    | @skip pattern text skipped allowed rest ih =>
      have atLeast := SpellsAny.countP_le plain rest
      rw [List.countP_append, List.countP_cons_of_neg (by simp [plain])] at same
      have none : skipped.countP held = 0 := by omega
      refine .skip skipped ?_ (ih (by omega))
      intro c listed
      simpa using List.countP_eq_zero.mp none c listed

end Held

/-! Letters written as several: the first of a letter tells it from the others, so that nothing is spelled by
cutting one in two. -/

section Encoded
variable {β : Type} {code : α → List β}

/-- Every letter is written as one that leads and some that do not. -/
structure Encodes (code : α → List β) (leads : β → Prop) : Prop where
  lead (c : α) : ∃ first rest, code c = first :: rest ∧ leads first ∧ ∀ u ∈ rest, ¬leads u
  apart {c d : α} {left right : List β} (same : code c ++ left = code d ++ right) : c = d

variable {leads : β → Prop}

/-- The end of a written text starts inside a letter or before one. -/
theorem Encodes.suffix (encodes : Encodes code leads) {first last : List β} (parted : text.flatMap code = first ++ last) :
    ∃ before cut after, text = before ++ after ∧ last = cut ++ after.flatMap code ∧ (∀ u ∈ cut, ¬leads u) ∧
      (∀ c ∈ before, ∃ u ∈ first, u ∈ code c) := by
  induction text generalizing first with
  | nil =>
    obtain ⟨rfl, rfl⟩ := List.append_eq_nil_iff.mp parted.symm
    exact ⟨[], [], [], rfl, rfl, by simp, by simp⟩
  | cons c text ih =>
    rw [List.flatMap_cons] at parted
    obtain ⟨more, rfl, later⟩ | ⟨more, whole, rfl⟩ := List.append_eq_append_iff.mp parted
    · obtain ⟨before, cut, after, rfl, rfl, inside, reached⟩ := ih later
      obtain ⟨lead, rest, written, _, _⟩ := encodes.lead c
      refine ⟨c :: before, cut, after, rfl, rfl, inside, ?_⟩
      rintro d (_ | ⟨_, listed⟩)
      · exact ⟨lead, by simp [written], by simp [written]⟩
      · obtain ⟨u, there, made⟩ := reached d listed
        exact ⟨u, List.mem_append_right _ there, made⟩
    · obtain ⟨lead, rest, written, _, inside⟩ := encodes.lead c
      cases first with
      | nil =>
        rw [List.nil_append] at whole
        exact ⟨[], [], c :: text, rfl, by rw [← whole, List.flatMap_cons]; rfl, by simp, by simp⟩
      | cons u first =>
        rw [written, List.cons_append, List.cons.injEq] at whole
        refine ⟨[c], more, text, rfl, rfl, ?_, ?_⟩
        · intro v listed
          exact inside v (whole.2 ▸ List.mem_append_right _ listed)
        · intro d listed
          rw [List.mem_singleton] at listed
          subst listed
          exact ⟨u, List.mem_cons_self, by rw [written, whole.1]; exact List.mem_cons_self⟩

variable {mark : β} {skips : β → Prop}

theorem Encodes.spells_cut (encodes : Encodes code leads) (starred : code star = [mark])
    (others : ∀ c, c ≠ star → mark ∉ code c) (agree : ∀ c, ∀ u ∈ code c, skips u ↔ free c) (cut : List β)
    (inside : ∀ u ∈ cut, ¬leads u) (spelled : Spells mark skips (pattern.flatMap code) (cut ++ text.flatMap code)) :
    Spells star free pattern text ∧ (pattern.head? ≠ some star → cut = []) := by
  induction pattern generalizing cut text with
  | nil =>
    obtain ⟨none, empty⟩ := List.append_eq_nil_iff.mp ((spells_plain List.not_mem_nil).mp spelled)
    have same : text = [] := by
      cases text with
      | nil => rfl
      | cons c text =>
        obtain ⟨first, rest, written, _⟩ := encodes.lead c
        rw [List.flatMap_cons, written] at empty
        cases empty
    subst same
    exact ⟨.nil, fun _ => none⟩
  | cons p pattern ih =>
    rw [List.flatMap_cons] at spelled
    by_cases same : p = star
    · subst same
      rw [starred, List.singleton_append, spells_star] at spelled
      obtain ⟨skipped, rest, parted, allowed, on⟩ := spelled
      refine ⟨?_, fun apart => absurd rfl apart⟩
      obtain ⟨more, rfl, later⟩ | ⟨more, rfl, rfl⟩ := List.append_eq_append_iff.mp parted
      · obtain ⟨before, cut', after, rfl, rfl, inside', reached⟩ := encodes.suffix later
        refine .skip before ?_ (ih cut' inside' on).1
        intro c listed
        obtain ⟨u, there, made⟩ := reached c listed
        exact (agree c u made).mp (allowed u (List.mem_append_right _ there))
      · have on' := (ih more (fun u listed => inside u (List.mem_append_right _ listed)) on).1
        exact .skip [] (by simp) on'
    · obtain ⟨first, rest, written, leading, _⟩ := encodes.lead p
      obtain ⟨letters, left, parted, reads, on⟩ := spells_append.mp spelled
      rw [(spells_plain (others p same)).mp reads] at parted
      have none : cut = [] := by
        cases cut with
        | nil => rfl
        | cons u cut =>
          rw [written, List.cons_append, List.cons_append, List.cons.injEq] at parted
          exact absurd (parted.1 ▸ leading) (inside u List.mem_cons_self)
      refine ⟨?_, fun _ => none⟩
      rw [none, List.nil_append] at parted
      cases text with
      | nil =>
        rw [written] at parted
        cases parted
      | cons c text =>
        rw [List.flatMap_cons] at parted
        obtain rfl := encodes.apart parted
        rw [← List.append_cancel_left parted] at on
        exact .literal same (ih [] (by simp) on).1

theorem Encodes.spells_iff (encodes : Encodes code leads) (starred : code star = [mark])
    (others : ∀ c, c ≠ star → mark ∉ code c) (agree : ∀ c, ∀ u ∈ code c, skips u ↔ free c) :
    Spells mark skips (pattern.flatMap code) (text.flatMap code) ↔ Spells star free pattern text := by
  constructor
  · intro spelled
    exact (encodes.spells_cut starred others agree [] (by simp) spelled).1
  · intro spelled
    induction spelled with
    | nil => exact .nil
    | @literal c pattern text plain rest ih =>
      rw [List.flatMap_cons, List.flatMap_cons]
      exact spells_append.mpr ⟨_, _, rfl, (spells_plain (others c plain)).mpr rfl, ih⟩
    | @skip pattern text skipped allowed rest ih =>
      rw [List.flatMap_cons, starred, List.flatMap_append, List.singleton_append]
      refine .skip _ ?_ ih
      intro u listed
      obtain ⟨c, there, made⟩ := List.mem_flatMap.mp listed
      exact (agree c u made).mpr (allowed c there)

end Encoded

end Wildcards
