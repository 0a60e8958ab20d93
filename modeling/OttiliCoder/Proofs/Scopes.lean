import OttiliCoder.Library.Wildcards
import OttiliCoder.Proofs.ResourceLocks

/-! What resource scopes denote, and which conflicts between them are seen: overlap is
decided on the texts of two identifiers, not on the resources they stand for. -/

namespace OttiliCoder.Scopes
open Wildcards

/-! The texts. -/

theorem matchStar_iff {rest : List Char → Bool} {value : List Char} :
    matchStar rest value = true ↔
      ∃ skipped text, value = skipped ++ text ∧ (∀ c ∈ skipped, isLineTerminator c = false) ∧ rest text = true := by
  induction value with
  | nil =>
    rw [matchStar]
    constructor
    · exact fun matched => ⟨[], [], rfl, fun _ none => absurd none List.not_mem_nil, matched⟩
    · rintro ⟨skipped, text, parted, _, matched⟩
      rw [(List.append_eq_nil_iff.mp parted.symm).2] at matched
      exact matched
  | cons c value ih =>
    rw [matchStar, Bool.or_eq_true, Bool.and_eq_true, Bool.not_eq_true', ih]
    constructor
    · intro matched
      obtain here | ⟨plain, skipped, text, rfl, allowed, matched⟩ := matched
      · exact ⟨[], c :: value, rfl, fun _ none => absurd none List.not_mem_nil, here⟩
      · exact ⟨c :: skipped, text, rfl, List.forall_mem_cons.mpr ⟨plain, allowed⟩, matched⟩
    · rintro ⟨skipped, text, parted, allowed, matched⟩
      cases skipped with
      | nil =>
        rw [List.nil_append] at parted
        exact .inl (parted ▸ matched)
      | cons first skipped =>
        rw [List.cons_append, List.cons.injEq] at parted
        obtain ⟨rfl, rfl⟩ := parted
        obtain ⟨plain, allowed⟩ := List.forall_mem_cons.mp allowed
        exact .inr ⟨plain, skipped, text, rfl, allowed, matched⟩

/-- `*` is `.*`, which no line terminator matches. -/
abbrev SpellsLine : List Char → List Char → Prop := Spells '*' fun c => isLineTerminator c = false

theorem matchWildcard_cons (p : Char) (pattern value : List Char) : matchWildcard (p :: pattern) value =
    if p == '*' then matchStar (matchWildcard pattern) value
    else match value with
      | [] => false
      | c :: value => p == c && matchWildcard pattern value := by
  cases value <;> rfl

theorem matchWildcard_iff {pattern value : List Char} : matchWildcard pattern value = true ↔ SpellsLine pattern value := by
  induction pattern generalizing value with
  | nil =>
    rw [matchWildcard, List.isEmpty_iff]
    constructor
    · rintro rfl
      exact .nil
    · intro spelled
      cases spelled
      rfl
  | cons p pattern ih =>
    rw [matchWildcard_cons]
    by_cases starred : p = '*'
    · rw [if_pos (beq_iff_eq.mpr starred), matchStar_iff, starred, SpellsLine, spells_star]
      simp only [ih]
    · rw [if_neg (mt beq_iff_eq.mp starred), SpellsLine, spells_literal starred]
      cases value with
      | nil => simp
      | cons c value =>
        simp only [Bool.and_eq_true, beq_iff_eq, ih, List.cons.injEq]
        constructor
        · exact fun both => ⟨value, ⟨both.1.symm, rfl⟩, both.2⟩
        · rintro ⟨_, ⟨same, rfl⟩, spelled⟩
          exact ⟨same.symm, spelled⟩

theorem wildcardMatches_iff {pattern value : String} :
    wildcardMatches pattern value = true ↔ SpellsLine pattern.toList value.toList := matchWildcard_iff

def stripSlash (path : List Char) : List Char := if ['/'] <:+ path then path.dropLast else path

theorem stripTrailingSlash_toList (value : String) : (stripTrailingSlash value).toList = stripSlash value.toList := by
  unfold stripTrailingSlash stripSlash
  have ends : value.endsWith "/" = true ↔ ['/'] <:+ value.toList := String.Slice.endsWith_string_iff.trans (by simp)
  by_cases slashed : ['/'] <:+ value.toList
  · rw [if_pos slashed, if_pos (ends.mpr slashed), String.toList_ofList]
  · rw [if_neg slashed, if_neg (mt ends.mp slashed)]

/-- The path as the directory of what is below it. -/
def directory (path : List Char) : List Char := stripSlash path ++ ['/']

theorem stripSlash_cases (path : List Char) :
    stripSlash path = path ∨ path = stripSlash path ++ ['/'] := by
  unfold stripSlash
  split
  · next slashed =>
    obtain ⟨front, rfl⟩ := slashed
    right
    simp
  · exact .inl rfl

theorem prefix_directory (path : List Char) : path <+: directory path := by
  unfold directory
  obtain same | slashed := stripSlash_cases path
  · rw [same]
    exact List.prefix_append path ['/']
  · rw [← slashed]

/-! What an identifier denotes. -/

/-- What is below a path. -/
def Below (path resource : List Char) : Prop := directory path <+: resource

/-- A resource an identifier stands for: a text it spells, `*` being any text, and for a file whatever is
below it. -/
def Denotes (kind : ResourceKind) (identifier resource : String) : Prop :=
  ∃ path, SpellsAny '*' identifier.toList path ∧ (resource.toList = path ∨ kind = .file ∧ Below path resource.toList)

/-- How far the paths of an identifier are fixed. -/
def reach (identifier : List Char) : List Char := if '*' ∈ identifier then stem '*' identifier else directory identifier

section Paths
variable {identifier other path target : List Char}

theorem reach_within (spelled : SpellsAny '*' identifier path) : reach identifier <+: directory path := by
  unfold reach
  split
  · exact spelled.stem_prefix.trans (prefix_directory path)
  · next plain =>
    rw [(spells_plain plain).mp spelled]

/-- Whatever does not contradict the reach is on the way of a path that is spelled. -/
theorem spelled_alongside (along : Alongside (reach identifier) target) :
    ∃ path, SpellsAny '*' identifier path ∧ Alongside (directory path) target := by
  unfold reach at along
  split at along
  · next starred =>
    obtain ⟨core, spells⟩ := spells_around starred
    obtain ⟨rest, on⟩ | back := along
    · refine ⟨_, spells rest [], .inr ?_⟩
      rw [on]
      exact List.IsPrefix.trans ⟨core ++ [] ++ ending '*' identifier, by simp⟩ (prefix_directory _)
    · refine ⟨_, spells [] [], .inr ?_⟩
      exact (back.trans ⟨[] ++ core ++ [] ++ ending '*' identifier, by simp⟩).trans (prefix_directory _)
  · next plain => exact ⟨identifier, (spells_plain plain).mpr rfl, along⟩

/-- Two paths denote a common resource exactly when one is on the way to the other. -/
theorem common_below : (∃ resource, (resource = path ∨ Below path resource) ∧ (resource = other ∨ Below other resource)) ↔
    Alongside (directory path) (directory other) := by
  constructor
  · rintro ⟨resource, rfl | below, rfl | otherBelow⟩
    · exact .inl (List.prefix_refl _)
    · exact .inr (otherBelow.trans (prefix_directory _))
    · exact .inl (below.trans (prefix_directory _))
    · exact alongside_within below otherBelow
  · rintro (on | back)
    · exact ⟨directory other, .inr on, .inr (List.prefix_refl _)⟩
    · exact ⟨directory path, .inr (List.prefix_refl _), .inr back⟩

end Paths

/-- The two identifiers stand for a common resource. -/
def Meets (kind : ResourceKind) (left right : String) : Prop :=
  if kind = .file then Alongside (reach left.toList) (reach right.toList)
  else if '*' ∈ left.toList then
    if '*' ∈ right.toList then
      Alongside (stem '*' left.toList) (stem '*' right.toList) ∧ EndsWith (ending '*' left.toList) (ending '*' right.toList)
    else SpellsAny '*' left.toList right.toList
  else SpellsAny '*' right.toList left.toList

theorem common_file {left right : String} :
    (∃ resource, Denotes .file left resource ∧ Denotes .file right resource) ↔
      Alongside (reach left.toList) (reach right.toList) := by
  constructor
  · rintro ⟨resource, ⟨path, spelled, one⟩, other, otherSpelled, two⟩
    have along : Alongside (directory path) (directory other) :=
      common_below.mp ⟨resource.toList, one.imp_right And.right, two.imp_right And.right⟩
    exact ((along.shorten (reach_within spelled)).symm.shorten (reach_within otherSpelled)).symm
  · intro along
    obtain ⟨path, spelled, near⟩ := spelled_alongside along
    obtain ⟨other, otherSpelled, both⟩ := spelled_alongside near.symm
    obtain ⟨resource, two, one⟩ := common_below.mpr both
    refine ⟨String.ofList resource, ⟨path, spelled, ?_⟩, other, otherSpelled, ?_⟩
    · rw [String.toList_ofList]
      exact one.imp_right fun below => ⟨rfl, below⟩
    · rw [String.toList_ofList]
      exact two.imp_right fun below => ⟨rfl, below⟩

theorem denotes_plain {kind : ResourceKind} (plain : kind ≠ .file) {identifier resource : String} :
    Denotes kind identifier resource ↔ SpellsAny '*' identifier.toList resource.toList := by
  unfold Denotes
  constructor
  · rintro ⟨path, spelled, same⟩
    obtain same | ⟨file, _⟩ := same
    · exact same ▸ spelled
    · exact absurd file plain
  · exact fun spelled => ⟨_, spelled, .inl rfl⟩

theorem common_iff (kind : ResourceKind) (left right : String) :
    (∃ resource, Denotes kind left resource ∧ Denotes kind right resource) ↔ Meets kind left right := by
  unfold Meets
  by_cases file : kind = .file
  · rw [if_pos file, file]
    exact common_file
  · rw [if_neg file]
    simp only [denotes_plain file]
    have texts : (∃ resource : String, SpellsAny '*' left.toList resource.toList ∧ SpellsAny '*' right.toList resource.toList) ↔
        ∃ text, SpellsAny '*' left.toList text ∧ SpellsAny '*' right.toList text := by
      constructor
      · exact fun ⟨resource, both⟩ => ⟨resource.toList, both⟩
      · exact fun ⟨text, both⟩ => ⟨String.ofList text, by rwa [String.toList_ofList]⟩
    rw [texts]
    by_cases starred : '*' ∈ left.toList
    · rw [if_pos starred]
      by_cases otherStarred : '*' ∈ right.toList
      · rw [if_pos otherStarred]
        exact common_starred starred otherStarred
      · rw [if_neg otherStarred]
        simp only [spells_plain otherStarred]
        exact exists_eq_right
    · rw [if_neg starred]
      simp only [spells_plain starred]
      exact exists_eq_left

/-! What is seen of it. -/

/-- The texts are equal, one spells the other within a line, or one file is below the other as a text. -/
def Seen (kind : ResourceKind) (left right : String) : Prop :=
  left = right ∨ SpellsLine left.toList right.toList ∨ SpellsLine right.toList left.toList ∨
    kind = .file ∧ (directory left.toList <+: stripSlash right.toList ∨ directory right.toList <+: stripSlash left.toList)

theorem resourceIdentifiersOverlap_iff {kind : ResourceKind} {left right : String} :
    resourceIdentifiersOverlap kind left right = true ↔ Seen kind left right := by
  have below : ∀ one other : String, (stripTrailingSlash one).startsWith (stripTrailingSlash other ++ "/") = true ↔
      directory other.toList <+: stripSlash one.toList := by
    intro one other
    rw [String.startsWith_string_iff, String.toList_append, stripTrailingSlash_toList, stripTrailingSlash_toList]
    rfl
  unfold resourceIdentifiersOverlap Seen
  rw [← wildcardMatches_iff, ← wildcardMatches_iff]
  by_cases file : kind = .file
  · simp only [file, bne_self_eq_false, Bool.false_eq_true, if_false, true_and]
    split
    · next textual =>
      simp only [Bool.or_eq_true, beq_iff_eq] at textual
      simp only [true_iff]
      tauto
    · next apart =>
      simp only [Bool.or_eq_true, beq_iff_eq, not_or] at apart
      rw [Bool.or_eq_true, below, below]
      tauto
  · have other : (kind != .file) = true := bne_iff_ne.mpr file
    simp only [other, if_true, file, false_and, or_false]
    split
    · next textual =>
      simp only [Bool.or_eq_true, beq_iff_eq] at textual
      simp only [true_iff]
      tauto
    · next apart =>
      simp only [Bool.or_eq_true, beq_iff_eq, not_or] at apart
      simp only [Bool.false_eq_true, false_iff]
      tauto

/-- The identifiers meet, and their texts do not show it. -/
def Missed (kind : ResourceKind) (left right : String) : Prop := Meets kind left right ∧ ¬Seen kind left right

theorem directory_cases {path other : List Char} (on : directory path <+: directory other) :
    stripSlash path = stripSlash other ∨ directory path <+: stripSlash other := by
  obtain same | before := List.prefix_concat_iff.mp on
  · exact .inl (List.append_cancel_right same)
  · exact .inr before

/-- Without a star only a trailing slash is missed. -/
theorem missed_plain {kind : ResourceKind} {left right : String} (plain : '*' ∉ left.toList) (otherPlain : '*' ∉ right.toList) :
    Missed kind left right ↔
      kind = .file ∧ left ≠ right ∧ stripTrailingSlash left = stripTrailingSlash right := by
  have stripped : stripTrailingSlash left = stripTrailingSlash right ↔ stripSlash left.toList = stripSlash right.toList := by
    rw [← String.toList_inj, stripTrailingSlash_toList, stripTrailingSlash_toList]
  have spelled : SpellsLine left.toList right.toList ↔ right = left := (spells_plain plain).trans String.toList_inj
  have otherSpelled : SpellsLine right.toList left.toList ↔ left = right := (spells_plain otherPlain).trans String.toList_inj
  have anySpelled : SpellsAny '*' right.toList left.toList ↔ left = right := (spells_plain otherPlain).trans String.toList_inj
  unfold Missed Meets Seen
  rw [stripped, spelled, otherSpelled, anySpelled]
  by_cases file : kind = .file
  · simp only [file, if_true, true_and, reach, plain, otherPlain, if_false]
    constructor
    · rintro ⟨along, unseen⟩
      simp only [not_or] at unseen
      refine ⟨unseen.1, ?_⟩
      obtain on | back := along
      · exact (directory_cases on).resolve_right unseen.2.2.2.1
      · exact ((directory_cases back).resolve_right unseen.2.2.2.2).symm
    · rintro ⟨apart, same⟩
      have longer : ∀ path : List Char, ¬directory path <+: stripSlash path := by
        intro path within
        have short := within.length_le
        rw [directory, List.length_append, List.length_singleton] at short
        omega
      have dirs : directory left.toList = directory right.toList := by rw [directory, directory, same]
      refine ⟨.inl (dirs ▸ List.prefix_refl _), ?_⟩
      simp only [not_or]
      refine ⟨apart, fun equal => apart equal.symm, apart, ?_, ?_⟩
      · rw [← same]
        exact longer _
      · rw [same]
        exact longer _
  · simp only [file, if_false, false_and, or_false, plain, iff_false]
    rintro ⟨equal, unseen⟩
    exact unseen (.inl equal)

/-- Two scopes that stand for a common resource conflict exactly when their meeting shows in their texts. -/
theorem conflicts_seen_iff (left right : ResourceScope) (same : left.kind = right.kind)
    (writes : left.access = .write ∨ right.access = .write) :
    (((∃ resource, Denotes left.kind left.identifier resource ∧ Denotes right.kind right.identifier resource) →
        resourceScopesConflict left right = true) ↔ ¬Missed left.kind left.identifier right.identifier) ∧
      ('*' ∉ left.identifier.toList → '*' ∉ right.identifier.toList →
        (Missed left.kind left.identifier right.identifier ↔ left.kind = .file ∧ left.identifier ≠ right.identifier ∧
          stripTrailingSlash left.identifier = stripTrailingSlash right.identifier)) ∧
      resourceScopesConflict left right = resourceScopesConflict right left := by
  have conflict : resourceScopesConflict left right = true ↔ Seen left.kind left.identifier right.identifier := by
    have asked : (left.kind != right.kind || (left.access == .read && right.access == .read)) = false := by
      rw [same]
      obtain write | write := writes <;> simp [write]
    rw [resourceScopesConflict, asked, if_neg Bool.false_ne_true, resourceIdentifiersOverlap_iff]
  refine ⟨?_, missed_plain, resourceScopesConflict_symm left right⟩
  rw [← same, common_iff, conflict, Missed]
  tauto

def writeFile (identifier : String) : ResourceScope := { kind := .file, identifier := identifier, access := .write }

theorem conflicts_seen_iff_files :
    ((∃ resource, Denotes .file "src/main" resource ∧ Denotes .file "src" resource) →
        resourceScopesConflict (writeFile "src/main") (writeFile "src") = true) ↔ ¬Missed .file "src/main" "src" :=
  (conflicts_seen_iff (writeFile "src/main") (writeFile "src") rfl (.inl rfl)).1

/-- A directory written with its slash and without: both writers are let in. -/
theorem slash_not_seen : (∃ resource, Denotes .file "src" resource ∧ Denotes .file "src/" resource) ∧
    resourceScopesConflict (writeFile "src") (writeFile "src/") = false := by
  have below : Alongside (reach "src".toList) (reach "src/".toList) := .inl (by decide)
  exact ⟨common_file.mpr below, by decide +kernel⟩

end OttiliCoder.Scopes
