import OttiliCoder.Library.JsString

/-! Paths of a POSIX host, resolved and compared as `node:path` does it. A resolved path is the list of
its names, and one path is inside another when it starts with the other's names. -/

namespace Host.Posix

def slash : Nat := unit '/'

def here : JsString := [unit '.']

def above : JsString := [unit '.', unit '.']

def isAbsolute (path : JsString) : Bool := path.head? == some slash

/-- Adds one name to the names above it. -/
def enter (names : List JsString) (name : JsString) : List JsString :=
  if name = [] ∨ name = here then names else if name = above then names.dropLast else names ++ [name]

/-- The names of a path; one that is not absolute starts at the working directory, which is. -/
def names (cwd path : JsString) : List JsString :=
  let start := if isAbsolute path then [] else (cwd.splitOn slash).foldl enter []
  (path.splitOn slash).foldl enter start

def spell (names : List JsString) : JsString := [slash].intercalate names

def resolve (cwd path : JsString) : JsString := slash :: spell (names cwd path)

def leaveCommon : List JsString → List JsString → List JsString × List JsString
  | one :: ones, other :: others => if one = other then leaveCommon ones others else (one :: ones, other :: others)
  | ones, others => (ones, others)

attribute [grind =] leaveCommon

/-- How to go from one path to another: up to what they share, and down from there. -/
def relative (cwd source target : JsString) : JsString :=
  let (up, down) := leaveCommon (names cwd source) (names cwd target)
  spell (up.map (fun _ => above) ++ down)

/-! Names of a resolved path. -/

structure IsName (name : JsString) : Prop where
  nonempty : name ≠ []
  noSlash : slash ∉ name
  notHere : name ≠ here
  notAbove : name ≠ above

theorem noSlash_splitOn {path name : JsString} (listed : name ∈ path.splitOn slash) : slash ∉ name := by
  induction path generalizing name with
  | nil =>
    rw [List.splitOn_nil, List.mem_singleton] at listed
    simp [listed]
  | cons u path ih =>
    rw [List.splitOn_cons_eq_if_modifyHead] at listed
    split at listed
    · obtain rfl | listed := List.mem_cons.mp listed
      · simp
      · exact ih listed
    · next other =>
      cases parts : path.splitOn slash with
      | nil => exact absurd parts (List.splitOn_ne_nil slash path)
      | cons first rest =>
        rw [parts] at listed ih
        rw [List.modifyHead_cons, List.mem_cons] at listed
        obtain rfl | listed := listed
        · rw [List.mem_cons, not_or]
          exact ⟨fun same => other (by rw [same, beq_self_eq_true]), ih List.mem_cons_self⟩
        · exact ih (List.mem_cons_of_mem first listed)

theorem enter_names {above : List JsString} {name : JsString} (known : ∀ listed ∈ above, IsName listed) (noSlash : slash ∉ name) :
    ∀ listed ∈ enter above name, IsName listed := by
  intro listed
  unfold enter
  split
  · exact known listed
  · next same =>
    split
    · exact fun member => known listed (List.dropLast_subset above member)
    · next up =>
      rw [List.mem_append, List.mem_singleton]
      rintro (member | rfl)
      · exact known listed member
      · exact ⟨fun empty => same (.inl empty), noSlash, fun dot => same (.inr dot), up⟩

theorem foldl_enter_names {start entered : List JsString} (known : ∀ listed ∈ start, IsName listed)
    (noSlash : ∀ name ∈ entered, slash ∉ name) : ∀ listed ∈ entered.foldl enter start, IsName listed := by
  induction entered generalizing start with
  | nil => exact known
  | cons name entered ih =>
    rw [List.foldl_cons]
    apply ih
    · exact enter_names known (noSlash name List.mem_cons_self)
    · exact fun other listed => noSlash other (List.mem_cons_of_mem name listed)

theorem isName_of_mem_names {cwd path name : JsString} (listed : name ∈ names cwd path) : IsName name := by
  have nothing : ∀ listed ∈ ([] : List JsString), IsName listed := by simp
  have start : ∀ path : JsString, ∀ name ∈ path.splitOn slash, slash ∉ name := fun _ _ => noSlash_splitOn
  refine foldl_enter_names ?_ (start path) name listed
  split
  · exact nothing
  · exact foldl_enter_names nothing (start cwd)

theorem foldl_enter_isName {start entered : List JsString} (known : ∀ name ∈ entered, IsName name) :
    entered.foldl enter start = start ++ entered := by
  induction entered generalizing start with
  | nil => simp
  | cons name entered ih =>
    have first := known name List.mem_cons_self
    rw [List.foldl_cons, ih fun other listed => known other (List.mem_cons_of_mem name listed), enter, if_neg, if_neg first.notAbove,
      List.append_assoc, List.singleton_append]
    simp [first.nonempty, first.notHere]

theorem splitOn_spell {listed : List JsString} (known : ∀ name ∈ listed, slash ∉ name) (some : listed ≠ []) :
    (spell listed).splitOn slash = listed := List.splitOn_intercalate slash known some

theorem isAbsolute_spell {listed : List JsString} (known : ∀ name ∈ listed, IsName name) : isAbsolute (spell listed) = false := by
  cases listed with
  | nil => rfl
  | cons first rest =>
    have split := splitOn_spell (fun name member => (known name member).noSlash) (List.cons_ne_nil first rest)
    rw [Bool.eq_false_iff, ne_eq, isAbsolute, beq_iff_eq]
    intro slashed
    obtain ⟨tail, same⟩ := List.head?_eq_some_iff.mp slashed
    rw [same, List.splitOn_cons_eq_if_modifyHead, if_pos (beq_self_eq_true slash)] at split
    exact (known first List.mem_cons_self).nonempty (List.cons.inj split).1.symm

theorem enter_spell {start listed : List JsString} (known : ∀ name ∈ listed, IsName name) :
    ((spell listed).splitOn slash).foldl enter start = start ++ listed := by
  by_cases empty : listed = []
  · subst empty
    simp [spell, List.intercalate, enter]
  · rw [splitOn_spell (fun name member => (known name member).noSlash) empty, foldl_enter_isName known]

theorem isAbsolute_resolve (cwd path : JsString) : isAbsolute (resolve cwd path) = true := beq_self_eq_true (some slash)

/-- An absolute path that is spelled from names has these. -/
theorem names_spelled {listed : List JsString} (known : ∀ name ∈ listed, IsName name) (cwd : JsString) :
    names cwd (slash :: spell listed) = listed := by
  have parts : (slash :: spell listed).splitOn slash = [] :: (spell listed).splitOn slash := by
    rw [List.splitOn_cons_eq_if_modifyHead, if_pos (beq_self_eq_true slash)]
  have absolute : isAbsolute (slash :: spell listed) = true := beq_self_eq_true (some slash)
  rw [names, if_pos absolute, parts, List.foldl_cons, enter, if_pos (.inl rfl), enter_spell known, List.nil_append]

/-- What is resolved is not changed by resolving it again. -/
@[simp] theorem names_resolve (cwd path : JsString) : names cwd (resolve cwd path) = names cwd path :=
  names_spelled (fun _ => isName_of_mem_names) cwd

/-- Names spelled below an absolute path are entered from there. -/
theorem names_below {cwd base : JsString} {down : List JsString} (absolute : isAbsolute base = true)
    (known : ∀ name ∈ down, IsName name) : names base (spell down) = names cwd base ++ down := by
  rw [names, isAbsolute_spell known, names, absolute, enter_spell known]
  rfl

/-! Being inside. -/

theorem leaveCommon_up {ones others : List JsString} : (leaveCommon ones others).1 = [] ↔ ones <+: others := by
  induction ones, others using leaveCommon.induct with
  | case1 one ones others ih =>
    rw [leaveCommon, if_pos rfl, ih, List.cons_prefix_cons, eq_self, true_and]
  | case2 one ones other others differ =>
    rw [leaveCommon, if_neg differ, List.cons_prefix_cons]
    simp [differ]
  | case3 ones others left =>
    rw [leaveCommon.eq_2 ones others left]
    cases ones with
    | nil => simp
    | cons one ones =>
      cases others with
      | nil => simp
      | cons other others => exact absurd rfl (left one ones other others rfl)

theorem leaveCommon_down {ones others : List JsString} : ∀ name ∈ (leaveCommon ones others).2, name ∈ others := by
  induction ones, others using leaveCommon.induct with
  | case1 one ones others ih =>
    rw [leaveCommon, if_pos rfl]
    exact fun name listed => List.mem_cons_of_mem _ (ih name listed)
  | case2 one ones other others differ =>
    rw [leaveCommon, if_neg differ]
    exact fun name listed => listed
  | case3 ones others left =>
    rw [leaveCommon.eq_2 ones others left]
    exact fun name listed => listed

theorem leaveCommon_append (ones down : List JsString) : leaveCommon ones (ones ++ down) = ([], down) := by
  induction ones with
  | nil =>
    rw [List.nil_append]
    exact leaveCommon.eq_2 [] down (by simp)
  | cons one ones ih => rw [List.cons_append, leaveCommon, if_pos rfl, ih]

/-- The relative path of a path inside is what it has below. -/
theorem relative_below {cwd source target : JsString} {down : List JsString} (inside : names cwd target = names cwd source ++ down) :
    relative cwd source target = spell down := by
  unfold relative
  rw [inside, leaveCommon_append]
  rfl

/-- A relative path that neither goes up nor starts over. -/
def staysInside (path : JsString) : Bool :=
  path.length == 0 || (path != above && !(above ++ [slash]).isPrefixOf path && !isAbsolute path)

theorem staysInside_spell {down : List JsString} (known : ∀ name ∈ down, IsName name) : staysInside (spell down) = true := by
  cases down with
  | nil => rfl
  | cons first rest =>
    have split := splitOn_spell (fun name listed => (known name listed).noSlash) (List.cons_ne_nil first rest)
    have isName := known first List.mem_cons_self
    have plain : spell (first :: rest) ≠ above := by
      intro same
      rw [same] at split
      exact isName.notAbove (List.cons.inj split).1.symm
    have down : (above ++ [slash]).isPrefixOf (spell (first :: rest)) = false := by
      rw [Bool.eq_false_iff, ne_eq, List.isPrefixOf_iff_prefix]
      rintro ⟨tail, same⟩
      rw [← same, List.append_assoc, List.singleton_append, List.splitOn_append_cons_self_of_not_mem (by decide)] at split
      exact isName.notAbove (List.cons.inj split).1.symm
    rw [staysInside, down, isAbsolute_spell known, bne_iff_ne.mpr plain]
    simp

theorem staysInside_up (up down : List JsString) (first : JsString) :
    staysInside (spell ((first :: up).map (fun _ => above) ++ down)) = false := by
  rw [List.map_cons, List.cons_append]
  cases up.map (fun _ => above) ++ down with
  | nil => rfl
  | cons second rest =>
    have starts : (above ++ [slash]).isPrefixOf (spell (above :: second :: rest)) = true := by
      rw [List.isPrefixOf_iff_prefix]
      exact ⟨spell (second :: rest), by simp [spell, List.intercalate]⟩
    rw [staysInside, starts]
    rfl

theorem staysInside_relative (cwd source target : JsString) :
    staysInside (relative cwd source target) = true ↔ names cwd source <+: names cwd target := by
  rw [← leaveCommon_up]
  unfold relative
  rcases parts : leaveCommon (names cwd source) (names cwd target) with ⟨up, down⟩
  have known : ∀ name ∈ down, IsName name := by
    intro name listed
    apply isName_of_mem_names
    exact leaveCommon_down name (by rw [parts]; exact listed)
  cases up with
  | nil => simp [staysInside_spell known]
  | cons first up => simp only [staysInside_up, Bool.false_eq_true, reduceCtorEq]

end Host.Posix
