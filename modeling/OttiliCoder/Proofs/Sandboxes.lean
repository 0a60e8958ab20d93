import OttiliCoder.Proofs.Budget
import OttiliCoder.Workspace.Sandbox

/-! What a child sandbox may do: everything is compared with what its parent may do, except that the
parent's read-only roots are not handed down. -/

namespace OttiliCoder.Sandbox
open Host Host.Posix Results

section
variable (cwd : JsString)

def Beneath (roots : List JsString) (path : JsString) : Prop := ∃ root ∈ roots, isWithin cwd path root

instance (roots : List JsString) (path : JsString) : Decidable (Beneath cwd roots path) :=
  inferInstanceAs (Decidable (∃ root ∈ roots, isWithin cwd path root))

def MayWrite (profile : SandboxProfile) (path : JsString) : Prop :=
  (profile.filesystem.allowAnyPath ∨ Beneath cwd profile.filesystem.writableRoots path) ∧
    ¬Beneath cwd profile.filesystem.readonlyRoots path

def MayRead (profile : SandboxProfile) (path : JsString) : Prop :=
  profile.filesystem.allowAnyPath ∨ Beneath cwd profile.filesystem.writableRoots path ∨
    Beneath cwd profile.filesystem.readonlyRoots path

/-- Entries of a list count as they are normalized. -/
def MayUse (access : Access) (values : List JsString) (entry : JsString) : Prop :=
  access = .allow ∨ access = .allowlist ∧ entry ∈ normalizeStringList values

/-- Everything but writing is no broader. -/
structure NoBroaderApart (child parent : SandboxProfile) : Prop where
  read : ∀ path, MayRead cwd child path → MayRead cwd parent path
  network : ∀ destination, MayUse child.network.access child.network.destinations destination →
    MayUse parent.network.access parent.network.destinations destination
  environment : ∀ name, MayUse child.environment.access child.environment.variableNames name →
    MayUse parent.environment.access parent.environment.variableNames name
  process : ∀ executable, MayUse child.process.access child.process.executables executable →
    MayUse parent.process.access parent.process.executables executable

structure NoBroader (child parent : SandboxProfile) : Prop extends NoBroaderApart cwd child parent where
  write : ∀ path, MayWrite cwd child path → MayWrite cwd parent path

/-- Whatever the child could write beneath a read-only root of its parent is beneath one of its own:
of two nested roots the deeper one is. -/
def ReadonlyKept (parent child : SandboxProfile) : Prop :=
  ∀ root ∈ parent.filesystem.readonlyRoots,
    (child.filesystem.allowAnyPath → Beneath cwd child.filesystem.readonlyRoots root) ∧
      ∀ writable ∈ child.filesystem.writableRoots,
        (isWithin cwd root writable → Beneath cwd child.filesystem.readonlyRoots root) ∧
          (isWithin cwd writable root → Beneath cwd child.filesystem.readonlyRoots writable)

instance (parent child : SandboxProfile) : Decidable (ReadonlyKept cwd parent child) :=
  inferInstanceAs (Decidable (∀ root ∈ parent.filesystem.readonlyRoots, _ ∧ ∀ writable ∈ child.filesystem.writableRoots, _))

def Inherits (parent child : SandboxProfile) : Prop := ∃ requested, inheritSandboxProfile cwd parent requested = .ok child

def InheritsReadonly (parent child : SandboxProfile) : Prop :=
  ∃ requested, inheritSandboxProfile cwd parent requested = .ok child ∧ ReadonlyKept cwd parent requested

end

/-! Roots and lists. -/

section
variable {cwd : JsString}

theorem isWithin_iff {candidate parent : JsString} : isWithin cwd candidate parent ↔ names cwd parent <+: names cwd candidate :=
  staysInside_relative cwd parent candidate

theorem isWithin_resolve {candidate parent : JsString} :
    isWithin cwd candidate (resolve cwd parent) ↔ isWithin cwd candidate parent := by
  rw [isWithin_iff, isWithin_iff, names_resolve]

theorem isWithin_refl (path : JsString) : isWithin cwd path path :=
  isWithin_iff.mpr (List.prefix_refl _)

theorem isWithin_trans {path inner outer : JsString} (first : isWithin cwd path inner) (second : isWithin cwd inner outer) :
    isWithin cwd path outer :=
  isWithin_iff.mpr ((isWithin_iff.mp second).trans (isWithin_iff.mp first))

/-- Two roots above one path are nested. -/
theorem isWithin_total {path one other : JsString} (first : isWithin cwd path one) (second : isWithin cwd path other) :
    isWithin cwd one other ∨ isWithin cwd other one := by
  rw [isWithin_iff, isWithin_iff]
  exact List.prefix_or_prefix_of_prefix (isWithin_iff.mp second) (isWithin_iff.mp first)

theorem Beneath.deeper {roots : List JsString} {path inner : JsString} (beneath : Beneath cwd roots inner)
    (inside : isWithin cwd path inner) : Beneath cwd roots path := by
  obtain ⟨root, listed, within⟩ := beneath
  exact ⟨root, listed, isWithin_trans inside within⟩

@[simp] theorem mem_sortedSet {values : List JsString} {value : JsString} : value ∈ sortedSet values ↔ value ∈ values := by
  rw [sortedSet, List.mem_insertionSort, List.mem_eraseDups]

theorem beneath_normalizePathList {roots : List JsString} {path : JsString} :
    Beneath cwd (normalizePathList cwd roots) path ↔ Beneath cwd roots path := by
  unfold Beneath normalizePathList
  simp only [mem_sortedSet, List.mem_map, exists_exists_and_eq_and, isWithin_resolve]

theorem mem_normalizeStringList {values : List JsString} {value : JsString} :
    value ∈ normalizeStringList values ↔ value ≠ [] ∧ ∃ given ∈ values, trim given = value := by
  rw [normalizeStringList, mem_sortedSet, List.mem_filter, List.mem_map, decide_eq_true_eq, List.length_pos_iff, and_comm]

theorem normalizeStringList_twice {values : List JsString} {value : JsString} :
    value ∈ normalizeStringList (normalizeStringList values) ↔ value ∈ normalizeStringList values := by
  rw [mem_normalizeStringList]
  constructor
  · rintro ⟨_, given, listed, trimmed⟩
    obtain ⟨_, source, _, rfl⟩ := mem_normalizeStringList.mp listed
    rw [trim_trim] at trimmed
    rw [← trimmed]
    exact listed
  · intro listed
    obtain ⟨some, source, _, rfl⟩ := mem_normalizeStringList.mp listed
    exact ⟨some, trim source, listed, trim_trim source⟩

theorem mayUse_normalizeStringList {access : Access} {values : List JsString} {entry : JsString} :
    MayUse access (normalizeStringList values) entry ↔ MayUse access values entry := by
  rw [MayUse, MayUse, normalizeStringList_twice]

/-! Normalizing. -/

/-- The two profiles allow the same. -/
structure SameRights (cwd : JsString) (one other : SandboxProfile) : Prop where
  anyPath : one.filesystem.allowAnyPath = other.filesystem.allowAnyPath
  writable : ∀ path, Beneath cwd one.filesystem.writableRoots path ↔ Beneath cwd other.filesystem.writableRoots path
  readonly : ∀ path, Beneath cwd one.filesystem.readonlyRoots path ↔ Beneath cwd other.filesystem.readonlyRoots path
  network : ∀ entry, MayUse one.network.access one.network.destinations entry ↔
    MayUse other.network.access other.network.destinations entry
  environment : ∀ entry, MayUse one.environment.access one.environment.variableNames entry ↔
    MayUse other.environment.access other.environment.variableNames entry
  process : ∀ entry, MayUse one.process.access one.process.executables entry ↔
    MayUse other.process.access other.process.executables entry

theorem normalizeProfile_ok {profile result : SandboxProfile} (done : normalizeProfile cwd profile = .ok result) :
    result = normalized cwd profile := by
  unfold normalizeProfile at done
  split at done
  · cases done
  · split at done
    · cases done
    · split at done
      · cases done
      · exact (Except.ok.inj done).symm

theorem normalized_rights (profile : SandboxProfile) : SameRights cwd (normalized cwd profile) profile where
  anyPath := rfl
  writable _ := beneath_normalizePathList
  readonly _ := beneath_normalizePathList
  network _ := mayUse_normalizeStringList
  environment _ := mayUse_normalizeStringList
  process _ := mayUse_normalizeStringList

section
variable {one other : SandboxProfile} (same : SameRights cwd one other)
include same

theorem SameRights.write (path : JsString) : MayWrite cwd one path ↔ MayWrite cwd other path := by
  unfold MayWrite
  rw [same.anyPath, same.writable, same.readonly]

theorem SameRights.read (path : JsString) : MayRead cwd one path ↔ MayRead cwd other path := by
  unfold MayRead
  rw [same.anyPath, same.writable, same.readonly]

end

/-! Comparing. -/

theorem isListNoBroader_mayUse {candidate parent : Access} {values parentValues : List JsString}
    (narrower : isListNoBroader candidate values parent parentValues = true) {entry : JsString}
    (allowed : MayUse candidate values entry) : MayUse parent parentValues entry := by
  unfold isListNoBroader at narrower
  obtain rfl | ⟨rfl, listed⟩ := allowed
  · cases parent with
    | allow => exact .inl rfl
    | deny => cases narrower
    | allowlist => cases narrower
  · cases parent with
    | allow => exact .inl rfl
    | deny => cases narrower
    | allowlist =>
      have subset : ∀ value ∈ values, value ∈ parentValues := by
        intro value member
        exact List.contains_iff_mem.mp (List.all_eq_true.mp narrower value member)
      obtain ⟨some, given, member, trimmed⟩ := mem_normalizeStringList.mp listed
      exact .inr ⟨rfl, mem_normalizeStringList.mpr ⟨some, given, subset given member, trimmed⟩⟩

/-- What the comparison of two normalized profiles has checked. -/
structure Checked (cwd : JsString) (parent child : SandboxProfile) : Prop where
  anyPath : child.filesystem.allowAnyPath → parent.filesystem.allowAnyPath
  writable : parent.filesystem.allowAnyPath = false → ∀ root ∈ child.filesystem.writableRoots,
    Beneath cwd parent.filesystem.writableRoots root
  readonly : parent.filesystem.allowAnyPath = false → ∀ root ∈ child.filesystem.readonlyRoots,
    Beneath cwd (parent.filesystem.writableRoots ++ parent.filesystem.readonlyRoots) root
  network : isListNoBroader child.network.access child.network.destinations parent.network.access parent.network.destinations
  environment : isListNoBroader child.environment.access child.environment.variableNames parent.environment.access
    parent.environment.variableNames
  process : isListNoBroader child.process.access child.process.executables parent.process.access parent.process.executables

theorem violations_nil {parent child : SandboxProfile} (none : violations cwd parent child = []) : Checked cwd parent child := by
  have unreported : ∀ {condition : Prop} [Decidable condition] {name : String},
      (if condition then [] else [name]) = [] → condition := by
    intro condition _ name
    split
    · next holds => exact fun _ => holds
    · simp
  have beneath : ∀ {roots parentRoots : List JsString},
      (roots.all fun root => parentRoots.any fun parentRoot => isWithin cwd root parentRoot) = true →
        ∀ root ∈ roots, Beneath cwd parentRoots root := by
    intro roots parentRoots all root listed
    exact List.any_eq_true.mp (List.all_eq_true.mp all root listed)
  unfold violations at none
  simp only [List.append_eq_nil_iff] at none
  obtain ⟨⟨⟨⟨any, roots⟩, network⟩, environment⟩, process⟩ := none
  constructor
  · intro anyPath
    split at any
    · cases any
    · next refused => simpa [anyPath] using refused
  · intro listed
    simp only [listed, Bool.false_eq_true, if_false, List.append_eq_nil_iff] at roots
    exact beneath (unreported roots.1)
  · intro listed
    simp only [listed, Bool.false_eq_true, if_false, List.append_eq_nil_iff] at roots
    exact beneath (unreported roots.2)
  · exact unreported network
  · exact unreported environment
  · exact unreported process

theorem inheritSandboxProfile_ok {parent requested child : SandboxProfile}
    (accepted : inheritSandboxProfile cwd parent requested = .ok child) :
    child = normalized cwd requested ∧ Checked cwd (normalized cwd parent) (normalized cwd requested) := by
  obtain ⟨normalizedParent, parentDone, accepted⟩ := except_bind_ok.mp accepted
  obtain ⟨normalizedChild, childDone, accepted⟩ := except_bind_ok.mp accepted
  rw [normalizeProfile_ok parentDone, normalizeProfile_ok childDone] at accepted
  dsimp only at accepted
  split at accepted
  · cases accepted
  · next none => exact ⟨(Except.ok.inj accepted).symm, violations_nil (List.length_eq_zero_iff.mp (by omega))⟩

/-! What the comparison allows. -/

/-- The writable roots of the child are in those of the parent. -/
theorem Checked.beneath {parent child : SandboxProfile} (checked : Checked cwd parent child) {path : JsString}
    (root : child.filesystem.allowAnyPath ∨ Beneath cwd child.filesystem.writableRoots path) :
    parent.filesystem.allowAnyPath ∨ Beneath cwd parent.filesystem.writableRoots path := by
  obtain any | ⟨root, listed, inside⟩ := root
  · exact .inl (checked.anyPath any)
  · cases any : parent.filesystem.allowAnyPath with
    | true => exact .inl rfl
    | false => exact .inr ((checked.writable any root listed).deeper inside)

theorem Checked.read {parent child : SandboxProfile} (checked : Checked cwd parent child) {path : JsString}
    (read : MayRead cwd child path) : MayRead cwd parent path := by
  obtain any | writable | ⟨root, listed, inside⟩ := read
  · exact .inl (checked.anyPath any)
  · exact (checked.beneath (.inr writable)).imp_right .inl
  · cases any : parent.filesystem.allowAnyPath with
    | true => exact .inl any
    | false =>
      obtain ⟨above, member, within⟩ := (checked.readonly any root listed).deeper inside
      obtain member | member := List.mem_append.mp member
      · exact .inr (.inl ⟨above, member, within⟩)
      · exact .inr (.inr ⟨above, member, within⟩)

theorem Checked.apart {parent child : SandboxProfile} (checked : Checked cwd parent child) : NoBroaderApart cwd child parent where
  read _ := checked.read
  network _ := isListNoBroader_mayUse checked.network
  environment _ := isListNoBroader_mayUse checked.environment
  process _ := isListNoBroader_mayUse checked.process

/-- With the roots compared, writing is no broader exactly when the read-only roots are kept. -/
theorem writes_iff {parent child : SandboxProfile}
    (roots : ∀ path, child.filesystem.allowAnyPath ∨ Beneath cwd child.filesystem.writableRoots path →
      parent.filesystem.allowAnyPath ∨ Beneath cwd parent.filesystem.writableRoots path) :
    (∀ path, MayWrite cwd child path → MayWrite cwd parent path) ↔ ReadonlyKept cwd parent child := by
  constructor
  · intro broader root listed
    have kept : ∀ path, isWithin cwd path root →
        child.filesystem.allowAnyPath ∨ Beneath cwd child.filesystem.writableRoots path →
          Beneath cwd child.filesystem.readonlyRoots path := by
      intro path inside writable
      by_contra free
      exact (broader path ⟨writable, free⟩).2 ⟨root, listed, inside⟩
    constructor
    · exact fun any => kept root (isWithin_refl root) (.inl any)
    · intro writable member
      constructor
      · exact fun inside => kept root (isWithin_refl root) (.inr ⟨writable, member, inside⟩)
      · exact fun inside => kept writable inside (.inr ⟨writable, member, isWithin_refl writable⟩)
  · rintro kept path ⟨writable, free⟩
    constructor
    · exact roots path writable
    · rintro ⟨root, listed, inside⟩
      obtain ⟨anyPath, nested⟩ := kept root listed
      apply free
      obtain any | ⟨above, member, within⟩ := writable
      · exact (anyPath any).deeper inside
      · obtain below | below := isWithin_total inside within
        · exact ((nested above member).1 below).deeper inside
        · exact ((nested above member).2 below).deeper within

theorem accepted_apart {parent requested child : SandboxProfile}
    (accepted : inheritSandboxProfile cwd parent requested = .ok child) : NoBroaderApart cwd child parent := by
  obtain ⟨rfl, checked⟩ := inheritSandboxProfile_ok accepted
  have same : SameRights cwd _ parent := normalized_rights parent
  constructor
  · exact fun path read => (same.read path).mp (checked.apart.read path read)
  · exact fun entry used => (same.network entry).mp (checked.apart.network entry used)
  · exact fun entry used => (same.environment entry).mp (checked.apart.environment entry used)
  · exact fun entry used => (same.process entry).mp (checked.apart.process entry used)

theorem accepted_iff {parent requested child : SandboxProfile}
    (accepted : inheritSandboxProfile cwd parent requested = .ok child) :
    NoBroader cwd child parent ↔ ReadonlyKept cwd parent requested := by
  have apart := accepted_apart accepted
  obtain ⟨rfl, checked⟩ := inheritSandboxProfile_ok accepted
  have given : SameRights cwd _ parent := normalized_rights parent
  have asked : SameRights cwd _ requested := normalized_rights requested
  have roots : ∀ path, requested.filesystem.allowAnyPath ∨ Beneath cwd requested.filesystem.writableRoots path →
      parent.filesystem.allowAnyPath ∨ Beneath cwd parent.filesystem.writableRoots path := by
    intro path
    rw [← asked.anyPath, ← asked.writable, ← given.anyPath, ← given.writable]
    exact checked.beneath
  rw [← writes_iff roots]
  constructor
  · exact fun narrower path write => narrower.write path ((asked.write path).mpr write)
  · exact fun writes => ⟨apart, fun path write => writes path ((asked.write path).mp write)⟩

/-! Chains. -/

theorem NoBroaderApart.refl (profile : SandboxProfile) : NoBroaderApart cwd profile profile :=
  ⟨fun _ => id, fun _ => id, fun _ => id, fun _ => id⟩

theorem NoBroaderApart.trans {first second third : SandboxProfile} (inner : NoBroaderApart cwd third second)
    (outer : NoBroaderApart cwd second first) : NoBroaderApart cwd third first where
  read path allowed := outer.read path (inner.read path allowed)
  network entry allowed := outer.network entry (inner.network entry allowed)
  environment entry allowed := outer.environment entry (inner.environment entry allowed)
  process entry allowed := outer.process entry (inner.process entry allowed)

theorem chain_apart {first last : SandboxProfile} (chain : Relation.ReflTransGen (Inherits cwd) first last) :
    NoBroaderApart cwd last first := by
  induction chain with
  | refl => exact .refl first
  | tail _ step ih =>
    obtain ⟨requested, accepted⟩ := step
    exact (accepted_apart accepted).trans ih

theorem chain_no_broader {first last : SandboxProfile} (chain : Relation.ReflTransGen (InheritsReadonly cwd) first last) :
    NoBroader cwd last first := by
  induction chain with
  | refl => exact ⟨.refl first, fun _ => id⟩
  | tail _ step ih =>
    obtain ⟨requested, accepted, kept⟩ := step
    have narrower := (accepted_iff accepted).mpr kept
    exact ⟨narrower.toNoBroaderApart.trans ih.toNoBroaderApart, fun path allowed => ih.write path (narrower.write path allowed)⟩

end

/-- An accepted child is no broader exactly when the read-only roots are kept, and then along any chain;
apart from writing it never is. -/
theorem inherited_no_broader_iff (cwd : JsString) :
    (∀ parent requested child, inheritSandboxProfile cwd parent requested = .ok child →
      (NoBroader cwd child parent ↔ ReadonlyKept cwd parent requested)) ∧
    (∀ first last, Relation.ReflTransGen (InheritsReadonly cwd) first last → NoBroader cwd last first) ∧
    ∀ first last, Relation.ReflTransGen (Inherits cwd) first last → NoBroaderApart cwd last first :=
  ⟨fun _ _ _ => accepted_iff, fun _ _ => chain_no_broader, fun _ _ => chain_apart⟩

def guardedProfile (readonlyRoots : List JsString) : SandboxProfile where
  mode := .custom
  workspaceRoot := units "/w"
  filesystem := ⟨false, [units "/w"], readonlyRoots⟩
  network := ⟨.deny, []⟩
  environment := ⟨.deny, []⟩
  process := ⟨.deny, []⟩

theorem inherited_no_broader_iff_guarded :
    NoBroader (units "/") (guardedProfile [units "/w/s"]) (guardedProfile [units "/w/s"]) :=
  ((inherited_no_broader_iff (units "/")).1 (guardedProfile [units "/w/s"]) (guardedProfile [units "/w/s"]) _ (by decide)).mpr
    (by decide)

/-- A child that leaves the read-only root out may write beneath it. -/
theorem readonly_root_dropped :
    ¬∀ cwd parent requested child, inheritSandboxProfile cwd parent requested = .ok child → NoBroader cwd child parent := by
  intro narrower
  have child := narrower (units "/") (guardedProfile [units "/w/s"]) (guardedProfile []) (guardedProfile []) (by decide)
  have wrote : MayWrite (units "/") (guardedProfile [units "/w/s"]) (units "/w/s") := by
    apply child.write
    exact ⟨.inr ⟨units "/w", by decide, by decide⟩, by rintro ⟨root, listed, _⟩; cases listed⟩
  exact wrote.2 ⟨units "/w/s", by decide, by decide⟩

end OttiliCoder.Sandbox
