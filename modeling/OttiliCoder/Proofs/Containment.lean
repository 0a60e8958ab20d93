import OttiliCoder.Proofs.Scopes

/-! Which writes a sandbox lets through, and which of them stay inside its writable roots: the
decision rests on texts that overlap, whichever of the two is above the other. -/

namespace OttiliCoder.Containment
open Wildcards Scopes

/-! Decisions. -/

theorem foldl_strictest {current : PermissionEffect} {effects : List PermissionEffect} :
    effects.foldl strictest current = .deny ↔ current = .deny ∨ .deny ∈ effects := by
  induction effects generalizing current with
  | nil => simp
  | cons effect effects ih =>
    rw [List.foldl_cons, ih]
    cases current <;> cases effect <;> simp [strictest, permissionRank]

theorem decision_deny {input : PermissionEvaluationInput} :
    (evaluatePermission input).decision = .deny ↔ .deny ∈ (permissionEvaluations input).map (·.2) := by
  change ((permissionEvaluations input).map (·.2)).foldl strictest .allow = .deny ↔ _
  rw [foldl_strictest]
  simp

/-- A policy of the Run, the role, the tool or the sandbox denies. -/
def DeniedByPolicy (input : PermissionEvaluationInput) (sandbox : SandboxPolicy) : Prop :=
  evaluatePolicy input.runPolicy input = .deny ∨
    (∃ policy, input.rolePolicy = some policy ∧ evaluatePolicy policy input = .deny) ∨
    (∃ policy, input.toolPolicy = some policy ∧ evaluatePolicy policy input = .deny) ∨
    evaluatePolicy sandbox.permissions input = .deny

/-- The texts overlap with a read-only root, or with no writable one. -/
def Outside (sandbox : SandboxPolicy) (identifier : String) : Prop :=
  (∃ root ∈ sandbox.readOnlyRoots, Seen .file root identifier) ∨ ∀ root ∈ sandbox.writableRoots, ¬Seen .file root identifier

section Writes
variable {input : PermissionEvaluationInput} {sandbox : SandboxPolicy} {scope : ResourceScope}

theorem evaluateSandboxConstraint_deny (writes : input.action = .write) (asked : input.resourceScope = some scope)
    (file : scope.kind = .file) :
    evaluateSandboxConstraint sandbox input = some .deny ↔ Outside sandbox scope.identifier := by
  have filtered : (input.resourceScope.filter fun scope => scope.kind == .file) = some scope := by
    rw [asked, Option.filter_some, if_pos (beq_iff_eq.mpr file)]
  have inside : ∀ roots : List String, (roots.any fun root => resourceIdentifiersOverlap .file root scope.identifier) = true ↔
      ∃ root ∈ roots, Seen .file root scope.identifier := by
    intro roots
    rw [List.any_eq_true]
    simp only [resourceIdentifiersOverlap_iff]
  unfold evaluateSandboxConstraint Outside
  simp only [writes, reduceCtorEq, false_and, if_false, ne_eq, not_true_eq_false, filtered]
  split
  · next readOnly => simp [(inside _).mp readOnly]
  · next writable =>
    rw [inside] at writable
    simp only [writable, false_or]
    split
    · next none =>
      simp only [true_iff]
      intro root listed seen
      rw [Bool.or_eq_true] at none
      obtain empty | none := none
      · rw [List.isEmpty_iff.mp empty] at listed
        cases listed
      · rw [Bool.not_eq_true', ← Bool.not_eq_true, inside] at none
        exact none ⟨root, listed, seen⟩
    · next some =>
      simp only [reduceCtorEq, false_iff]
      simp only [Bool.or_eq_true, not_or, Bool.not_eq_true', Bool.not_eq_false] at some
      obtain ⟨root, listed, seen⟩ := (inside _).mp some.2
      exact fun none => none root listed seen

theorem decision_write (given : input.sandbox = some sandbox) (writes : input.action = .write)
    (asked : input.resourceScope = some scope) (file : scope.kind = .file) :
    (evaluatePermission input).decision = .deny ↔ DeniedByPolicy input sandbox ∨ Outside sandbox scope.identifier := by
  have named : ∀ (source : String) (policy : Option PermissionPolicy),
      .deny ∈ (policy.map fun policy => (source, evaluatePolicy policy input)).toList.map (·.2) ↔
        ∃ given, policy = some given ∧ evaluatePolicy given input = .deny := by
    intro source policy
    cases policy <;> simp [eq_comm]
  have constrained : .deny ∈ ((evaluateSandboxConstraint sandbox input).map fun effect => ("sandbox-capability", effect)).toList.map (·.2) ↔
      Outside sandbox scope.identifier := by
    rw [← evaluateSandboxConstraint_deny writes asked file]
    cases evaluateSandboxConstraint sandbox input <;> simp [eq_comm]
  have approval : PermissionEffect.deny ∉ (if input.requiresApproval then [("approval", PermissionEffect.prompt)] else []).map (·.2) := by
    split <;> simp
  rw [decision_deny]
  unfold permissionEvaluations DeniedByPolicy
  simp only [given, List.map_append, List.mem_append, named, List.map_cons, List.mem_cons, List.map_nil, List.not_mem_nil,
    or_false, constrained, approval, @eq_comm _ PermissionEffect.deny, or_assoc]

end Writes

/-! What is inside. -/

/-- Every path the identifier stands for is in a writable root, and none is in a read-only one. -/
def Contained (sandbox : SandboxPolicy) (identifier : String) : Prop :=
  ∀ path, Denotes .file identifier path →
    (∃ root ∈ sandbox.writableRoots, Denotes .file root path) ∧ ∀ root ∈ sandbox.readOnlyRoots, ¬Denotes .file root path

/-- Every text the identifier spells is in a root. -/
def SpelledInside (roots : List String) (identifier : String) : Prop :=
  ∀ text : String, SpellsAny '*' identifier.toList text.toList → ∃ root ∈ roots, Denotes .file root text

theorem denotes_below {root text path : String} (inside : Denotes .file root text) (below : Below text.toList path.toList) :
    Denotes .file root path := by
  obtain ⟨spelled, spells, same | ⟨_, above⟩⟩ := inside
  · exact ⟨spelled, spells, .inr ⟨rfl, same ▸ below⟩⟩
  · exact ⟨spelled, spells, .inr ⟨rfl, (above.trans (prefix_directory _)).trans below⟩⟩

theorem contained_iff {sandbox : SandboxPolicy} {identifier : String} : Contained sandbox identifier ↔
    SpelledInside sandbox.writableRoots identifier ∧
      ∀ root ∈ sandbox.readOnlyRoots, ¬Alongside (reach root.toList) (reach identifier.toList) := by
  constructor
  · intro contained
    constructor
    · exact fun text spelled => (contained text ⟨_, spelled, .inl rfl⟩).1
    · intro root listed along
      obtain ⟨path, inside, denoted⟩ := common_file.mpr along
      exact (contained path denoted).2 root listed inside
  · rintro ⟨writable, readOnly⟩ path denoted
    constructor
    · obtain ⟨text, spelled, same | ⟨_, below⟩⟩ := denoted
      · exact writable path (same ▸ spelled)
      · obtain ⟨root, listed, inside⟩ := writable (String.ofList text) (by rwa [String.toList_ofList])
        exact ⟨root, listed, denotes_below inside (by rwa [String.toList_ofList])⟩
    · exact fun root listed inside => readOnly root listed (common_file.mp ⟨path, inside, denoted⟩)

/-- Without a star the identifier itself is asked for. -/
theorem spelledInside_plain {roots : List String} {identifier : String} (plain : '*' ∉ identifier.toList) :
    SpelledInside roots identifier ↔ ∃ root ∈ roots, Denotes .file root identifier := by
  unfold SpelledInside
  simp only [spells_plain plain, String.toList_inj]
  exact forall_eq

theorem stripSlash_slashed (path : List Char) : stripSlash (path ++ ['/']) = path := by
  rw [stripSlash, if_pos (List.suffix_append path ['/']), List.dropLast_concat]

theorem directory_within (path : List Char) : directory path <+: path ++ ['/'] := by
  obtain same | slashed := stripSlash_cases path
  · rw [directory, same]
  · rw [directory, ← slashed]
    exact List.prefix_append path ['/']

/-- With a star it is asked for with a letter in its place that no root has. -/
theorem spelledInside_letter {roots : List String} {identifier : String} {letter : Char} (slash : letter ≠ '/')
    (newHere : letter ∉ identifier.toList) (newThere : ∀ root ∈ roots, letter ∉ root.toList) :
    SpelledInside roots identifier ↔
      ∃ root ∈ roots, Denotes .file root (String.ofList (relabel '*' letter identifier.toList)) := by
  constructor
  · intro inside
    apply inside
    rw [String.toList_ofList]
    exact spells_relabel letter identifier.toList
  · rintro ⟨root, listed, path, spells, inside⟩ text spelled
    refine ⟨root, listed, ?_⟩
    rw [String.toList_ofList] at inside
    have fills := spelled.relabel newHere
    obtain same | ⟨_, below⟩ := inside
    · rw [same] at fills
      exact ⟨text.toList, spells.refill (newThere root listed) fills, .inl rfl⟩
    · -- the slash after the path is the identifier's own, so the path is filled apart from what follows
      obtain ⟨rest, parted⟩ := below
      rw [← parted] at fills
      obtain ⟨front, after, filled, fills, _⟩ := spells_append.mp fills
      obtain ⟨above, slashed, rfl, fills, last⟩ := spells_append.mp (show SpellsAny letter (stripSlash path ++ ['/']) front from fills)
      have plain : letter ∉ ['/'] := fun listed => slash (List.mem_singleton.mp listed)
      rw [(spells_plain plain).mp last] at filled
      obtain same | slashed := stripSlash_cases path
      · rw [same] at fills
        refine ⟨above, spells.refill (newThere root listed) fills, .inr ⟨rfl, ?_⟩⟩
        rw [Below, filled]
        exact (directory_within above).trans (List.prefix_append _ after)
      · have slashes : SpellsAny letter path (above ++ ['/']) := by
          rw [slashed]
          exact spells_append.mpr ⟨above, ['/'], rfl, fills, (spells_plain plain).mpr rfl⟩
        refine ⟨above ++ ['/'], spells.refill (newThere root listed) slashes, .inr ⟨rfl, ?_⟩⟩
        rw [Below, filled, directory, stripSlash_slashed]
        exact List.prefix_append _ after

/-- A write that is let through stays inside exactly when nothing it stands for is outside. -/
theorem writes_contained_iff (input : PermissionEvaluationInput) (sandbox : SandboxPolicy) (scope : ResourceScope)
    (given : input.sandbox = some sandbox) (writes : input.action = .write) (asked : input.resourceScope = some scope)
    (file : scope.kind = .file) :
    ((evaluatePermission input).decision ≠ .deny → Contained sandbox scope.identifier) ↔
      DeniedByPolicy input sandbox ∨ Outside sandbox scope.identifier ∨
        SpelledInside sandbox.writableRoots scope.identifier ∧
          ∀ root ∈ sandbox.readOnlyRoots, ¬Alongside (reach root.toList) (reach scope.identifier.toList) := by
  rw [ne_eq, decision_write given writes asked file, contained_iff, ← or_assoc, ← or_iff_not_imp_left]

def writeRequest (identifier : String) (writableRoots : List String) : PermissionEvaluationInput where
  action := .write
  resourceScope := some (writeFile identifier)
  runPolicy := { mode := .autonomous }
  sandbox := some { defaultSandbox with writableRoots := writableRoots, permissions := { mode := .autonomous } }

theorem writes_contained_iff_source :
    ((evaluatePermission (writeRequest "work/src/main.ts" ["work/src"])).decision ≠ .deny →
        Contained { defaultSandbox with writableRoots := ["work/src"], permissions := { mode := .autonomous } } "work/src/main.ts") ↔
      DeniedByPolicy (writeRequest "work/src/main.ts" ["work/src"])
          { defaultSandbox with writableRoots := ["work/src"], permissions := { mode := .autonomous } } ∨
        Outside { defaultSandbox with writableRoots := ["work/src"], permissions := { mode := .autonomous } } "work/src/main.ts" ∨
        SpelledInside ["work/src"] "work/src/main.ts" ∧
          ∀ root ∈ ([] : List String), ¬Alongside (reach root.toList) (reach "work/src/main.ts".toList) :=
  writes_contained_iff (writeRequest "work/src/main.ts" ["work/src"]) _ _ rfl rfl rfl rfl

/-- Whoever may write below a directory may write the directory above it. -/
theorem directory_above_let_through :
    (evaluatePermission (writeRequest "work" ["work/src"])).decision = .allow ∧
      ¬Contained { defaultSandbox with writableRoots := ["work/src"], permissions := { mode := .autonomous } } "work" := by
  constructor
  · decide +kernel
  · intro contained
    have plain : '*' ∉ "work".toList := by decide
    obtain ⟨root, listed, inside⟩ := (spelledInside_plain plain).mp (contained_iff.mp contained).1
    rw [List.mem_singleton.mp listed] at inside
    obtain ⟨path, spelled, same | ⟨_, below⟩⟩ := inside
    · have other : '*' ∉ "work/src".toList := by decide
      rw [(spells_plain other).mp spelled] at same
      exact absurd same (by decide)
    · have other : '*' ∉ "work/src".toList := by decide
      rw [(spells_plain other).mp spelled] at below
      exact absurd below.length_le (by decide)

end OttiliCoder.Containment
