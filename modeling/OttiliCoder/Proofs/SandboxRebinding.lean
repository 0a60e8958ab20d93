import OttiliCoder.Proofs.Sandboxes

/-! A profile that is moved to another workspace: what it allows there and elsewhere, against
what it allowed before. -/

namespace OttiliCoder.Sandbox
open Host Host.Posix

section
variable (cwd : JsString)

/-- The path at the same place below another root. -/
def carried (source target path : JsString) : JsString :=
  slash :: spell (names cwd target ++ (names cwd path).drop (names cwd source).length)

/-- What is allowed after the move was allowed before, there or at the same place of the old workspace. -/
structure NeverWider (profile rebound : SandboxProfile) (next : JsString) : Prop where
  outsideWrite : ∀ path, ¬isWithin cwd path next → MayWrite cwd rebound path → MayWrite cwd profile path
  outsideRead : ∀ path, ¬isWithin cwd path next → MayRead cwd rebound path → MayRead cwd profile path
  insideWrite : ∀ path, isWithin cwd path next → MayWrite cwd rebound path →
    MayWrite cwd profile (carried cwd next profile.workspaceRoot path) ∨ MayWrite cwd profile path
  insideRead : ∀ path, isWithin cwd path next → MayRead cwd rebound path →
    MayRead cwd profile (carried cwd next profile.workspaceRoot path) ∨ MayRead cwd profile path

/-- The root lies above the workspace. -/
def Above (workspace root : JsString) : Prop := isWithin cwd workspace root ∧ ¬isWithin cwd root workspace

instance (workspace root : JsString) : Decidable (Above cwd workspace root) := inferInstanceAs (Decidable (_ ∧ _))

/-- The root is found again below an old read-only root, where it goes with it or where it comes to lie, or below
an old writable root. -/
def Guarded (profile : SandboxProfile) (next root : JsString) : Prop :=
  (∃ guard ∈ profile.filesystem.readonlyRoots, isWithin cwd guard profile.workspaceRoot ∧ isWithin cwd root guard) ∨
    (∃ guard ∈ profile.filesystem.readonlyRoots, ¬isWithin cwd guard profile.workspaceRoot ∧
      isWithin cwd (carried cwd profile.workspaceRoot next root) guard) ∨
    Beneath cwd profile.filesystem.writableRoots (carried cwd profile.workspaceRoot next root)

/-- Beneath a read-only root the workspace may not move writable roots out; otherwise, where its surroundings are
writable, it may not move read-only roots out. -/
def Rebindable (profile : SandboxProfile) (next : JsString) : Prop :=
  if ∃ root ∈ profile.filesystem.readonlyRoots, Above cwd profile.workspaceRoot root then
    profile.filesystem.allowAnyPath ∨ ∀ root ∈ profile.filesystem.writableRoots,
      isWithin cwd root profile.workspaceRoot → Guarded cwd profile next root
  else
    (¬profile.filesystem.allowAnyPath ∧ ¬∃ root ∈ profile.filesystem.writableRoots, Above cwd profile.workspaceRoot root) ∨
      ∀ root ∈ profile.filesystem.readonlyRoots, isWithin cwd root profile.workspaceRoot → isWithin cwd root next

instance (profile : SandboxProfile) (next root : JsString) : Decidable (Guarded cwd profile next root) :=
  inferInstanceAs (Decidable (_ ∨ _ ∨ _))

instance (profile : SandboxProfile) (next : JsString) : Decidable (Rebindable cwd profile next) := by
  unfold Rebindable
  infer_instance

end

section
variable {cwd source target path root : JsString}

/-! Moved roots. -/

theorem names_carried : names cwd (carried cwd source target path) =
    names cwd target ++ (names cwd path).drop (names cwd source).length := by
  apply names_spelled
  intro name listed
  rcases List.mem_append.mp listed with above | below
  · exact isName_of_mem_names above
  · exact isName_of_mem_names (List.mem_of_mem_drop below)

theorem names_inside (inside : isWithin cwd path source) :
    names cwd path = names cwd source ++ (names cwd path).drop (names cwd source).length := by
  obtain ⟨rest, same⟩ := isWithin_iff.mp inside
  rw [← same, List.drop_left]

/-- Where a root of the workspace goes, and that no other root moves. -/
theorem names_rebase (absolute : isAbsolute target = true) : names cwd (rebase cwd source target root) =
    if isWithin cwd root source then names cwd (carried cwd source target root) else names cwd root := by
  unfold rebase
  by_cases inside : isWithin cwd root source = true
  · have spelled := relative_below (names_inside inside)
    have known : ∀ name ∈ (names cwd root).drop (names cwd source).length, Posix.IsName name :=
      fun name listed => isName_of_mem_names (List.mem_of_mem_drop listed)
    rw [if_pos inside, names_carried]
    simp only [inside, Bool.not_true, Bool.false_eq_true, if_false]
    have entered : names target (relative cwd source root) = names cwd target ++ (names cwd root).drop (names cwd source).length := by
      rw [spelled]
      exact names_below absolute known
    split
    next empty =>
      rw [List.length_eq_zero_iff.mp empty, names, if_neg (by decide)] at entered
      rw [← entered, names, if_pos absolute]
      rfl
    next =>
      rw [resolve, entered]
      exact names_carried
  · rw [if_neg inside]
    simp [inside]

/-- Only roots that do not move lie above a path outside the new workspace. -/
theorem within_rebase_outside {next : JsString} (outside : ¬isWithin cwd path next) :
    isWithin cwd path (rebase cwd source (resolve cwd next) root) ↔ ¬isWithin cwd root source ∧ isWithin cwd path root := by
  rw [isWithin_iff, names_rebase (isAbsolute_resolve cwd next)]
  split
  next inside =>
    simp only [inside, not_true_eq_false, false_and, iff_false]
    intro below
    apply outside
    rw [isWithin_iff]
    rw [names_carried, names_resolve] at below
    exact (List.prefix_append _ _).trans below
  next other => simp [other, isWithin_iff]

/-- A root that moves lies above a path of the new workspace as it lay above the same place of the old one. -/
theorem within_rebase_inside {next : JsString} (inside : isWithin cwd path next) :
    isWithin cwd path (rebase cwd source (resolve cwd next) root) ↔
      if isWithin cwd root source then isWithin cwd (carried cwd next source path) root else isWithin cwd path root := by
  rw [isWithin_iff, names_rebase (isAbsolute_resolve cwd next)]
  split
  next moves =>
    rw [isWithin_iff, names_carried, names_carried, names_resolve]
    conv_lhs => rw [names_inside inside]
    conv_rhs => rw [names_inside moves]
    rw [List.prefix_append_right_inj, List.prefix_append_right_inj]
  next stays => rw [isWithin_iff]

/-- A root above a path of the workspace that does not move lies above the workspace. -/
theorem above_of_covers {workspace : JsString} (inside : isWithin cwd path workspace) (covers : isWithin cwd path root)
    (stays : ¬isWithin cwd root workspace) : Above cwd workspace root := by
  rcases isWithin_total inside covers with above | below
  · exact ⟨above, stays⟩
  · exact absurd below stays

end

/-! A rebound profile. -/

section
variable {cwd next path : JsString} {profile rebound : SandboxProfile}

/-- A root of the profile where it comes to lie. -/
def moved (cwd : JsString) (profile : SandboxProfile) (next root : JsString) : JsString :=
  rebase cwd (resolve cwd profile.workspaceRoot) (resolve cwd next) root

theorem moved_outside {root : JsString} (outside : ¬isWithin cwd path next) :
    isWithin cwd path (moved cwd profile next root) ↔ ¬isWithin cwd root profile.workspaceRoot ∧ isWithin cwd path root := by
  rw [moved, within_rebase_outside outside, isWithin_resolve]

theorem moved_inside {root : JsString} (inside : isWithin cwd path next) : isWithin cwd path (moved cwd profile next root) ↔
    if isWithin cwd root profile.workspaceRoot then isWithin cwd (carried cwd next profile.workspaceRoot path) root
    else isWithin cwd path root := by
  have same : carried cwd next (resolve cwd profile.workspaceRoot) path = carried cwd next profile.workspaceRoot path := by
    rw [carried, carried, names_resolve]
  rw [moved, within_rebase_inside inside, same]
  simp only [isWithin_resolve]

theorem beneath_moved {roots : List JsString} :
    Beneath cwd (normalizePathList cwd ((normalizePathList cwd roots).map (moved cwd profile next))) path ↔
      ∃ root ∈ roots, isWithin cwd path (moved cwd profile next root) := by
  have again : ∀ root, isWithin cwd path (moved cwd profile next (resolve cwd root)) = isWithin cwd path (moved cwd profile next root) := by
    intro root
    rw [Bool.eq_iff_iff]
    by_cases inside : isWithin cwd path next
    · rw [moved_inside inside, moved_inside inside]
      simp only [isWithin_iff, names_resolve]
      split <;> exact isWithin_resolve
    · rw [moved_outside inside, moved_outside inside]
      simp only [isWithin_iff, names_resolve]
  rw [beneath_normalizePathList]
  unfold Beneath normalizePathList
  simp only [List.mem_map, mem_sortedSet, exists_exists_and_eq_and, again]

theorem rebind_ok (done : rebindSandboxProfile cwd profile next = .ok rebound) :
    rebound.filesystem = {
      allowAnyPath := profile.filesystem.allowAnyPath
      writableRoots := normalizePathList cwd ((normalizePathList cwd profile.filesystem.writableRoots).map (moved cwd profile next))
      readonlyRoots := normalizePathList cwd ((normalizePathList cwd profile.filesystem.readonlyRoots).map (moved cwd profile next)) } := by
  unfold rebindSandboxProfile at done
  cases before : normalizeProfile cwd profile with
  | error e =>
    rw [before] at done
    cases done
  | ok normal =>
    rw [before] at done
    rw [normalizeProfile_ok done, normalizeProfile_ok before]
    rfl

theorem write_moved (done : rebindSandboxProfile cwd profile next = .ok rebound) : MayWrite cwd rebound path ↔
    (profile.filesystem.allowAnyPath ∨ ∃ root ∈ profile.filesystem.writableRoots, isWithin cwd path (moved cwd profile next root)) ∧
      ¬∃ root ∈ profile.filesystem.readonlyRoots, isWithin cwd path (moved cwd profile next root) := by
  rw [MayWrite, rebind_ok done, beneath_moved, beneath_moved]

theorem read_moved (done : rebindSandboxProfile cwd profile next = .ok rebound) : MayRead cwd rebound path ↔
    profile.filesystem.allowAnyPath ∨ (∃ root ∈ profile.filesystem.writableRoots, isWithin cwd path (moved cwd profile next root)) ∨
      ∃ root ∈ profile.filesystem.readonlyRoots, isWithin cwd path (moved cwd profile next root) := by
  rw [MayRead, rebind_ok done, beneath_moved, beneath_moved]

/-! Reading. -/

theorem read_outside (done : rebindSandboxProfile cwd profile next = .ok rebound) (outside : ¬isWithin cwd path next)
    (allowed : MayRead cwd rebound path) : MayRead cwd profile path := by
  rw [read_moved done] at allowed
  simp only [moved_outside outside] at allowed
  rcases allowed with any | ⟨root, listed, -, covers⟩ | ⟨root, listed, -, covers⟩
  · exact .inl any
  · exact .inr (.inl ⟨root, listed, covers⟩)
  · exact .inr (.inr ⟨root, listed, covers⟩)

theorem read_inside (done : rebindSandboxProfile cwd profile next = .ok rebound) (inside : isWithin cwd path next)
    (allowed : MayRead cwd rebound path) :
    MayRead cwd profile (carried cwd next profile.workspaceRoot path) ∨ MayRead cwd profile path := by
  rw [read_moved done] at allowed
  simp only [moved_inside inside] at allowed
  rcases allowed with any | ⟨root, listed, covers⟩ | ⟨root, listed, covers⟩
  · exact .inl (.inl any)
  · split at covers
    · exact .inl (.inr (.inl ⟨root, listed, covers⟩))
    · exact .inr (.inr (.inl ⟨root, listed, covers⟩))
  · split at covers
    · exact .inl (.inr (.inr ⟨root, listed, covers⟩))
    · exact .inr (.inr (.inr ⟨root, listed, covers⟩))

/-! Writing outside the new workspace. -/

/-- Some root of a list lies above the workspace. -/
def Surrounds (cwd : JsString) (profile : SandboxProfile) (roots : List JsString) : Prop :=
  ∃ root ∈ roots, Above cwd profile.workspaceRoot root

theorem Surrounds.covers {roots : List JsString} (surrounds : Surrounds cwd profile roots) (inside : isWithin cwd path profile.workspaceRoot) :
    ∃ root ∈ roots, ¬isWithin cwd root profile.workspaceRoot ∧ isWithin cwd path root := by
  obtain ⟨root, listed, above, stays⟩ := surrounds
  exact ⟨root, listed, stays, isWithin_trans inside above⟩

theorem write_outside_iff (done : rebindSandboxProfile cwd profile next = .ok rebound) :
    (∀ path, ¬isWithin cwd path next → MayWrite cwd rebound path → MayWrite cwd profile path) ↔
      Surrounds cwd profile profile.filesystem.readonlyRoots ∨
        (¬profile.filesystem.allowAnyPath ∧ ¬Surrounds cwd profile profile.filesystem.writableRoots) ∨
        ∀ root ∈ profile.filesystem.readonlyRoots, isWithin cwd root profile.workspaceRoot → isWithin cwd root next := by
  constructor
  · intro narrower
    by_contra open_
    rw [not_or, not_or, not_and_or, not_not, not_not] at open_
    obtain ⟨unguarded, broad, left⟩ := open_
    push Not at left
    obtain ⟨root, listed, inside, outside⟩ := left
    have allowed : MayWrite cwd rebound root := by
      rw [write_moved done]
      simp only [moved_outside outside]
      refine ⟨broad.imp_right fun surrounds => surrounds.covers inside, ?_⟩
      rintro ⟨guard, guarding, stays, covers⟩
      exact unguarded ⟨guard, guarding, above_of_covers inside covers stays⟩
    exact (narrower root outside allowed).2 ⟨root, listed, isWithin_refl root⟩
  · intro closed path outside allowed
    rw [write_moved done] at allowed
    simp only [moved_outside outside] at allowed
    obtain ⟨broad, free⟩ := allowed
    refine ⟨broad.imp_right fun ⟨root, listed, _, covers⟩ => ⟨root, listed, covers⟩, ?_⟩
    rintro ⟨root, listed, covers⟩
    by_cases inside : isWithin cwd root profile.workspaceRoot
    · have within := isWithin_trans covers inside
      rcases closed with guarded | ⟨narrow, alone⟩ | along
      · exact free (guarded.covers within)
      · rcases broad with any | ⟨writable, given, stays, above⟩
        · exact narrow any
        · exact alone ⟨writable, given, above_of_covers within above stays⟩
      · exact outside (isWithin_trans covers (along root listed inside))
    · exact free ⟨root, listed, inside, covers⟩

/-! Writing inside the new workspace. -/

/-- What may be written inside after the move lies below no read-only root, as it lay in the old workspace or where it lies. -/
structure Free (cwd : JsString) (profile : SandboxProfile) (next path : JsString) : Prop where
  carries : ∀ root ∈ profile.filesystem.readonlyRoots, isWithin cwd root profile.workspaceRoot →
    ¬isWithin cwd (carried cwd next profile.workspaceRoot path) root
  stays : ∀ root ∈ profile.filesystem.readonlyRoots, ¬isWithin cwd root profile.workspaceRoot → ¬isWithin cwd path root

theorem free_iff (inside : isWithin cwd path next) : Free cwd profile next path ↔
    ¬∃ root ∈ profile.filesystem.readonlyRoots, isWithin cwd path (moved cwd profile next root) := by
  simp only [moved_inside inside]
  constructor
  · rintro free ⟨root, listed, covers⟩
    split at covers
    next moves => exact free.carries root listed moves covers
    next rests => exact free.stays root listed rests covers
  · intro none
    refine ⟨fun root listed moves covers => none ⟨root, listed, ?_⟩, fun root listed rests covers => none ⟨root, listed, ?_⟩⟩
    · rwa [if_pos moves]
    · rwa [if_neg rests]

theorem carried_within {source target : JsString} : isWithin cwd (carried cwd source target path) target := by
  rw [isWithin_iff, names_carried]
  exact List.prefix_append _ _

theorem within_carried {source target root : JsString} (inside : isWithin cwd path target) (moves : isWithin cwd root source) :
    isWithin cwd path (carried cwd source target root) ↔ isWithin cwd (carried cwd target source path) root := by
  rw [isWithin_iff, isWithin_iff, names_carried, names_carried]
  conv_lhs => rw [names_inside inside]
  conv_rhs => rw [names_inside moves]
  rw [List.prefix_append_right_inj, List.prefix_append_right_inj]

/-- Where read-only roots lie above the old workspace, what is free lies below none where it is. -/
theorem Free.unguarded (free : Free cwd profile next path) (surrounds : Surrounds cwd profile profile.filesystem.readonlyRoots) :
    ¬Beneath cwd profile.filesystem.readonlyRoots path := by
  rintro ⟨root, listed, covers⟩
  by_cases moves : isWithin cwd root profile.workspaceRoot
  · obtain ⟨guard, guarding, rests, above⟩ := surrounds.covers (isWithin_trans covers moves)
    exact free.stays guard guarding rests above
  · exact free.stays root listed moves covers

/-- Where none do, what is free lay below none in the old workspace. -/
theorem Free.carried (free : Free cwd profile next path) (alone : ¬Surrounds cwd profile profile.filesystem.readonlyRoots) :
    ¬Beneath cwd profile.filesystem.readonlyRoots (carried cwd next profile.workspaceRoot path) := by
  rintro ⟨root, listed, covers⟩
  by_cases moves : isWithin cwd root profile.workspaceRoot
  · exact free.carries root listed moves covers
  · exact alone ⟨root, listed, above_of_covers carried_within covers moves⟩

theorem write_inside_alone (done : rebindSandboxProfile cwd profile next = .ok rebound)
    (alone : ¬Surrounds cwd profile profile.filesystem.readonlyRoots) (inside : isWithin cwd path next)
    (allowed : MayWrite cwd rebound path) :
    MayWrite cwd profile (carried cwd next profile.workspaceRoot path) ∨ MayWrite cwd profile path := by
  obtain ⟨broad, free⟩ := (write_moved done).mp allowed
  have free := (free_iff inside).mpr free
  have kept := free.carried alone
  simp only [moved_inside inside] at broad
  rcases broad with any | ⟨writable, given, covers⟩
  · exact .inl ⟨.inl any, kept⟩
  · split at covers
    next moves => exact .inl ⟨.inr ⟨writable, given, covers⟩, kept⟩
    next rests =>
      by_cases guarded : Beneath cwd profile.filesystem.readonlyRoots path
      · obtain ⟨root, listed, below⟩ := guarded
        have moves : isWithin cwd root profile.workspaceRoot := by
          by_contra stays
          exact free.stays root listed stays below
        have above := above_of_covers (isWithin_trans below moves) covers rests
        exact .inl ⟨.inr ⟨writable, given, isWithin_trans carried_within above.1⟩, kept⟩
      · exact .inr ⟨.inr ⟨writable, given, covers⟩, guarded⟩

theorem write_inside_surrounded (done : rebindSandboxProfile cwd profile next = .ok rebound)
    (surrounds : Surrounds cwd profile profile.filesystem.readonlyRoots) :
    (∀ path, isWithin cwd path next → MayWrite cwd rebound path →
      MayWrite cwd profile (carried cwd next profile.workspaceRoot path) ∨ MayWrite cwd profile path) ↔
      profile.filesystem.allowAnyPath ∨ ∀ root ∈ profile.filesystem.writableRoots,
        isWithin cwd root profile.workspaceRoot → Guarded cwd profile next root := by
  constructor
  · intro narrower
    by_contra open_
    rw [not_or] at open_
    obtain ⟨narrow, left⟩ := open_
    push Not at left
    obtain ⟨root, listed, moves, unguarded⟩ := left
    rw [Guarded, not_or, not_or] at unguarded
    obtain ⟨along, there, beneath⟩ := unguarded
    have inside : isWithin cwd (carried cwd profile.workspaceRoot next root) next := carried_within
    have back : ∀ {other}, isWithin cwd (carried cwd next profile.workspaceRoot (carried cwd profile.workspaceRoot next root)) other ↔
        isWithin cwd root other := by
      intro other
      rw [isWithin_iff, isWithin_iff, names_carried, names_carried, List.drop_left, ← names_inside moves]
    have allowed : MayWrite cwd rebound (carried cwd profile.workspaceRoot next root) := by
      rw [write_moved done, ← free_iff inside]
      refine ⟨.inr ⟨root, listed, ?_⟩, ⟨?_, ?_⟩⟩
      · rw [moved_inside inside, if_pos moves, back]
        exact isWithin_refl root
      · exact fun guard guarding within covers => along ⟨guard, guarding, within, back.mp covers⟩
      · exact fun guard guarding rests covers => there ⟨guard, guarding, rests, covers⟩
    rcases narrower _ inside allowed with before | before
    · obtain ⟨guard, guarding, -, above⟩ := surrounds.covers moves
      exact before.2 ⟨guard, guarding, back.mpr above⟩
    · exact before.1.elim narrow beneath
  · intro closed path inside allowed
    obtain ⟨broad, free⟩ := (write_moved done).mp allowed
    have free := (free_iff inside).mpr free
    have unguarded := free.unguarded surrounds
    refine .inr ⟨?_, unguarded⟩
    rcases broad with any | ⟨writable, given, covers⟩
    · exact .inl any
    · rw [moved_inside inside] at covers
      split at covers
      next moves =>
        rcases closed with any | guarded
        · exact .inl any
        · have below := (within_carried inside moves).mpr covers
          rcases guarded writable given moves with ⟨guard, guarding, within, above⟩ | ⟨guard, guarding, rests, above⟩ | beneath
          · exact absurd (isWithin_trans covers above) (free.carries guard guarding within)
          · exact absurd (isWithin_trans below above) (free.stays guard guarding rests)
          · exact .inr (beneath.deeper below)
      next rests => exact .inr ⟨writable, given, covers⟩

end

/-- Rebinding widens a profile in no way exactly when the workspace moves no root out of what limits it. -/
theorem rebind_never_wider_iff (cwd next : JsString) (profile rebound : SandboxProfile)
    (done : rebindSandboxProfile cwd profile next = .ok rebound) :
    NeverWider cwd profile rebound next ↔ Rebindable cwd profile next := by
  constructor
  · intro narrower
    unfold Rebindable
    split
    next surrounds => exact (write_inside_surrounded done surrounds).mp narrower.insideWrite
    next alone => exact ((write_outside_iff done).mp narrower.outsideWrite).resolve_left alone
  · intro allowed
    unfold Rebindable at allowed
    split at allowed
    next surrounds => exact {
      outsideWrite := (write_outside_iff done).mpr (.inl surrounds)
      outsideRead := fun _ => read_outside done
      insideWrite := (write_inside_surrounded done surrounds).mpr allowed
      insideRead := fun _ => read_inside done }
    next alone => exact {
      outsideWrite := (write_outside_iff done).mpr (.inr allowed)
      outsideRead := fun _ => read_outside done
      insideWrite := fun _ => write_inside_alone done alone
      insideRead := fun _ => read_inside done }

theorem rebind_never_wider_iff_guarded : NeverWider (units "/") (guardedProfile [units "/w/s"])
    { guardedProfile [units "/n/s"] with workspaceRoot := units "/n", filesystem := ⟨false, [units "/n"], [units "/n/s"]⟩ } (units "/n") :=
  (rebind_never_wider_iff (units "/") (units "/n") (guardedProfile [units "/w/s"]) _ (by decide)).mpr (by decide)

/-- A worktree of a writable repository, with a read-only directory. -/
def worktreeProfile : SandboxProfile :=
  { guardedProfile [units "/r/w/s"] with workspaceRoot := units "/r/w", filesystem := ⟨false, [units "/r"], [units "/r/w/s"]⟩ }

/-- The read-only directory of the worktree moves away with it, and what is left may be written. -/
theorem readonly_root_moved_away : ¬∀ cwd next profile rebound, rebindSandboxProfile cwd profile next = .ok rebound →
    NeverWider cwd profile rebound next := by
  intro narrower
  have rebound := narrower (units "/") (units "/r/n") worktreeProfile
    { worktreeProfile with workspaceRoot := units "/r/n", filesystem := ⟨false, [units "/r"], [units "/r/n/s"]⟩ } (by decide)
  have wrote : MayWrite (units "/") worktreeProfile (units "/r/w/s") := by
    apply rebound.outsideWrite
    · decide
    · exact ⟨.inr ⟨units "/r", by decide, by decide⟩, by decide⟩
  exact wrote.2 ⟨units "/r/w/s", by decide, by decide⟩

end OttiliCoder.Sandbox
