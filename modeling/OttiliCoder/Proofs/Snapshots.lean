import OttiliCoder.Library.Handlers
import OttiliCoder.Workspace.Git

/-! Putting an earlier snapshot in place and undoing it. Which files are spared depends on the ignore files
of the tree at hand, and restoring replaces those as well. -/

namespace OttiliCoder.Git
open Transaction

variable {Content : Type}

/-! Files. -/

namespace Files
variable {files onto : Files Content} {path : Path}

theorem has_iff : files.has path ↔ ∃ content, (path, content) ∈ files.rows := by
  simp [has, Prod.exists]

theorem mem_paths : path ∈ files.paths ↔ files.has path := by
  simp [paths, has]

theorem get_eq_none : files.get path = none ↔ files.has path = false := by
  rw [get, List.lookup_eq_none_iff, has, List.any_eq_false]
  simp only [bne_iff_ne, beq_iff_eq, ne_eq]
  constructor
  · exact fun absent row listed same => absent row listed same.symm
  · exact fun absent row listed same => absent row listed same.symm

theorem lookup_filter (rows : List (Path × Content)) (kept : Path → Bool) (path : Path) :
    (rows.filter fun row => kept row.1).lookup path = if kept path then rows.lookup path else none := by
  induction rows with
  | nil => simp
  | cons row rows ih =>
    rw [List.filter_cons, List.lookup_cons]
    by_cases same : path = row.1
    · subst same
      split
      · rw [List.lookup_cons, beq_self_eq_true]
      · next dropped => rw [ih, if_neg dropped]
    · have other : (path == row.1) = false := beq_eq_false_iff_ne.mpr same
      split
      · rw [List.lookup_cons, other, ih]
      · rw [ih, other]

theorem get_keep {kept : Path → Bool} : (files.keep kept).get path = if kept path then files.get path else none :=
  lookup_filter files.rows kept path

theorem get_overlay : (files.overlay onto).get path =
    (files.get path).or (if files.clearOf path then onto.get path else none) := by
  change (files.rows ++ (onto.keep files.clearOf).rows).lookup path = _
  rw [List.lookup_append]
  exact congrArg _ get_keep

theorem clearOf_iff : files.clearOf path ↔ ∀ other, files.has other → samePlace other.text path.text = false := by
  simp only [clearOf, List.all_eq_true, Bool.not_eq_true', Prod.forall, has_iff]
  exact ⟨fun clear other ⟨content, listed⟩ => clear other content listed, fun clear other content listed => clear other ⟨content, listed⟩⟩

/-- Nothing is at the place of a path that is not there. -/
theorem clearOf_self (here : files.has path = false) {whole : Files Content} (part : ∀ other, files.has other → whole.has other)
    (known : whole.has path) : files.clearOf path := by
  rw [clearOf_iff]
  intro other listed
  obtain ⟨content, member⟩ := has_iff.mp (part other listed)
  obtain ⟨mine, here'⟩ := has_iff.mp known
  have differ : other ≠ path := by
    rintro rfl
    rw [listed] at here
    cases here
  have texts : other.text ≠ path.text := by
    intro same
    apply differ
    cases other
    cases path
    simp only [Path.mk.injEq]
    exact same
  simp only [samePlace, Bool.or_eq_false_iff, beq_eq_false_iff_ne]
  exact ⟨⟨texts, whole.apart _ member _ here'⟩, whole.apart _ here' _ member⟩

theorem not_has_of_clearOf (clear : files.clearOf path) : files.has path = false := by
  rw [← Bool.not_eq_true]
  intro here
  have free := clearOf_iff.mp clear path here
  simp [samePlace] at free

end Files

/-! What the commands do. -/

section Commands
variable {rules : IgnoreRules Content} {repository : Repository Content} {ref : String}
  {snapshot : GitCheckpointSnapshot Content} {next : Repository Content}

theorem raise_ok {α : Type} {outcome : Except GitError α} {value : α} :
    raise outcome repository = .ok value next ↔ outcome = .ok value ∧ next = repository := by
  cases outcome with
  | ok found => simp [raise, eq_comm (a := value)]
  | error error => simp [raise]

/-- What stands in the temporary index before `git add -A`. -/
def Repository.staging (repository : Repository Content) : Files Content :=
  repository.index.getD (repository.head.elim .empty Commit.tree)

theorem tracked_staging {path : Path} (tracked : repository.tracked.has path) : repository.staging.has path := by
  unfold Repository.tracked at tracked
  unfold Repository.staging
  cases index : repository.index with
  | none =>
    rw [index] at tracked
    cases tracked
  | some files => simpa [index] using tracked

structure Captured (rules : IgnoreRules Content) (repository : Repository Content) (ref : String)
    (snapshot : GitCheckpointSnapshot Content) (next : Repository Content) : Prop where
  privateRef : assertPrivateRef ref = .ok ()
  fresh : repository.refs.lookup ref = none
  snapshotRef : snapshot.ref = ref
  tree : snapshot.commit.tree = addAll rules repository repository.staging
  index : snapshot.indexCommit.tree = repository.tracked
  parents : snapshot.commit.parents = [snapshot.baseCommit, snapshot.indexCommit]
  stored : next = { repository with refs := repository.refs ++ [(ref, snapshot.commit)] }

theorem captureWorkspaceSnapshot_ok (done : captureWorkspaceSnapshot rules ref repository = .ok snapshot next) :
    Captured rules repository ref snapshot next := by
  simp only [captureWorkspaceSnapshot, requireHeadCommit, createRef, bind_ok, raise_ok, get_ok, expect_ok, pure_ok, ite_ok,
    throw_ok, and_false, false_or, set_ok, exists_and_left, existsAndEq, true_and, and_true] at done
  obtain ⟨_, valid, head, found, absent, rfl, _, rfl⟩ := done
  constructor
  · exact valid
  · exact Option.not_isSome_iff_eq_none.mp absent
  · rfl
  · simp [Commit.tree, Repository.staging, found]
  · rfl
  · rfl
  · rfl

structure Readable (refs : List (String × Commit Content)) (ref : String) (snapshot : GitCheckpointSnapshot Content) : Prop where
  privateRef : assertPrivateRef ref = .ok ()
  snapshotRef : snapshot.ref = ref
  stored : refs.lookup ref = some snapshot.commit
  parents : ∃ more, snapshot.commit.parents = snapshot.baseCommit :: snapshot.indexCommit :: more

theorem readCheckpointSnapshot_ok :
    readCheckpointSnapshot ref repository = .ok snapshot next ↔ Readable repository.refs ref snapshot ∧ next = repository := by
  simp only [readCheckpointSnapshot, bind_ok, raise_ok, get_ok, expect_ok]
  constructor
  · rintro ⟨_, _, ⟨valid, rfl⟩, _, _, ⟨rfl, rfl⟩, commit, _, ⟨found, rfl⟩, done⟩
    cases parents : commit.parents with
    | nil =>
      rw [parents] at done
      cases done
    | cons baseCommit rest =>
      rw [parents] at done
      cases rest with
      | nil => cases done
      | cons indexCommit more =>
        obtain ⟨rfl, rfl⟩ := pure_ok.mp done
        exact ⟨⟨valid, rfl, found, more, parents⟩, rfl⟩
  · rintro ⟨readable, same⟩
    refine ⟨(), repository, ⟨readable.privateRef, rfl⟩, repository, repository, ⟨rfl, rfl⟩, snapshot.commit, repository,
      ⟨readable.stored, rfl⟩, ?_⟩
    obtain ⟨more, parents⟩ := readable.parents
    rw [parents, same, ← readable.snapshotRef]
    rfl

/-- No ignored file is in the way of a tree. -/
def Unhindered (rules : IgnoreRules Content) (repository : Repository Content) (tree : Files Content) : Prop :=
  ∀ path, repository.worktree.has path → repository.tracked.has path = false → repository.ignored rules path → tree.clearOf path

theorem stripSlash_text (path : Path) : stripSlash path.text = path.text := by
  rw [stripSlash, if_neg path.isFile]

theorem mem_lsFilesIgnored {path : Path} : path ∈ lsFilesIgnored rules repository ↔
    repository.worktree.has path ∧ repository.tracked.has path = false ∧ repository.ignored rules path := by
  rw [lsFilesIgnored, List.mem_filter, Files.mem_paths, Bool.and_eq_true, Bool.not_eq_true']

theorem no_collision_iff {tree : Files Content} :
    ((tree.paths.map (·.text)).find? fun targetPath =>
      ((lsFilesIgnored rules repository).map fun path => stripSlash path.text).any fun ignoredPath => samePlace targetPath ignoredPath) = none ↔
      Unhindered rules repository tree := by
  simp only [List.find?_eq_none, List.forall_mem_map, List.any_map, List.any_eq_true, mem_lsFilesIgnored, stripSlash_text,
    Function.comp_apply, not_exists, not_and, Bool.not_eq_true, Unhindered, Files.clearOf_iff, Files.mem_paths]
  constructor
  · exact fun free path here untracked ignored other listed => free other listed path ⟨here, untracked, ignored⟩
  · rintro free other listed path ⟨here, untracked, ignored⟩
    exact free path here untracked ignored other listed

theorem assertNoIgnoredPathCollision_of {tree : Files Content} (free : Unhindered rules repository tree) :
    assertNoIgnoredPathCollision rules tree repository = .ok () repository := by
  rw [assertNoIgnoredPathCollision, bind_get]
  rw [no_collision_iff.mpr free]
  rfl

theorem assertNoIgnoredPathCollision_refused {tree : Files Content} (hindered : ¬Unhindered rules repository tree) :
    ∃ error, assertNoIgnoredPathCollision rules tree repository = .error error repository := by
  rw [assertNoIgnoredPathCollision, bind_get]
  rw [← no_collision_iff] at hindered
  obtain ⟨collision, found⟩ := Option.ne_none_iff_exists'.mp hindered
  rw [found]
  exact ⟨_, rfl⟩

/-- The working tree with a snapshot in place: what is ignored stays where nothing is in its way. -/
def replaced (rules : IgnoreRules Content) (repository : Repository Content) (tree : Files Content) : Files Content :=
  tree.overlay (repository.worktree.keep fun path => tree.has path || repository.ignored rules path)

theorem restoreWorkspaceSnapshot_of (readable : Readable repository.refs ref snapshot)
    (free : Unhindered rules repository snapshot.commit.tree) :
    restoreWorkspaceSnapshot rules ref repository = .ok snapshot { repository with
      worktree := replaced rules repository snapshot.commit.tree
      index := some snapshot.indexCommit.tree } := by
  rw [restoreWorkspaceSnapshot, bind_returned (readCheckpointSnapshot_ok.mpr ⟨readable, rfl⟩),
    bind_returned (assertNoIgnoredPathCollision_of free)]
  rfl

theorem restoreWorkspaceSnapshot_refused (readable : Readable repository.refs ref snapshot)
    (hindered : ¬Unhindered rules repository snapshot.commit.tree) :
    ∃ error, restoreWorkspaceSnapshot rules ref repository = .error error repository := by
  obtain ⟨error, refused⟩ := assertNoIgnoredPathCollision_refused hindered
  rw [restoreWorkspaceSnapshot, bind_returned (readCheckpointSnapshot_ok.mpr ⟨readable, rfl⟩), bind_failed refused]
  exact ⟨error, rfl⟩

theorem get_replaced {tree : Files Content} {path : Path} : (replaced rules repository tree).get path =
    (tree.get path).or (if repository.ignored rules path ∧ tree.clearOf path then repository.worktree.get path else none) := by
  rw [replaced, Files.get_overlay, Files.get_keep]
  by_cases clear : tree.clearOf path
  · simp [clear, Files.not_has_of_clearOf clear]
  · simp [clear]

end Commands

/-! Undoing. -/

section Undoing
variable (rules : IgnoreRules Content) (repository : Repository Content)

/-- What a snapshot of the working tree holds: files that are tracked or not ignored. -/
def InCapture (path : Path) : Prop :=
  repository.worktree.has path ∧ (repository.staging.has path ∨ repository.ignored rules path = false)

/-- The working tree with an earlier snapshot in place. -/
def between (tree : Files Content) (path : Path) : Option Content :=
  (tree.get path).or (if repository.ignored rules path ∧ tree.clearOf path then repository.worktree.get path else none)

/-- The ignore files of the tree in between tell the same files apart as those at the start. -/
structure Recoverable (earlier : GitCheckpointSnapshot Content) : Prop where
  sparedIgnored : ∀ path, repository.worktree.has path → ¬InCapture rules repository path →
    rules (between rules repository earlier.commit.tree) path
  unhindered : ∀ path, (between rules repository earlier.commit.tree path).isSome → earlier.indexCommit.tree.has path = false →
    rules (between rules repository earlier.commit.tree) path →
      ∀ captured, InCapture rules repository captured → samePlace captured.text path.text = false
  cleared : ∀ path, earlier.commit.tree.has path → repository.worktree.has path = false →
    rules (between rules repository earlier.commit.tree) path →
      ∃ captured, InCapture rules repository captured ∧ samePlace captured.text path.text

/-- The earlier snapshot can be undone, or it is refused and nothing has to be. -/
def Undoable (earlier : GitCheckpointSnapshot Content) : Prop :=
  (Unhindered rules repository earlier.commit.tree → Recoverable rules repository earlier) ∧
    (¬Unhindered rules repository earlier.commit.tree →
      ∀ path, InCapture rules repository path → repository.tracked.has path = false → repository.ignored rules path = false)

/-- The earlier snapshot was put in place and then the one captured before: everything is as at the start,
and what neither of them holds was left alone on the way. -/
def Undone (captured : Repository Content) (earlier snapshot : GitCheckpointSnapshot Content) : Prop :=
  let middle := after (restoreWorkspaceSnapshot rules earlier.ref) captured
  ∃ back final, restoreWorkspaceSnapshot rules snapshot.ref middle = .ok back final ∧
    final.worktree.get = repository.worktree.get ∧ final.tracked.get = repository.tracked.get ∧
      ∀ path, repository.worktree.has path → earlier.commit.tree.has path = false → snapshot.commit.tree.has path = false →
        middle.worktree.get path = repository.worktree.get path ∧ final.worktree.get path = repository.worktree.get path

end Undoing

section Restoring
variable {rules : IgnoreRules Content} {repository next : Repository Content} {ref : String}
  {snapshot earlier : GitCheckpointSnapshot Content} {path : Path}

theorem Captured.get (captured : Captured rules repository ref snapshot next) (path : Path) : snapshot.commit.tree.get path =
    if repository.staging.has path || !repository.ignored rules path then repository.worktree.get path else none := by
  rw [captured.tree]
  exact Files.get_keep

theorem Captured.has_iff (captured : Captured rules repository ref snapshot next) :
    snapshot.commit.tree.has path ↔ InCapture rules repository path := by
  have none : ∀ files : Files Content, files.has path = true ↔ files.get path ≠ none := by
    intro files
    rw [ne_eq, Files.get_eq_none, Bool.not_eq_false]
  rw [none, captured.get, InCapture, none, ← Bool.not_eq_true', ← Bool.or_eq_true]
  split
  · next kept => simp [kept]
  · next dropped => simp [dropped]

theorem Captured.readable (captured : Captured rules repository ref snapshot next) : Readable next.refs ref snapshot where
  privateRef := captured.privateRef
  snapshotRef := captured.snapshotRef
  stored := by
    rw [captured.stored, List.lookup_append, captured.fresh]
    simp
  parents := ⟨[], captured.parents⟩

theorem Captured.still_readable (captured : Captured rules repository ref snapshot next) {other : String}
    (readable : Readable repository.refs other earlier) : Readable next.refs other earlier where
  privateRef := readable.privateRef
  snapshotRef := readable.snapshotRef
  stored := by
    rw [captured.stored, List.lookup_append, readable.stored]
    rfl
  parents := readable.parents

/-- A file the capture leaves out is ignored and not tracked. -/
theorem spared (here : repository.worktree.has path) (left : ¬InCapture rules repository path) :
    repository.ignored rules path ∧ repository.tracked.has path = false := by
  unfold InCapture at left
  simp only [here, true_and, not_or, Bool.not_eq_false] at left
  exact ⟨left.2, Bool.eq_false_iff.mpr fun tracked => left.1 (tracked_staging tracked)⟩

theorem Captured.clearOf_spared (captured : Captured rules repository ref snapshot next) (here : repository.worktree.has path)
    (left : ¬InCapture rules repository path) : snapshot.commit.tree.clearOf path := by
  apply Files.clearOf_self _ _ here
  · rwa [← Bool.not_eq_true, captured.has_iff]
  · exact fun other listed => (captured.has_iff.mp listed).1

/-- A file that both leave out stays in between. -/
theorem between_spared (free : Unhindered rules repository earlier.commit.tree) (here : repository.worktree.has path)
    (left : ¬InCapture rules repository path) :
    between rules repository earlier.commit.tree path = repository.worktree.get path := by
  obtain ⟨ignored, untracked⟩ := spared here left
  have clear := free path here untracked ignored
  rw [between, Files.get_eq_none.mpr (Files.not_has_of_clearOf clear), if_pos ⟨ignored, clear⟩]
  rfl

theorem between_new (absent : repository.worktree.has path = false) :
    between rules repository earlier.commit.tree path = earlier.commit.tree.get path := by
  rw [between, Files.get_eq_none.mpr absent, ite_self, Option.or_none]

/-- The tree after both, by path. -/
theorem Captured.get_back (captured : Captured rules repository ref snapshot next) {middle : Repository Content} :
    (replaced rules middle snapshot.commit.tree).get = repository.worktree.get ↔
      (∀ path, repository.worktree.has path → ¬InCapture rules repository path →
        middle.ignored rules path ∧ middle.worktree.get path = repository.worktree.get path) ∧
      ∀ path, repository.worktree.has path = false → middle.ignored rules path → snapshot.commit.tree.clearOf path →
        middle.worktree.get path = none := by
  have inside : ∀ path, InCapture rules repository path →
      (replaced rules middle snapshot.commit.tree).get path = repository.worktree.get path := by
    intro path held
    have kept : snapshot.commit.tree.get path = repository.worktree.get path := by
      rw [captured.get, if_pos]
      simpa using held.2
    obtain ⟨content, found⟩ := Option.ne_none_iff_exists'.mp (fun none => by
      rw [Files.get_eq_none, ← Bool.not_eq_true] at none
      exact none (captured.has_iff.mpr held))
    rw [get_replaced, ← kept, found]
    rfl
  have outside : ∀ path, ¬InCapture rules repository path → (replaced rules middle snapshot.commit.tree).get path =
      if middle.ignored rules path ∧ snapshot.commit.tree.clearOf path then middle.worktree.get path else none := by
    intro path left
    rw [get_replaced, Files.get_eq_none.mpr (Bool.eq_false_iff.mpr fun held => left (captured.has_iff.mp held))]
    rfl
  rw [funext_iff]
  constructor
  · intro same
    constructor
    · intro path here left
      have stays := same path
      rw [outside path left] at stays
      split at stays
      · next kept => exact ⟨kept.1, stays⟩
      · rw [eq_comm, Files.get_eq_none, here] at stays
        cases stays
    · intro path absent ignored clear
      have gone := same path
      have left : ¬InCapture rules repository path := fun held => absurd held.1 (Bool.eq_false_iff.mp absent)
      rw [outside path left, if_pos ⟨ignored, clear⟩] at gone
      rw [gone, Files.get_eq_none, absent]
  · rintro ⟨stays, gone⟩ path
    by_cases held : InCapture rules repository path
    · exact inside path held
    · rw [outside path held]
      cases here : repository.worktree.has path with
      | true =>
        obtain ⟨ignored, same⟩ := stays path here held
        rw [if_pos ⟨ignored, captured.clearOf_spared here held⟩, same]
      | false =>
        rw [Files.get_eq_none.mpr here]
        split
        · next kept => exact gone path here kept.1 kept.2
        · rfl

theorem Captured.restored_iff (captured : Captured rules repository ref snapshot next) {middle : Repository Content}
    (refs : middle.refs = next.refs) {result : Repository Content → Prop} :
    (∃ back final, restoreWorkspaceSnapshot rules snapshot.ref middle = .ok back final ∧ result final) ↔
      Unhindered rules middle snapshot.commit.tree ∧
        result { middle with
          worktree := replaced rules middle snapshot.commit.tree
          index := some snapshot.indexCommit.tree } := by
  have readable : Readable middle.refs snapshot.ref snapshot := by
    rw [refs, captured.snapshotRef]
    exact captured.readable
  by_cases free : Unhindered rules middle snapshot.commit.tree
  · rw [restoreWorkspaceSnapshot_of readable free]
    constructor
    · rintro ⟨_, _, same, holds⟩
      cases same
      exact ⟨free, holds⟩
    · rintro ⟨_, holds⟩
      exact ⟨_, _, rfl, holds⟩
  · obtain ⟨error, refused⟩ := restoreWorkspaceSnapshot_refused readable free
    rw [refused]
    constructor
    · rintro ⟨_, _, same, _⟩
      cases same
    · exact fun holds => absurd holds.1 free

theorem Captured.unhindered_start (captured : Captured rules repository ref snapshot next) :
    Unhindered rules repository snapshot.commit.tree ↔
      ∀ path, InCapture rules repository path → repository.tracked.has path = false → repository.ignored rules path = false := by
  constructor
  · intro free path held untracked
    rw [← Bool.not_eq_true]
    intro ignored
    have clear := Files.not_has_of_clearOf (free path held.1 untracked ignored)
    rw [← Bool.not_eq_true, captured.has_iff] at clear
    exact clear held
  · intro captures path here untracked ignored
    apply captured.clearOf_spared here
    intro held
    rw [captures path held untracked] at ignored
    cases ignored

/-- The undoing of a restore that went through. -/
theorem Captured.recoverable_iff (captured : Captured rules repository ref snapshot next)
    (free : Unhindered rules repository earlier.commit.tree) {middle : Repository Content}
    (worktree : middle.worktree.get = between rules repository earlier.commit.tree)
    (index : middle.tracked = earlier.indexCommit.tree) :
    (Unhindered rules middle snapshot.commit.tree ∧
        (replaced rules middle snapshot.commit.tree).get = repository.worktree.get) ↔
      Recoverable rules repository earlier := by
  have ignored : ∀ path, middle.ignored rules path = rules (between rules repository earlier.commit.tree) path := by
    intro path
    rw [Repository.ignored, worktree]
  have present : ∀ path, middle.worktree.has path ↔ (between rules repository earlier.commit.tree path).isSome := by
    intro path
    rw [← worktree, ← Option.ne_none_iff_isSome, ne_eq, Files.get_eq_none, Bool.not_eq_false]
  have clear : ∀ path, snapshot.commit.tree.clearOf path ↔
      ∀ held, InCapture rules repository held → samePlace held.text path.text = false := by
    intro path
    simp only [Files.clearOf_iff, captured.has_iff]
  rw [captured.get_back, worktree]
  simp only [Unhindered, index, ignored, present, clear]
  constructor
  · rintro ⟨unhindered, stays, gone⟩
    constructor
    · exact fun path here left => (stays path here left).1
    · exact unhindered
    · intro path there absent ignoredThere
      by_contra none
      simp only [not_exists, not_and, Bool.not_eq_true] at none
      have left := gone path absent ignoredThere none
      rw [between_new absent, Files.get_eq_none, there] at left
      cases left
  · intro recoverable
    refine ⟨recoverable.unhindered, fun path here left => ⟨recoverable.sparedIgnored path here left, between_spared free here left⟩, ?_⟩
    intro path absent ignoredThere none
    rw [between_new absent, Files.get_eq_none, ← Bool.not_eq_true]
    intro there
    obtain ⟨held, captured, same⟩ := recoverable.cleared path there absent ignoredThere
    rw [none held captured] at same
    cases same

/-- The undoing, from the repository the earlier snapshot left. -/
theorem Captured.undone_of (captured : Captured rules repository ref snapshot next) {middle : Repository Content}
    (left : after (restoreWorkspaceSnapshot rules earlier.ref) next = middle) (refs : middle.refs = next.refs)
    (stays : ∀ path, repository.worktree.has path → ¬InCapture rules repository path →
      middle.worktree.get path = repository.worktree.get path) :
    Undone rules repository next earlier snapshot ↔ Unhindered rules middle snapshot.commit.tree ∧
      (replaced rules middle snapshot.commit.tree).get = repository.worktree.get := by
  unfold Undone
  rw [left]
  refine (captured.restored_iff refs).trans ?_
  constructor
  · exact fun given => ⟨given.1, given.2.1⟩
  · rintro ⟨free, back⟩
    refine ⟨free, back, congrArg Files.get captured.index, fun path here absent left => ⟨stays path here ?_, congrFun back path⟩⟩
    rwa [← captured.has_iff, Bool.not_eq_true]

end Restoring

/-- A restore can be undone to the last file exactly when the ignore files in between tell the same files apart. -/
theorem undone_iff {rules : IgnoreRules Content} {repository next : Repository Content} {ref earlierRef : String}
    {snapshot earlier : GitCheckpointSnapshot Content}
    (known : readCheckpointSnapshot earlierRef repository = .ok earlier repository)
    (taken : captureWorkspaceSnapshot rules ref repository = .ok snapshot next) :
    Undone rules repository next earlier snapshot ↔ Undoable rules repository earlier := by
  have captured := captureWorkspaceSnapshot_ok taken
  have readable := (readCheckpointSnapshot_ok.mp known).1
  have there : Readable next.refs earlier.ref earlier := by
    rw [readable.snapshotRef]
    exact captured.still_readable readable
  have worktree : next.worktree = repository.worktree := by rw [captured.stored]
  have tracked : next.tracked = repository.tracked := by
    rw [captured.stored]
    rfl
  have ignored : next.ignored rules = repository.ignored rules := by
    funext path
    rw [Repository.ignored, worktree]
    rfl
  have hindered : ∀ tree, Unhindered rules next tree ↔ Unhindered rules repository tree := by
    intro tree
    rw [Unhindered, worktree, tracked, ignored]
    rfl
  by_cases free : Unhindered rules repository earlier.commit.tree
  · have moved := after_ok (restoreWorkspaceSnapshot_of there ((hindered _).mpr free))
    have between : (replaced rules next earlier.commit.tree).get = between rules repository earlier.commit.tree := by
      funext path
      rw [get_replaced, between, ignored, worktree]
    rw [captured.undone_of moved rfl, captured.recoverable_iff free between rfl]
    · simp only [Undoable, free, true_imp_iff, not_true_eq_false, false_imp_iff, and_true]
    · intro path here left
      exact (congrFun between path).trans (between_spared free here left)
  · obtain ⟨error, refused⟩ := restoreWorkspaceSnapshot_refused there fun unhindered => free ((hindered _).mp unhindered)
    rw [captured.undone_of (after_error refused) rfl fun _ _ _ => by rw [worktree], hindered, captured.unhindered_start]
    simp only [Undoable, free, false_imp_iff, true_and, not_false_eq_true, true_imp_iff, and_iff_left_iff_imp]
    intro captures
    rw [captured.get_back, ignored, worktree]
    constructor
    · exact fun path here left => ⟨(spared here left).1, rfl⟩
    · exact fun path absent _ _ => Files.get_eq_none.mpr absent

/-- Ignore rules of one file that lists paths, a line each. -/
def listedRules : IgnoreRules String := fun get path =>
  match get ⟨".gitignore", by decide⟩ with
  | some lines => (lines.toList.splitOn '\n').contains path.text.toList
  | none => false

def sources : Files String := ⟨[(⟨"a.ts", by decide⟩, "1")], by decide⟩

def sourcesAndCache : Files String :=
  ⟨[(⟨"a.ts", by decide⟩, "1"), (⟨".gitignore", by decide⟩, "cache"), (⟨"cache", by decide⟩, "kept")], by decide⟩

def checkpointRef : String := "refs/ottili/coder/run/checkpoint/1"

def recoveryRef : String := "refs/ottili/coder/run/recovery/1"

/-- A checkpoint was captured before there was an ignore file. -/
def beforeIgnoring : Repository String :=
  let first : Repository String := { head := some (.mk sources []), worktree := sources, index := some sources, refs := [] }
  after (captureWorkspaceSnapshot listedRules checkpointRef) first

def afterIgnoring : Repository String := { beforeIgnoring with worktree := sourcesAndCache }

def captureBack (repository : Repository String) : Repository String :=
  after (captureWorkspaceSnapshot listedRules recoveryRef) repository

def storedSnapshot (repository : Repository String) (ref : String) : GitCheckpointSnapshot String :=
  let commit := (repository.refs.lookup ref).getD (.mk .empty [])
  { ref, commit, baseCommit := commit.parents.headD (.mk .empty []), indexCommit := commit.parents.tail.headD (.mk .empty []) }

theorem undone_iff_sources :
    Undone listedRules beforeIgnoring (captureBack beforeIgnoring) (storedSnapshot beforeIgnoring checkpointRef)
        (storedSnapshot (captureBack beforeIgnoring) recoveryRef) ↔
      Undoable listedRules beforeIgnoring (storedSnapshot beforeIgnoring checkpointRef) := by
  have known : readCheckpointSnapshot checkpointRef beforeIgnoring = .ok (storedSnapshot beforeIgnoring checkpointRef) beforeIgnoring :=
    rfl
  have taken : captureWorkspaceSnapshot listedRules recoveryRef beforeIgnoring =
      .ok (storedSnapshot (captureBack beforeIgnoring) recoveryRef) (captureBack beforeIgnoring) := rfl
  exact undone_iff known taken

/-- The ignored file is cleaned away by the second restore: the ignore file comes back only after it. -/
theorem ignored_file_lost :
    ¬∀ (rules : IgnoreRules String) (repository next : Repository String) (ref earlierRef : String)
      (snapshot earlier : GitCheckpointSnapshot String),
      readCheckpointSnapshot earlierRef repository = .ok earlier repository →
        captureWorkspaceSnapshot rules ref repository = .ok snapshot next → Undone rules repository next earlier snapshot := by
  intro claim
  have known : readCheckpointSnapshot checkpointRef afterIgnoring = .ok (storedSnapshot afterIgnoring checkpointRef) afterIgnoring := rfl
  have taken : captureWorkspaceSnapshot listedRules recoveryRef afterIgnoring =
      .ok (storedSnapshot (captureBack afterIgnoring) recoveryRef) (captureBack afterIgnoring) := rfl
  obtain ⟨back, final, restored, same, _⟩ := claim _ _ _ _ _ _ _ known taken
  have lost : (after (restoreWorkspaceSnapshot listedRules recoveryRef)
      (after (restoreWorkspaceSnapshot listedRules checkpointRef) (captureBack afterIgnoring))).worktree.get ⟨"cache", by decide⟩ = none := by
    decide +kernel
  have kept : afterIgnoring.worktree.get ⟨"cache", by decide⟩ = some "kept" := by decide
  rw [← same, ← after_ok restored] at kept
  exact absurd (lost.symm.trans kept) (by simp)

end OttiliCoder.Git
