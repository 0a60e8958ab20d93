import OttiliCoder.Library.Handlers
import OttiliCoder.Proofs.Budget
import OttiliCoder.Recovery.Checkpoint

/-! A checkpoint restore is a transaction: its outcome says what the workspace, the durable state and the
runtimes have become, whichever hooks are given and whichever of them throw. -/

namespace OttiliCoder.Recovery
open Transaction Results

section Laws
variable {TState Workspace RunState Captured TRuntime : Type}

/-- A restore that does not throw installs the snapshot. -/
def Installs (git : GitService Workspace) (contents : GitCheckpointSnapshot → Workspace) : Prop :=
  ∀ snapshot workspace installed, git.restoreWorkspaceSnapshot snapshot workspace = (.ok (), installed) → installed = contents snapshot

variable (git : GitService Workspace) (lifecycle : RestoreLifecycle TState RunState Captured TRuntime)
variable (before after : World Workspace RunState TRuntime)

structure Untouched : Prop where
  workspace : after.workspace = before.workspace
  runState : after.runState = before.runState
  runtimes : after.runtimes = before.runtimes

/-- The snapshot is the backup of the workspace as it was. -/
def BackedUp (snapshot : GitCheckpointSnapshot) : Prop :=
  ∃ ref message, git.captureWorkspaceSnapshot ref message before.workspace = .ok snapshot

/-- Every hook that is given succeeded, in the state the one before it left. -/
structure EveryStepSucceeded (checkpoint : CheckpointRecord TState) (runtime : Option TRuntime) : Prop where
  captured : ∀ capture, lifecycle.capturePreRestoreState = some capture → ∃ state, capture before.runState = .ok state
  workspace : git.restoreWorkspaceSnapshot checkpoint.gitSnapshot before.workspace = (.ok (), after.workspace)
  runState : match lifecycle.restoreRunState with
    | some restoreRunState => restoreRunState checkpoint.state checkpoint before.runState = (.ok (), after.runState)
    | none => after.runState = before.runState
  resumed : match lifecycle.createResumedRuntime with
    | some create => create checkpoint after.runState = .ok runtime
    | none => runtime = none
  runtimes : after.runtimes = runtime.toList ++ before.runtimes
  validated : ∀ validate, lifecycle.validateRestoredState = some validate → validate runtime checkpoint after.runState = .ok ()

/-- The durable state was never touched, or a hook restored it from what was captured at the start. -/
def StateRolledBack : Prop :=
  after.runState = before.runState ∨
    ∃ capture captured restorePreRestoreState state, lifecycle.capturePreRestoreState = some capture ∧
      capture before.runState = .ok captured ∧ lifecycle.restorePreRestoreState = some restorePreRestoreState ∧
        restorePreRestoreState captured state = (.ok (), after.runState)

/-- What a rollback reports as done is done, and something that is not done is reported with an error. -/
structure Truthful (contents : GitCheckpointSnapshot → Workspace) (snapshot : GitCheckpointSnapshot) (report : RollbackReport) :
    Prop where
  workspace : report.workspaceRestored → after.workspace = contents snapshot
  runState : report.runStateRestored → StateRolledBack lifecycle before after
  runtimes : report.resumedRuntimeDisposed → after.runtimes = before.runtimes
  errors : (report.workspaceRestored && report.runStateRestored && report.resumedRuntimeDisposed) = false → report.errors ≠ []

/-- What the outcome of a restore says about the world after it. -/
def Lawful (contents : GitCheckpointSnapshot → Workspace) : Except Escaped (TransactionalRestoreResult TState TRuntime) → Prop
  | .ok (.restored checkpoint snapshot runtime) =>
    BackedUp git before snapshot ∧ EveryStepSucceeded git lifecycle before after checkpoint runtime
  | .ok (.preparation_failed _ _) => Untouched before after
  | .ok (.rolled_back _ snapshot _ _) =>
    BackedUp git before snapshot ∧ after.workspace = contents snapshot ∧ StateRolledBack lifecycle before after ∧
      after.runtimes = before.runtimes
  | .ok (.rollback_failed _ snapshot _ report) =>
    BackedUp git before snapshot ∧ Truthful lifecycle before after contents snapshot report ∧ report.errors ≠ []
  | .error _ => Untouched before after

end Laws

section Restoring
variable {TState Workspace RunState Captured TRuntime : Type}
variable {git : GitService Workspace} {lifecycle : RestoreLifecycle TState RunState Captured TRuntime}
variable {before : World Workspace RunState TRuntime} {checkpoint : CheckpointRecord TState}

/-! Going forward. -/

/-- What holds at any point of a restore, also where it fails. -/
structure Going (before : World Workspace RunState TRuntime) (restoring : Restoring Workspace RunState TRuntime) : Prop where
  runtimes : restoring.runtimes = restoring.runtime.toList ++ before.runtimes
  untouched : restoring.runStateRestoreAttempted = false → restoring.runState = before.runState

/-- After the workspace and, with `attempted` hooks, the durable state. -/
structure Placed (git : GitService Workspace) (before : World Workspace RunState TRuntime) (checkpoint : CheckpointRecord TState)
    (restoring : Restoring Workspace RunState TRuntime) : Prop where
  workspace : git.restoreWorkspaceSnapshot checkpoint.gitSnapshot before.workspace = (.ok (), restoring.workspace)
  runtime : restoring.runtime = none
  runtimes : restoring.runtimes = before.runtimes

theorem installSnapshot_ends : Ends (installSnapshot git checkpoint.gitSnapshot) { toWorld := before }
    (fun _ restoring => Placed git before checkpoint restoring ∧ restoring.runState = before.runState)
    (fun _ restoring => Going before restoring) := by
  unfold Ends installSnapshot
  rw [bind_get]
  rcases outcome : git.restoreWorkspaceSnapshot checkpoint.gitSnapshot before.workspace with ⟨result, workspace⟩
  cases result with
  | ok => exact ⟨⟨outcome, rfl, rfl⟩, rfl⟩
  | error error => exact ⟨rfl, fun _ => rfl⟩

/-- The durable state as the hook left it, or as it was when there is none. -/
def StateRestored (lifecycle : RestoreLifecycle TState RunState Captured TRuntime) (before : World Workspace RunState TRuntime)
    (checkpoint : CheckpointRecord TState) (runState : RunState) : Prop :=
  match lifecycle.restoreRunState with
  | some restoreRunState => restoreRunState checkpoint.state checkpoint before.runState = (.ok (), runState)
  | none => runState = before.runState

theorem restoreState_ends {restoring : Restoring Workspace RunState TRuntime} (placed : Placed git before checkpoint restoring)
    (same : restoring.runState = before.runState) :
    Ends (restoreState lifecycle checkpoint) restoring
      (fun _ restoring => Placed git before checkpoint restoring ∧ StateRestored lifecycle before checkpoint restoring.runState ∧
        (restoring.runStateRestoreAttempted = false → restoring.runState = before.runState))
      (fun _ restoring => Going before restoring) := by
  apply Ends.given
  · intro absent
    refine ⟨placed, ?_, fun _ => same⟩
    rw [StateRestored, absent]
    exact same
  · intro restoreRunState given
    unfold Ends
    rw [bind_get]
    rcases outcome : restoreRunState checkpoint.state checkpoint restoring.runState with ⟨result, runState⟩
    cases result with
    | ok =>
      refine ⟨⟨placed.workspace, placed.runtime, placed.runtimes⟩, ?_, fun untouched => (by cases untouched)⟩
      rw [StateRestored, given, ← same]
      exact outcome
    | error error =>
      have none : restoring.runtimes = restoring.runtime.toList ++ before.runtimes := by
        rw [placed.runtime, placed.runtimes]
        rfl
      exact ⟨none, fun untouched => (by cases untouched)⟩

/-- The runtime the hook built, or none when there is no hook. -/
def Resumed (lifecycle : RestoreLifecycle TState RunState Captured TRuntime) (checkpoint : CheckpointRecord TState)
    (runState : RunState) (runtime : Option TRuntime) : Prop :=
  match lifecycle.createResumedRuntime with
  | some create => create checkpoint runState = .ok runtime
  | none => runtime = none

theorem resumeRuntime_ends {restoring : Restoring Workspace RunState TRuntime} (placed : Placed git before checkpoint restoring)
    (untouched : restoring.runStateRestoreAttempted = false → restoring.runState = before.runState) :
    Ends (resumeRuntime lifecycle checkpoint) restoring
      (fun _ after => after.workspace = restoring.workspace ∧ after.runState = restoring.runState ∧
        Resumed lifecycle checkpoint restoring.runState after.runtime ∧ Going before after)
      (fun _ after => Going before after) := by
  have going : Going before restoring := by
    refine ⟨?_, untouched⟩
    rw [placed.runtime, placed.runtimes]
    rfl
  apply Ends.given
  · intro absent
    refine ⟨rfl, rfl, ?_, going⟩
    rw [Resumed, absent]
    exact placed.runtime
  · intro create given
    unfold Ends
    rw [bind_get]
    cases outcome : create checkpoint restoring.runState with
    | ok runtime =>
      rw [raise]
      refine ⟨rfl, rfl, ?_, ?_, untouched⟩
      · rw [Resumed, given]
        exact outcome
      · exact congrArg _ placed.runtimes
    | error error => exact going

theorem validateState_ends {restoring : Restoring Workspace RunState TRuntime} (going : Going before restoring) :
    Ends (validateState lifecycle checkpoint) restoring
      (fun _ after => after = restoring ∧ ∀ validate, lifecycle.validateRestoredState = some validate →
        validate restoring.runtime checkpoint restoring.runState = .ok ())
      (fun _ after => Going before after) := by
  apply Ends.given
  · intro absent
    refine ⟨rfl, fun validate given => ?_⟩
    rw [absent] at given
    cases given
  · intro validate given
    unfold Ends
    rw [bind_get]
    cases outcome : validate restoring.runtime checkpoint restoring.runState with
    | ok =>
      refine ⟨rfl, fun other same => ?_⟩
      rw [given] at same
      cases same
      exact outcome
    | error error => exact going

theorem restorePhases_ends (captured : ∀ capture, lifecycle.capturePreRestoreState = some capture →
      ∃ state, capture before.runState = .ok state) :
    Ends (restorePhases git lifecycle checkpoint) { toWorld := before }
      (fun _ restoring => EveryStepSucceeded git lifecycle before restoring.toWorld checkpoint restoring.runtime)
      (fun _ restoring => Going before restoring) := by
  apply installSnapshot_ends.bind
  rintro _ installed ⟨placed, same⟩
  apply (restoreState_ends placed same).bind
  rintro _ restored ⟨placed, state, untouched⟩
  apply (resumeRuntime_ends placed untouched).bind
  rintro _ resumed ⟨workspace, runState, runtime, going⟩
  have validated : Ends (validateState lifecycle checkpoint) resumed _ _ := validateState_ends going
  unfold Ends at validated ⊢
  cases outcome : validateState lifecycle checkpoint resumed with
  | ok _ final =>
    rw [outcome] at validated
    obtain ⟨rfl, validated⟩ := validated
    constructor
    · exact captured
    · rw [workspace]
      exact placed.workspace
    · rw [runState]
      exact state
    · rw [runState]
      exact runtime
    · exact going.runtimes
    · exact validated
  | error error final =>
    rw [outcome] at validated
    exact validated

/-! Rolling back. -/

theorem disposeRuntime_done [DecidableEq TRuntime] {restoring : Restoring Workspace RunState TRuntime} (going : Going before restoring)
    {step : RollbackStep Workspace RunState TRuntime} (taken : disposeRuntime lifecycle restoring.runtime restoring.toWorld = step) :
    step.world.workspace = restoring.workspace ∧ step.world.runState = restoring.runState ∧
      (step.done → step.world.runtimes = before.runtimes) ∧ (step.done = false → step.errors ≠ []) := by
  have runtimes := going.runtimes
  subst taken
  unfold disposeRuntime
  cases built : restoring.runtime with
  | none =>
    rw [built] at runtimes
    exact ⟨rfl, rfl, fun _ => runtimes, fun undone => (by cases undone)⟩
  | some runtime =>
    rw [built] at runtimes
    dsimp only
    cases lifecycle.disposeResumedRuntime with
    | none => exact ⟨rfl, rfl, fun done => (by cases done), fun _ => by simp⟩
    | some dispose =>
      dsimp only
      cases dispose runtime with
      | error error => exact ⟨rfl, rfl, fun done => (by cases done), fun _ => by simp⟩
      | ok =>
        refine ⟨rfl, rfl, fun _ => ?_, fun undone => (by cases undone)⟩
        change restoring.runtimes.erase runtime = before.runtimes
        rw [runtimes]
        simp

theorem rollWorkspaceBack_done {contents : GitCheckpointSnapshot → Workspace} (installs : Installs git contents)
    {snapshot : GitCheckpointSnapshot} {world : World Workspace RunState TRuntime} {step : RollbackStep Workspace RunState TRuntime}
    (taken : rollWorkspaceBack git snapshot world = step) :
    step.world.runState = world.runState ∧ step.world.runtimes = world.runtimes ∧
      (step.done → step.world.workspace = contents snapshot) ∧ (step.done = false → step.errors ≠ []) := by
  subst taken
  unfold rollWorkspaceBack
  rcases outcome : git.restoreWorkspaceSnapshot snapshot world.workspace with ⟨result, workspace⟩
  cases result with
  | error error => exact ⟨rfl, rfl, fun done => (by cases done), fun _ => by simp⟩
  | ok => exact ⟨rfl, rfl, fun _ => installs _ _ _ outcome, fun undone => (by cases undone)⟩

/-- What was captured before anything was overwritten. -/
def PreRestoreState (lifecycle : RestoreLifecycle TState RunState Captured TRuntime) (before : World Workspace RunState TRuntime)
    (preRestoreState : Option Captured) : Prop :=
  match lifecycle.capturePreRestoreState with
  | some capture => ∃ captured, capture before.runState = .ok captured ∧ preRestoreState = some captured
  | none => preRestoreState = none

theorem rollRunStateBack_done {preRestoreState : Option Captured} (captured : PreRestoreState lifecycle before preRestoreState)
    {attempted : Bool} {world : World Workspace RunState TRuntime} (untouched : attempted = false → world.runState = before.runState)
    {step : RollbackStep Workspace RunState TRuntime} (taken : rollRunStateBack lifecycle attempted preRestoreState world = step) :
    step.world.workspace = world.workspace ∧ step.world.runtimes = world.runtimes ∧
      (step.done → StateRolledBack lifecycle before step.world) ∧ (step.done = false → step.errors ≠ []) := by
  subst taken
  unfold rollRunStateBack
  cases attempted with
  | false => exact ⟨rfl, rfl, fun _ => .inl (untouched rfl), fun undone => (by cases undone)⟩
  | true =>
    rw [if_pos rfl]
    cases preRestoreState with
    | none => exact ⟨rfl, rfl, fun done => (by cases done), fun _ => by simp⟩
    | some state =>
      cases given : lifecycle.restorePreRestoreState with
      | none => exact ⟨rfl, rfl, fun done => (by cases done), fun _ => by simp⟩
      | some restorePreRestoreState =>
        dsimp only
        rcases outcome : restorePreRestoreState state world.runState with ⟨result, runState⟩
        cases result with
        | error error => exact ⟨rfl, rfl, fun done => (by cases done), fun _ => by simp⟩
        | ok =>
          refine ⟨rfl, rfl, fun _ => .inr ?_, fun undone => (by cases undone)⟩
          unfold PreRestoreState at captured
          cases hook : lifecycle.capturePreRestoreState with
          | none =>
            rw [hook] at captured
            cases captured
          | some capture =>
            rw [hook] at captured
            obtain ⟨_, returned, same⟩ := captured
            cases same
            exact ⟨capture, state, restorePreRestoreState, world.runState, rfl, returned, given, outcome⟩

theorem rollBack_lawful [DecidableEq TRuntime] {contents : GitCheckpointSnapshot → Workspace} (installs : Installs git contents)
    {restoring : Restoring Workspace RunState TRuntime} (going : Going before restoring) {preRestoreState : Option Captured}
    (captured : PreRestoreState lifecycle before preRestoreState) {snapshot : GitCheckpointSnapshot}
    (backed : BackedUp git before snapshot) (failure : Thrown) :
    Lawful git lifecycle before (rollBack git lifecycle checkpoint preRestoreState snapshot failure restoring).2 contents
      (.ok (rollBack git lifecycle checkpoint preRestoreState snapshot failure restoring).1) := by
  obtain ⟨runtimeStep, disposal⟩ : ∃ step, disposeRuntime lifecycle restoring.runtime restoring.toWorld = step := ⟨_, rfl⟩
  obtain ⟨workspaceStep, installation⟩ : ∃ step, rollWorkspaceBack git snapshot runtimeStep.world = step := ⟨_, rfl⟩
  obtain ⟨stateStep, restoration⟩ : ∃ step, rollRunStateBack lifecycle restoring.runStateRestoreAttempted preRestoreState
    workspaceStep.world = step := ⟨_, rfl⟩
  obtain ⟨_, runState, disposed, disposalErrors⟩ := disposeRuntime_done going disposal
  obtain ⟨runState', runtimes', installed, installationErrors⟩ := rollWorkspaceBack_done installs installation
  have untouched : restoring.runStateRestoreAttempted = false → workspaceStep.world.runState = before.runState := by
    intro calm
    rw [runState', runState, going.untouched calm]
  obtain ⟨workspace'', runtimes'', restored, restorationErrors⟩ := rollRunStateBack_done captured untouched restoration
  have truthful : Truthful lifecycle before stateStep.world contents snapshot {
      workspaceRestored := workspaceStep.done
      runStateRestored := stateStep.done
      resumedRuntimeDisposed := runtimeStep.done
      errors := runtimeStep.errors ++ workspaceStep.errors ++ stateStep.errors } := by
    constructor
    · exact fun done => workspace''.trans (installed done)
    · exact restored
    · exact fun done => runtimes''.trans (runtimes'.trans (disposed done))
    · simp only [Bool.and_eq_false_iff, ne_eq, List.append_eq_nil_iff, not_and_or]
      rintro ((undone | undone) | undone)
      · exact .inl (.inr (installationErrors undone))
      · exact .inr (restorationErrors undone)
      · exact .inl (.inl (disposalErrors undone))
  unfold rollBack
  dsimp only
  rw [disposal, installation, restoration]
  split
  · next done =>
    simp only [Bool.and_eq_true] at done
    exact ⟨backed, truthful.workspace done.1.1, truthful.runState done.1.2, truthful.runtimes done.2⟩
  · next undone => exact ⟨backed, truthful, truthful.errors (Bool.eq_false_iff.mpr undone)⟩

/-! The whole restore. -/

theorem captureState_ok {preRestoreState : Option Captured} (captured : captureState lifecycle before = .ok preRestoreState) :
    PreRestoreState lifecycle before preRestoreState := by
  unfold captureState at captured
  unfold PreRestoreState
  cases hook : lifecycle.capturePreRestoreState with
  | none =>
    rw [hook] at captured
    exact (Except.ok.inj captured).symm
  | some capture =>
    rw [hook] at captured
    dsimp only at captured ⊢
    cases outcome : capture before.runState with
    | error error =>
      rw [outcome] at captured
      cases captured
    | ok state =>
      rw [outcome] at captured
      exact ⟨state, rfl, (Except.ok.inj captured).symm⟩

theorem prepare_ok {restoreId : String} {preRestoreState : Option Captured} {snapshot : GitCheckpointSnapshot}
    (prepared : prepare git lifecycle restoreId checkpoint before = .ok (preRestoreState, snapshot)) :
    PreRestoreState lifecycle before preRestoreState ∧ BackedUp git before snapshot := by
  unfold prepare at prepared
  obtain ⟨captured, capture, prepared⟩ := except_bind_ok.mp prepared
  obtain ⟨ref, _, prepared⟩ := except_bind_ok.mp prepared
  obtain ⟨backup, taken, prepared⟩ := except_bind_ok.mp prepared
  cases prepared
  exact ⟨captureState_ok capture, ref, _, taken⟩

theorem restoreCheckpoint_lawful [DecidableEq TRuntime] {contents : GitCheckpointSnapshot → Workspace} (installs : Installs git contents)
    (restoreId : String) :
    Lawful git lifecycle before (restoreCheckpoint git lifecycle restoreId checkpoint before).2 contents
      (.ok (restoreCheckpoint git lifecycle restoreId checkpoint before).1) := by
  unfold restoreCheckpoint
  cases preparation : prepare git lifecycle restoreId checkpoint before with
  | error error => exact ⟨rfl, rfl, rfl⟩
  | ok prepared =>
    obtain ⟨preRestoreState, snapshot⟩ := prepared
    obtain ⟨captured, backed⟩ := prepare_ok preparation
    have hook : ∀ capture, lifecycle.capturePreRestoreState = some capture → ∃ state, capture before.runState = .ok state := by
      intro capture given
      rw [PreRestoreState, given] at captured
      exact captured.imp fun _ found => found.1
    have phases : Ends (restorePhases git lifecycle checkpoint) { toWorld := before } _ _ := restorePhases_ends hook
    unfold Ends at phases
    dsimp only
    cases outcome : restorePhases git lifecycle checkpoint { toWorld := before } with
    | ok _ restoring =>
      rw [outcome] at phases
      exact ⟨backed, phases⟩
    | error failure restoring =>
      rw [outcome] at phases
      exact rollBack_lawful installs phases captured backed failure

theorem restoreFound_lawful [DecidableEq TRuntime] {contents : GitCheckpointSnapshot → Workspace} (installs : Installs git contents)
    (get : String → Except Thrown (Option (CheckpointRecord TState))) (checkpointId restoreId : String) :
    Lawful git lifecycle before (restoreFound git lifecycle get checkpointId restoreId before).2 contents
      (restoreFound git lifecycle get checkpointId restoreId before).1 := by
  unfold restoreFound
  cases get checkpointId with
  | error error => exact ⟨rfl, rfl, rfl⟩
  | ok found =>
    cases found with
    | none => exact ⟨rfl, rfl, rfl⟩
    | some checkpoint =>
      dsimp only
      split
      · exact ⟨rfl, rfl, rfl⟩
      · exact ⟨rfl, rfl, rfl⟩
      · split
        · exact ⟨rfl, rfl, rfl⟩
        · exact restoreCheckpoint_lawful installs restoreId

/-- The flag is no part of what an outcome speaks of. -/
theorem Lawful.unflagged {contents : GitCheckpointSnapshot → Workspace} {after : World Workspace RunState TRuntime}
    {result : Except Escaped (TransactionalRestoreResult TState TRuntime)}
    (lawful : Lawful git lifecycle { before with restoreInProgress := true } after contents result) :
    Lawful git lifecycle before { after with restoreInProgress := false } contents result := by
  cases result with
  | error escaped => exact ⟨lawful.workspace, lawful.runState, lawful.runtimes⟩
  | ok result =>
    cases result with
    | restored checkpoint snapshot runtime =>
      obtain ⟨backed, steps⟩ := lawful
      exact ⟨backed, steps.captured, steps.workspace, steps.runState, steps.resumed, steps.runtimes, steps.validated⟩
    | preparation_failed checkpoint error => exact ⟨lawful.workspace, lawful.runState, lawful.runtimes⟩
    | rolled_back checkpoint snapshot error report => exact lawful
    | rollback_failed checkpoint snapshot error report =>
      obtain ⟨backed, truthful, errors⟩ := lawful
      exact ⟨backed, ⟨truthful.workspace, truthful.runState, truthful.runtimes, truthful.errors⟩, errors⟩

end Restoring

section Service
variable {TState Workspace RunState TRuntime : Type} [DecidableEq TRuntime]

/-- One restore on the service, whatever its hooks and its Git service do. -/
def Served (TState : Type) (before after : World Workspace RunState TRuntime) : Prop :=
  ∃ (Captured : Type) (git : GitService Workspace) (lifecycle : RestoreLifecycle TState RunState Captured TRuntime)
    (get : String → Except Thrown (Option (CheckpointRecord TState))) (checkpointId restoreId : String),
    (restore git lifecycle get checkpointId restoreId before).2 = after

theorem idle_after {first before : World Workspace RunState TRuntime} (fresh : first.restoreInProgress = false)
    (run : Relation.ReflTransGen (Served TState) first before) : before.restoreInProgress = false := by
  induction run with
  | refl => exact fresh
  | tail _ served ih =>
    obtain ⟨Captured, git, lifecycle, get, checkpointId, restoreId, rfl⟩ := served
    unfold restore
    rw [if_neg (by rw [ih]; simp)]

theorem restoreFound_not_refused {Captured : Type} {git : GitService Workspace}
    {lifecycle : RestoreLifecycle TState RunState Captured TRuntime} {before : World Workspace RunState TRuntime}
    (get : String → Except Thrown (Option (CheckpointRecord TState))) (checkpointId restoreId : String) :
    (restoreFound git lifecycle get checkpointId restoreId before).1 ≠ .error .restoreInProgress := by
  unfold restoreFound
  cases get checkpointId with
  | error error => simp
  | ok found =>
    cases found with
    | none => simp
    | some checkpoint =>
      dsimp only
      split
      · simp
      · simp
      · split <;> simp

/-- A Git service whose workspace is the commit that is checked out. -/
def plainGit : GitService String where
  getRepositoryRoot := .ok "/work"
  isSamePath left right := .ok (left == right)
  captureWorkspaceSnapshot ref _ workspace := .ok ⟨ref, workspace, workspace, workspace, "2026-01-01T00:00:00Z"⟩
  restoreWorkspaceSnapshot snapshot _ := (.ok (), snapshot.commit)

theorem plainGit_installs : Installs plainGit GitCheckpointSnapshot.commit := by
  intro snapshot workspace installed restored
  cases restored
  rfl

def idleWorld : World String Nat Nat := { workspace := "base", runState := 0, runtimes := [] }

/-- The durable state is overwritten and then the hook throws. -/
def throwingHooks : RestoreLifecycle Nat Nat Nat Nat where
  capturePreRestoreState := some fun runState => .ok runState
  restoreRunState := some fun state _ _ => (.error (.error "Error" "intentional state restore failure" none), state)
  restorePreRestoreState := some fun captured _ => (.ok (), captured)

def savedCheckpoint : CheckpointRecord Nat where
  id := "checkpoint"
  runId := "run"
  sequence := 1
  workspacePath := "/work"
  gitRef := "refs/ottili/coder/run/checkpoint/1"
  gitSnapshot := ⟨"refs/ottili/coder/run/checkpoint/1", "saved", "base", "base", "2026-01-01T00:00:00Z"⟩
  state := 7

def sampleRestore : Except Escaped (TransactionalRestoreResult Nat Nat) × World String Nat Nat :=
  restore plainGit throwingHooks (fun _ => .ok (some savedCheckpoint)) "checkpoint" "restore" idleWorld

example : sampleRestore.2.workspace = "base" ∧ sampleRestore.2.runState = 0 := by decide +kernel

end Service

end OttiliCoder.Recovery
