import OttiliCoder.Workspace.Git

/-! The checkpoint service: a workspace and the durable state beside it, restored together or rolled back.
The Git service, the store and the hooks of the control plane are parameters; each says what it leaves behind. -/

namespace OttiliCoder.Recovery
open Transaction

/-- What was thrown: an error, or another value by its text. -/
inductive Thrown where
  | error (name message : String) (code : Option String)
  | value (text : String)
deriving DecidableEq

structure CheckpointFailure where
  name : String
  message : String
  code : Option String := none
deriving DecidableEq

def failureFrom : Thrown → CheckpointFailure
  | .error name message code => { name, message, code }
  | .value text => { name := "UnknownError", message := text }

/-- As the service sees it: the objects by their ids. -/
structure GitCheckpointSnapshot where
  ref : String
  commit : String
  baseCommit : String
  indexCommit : String
  capturedAt : String
deriving DecidableEq

structure CheckpointRecord (TState : Type) where
  id : String
  runId : String
  sequence : Nat
  workspacePath : String
  gitRef : String
  gitSnapshot : GitCheckpointSnapshot
  state : TState

structure RollbackReport where
  workspaceRestored : Bool
  runStateRestored : Bool
  resumedRuntimeDisposed : Bool
  errors : List CheckpointFailure
deriving DecidableEq

inductive TransactionalRestoreResult (TState TRuntime : Type) where
  | restored (checkpoint : CheckpointRecord TState) (preRestoreSnapshot : GitCheckpointSnapshot) (runtime : Option TRuntime)
  | preparation_failed (checkpoint : CheckpointRecord TState) (error : CheckpointFailure)
  | rolled_back (checkpoint : CheckpointRecord TState) (preRestoreSnapshot : GitCheckpointSnapshot) (restoreError : CheckpointFailure)
      (rollback : RollbackReport)
  | rollback_failed (checkpoint : CheckpointRecord TState) (preRestoreSnapshot : GitCheckpointSnapshot) (restoreError : CheckpointFailure)
      (rollback : RollbackReport)

/-- What leaves the service as an exception. -/
inductive Escaped where
  | checkpointNotFound (id : String)
  | restoreInProgress
  | thrown (error : Thrown)
deriving DecidableEq

/-- The workspace, the state of the control plane, the resumed runtimes that are alive, and the service's flag. -/
structure World (Workspace RunState TRuntime : Type) where
  workspace : Workspace
  runState : RunState
  runtimes : List TRuntime
  restoreInProgress : Bool := false

/-- The Git service of one workspace. A restore that throws may have changed the workspace already. -/
structure GitService (Workspace : Type) where
  getRepositoryRoot : Except Thrown String
  isSamePath : String → String → Except Thrown Bool
  captureWorkspaceSnapshot : (ref message : String) → Workspace → Except Thrown GitCheckpointSnapshot
  restoreWorkspaceSnapshot : GitCheckpointSnapshot → Workspace → Except Thrown Unit × Workspace

/-- The hooks, each of them optional. One that writes the durable state may have written when it throws. -/
structure RestoreLifecycle (TState RunState Captured TRuntime : Type) where
  capturePreRestoreState : Option (RunState → Except Thrown Captured) := none
  restoreRunState : Option (TState → CheckpointRecord TState → RunState → Except Thrown Unit × RunState) := none
  restorePreRestoreState : Option (Captured → RunState → Except Thrown Unit × RunState) := none
  createResumedRuntime : Option (CheckpointRecord TState → RunState → Except Thrown (Option TRuntime)) := none
  validateRestoredState : Option (Option TRuntime → CheckpointRecord TState → RunState → Except Thrown Unit) := none
  disposeResumedRuntime : Option (TRuntime → Except Thrown Unit) := none

section Service
variable {TState Workspace RunState Captured TRuntime : Type} [DecidableEq TRuntime]
variable (git : GitService Workspace) (lifecycle : RestoreLifecycle TState RunState Captured TRuntime)

/-- The locals that the handler of a failed restore still sees. -/
structure Restoring (Workspace RunState TRuntime : Type) extends World Workspace RunState TRuntime where
  runtime : Option TRuntime := none
  runStateRestoreAttempted : Bool := false

abbrev RestoreM (Workspace RunState TRuntime : Type) := EStateM Thrown (Restoring Workspace RunState TRuntime)

def raise {σ α : Type} (outcome : Except Thrown α) : EStateM Thrown σ α :=
  match outcome with
  | .ok value => pure value
  | .error error => throw error

def installSnapshot (snapshot : GitCheckpointSnapshot) : RestoreM Workspace RunState TRuntime Unit := do
  let restoring ← get
  let (outcome, workspace) := git.restoreWorkspaceSnapshot snapshot restoring.workspace
  set { restoring with workspace }
  raise outcome

def restoreState (checkpoint : CheckpointRecord TState) : RestoreM Workspace RunState TRuntime Unit :=
  given lifecycle.restoreRunState fun restoreRunState => do
    let restoring ← get
    let (outcome, runState) := restoreRunState checkpoint.state checkpoint restoring.runState
    set { restoring with runState, runStateRestoreAttempted := true }
    raise outcome

def resumeRuntime (checkpoint : CheckpointRecord TState) : RestoreM Workspace RunState TRuntime Unit :=
  given lifecycle.createResumedRuntime fun createResumedRuntime => do
    let restoring ← get
    let runtime ← raise (createResumedRuntime checkpoint restoring.runState)
    set { restoring with runtime, runtimes := runtime.toList ++ restoring.runtimes }

def validateState (checkpoint : CheckpointRecord TState) : RestoreM Workspace RunState TRuntime Unit :=
  given lifecycle.validateRestoredState fun validateRestoredState => do
    let restoring ← get
    raise (validateRestoredState restoring.runtime checkpoint restoring.runState)

/-- The phases of a restore; each hook that is given has to succeed. -/
def restorePhases (checkpoint : CheckpointRecord TState) : RestoreM Workspace RunState TRuntime Unit := do
  installSnapshot git checkpoint.gitSnapshot
  restoreState lifecycle checkpoint
  resumeRuntime lifecycle checkpoint
  validateState lifecycle checkpoint

/-- One step of a rollback: whether it succeeded, the errors it adds, and the world after it. -/
structure RollbackStep (Workspace RunState TRuntime : Type) where
  done : Bool
  errors : List CheckpointFailure := []
  world : World Workspace RunState TRuntime

def disposeRuntime (runtime : Option TRuntime) (world : World Workspace RunState TRuntime) :
    RollbackStep Workspace RunState TRuntime :=
  match runtime with
  | none => { done := true, world }
  | some runtime =>
    match lifecycle.disposeResumedRuntime with
    | none => {
        done := false
        errors := [{
          name := "CheckpointRuntimeCleanupUnavailableError"
          message := "A resumed runtime was created but no disposal hook was supplied for rollback." }]
        world }
    | some disposeResumedRuntime =>
      match disposeResumedRuntime runtime with
      | .ok () => { done := true, world := { world with runtimes := world.runtimes.erase runtime } }
      | .error error => { done := false, errors := [failureFrom error], world }

def rollWorkspaceBack (preRestoreSnapshot : GitCheckpointSnapshot) (world : World Workspace RunState TRuntime) :
    RollbackStep Workspace RunState TRuntime :=
  let (outcome, workspace) := git.restoreWorkspaceSnapshot preRestoreSnapshot world.workspace
  match outcome with
  | .ok () => { done := true, world := { world with workspace } }
  | .error error => { done := false, errors := [failureFrom error], world := { world with workspace } }

/-- `preRestoreState` is none when nothing was captured. -/
def rollRunStateBack (attempted : Bool) (preRestoreState : Option Captured) (world : World Workspace RunState TRuntime) :
    RollbackStep Workspace RunState TRuntime :=
  if attempted then
    match preRestoreState, lifecycle.restorePreRestoreState with
    | some preRestoreState, some restorePreRestoreState =>
      let (outcome, runState) := restorePreRestoreState preRestoreState world.runState
      match outcome with
      | .ok () => { done := true, world := { world with runState } }
      | .error error => { done := false, errors := [failureFrom error], world := { world with runState } }
    | _, _ => {
        done := false
        errors := [{
          name := "CheckpointRunStateRollbackUnavailableError"
          message := "Run state restoration was attempted but no recoverable pre-restore state hook was supplied." }]
        world }
  else { done := true, world }

/-- Rolls back what a failed restore left: the runtime, the workspace and the durable state, in this order. -/
def rollBack (checkpoint : CheckpointRecord TState) (preRestoreState : Option Captured) (preRestoreSnapshot : GitCheckpointSnapshot)
    (restoreFailure : Thrown) (restoring : Restoring Workspace RunState TRuntime) :
    TransactionalRestoreResult TState TRuntime × World Workspace RunState TRuntime :=
  let runtimeStep := disposeRuntime lifecycle restoring.runtime restoring.toWorld
  let workspaceStep := rollWorkspaceBack git preRestoreSnapshot runtimeStep.world
  let runStateStep := rollRunStateBack lifecycle restoring.runStateRestoreAttempted preRestoreState workspaceStep.world
  let rollback : RollbackReport := {
    workspaceRestored := workspaceStep.done
    runStateRestored := runStateStep.done
    resumedRuntimeDisposed := runtimeStep.done
    errors := runtimeStep.errors ++ workspaceStep.errors ++ runStateStep.errors }
  if rollback.workspaceRestored && rollback.runStateRestored && rollback.resumedRuntimeDisposed then
    (.rolled_back checkpoint preRestoreSnapshot (failureFrom restoreFailure) rollback, runStateStep.world)
  else (.rollback_failed checkpoint preRestoreSnapshot (failureFrom restoreFailure) rollback, runStateStep.world)

def gitThrown : Git.GitError → Thrown
  | .snapshot message => .error "GitSnapshotError" message none
  | .operation args => .error "GitOperationError" (" ".intercalate args) none

/-- None when there is no hook for it. -/
def captureState (world : World Workspace RunState TRuntime) : Except Thrown (Option Captured) :=
  match lifecycle.capturePreRestoreState with
  | some capturePreRestoreState => some <$> capturePreRestoreState world.runState
  | none => .ok none

/-- What is captured before anything is overwritten; `restoreId` is the fresh id of the backup ref. -/
def prepare (restoreId : String) (checkpoint : CheckpointRecord TState) (world : World Workspace RunState TRuntime) :
    Except Thrown (Option Captured × GitCheckpointSnapshot) := do
  let preRestoreState ← captureState lifecycle world
  let ref ← (Git.recoverySnapshotRefFor checkpoint.runId restoreId).mapError gitThrown
  let preRestoreSnapshot ← git.captureWorkspaceSnapshot ref ("Ottili pre-restore backup for " ++ checkpoint.id) world.workspace
  return (preRestoreState, preRestoreSnapshot)

/-- The restore of a checkpoint that was found, in its own workspace. -/
def restoreCheckpoint (restoreId : String) (checkpoint : CheckpointRecord TState) (world : World Workspace RunState TRuntime) :
    TransactionalRestoreResult TState TRuntime × World Workspace RunState TRuntime :=
  match prepare git lifecycle restoreId checkpoint world with
  | .error error => (.preparation_failed checkpoint (failureFrom error), world)
  | .ok (preRestoreState, preRestoreSnapshot) =>
    match restorePhases git lifecycle checkpoint { toWorld := world } with
    | .ok () restoring => (.restored checkpoint preRestoreSnapshot restoring.runtime, restoring.toWorld)
    | .error restoreFailure restoring => rollBack git lifecycle checkpoint preRestoreState preRestoreSnapshot restoreFailure restoring

/-- The body of `restore`, with the flag set. -/
def restoreFound (get : String → Except Thrown (Option (CheckpointRecord TState))) (checkpointId restoreId : String)
    (world : World Workspace RunState TRuntime) :
    Except Escaped (TransactionalRestoreResult TState TRuntime) × World Workspace RunState TRuntime :=
  match get checkpointId with
  | .error error => (.error (.thrown error), world)
  | .ok none => (.error (.checkpointNotFound checkpointId), world)
  | .ok (some checkpoint) =>
    match git.getRepositoryRoot >>= fun currentWorkspacePath => git.isSamePath currentWorkspacePath checkpoint.workspacePath with
    | .error error => (.error (.thrown error), world)
    | .ok false =>
      (.ok (.preparation_failed checkpoint {
        name := "CheckpointWorkspaceMismatchError"
        message := "Checkpoint belongs to a different workspace and cannot be restored here." }), world)
    | .ok true =>
      if checkpoint.gitRef ≠ checkpoint.gitSnapshot.ref then
        (.ok (.preparation_failed checkpoint {
          name := "CheckpointMetadataMismatchError"
          message := "Checkpoint Git metadata is internally inconsistent." }), world)
      else
        let (result, world) := restoreCheckpoint git lifecycle restoreId checkpoint world
        (.ok result, world)

/-- `CheckpointService.restore`; the flag is reset whatever the body does. -/
def restore (get : String → Except Thrown (Option (CheckpointRecord TState))) (checkpointId restoreId : String)
    (world : World Workspace RunState TRuntime) :
    Except Escaped (TransactionalRestoreResult TState TRuntime) × World Workspace RunState TRuntime :=
  if world.restoreInProgress then (.error .restoreInProgress, world)
  else
    let (result, world) := restoreFound git lifecycle get checkpointId restoreId { world with restoreInProgress := true }
    (result, { world with restoreInProgress := false })

end Service

end OttiliCoder.Recovery
