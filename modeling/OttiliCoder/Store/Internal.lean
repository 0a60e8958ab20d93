import Mathlib.Data.List.Sort
import OttiliCoder.Store.Schema

/-! The private part of the store: statements, row lookups, and the steps that
several operations share. Each operation reads the clock through the timestamps it
is given. -/

namespace OttiliCoder
open Relational Transaction

inductive StoreError where
  | leaseFenced (runId : RunId) (message : String)
  | revisionConflict (runId : RunId) (expected actual : Nat)
  | resourceLockConflict (scope : ResourceScope)
  | invalidStateTransition (entity source target : String)
  | invariantViolation (message : InvariantMessage)
  | failure (message : String)
  | constraint (table : Table)
  | invalidTime

/-- The message of the error; a constraint's is the driver's. -/
def StoreError.text : StoreError → String
  | .leaseFenced _ message => message
  | .revisionConflict runId expected actual =>
    "Run '" ++ runId ++ "' revision conflict: expected " ++ toString expected ++ ", found " ++ toString actual ++ "."
  | .resourceLockConflict scope =>
    "Resource scope '" ++ scope.kind.text ++ ":" ++ scope.identifier ++ "' is locked by another task."
  | .invalidStateTransition entity source target =>
    "Cannot transition " ++ entity ++ " from '" ++ source ++ "' to '" ++ target ++ "'"
  | .invariantViolation message => message
  | .failure message => message
  | .constraint _ => "constraint failed"
  | .invalidTime => "Invalid time value"

abbrev StoreM := EStateM StoreError Store

/-! Statements. -/

abbrev insertInto (t : Table) (row : Row t) : StoreM Unit := Relational.insert schema .constraint t row

abbrev insertOrIgnoreInto (t : Table) (row : Row t) : StoreM Unit :=
  Relational.insertOrIgnore schema .constraint t row

abbrev findRow (t : Table) (k : Key t) : StoreM (Option (Row t)) := Relational.find? t k

abbrev selectRows (t : Table) (selected : Row t → Bool) : StoreM (List (Row t)) :=
  Relational.select t selected

abbrev updateRows (t : Table) (selected : Row t → Bool) (f : Row t → Row t)
    (keeps : ∀ row, key t (f row) = key t row := by intro _; with_reducible rfl) : StoreM Unit :=
  Relational.update t selected f keeps

/-- `UPDATE t SET ... WHERE id = k`. -/
abbrev updateRow (t : Table) (k : Key t) (f : Row t → Row t)
    (keeps : ∀ row, key t (f row) = key t row := by intro _; with_reducible rfl) : StoreM Unit :=
  Relational.update t (fun row => key t row == k) f keeps

abbrev deleteRows (t : Table) (selected : Row t → Bool) : StoreM Unit := Relational.delete t selected

/-- Refuses with the error a budget check gives. -/
def assertInvariant {α : Type} (checked : Except InvariantMessage α) : StoreM α :=
  match checked with
  | .ok value => pure value
  | .error message => throw (.invariantViolation message)

/-- `ORDER BY first, second`. -/
def orderByTexts {α : Type} (first second : α → String) (rows : List α) : List α :=
  rows.insertionSort fun row other =>
    first row < first other ∨ first row = first other ∧ second row ≤ second other

def sortTexts (texts : List String) : List String := texts.insertionSort (· ≤ ·)

/-! Entities that are read from several tables. -/

structure Task where
  id : TaskId
  runId : RunId
  goalId : Option GoalId
  title : String
  description : String
  status : TaskStatus
  dependencyIds : List TaskId
  blockerIds : List ProblemId
  ownerAgentId : Option AgentId
  requirementIds : List RequirementId
  resourceScopes : List ResourceScope
  result : Option Json
  evidenceIds : List EvidenceId
  attempt : Nat
  lastError : Option String
  completedAt : Option IsoTimestamp
  createdAt : IsoTimestamp
  updatedAt : IsoTimestamp

def taskFromRow (s : Store) (row : TaskRow) : Task where
  id := row.id
  runId := row.runId
  goalId := row.goalId
  title := row.title
  description := row.description
  status := row.status
  dependencyIds := sortTexts (((s .taskDependencies).rows.filter (·.taskId == row.id)).map (·.dependencyId))
  blockerIds := sortTexts (((s .taskProblems).rows.filter (·.taskId == row.id)).map (·.problemId))
  ownerAgentId := row.ownerAgentId
  requirementIds := sortTexts (((s .taskRequirements).rows.filter (·.taskId == row.id)).map (·.requirementId))
  resourceScopes := ((s .taskResourceScopes).rows.filter (·.taskId == row.id)).map (·.scope)
  result := row.result
  evidenceIds := sortTexts (((s .taskEvidence).rows.filter (·.taskId == row.id)).map (·.evidenceId))
  attempt := row.attempt
  lastError := row.lastError
  completedAt := row.completedAt
  createdAt := row.createdAt
  updatedAt := row.updatedAt

structure Agent where
  id : AgentId
  runId : RunId
  parentAgentId : Option AgentId
  taskId : Option TaskId
  role : AgentRole
  status : AgentStatus
  sessionEpochIds : List SessionEpochId
  worktreeUri : Option String
  permissions : PermissionPolicy
  sandbox : SandboxPolicy
  spawnedAt : IsoTimestamp
  closedAt : Option IsoTimestamp
  createdAt : IsoTimestamp
  updatedAt : IsoTimestamp

def findParentAgentId (s : Store) (agentId : AgentId) : Option AgentId :=
  ((s .agentEdges).rows.find? (·.childAgentId == agentId)).map (·.parentAgentId)

def agentFromRow (s : Store) (row : AgentRow) : Agent where
  id := row.id
  runId := row.runId
  parentAgentId := findParentAgentId s row.id
  taskId := row.taskId
  role := row.role
  status := row.status
  sessionEpochIds := (((s .sessionEpochs).rows.filter (·.agentId == row.id)).insertionSort
    fun epoch other => epoch.ordinal ≤ other.ordinal).map (·.id)
  worktreeUri := row.worktreeUri
  permissions := row.permissions
  sandbox := row.sandbox
  spawnedAt := row.spawnedAt
  closedAt := row.closedAt
  createdAt := row.createdAt
  updatedAt := row.updatedAt

structure RunEvent where
  runId : RunId
  sequence : Nat
  type : RunEventType
  payload : JsonObject
  createdAt : IsoTimestamp

def eventFromRow (row : RunEventRow) : RunEvent where
  runId := row.runId
  sequence := row.seq
  type := row.type
  payload := row.payload
  createdAt := row.createdAt

/-- The subset of a lease that fences a durable write. -/
structure FencedLease where
  runId : RunId
  executorId : String
  generation : Nat

/-! Lookups that refuse an unknown id. -/

def notFound (entity : String) (id : String) : StoreError :=
  .failure (entity ++ " '" ++ id ++ "' was not found.")

abbrev mustRow (t : Table) (k : Key t) (e : StoreError) : StoreM (Row t) := Relational.must t k e

def mustRun (runId : RunId) : StoreM Run := do
  let row ← mustRow .runs runId (notFound "Run" runId)
  return row.toRun

def mustGoal (goalId : GoalId) : StoreM Goal := do
  let row ← mustRow .goals goalId (notFound "Goal" goalId)
  return row.toGoal

def mustTask (taskId : TaskId) : StoreM Task := do
  let row ← mustRow .tasks taskId (notFound "Task" taskId)
  return taskFromRow (← get) row

def mustAgent (agentId : AgentId) : StoreM Agent := do
  let row ← mustRow .agents agentId (notFound "Agent" agentId)
  return agentFromRow (← get) row

def mustLease (runId : RunId) : StoreM RunLeaseRow :=
  mustRow .runLeases runId (.failure ("Lease for Run '" ++ runId ++ "' was not found."))

def mustApproval (id : ApprovalId) : StoreM ApprovalRow := mustRow .approvals id (notFound "Approval" id)

/-! The event journal. -/

def appendEventInternal (runId : RunId) (type : RunEventType) (payload : JsonObject) (now : IsoTimestamp)
    (leaseGeneration : Option Nat := none) : StoreM RunEvent := do
  let run ← mustRun runId
  let sequence ← findRow .runs runId
  let next := match sequence with
    | none => 1
    | some row => row.nextSequence + 1
  insertInto .runEvents
    { runId := runId, seq := next, type := type, payload := payload, leaseGeneration := leaseGeneration
      createdAt := now }
  updateRow .runs run.id fun row =>
    { row with nextSequence := next, revision := row.revision + 1, updatedAt := now }
  return { runId := runId, sequence := next, type := type, payload := payload, createdAt := now }

/-! Leases. -/

def assertLeaseInternal (lease : FencedLease) (now : IsoTimestamp) : StoreM Unit := do
  let current ← mustRow .runLeases lease.runId (.leaseFenced lease.runId "Run has no active lease.")
  require (current.holderId = lease.executorId ∧ current.generation = lease.generation ∧
      ¬ current.expiresAt ≤ now)
    (.leaseFenced lease.runId "Executor lease is stale or expired.")

/-- Asserts that a lease is current and belongs to the Run being written. -/
def assertRunLeaseInternal (lease : FencedLease) (runId : RunId) (now : IsoTimestamp)
    (message : String := "Lease belongs to another Run.") : StoreM Unit := do
  require (lease.runId = runId) (.leaseFenced runId message)
  assertLeaseInternal lease now

/-- The same check in the other order, as the graph and the ledger make it. -/
def assertLeaseOfRun (lease : FencedLease) (runId : RunId) (now : IsoTimestamp) (message : String) :
    StoreM Unit := do
  assertLeaseInternal lease now
  require (lease.runId = runId) (.failure message)

/-! Statuses. -/

def assertRunTransition (source target : RunStatus) : StoreM Unit :=
  require (canTransitionRun source target) (.invalidStateTransition "run" source.text target.text)

def assertGoalTransition (source target : GoalStatus) : StoreM Unit :=
  require (canTransitionGoal source target) (.invalidStateTransition "goal" source.text target.text)

def assertTaskTransition (source target : TaskStatus) : StoreM Unit :=
  require (canTransitionTask source target) (.invalidStateTransition "task" source.text target.text)

def assertAgentTransition (source target : AgentStatus) : StoreM Unit :=
  require (canTransitionAgent source target) (.invalidStateTransition "agent" source.text target.text)

def transitionRunInternal (runId : RunId) (target : RunStatus) (now : IsoTimestamp)
    (reason : Option String := none) : StoreM Unit := do
  let run ← mustRun runId
  assertRunTransition run.status target
  updateRow .runs run.id fun row =>
    { row with
      status := target
      blockedReason := reason
      completedAt := if target = .completed ∨ target = .cancelled ∨ target = .failed then some now else none
      revision := row.revision + 1
      updatedAt := now }
  let _ ← appendEventInternal run.id .runStatusChanged
    [("from", .string run.status.text), ("to", .string target.text)] now

def transitionAgentInternal (agentId : AgentId) (target : AgentStatus) (now : IsoTimestamp)
    (leaseGeneration : Option Nat := none) : StoreM Agent := do
  let agent ← mustAgent agentId
  assertAgentTransition agent.status target
  updateRow .agents agent.id fun row =>
    { row with status := target, closedAt := if target = .closed then some now else none, updatedAt := now }
  let _ ← appendEventInternal agent.runId .agentStatusChanged
    [("agentId", .string agent.id), ("to", .string target.text)] now leaseGeneration
  mustAgent agent.id

/-- Inserts the Run's continuation when it may continue and has none. -/
def ensureContinuationInternal (runId : RunId) (now : IsoTimestamp) : StoreM Unit := do
  let run ← mustRun runId
  onlyIf (run.status = .running) do
    given run.currentGoalId fun goalId => do
      let goal ← mustGoal goalId
      onlyIf (shouldContinueGoal goal.status) do
        insertOrIgnoreInto .scheduledActions
          { runId := runId, dueAt := now, status := .pending, createdAt := now, updatedAt := now }

def maxTaskAttempts : Nat := 5

/-- Promotes work whose dependencies are satisfied. A failed task is retried up to
`maxTaskAttempts` times, after which it stays failed. -/
def refreshTaskReadinessInternal (runId : RunId) (now : IsoTimestamp) : StoreM Unit := do
  let pending ← selectRows .tasks fun row =>
    row.runId == runId && (row.status == .pending || (row.status == .failed && row.attempt < maxTaskAttempts))
  pending.forM fun row => do
    let s ← get
    let incomplete := (s .taskDependencies).rows.any fun link => link.taskId == row.id &&
      ((s .tasks).find? link.dependencyId).any fun dependency => dependency.status != .completed
    onlyIf (incomplete = false) do
      updateRow .tasks row.id fun row => { row with status := .ready, updatedAt := now }
      let _ ← appendEventInternal runId .taskStatusChanged
        [("taskId", .string row.id), ("to", .string TaskStatus.ready.text)] now

def recordUsageInternal (runId : RunId) (delta : BudgetDelta) (now : IsoTimestamp) : StoreM Run := do
  let run ← mustRun runId
  let usage ← assertInvariant (addBudgetUsage run.usage delta)
  let exhausted ← assertInvariant (evaluateBudget run.budget usage)
  updateRow .runs run.id fun row => { row with usage := usage, updatedAt := now }
  onlyIf (exhausted ≠ [] ∧ run.status = .running) do
    transitionRunInternal run.id .budgetLimited now
  mustRun run.id

def blockRunForProblemInternal (runId : RunId) (fingerprint : String) (now : IsoTimestamp) : StoreM Unit := do
  let run ← mustRun runId
  given run.currentGoalId fun goalId => do
    let goal ← mustGoal goalId
    onlyIf (goal.status = .active ∨ goal.status = .waitingExternal) do
      updateRow .goals goal.id fun row =>
        { row with
          status := .blocked
          blockerFingerprint := some fingerprint
          blockerAuditEpoch := row.blockerAuditEpoch + 1
          updatedAt := now }
      let _ ← appendEventInternal runId .goalStatusChanged
        [("goalId", .string goal.id), ("to", .string GoalStatus.blocked.text)] now
  onlyIf (run.status = .running ∨ run.status = .waitingExternal ∨ run.status = .recovering) do
    transitionRunInternal runId .blocked now (some ("Repeated blocker: " ++ fingerprint))

end OttiliCoder
