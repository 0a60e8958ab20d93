import OttiliCoder.Store.Runs

/-! Usage, tool calls, checkpoints, and the continuation a scheduler claims. -/

namespace OttiliCoder
open Relational Transaction

/-! The shared budget. -/

def recordUsage (runId : RunId) (delta : BudgetDelta) (clock : Date) : StoreM Run :=
  transaction (recordUsageInternal runId delta clock.toISOString)

structure UsageEntry where
  agentId : Option AgentId := none
  key : String

/-- Charges the usage once per entry key. -/
def recordUsageFenced (lease : FencedLease) (delta : BudgetDelta) (entry : Option UsageEntry) (clock : Date) :
    StoreM Run :=
  let now := clock.toISOString
  transaction do
    assertLeaseInternal lease now
    match entry with
    | none => recordUsageInternal lease.runId delta now
    | some entry => do
      let existing ← findRow .usageEntries (lease.runId, entry.key)
      if existing.isSome = true then mustRun lease.runId
      else do
        insertInto .usageEntries
          { runId := lease.runId, entryKey := entry.key, agentId := entry.agentId, delta := delta
            leaseGeneration := lease.generation, createdAt := now }
        recordUsageInternal lease.runId delta now

/-- `totals.set(agentId, addBudgetUsage(totals.get(agentId) ?? EMPTY_BUDGET_USAGE, delta))`. -/
def addShare (agentId : String) (delta : BudgetDelta) :
    List (String × BudgetUsage) → Except InvariantMessage (List (String × BudgetUsage))
  | [] => do
    let usage ← addBudgetUsage emptyBudgetUsage delta
    return [(agentId, usage)]
  | (other, usage) :: rest =>
    if other = agentId then do
      let usage ← addBudgetUsage usage delta
      return (other, usage) :: rest
    else do
      let rest ← addShare agentId delta rest
      return (other, usage) :: rest

/-- Per-agent shares of the shared Run budget. -/
def usageByAgent (runId : RunId) : StoreM (List (Option AgentId × BudgetUsage)) := do
  let stored ← selectRows .usageEntries fun row => row.runId == runId
  let rows := stored.insertionSort fun row other => row.createdAt ≤ other.createdAt
  let totals ← assertInvariant
    (rows.foldlM (fun totals row => addShare (row.agentId.getD "") row.delta totals) [])
  return totals.map fun (agentId, usage) => (if agentId.isEmpty then none else some agentId, usage)

/-! Tool calls. -/

/-- What a tool intent keeps of the tool's definition. -/
structure ToolIntentDefinition where
  idempotency : ToolIdempotency
  name : String
  recovery : ToolRecoveryStrategy
  sideEffectClass : ToolSideEffectClass

structure ToolIntentInput where
  agentId : Option AgentId := none
  approvalId : Option ApprovalId := none
  definition : ToolIntentDefinition
  input : Json
  lease : FencedLease
  taskId : Option TaskId := none

/-- Consumes an approved authorization of the leased Run. -/
def consumeApproval (approvalId : ApprovalId) (lease : FencedLease) (now : IsoTimestamp) : StoreM Unit := do
  let approval ← mustApproval approvalId
  require (approval.runId = lease.runId ∧ approval.status = .approved)
    (.failure ("Approval '" ++ approvalId ++ "' is not an approved authorization for this Run."))
  updateRows .approvals (fun row => row.id == approvalId && row.status == .approved) fun row =>
    { row with status := .consumed, updatedAt := now }
  let _ ← appendEventInternal lease.runId .approvalResolved
    [("approvalId", .string approvalId), ("status", .string "consumed"),
      ("reason", .string "tool_call_authorized")]
    now (some lease.generation)

/-- Charges one tool call and records the intent, unless that exhausts the budget;
the exhaustion is committed before the operation throws. -/
def recordToolIntent (input : ToolIntentInput) (uuid : String) (clock : Date) : StoreM ToolCallId := do
  let now := clock.toISOString
  let id := createId .toolCall (input.lease.runId ++ ":" ++ uuid)
  let budgetExhausted ← transaction do
    assertLeaseInternal input.lease now
    let budgeted ← recordUsageInternal input.lease.runId { toolCalls := some 1 } now
    if budgeted.status = .budgetLimited ∨ budgeted.status = .usageLimited then return true
    else do
      given input.approvalId fun approvalId => consumeApproval approvalId input.lease now
      insertInto .toolCalls
        { id := id, runId := input.lease.runId, agentId := input.agentId, taskId := input.taskId
          name := input.definition.name, sideEffectClass := input.definition.sideEffectClass
          idempotency := input.definition.idempotency, recovery := input.definition.recovery
          status := .running, input := input.input, leaseGeneration := input.lease.generation
          startedAt := now }
      let _ ← appendEventInternal input.lease.runId .toolCallStarted
        [("name", .string input.definition.name), ("toolCallId", .string id)] now
        (some input.lease.generation)
      return false
  require (budgetExhausted = false)
    (.failure ("Run '" ++ input.lease.runId ++
      "' cannot begin another tool call because its budget is exhausted."))
  return id

structure CompleteToolCallInput where
  error : Option JsonObject := none
  lease : FencedLease
  output : Option Json := none
  toolCallId : ToolCallId

def completeToolCall (input : CompleteToolCallInput) (clock : Date) : StoreM Unit :=
  let now := clock.toISOString
  transaction do
    assertLeaseInternal input.lease now
    updateRows .toolCalls
      (fun row => row.id == input.toolCallId && row.runId == input.lease.runId &&
        row.leaseGeneration == input.lease.generation)
      fun row =>
        { row with
          status := if input.error.isNone then .succeeded else .failed
          output := input.output
          error := input.error
          completedAt := some now }
    let _ ← appendEventInternal input.lease.runId .toolCallFinished
      ([("toolCallId", .string input.toolCallId), ("success", .boolean input.error.isNone)] ++
        Json.optionalField "output" input.output ++ Json.optionalField "error" (input.error.map .object))
      now (some input.lease.generation)

structure UnknownToolCall where
  id : ToolCallId
  name : String
  runId : RunId
  recovery : ToolRecoveryStrategy
  sideEffectClass : ToolSideEffectClass
  idempotency : ToolIdempotency

def unknownFromRow (row : ToolCallRow) : UnknownToolCall where
  id := row.id
  name := row.name
  runId := row.runId
  recovery := row.recovery
  sideEffectClass := row.sideEffectClass
  idempotency := row.idempotency

/-- Marks interrupted calls `unknown_after_crash` and announces them together. -/
def markUnknown (runId : RunId) (calls : List ToolCallRow) (now : IsoTimestamp)
    (leaseGeneration : Option Nat) : StoreM (List UnknownToolCall) := do
  calls.forM fun call =>
    updateRow .toolCalls call.id fun row => { row with status := .unknownAfterCrash, completedAt := some now }
  onlyIf (calls.isEmpty = false) do
    let _ ← appendEventInternal runId .recoveryRequired
      [("unknownToolCallIds", .array (calls.map fun call => .string call.id))] now leaseGeneration
  return calls.map unknownFromRow

def reconcileInterruptedToolCalls (runId : RunId) (clock : Date) : StoreM (List UnknownToolCall) :=
  let now := clock.toISOString
  transaction do
    let calls ← selectRows .toolCalls fun row => row.runId == runId && row.status == .running
    markUnknown runId calls now none

/-- Returns continuations an older generation claimed and marks its running tool
calls unknown; they are never run again blindly. -/
def recoverClaimedWork (lease : FencedLease) (clock : Date) : StoreM (List UnknownToolCall) :=
  let now := clock.toISOString
  transaction do
    assertLeaseInternal lease now
    updateRows .scheduledActions
      (fun row => row.runId == lease.runId && row.status == .claimed &&
        row.claimedEpoch.all fun epoch => epoch < lease.generation)
      fun row => { row with status := .pending, claimedBy := none, claimedEpoch := none, updatedAt := now }
    let calls ← selectRows .toolCalls fun row =>
      row.runId == lease.runId && row.status == .running && row.leaseGeneration < lease.generation
    markUnknown lease.runId calls now (some lease.generation)

/-! Checkpoints. -/

structure CreateCheckpointInput where
  label : String
  lease : FencedLease
  manifest : JsonObject
  reason : String
  runId : RunId
  workspaceRef : Option String := none

def createCheckpoint (input : CreateCheckpointInput) (uuid : String) (clock : Date) :
    StoreM (CheckpointId × Nat) :=
  let now := clock.toISOString
  transaction do
    assertRunLeaseInternal input.lease input.runId now
    let stored ← selectRows .checkpoints fun row => row.runId == input.runId
    let sequence := stored.length + 1
    let id := createId .checkpoint (input.runId ++ ":" ++ toString sequence ++ ":" ++ uuid)
    insertInto .checkpoints
      { id := id, runId := input.runId, sequence := sequence, label := input.label, reason := input.reason
        workspaceRef := input.workspaceRef, manifest := input.manifest, createdAt := now }
    let _ ← appendEventInternal input.runId .checkpointCreated
      [("checkpointId", .string id), ("sequence", .nat sequence)] now
    return (id, sequence)

structure RecordCheckpointRestoreInput where
  checkpointId : CheckpointId
  preRestoreRef : String
  restoredRef : String
  runId : RunId

def recordCheckpointRestore (input : RecordCheckpointRestoreInput) (clock : Date) : StoreM RunEvent :=
  transaction do
    let run ← mustRun input.runId
    require (run.status = .paused)
      (.failure ("Run '" ++ input.runId ++ "' must be paused to restore a checkpoint (current status: '" ++
        run.status.text ++ "')."))
    appendEventInternal input.runId .checkpointRestored
      [("checkpointId", .string input.checkpointId), ("preRestoreRef", .string input.preRestoreRef),
        ("restoredRef", .string input.restoredRef)]
      clock.toISOString

/-! Waiting and continuing. -/

structure ScheduleWakeInput where
  lease : Option FencedLease := none
  runId : RunId
  /-- Nothing for an invalid date. -/
  wakeAt : Option Date

def scheduleWake (input : ScheduleWakeInput) (uuid : String) (clock : Date) : StoreM String :=
  let now := clock.toISOString
  let id := "wake_" ++ uuid
  transaction do
    given input.lease fun lease =>
      assertRunLeaseInternal lease input.runId now "Wake lease belongs to another Run."
    let wakeAt ← expect input.wakeAt .invalidTime
    insertInto .wakeConditions
      { id := id, runId := input.runId, wakeAt := wakeAt.toISOString, status := .pending
        createdAt := now, updatedAt := now }
    let run ← mustRun input.runId
    onlyIf (run.status = .running) do
      transitionRunInternal run.id .waitingExternal now
    return id

def wakeRun (condition : WakeConditionRow) (now : IsoTimestamp) : StoreM RunId := do
  updateRow .wakeConditions condition.id fun row => { row with status := .woken, updatedAt := now }
  let run ← mustRun condition.runId
  onlyIf (run.status = .waitingExternal) do
    transitionRunInternal condition.runId .running now
  ensureContinuationInternal condition.runId now
  return condition.runId

def wakeDueRuns (clock : Date) : StoreM (List RunId) :=
  let now := clock.toISOString
  transaction do
    let conditions ← selectRows .wakeConditions fun row => row.status == .pending && row.wakeAt ≤ now
    conditions.mapM fun condition => wakeRun condition now

structure ScheduledAction where
  attempt : Nat
  runId : RunId

/-- The goal a Run continues, when the Run runs and the goal is active. -/
def continuableGoal (s : Store) (run : Run) : Option Goal :=
  if run.status = .running then
    (run.currentGoalId.bind (getGoal s)).filter fun goal => shouldContinueGoal goal.status
  else none

def claimContinuation (lease : FencedLease) (clock : Date) : StoreM (Option ScheduledAction) :=
  let now := clock.toISOString
  transaction do
    assertLeaseInternal lease now
    let actions ← selectRows .scheduledActions fun row =>
      row.runId == lease.runId && row.status == .pending && row.dueAt ≤ now
    match actions.head? with
    | none => return none
    | some action =>
      let run ← mustRun lease.runId
      let s ← get
      match continuableGoal s run with
      | none => return none
      | some goal =>
        updateRows .scheduledActions (fun row => row.runId == lease.runId && row.status == .pending)
          fun row =>
            { row with
              status := .claimed
              claimedBy := some lease.executorId
              claimedEpoch := some lease.generation
              attempt := row.attempt + 1
              updatedAt := now }
        updateRow .goals goal.id fun row =>
          { row with continuationCount := row.continuationCount + 1, updatedAt := now }
        return some { attempt := action.attempt + 1, runId := lease.runId }

structure SettleContinuationInput where
  lease : FencedLease
  requeue : Bool

def settleContinuation (input : SettleContinuationInput) (clock : Date) : StoreM Unit :=
  let now := clock.toISOString
  transaction do
    assertLeaseInternal input.lease now
    deleteRows .scheduledActions fun row =>
      row.runId == input.lease.runId && row.status == .claimed &&
        row.claimedBy == some input.lease.executorId && row.claimedEpoch == some input.lease.generation
    onlyIf (input.requeue = true) do
      ensureContinuationInternal input.lease.runId now

end OttiliCoder
