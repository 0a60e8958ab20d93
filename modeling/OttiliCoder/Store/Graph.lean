import OttiliCoder.Store.Internal

/-! The Task Graph and the Agent Graph. -/

namespace OttiliCoder
open Relational Transaction

/-! Tasks. -/

structure ListTasksOptions where
  ownerAgentId : Option AgentId := none
  status : List TaskStatus := []

/-- A store keeps rows in creation order, so the order by `created_at` only moves
rows whose clock readings went backwards. -/
def listTasks (s : Store) (runId : RunId) (options : ListTasksOptions := {}) : List Task :=
  (((s .tasks).rows.filter fun row =>
    row.runId == runId && (options.status.isEmpty || options.status.contains row.status) &&
      (options.ownerAgentId.isNone || row.ownerAgentId == options.ownerAgentId)).insertionSort
    fun row other => row.createdAt ≤ other.createdAt).map (taskFromRow s)

/-- The next unowned ready Task, in creation order. -/
def nextReadyTask (s : Store) (runId : RunId) : Option Task :=
  (listTasks s runId { status := [.ready] }).find? fun task => task.ownerAgentId.isNone

structure ClaimTaskInput where
  agentId : AgentId
  lease : FencedLease
  taskId : TaskId

def claimTask (input : ClaimTaskInput) (clock : Date) : StoreM Task :=
  let now := clock.toISOString
  transaction do
    assertLeaseInternal input.lease now
    let task ← mustTask input.taskId
    require (task.runId = input.lease.runId) (.failure "Task does not belong to the leased Run.")
    let agent ← mustAgent input.agentId
    require (agent.runId = task.runId) (.failure "Task and Agent must belong to the same Run.")
    assertTaskTransition task.status .running
    updateRows .tasks
      (fun row => row.id == task.id && row.status == .ready && row.ownerAgentId.isNone)
      fun row =>
        { row with
          status := .running
          ownerAgentId := some input.agentId
          leaseGeneration := some input.lease.generation
          updatedAt := now }
    let claimed ← mustTask task.id
    require (claimed.ownerAgentId = some input.agentId)
      (.failure ("Task '" ++ task.id ++
        "' was claimed by another Agent before this executor could take it."))
    let _ ← appendEventInternal task.runId .taskAssigned
      [("agentId", .string input.agentId), ("taskId", .string task.id)] now (some input.lease.generation)
    let _ ← appendEventInternal task.runId .taskStatusChanged
      [("taskId", .string task.id), ("to", .string TaskStatus.running.text)] now (some input.lease.generation)
    return claimed

structure AddTaskEvidenceInput where
  evidenceId : EvidenceId
  lease : FencedLease
  taskId : TaskId

def addTaskEvidence (input : AddTaskEvidenceInput) (clock : Date) : StoreM Unit :=
  transaction do
    assertLeaseInternal input.lease clock.toISOString
    let task ← mustTask input.taskId
    require (task.runId = input.lease.runId) (.failure "Task does not belong to the leased Run.")
    insertOrIgnoreInto .taskEvidence { taskId := input.taskId, evidenceId := input.evidenceId }

structure CreateTaskInput where
  dependencies : List TaskId := []
  description : String
  goalId : Option GoalId := none
  lease : Option FencedLease := none
  requirementIds : List RequirementId := []
  resourceScopes : List ResourceScope := []
  runId : RunId
  title : String

def createTask (input : CreateTaskInput) (uuid : String) (clock : Date) : StoreM Task :=
  let now := clock.toISOString
  let id := createId .task (input.runId ++ ":" ++ uuid)
  transaction do
    given input.lease fun lease =>
      assertLeaseOfRun lease input.runId now "Task lease does not match the Task's Run."
    insertInto .tasks
      { id := id, runId := input.runId, goalId := input.goalId, title := input.title
        description := input.description, status := .pending, createdAt := now, updatedAt := now }
    input.dependencies.forM fun dependency =>
      insertInto .taskDependencies { taskId := id, dependencyId := dependency }
    input.requirementIds.forM fun requirementId => do
      let requirement ← findRow .requirements requirementId
      require (requirement.any (·.runId == input.runId) = true)
        (.failure "Task requirement must belong to the same Run.")
      insertInto .taskRequirements { taskId := id, requirementId := requirementId }
    input.resourceScopes.forM fun scope =>
      insertInto .taskResourceScopes { taskId := id, scope := scope }
    refreshTaskReadinessInternal input.runId now
    mustTask id

structure TransitionTaskInput where
  error : Option String := none
  lease : Option FencedLease := none
  result : Option Json := none
  taskId : TaskId
  target : TaskStatus

def transitionTask (input : TransitionTaskInput) (clock : Date) : StoreM Task :=
  let now := clock.toISOString
  let generation := input.lease.map (·.generation)
  transaction do
    given input.lease fun lease => assertLeaseInternal lease now
    let task ← mustTask input.taskId
    given input.lease fun lease =>
      require (task.runId = lease.runId) (.failure "Task does not belong to the leased Run.")
    assertTaskTransition task.status input.target
    let releasesOwner := input.target = .completed ∨ input.target = .failed ∨ input.target = .cancelled
    updateRow .tasks task.id fun row =>
      { row with
        status := input.target
        completedAt := if input.target = .completed then some now else none
        updatedAt := now
        ownerAgentId := if releasesOwner then none else row.ownerAgentId
        attempt := row.attempt + if input.target = .failed then 1 else 0
        lastError := input.error
        result := input.result.or row.result
        leaseGeneration := generation.or row.leaseGeneration }
    let _ ← appendEventInternal task.runId .taskStatusChanged
      ([("taskId", .string task.id), ("to", .string input.target.text)] ++
        Json.optionalField "error" (input.error.map .string))
      now generation
    refreshTaskReadinessInternal task.runId now
    mustTask task.id

/-! Recovery after a takeover. -/

structure RecoveredGraphWork where
  agentIds : List AgentId
  taskIds : List TaskId

theorem readied_key (now : IsoTimestamp) (row : TaskRow) :
    key .tasks { row with status := .ready, updatedAt := now } = key .tasks row := rfl

def recoverTask (lease : FencedLease) (now : IsoTimestamp) (taskId : TaskId) : StoreM Unit := do
  updateRow .tasks taskId fun row =>
    { row with
      status := .failed
      ownerAgentId := none
      leaseGeneration := some lease.generation
      attempt := row.attempt + 1
      lastError := some "Executor was replaced before the task finished."
      updatedAt := now }
  updateRow .tasks taskId (fun row => { row with status := .ready, updatedAt := now }) (readied_key now)
  let _ ← appendEventInternal lease.runId .taskRecovered
    [("taskId", .string taskId), ("to", .string TaskStatus.ready.text)] now (some lease.generation)

def recoverAgent (lease : FencedLease) (now : IsoTimestamp) (agentId : AgentId) : StoreM Unit := do
  let _ ← transitionAgentInternal agentId .recovering now
  let _ ← transitionAgentInternal agentId .queued now
  updateRow .agents agentId fun row => { row with leaseGeneration := some lease.generation }

/-- `lease_generation < generation`; a NULL generation was never claimed. -/
def isStranded (leaseGeneration : Option Nat) (generation : Nat) : Bool :=
  leaseGeneration.any fun stored => stored < generation

def recoverGraphWork (lease : FencedLease) (clock : Date) : StoreM RecoveredGraphWork :=
  let now := clock.toISOString
  transaction do
    assertLeaseInternal lease now
    let strandedTasks ← selectRows .tasks fun row =>
      row.runId == lease.runId && row.status == .running && isStranded row.leaseGeneration lease.generation
    strandedTasks.forM fun row => recoverTask lease now row.id
    let strandedAgents ← selectRows .agents fun row =>
      row.runId == lease.runId && (row.status == .running || row.status == .recovering) &&
        isStranded row.leaseGeneration lease.generation
    strandedAgents.forM fun row => recoverAgent lease now row.id
    return { agentIds := strandedAgents.map (·.id), taskIds := strandedTasks.map (·.id) }

/-! Agents. -/

def listAgents (s : Store) (runId : RunId) : List Agent :=
  (((s .agents).rows.filter fun row => row.runId == runId).insertionSort
    fun row other => row.createdAt ≤ other.createdAt).map (agentFromRow s)

structure MarkAgentActiveInput where
  agentId : AgentId
  lease : FencedLease

/-- The agent, refused when it belongs to another Run than the lease. -/
def mustAgentOfLease (agentId : AgentId) (lease : FencedLease)
    (message : String := "Agent does not belong to the leased Run.") : StoreM Agent := do
  let agent ← mustAgent agentId
  require (agent.runId = lease.runId) (.failure message)
  return agent

def markAgentActive (input : MarkAgentActiveInput) (clock : Date) : StoreM Unit :=
  let now := clock.toISOString
  transaction do
    assertLeaseInternal input.lease now
    let _ ← mustAgentOfLease input.agentId input.lease
    updateRow .agents input.agentId fun row =>
      { row with leaseGeneration := some input.lease.generation, updatedAt := now }

structure SpawnAgentInput where
  lease : Option FencedLease := none
  parentAgentId : Option AgentId := none
  permissions : Option PermissionPolicy := none
  role : AgentRole
  runId : RunId
  sandbox : Option SandboxPolicy := none
  taskId : Option TaskId := none
  worktreeUri : Option String := none

def spawnAgent (input : SpawnAgentInput) (uuid : String) (clock : Date) : StoreM Agent :=
  let now := clock.toISOString
  let id := createId .agent (input.runId ++ ":" ++ uuid)
  transaction do
    given input.lease fun lease =>
      assertLeaseOfRun lease input.runId now "Agent lease does not match the Agent's Run."
    given input.parentAgentId fun parentAgentId => do
      let parent ← mustAgent parentAgentId
      require (parent.runId = input.runId) (.failure "Parent and child agent must belong to the same Run.")
    insertInto .agents
      { id := id, runId := input.runId, taskId := input.taskId, role := input.role, status := .created
        permissions := input.permissions.getD defaultPermissions
        sandbox := input.sandbox.getD defaultSandbox, worktreeUri := input.worktreeUri
        spawnedAt := now, createdAt := now, updatedAt := now }
    given input.parentAgentId fun parentAgentId =>
      insertInto .agentEdges
        { parentAgentId := parentAgentId, childAgentId := id, status := "open", createdAt := now }
    given input.lease fun lease =>
      updateRow .agents id fun row => { row with leaseGeneration := some lease.generation }
    let _ ← appendEventInternal input.runId .agentStatusChanged
      [("agentId", .string id), ("to", .string AgentStatus.created.text)] now (input.lease.map (·.generation))
    mustAgent id

structure TransitionAgentInput where
  agentId : AgentId
  lease : Option FencedLease := none
  target : AgentStatus

def transitionAgent (input : TransitionAgentInput) (clock : Date) : StoreM Agent :=
  let now := clock.toISOString
  transaction do
    given input.lease fun lease => do
      assertLeaseInternal lease now
      let _ ← mustAgentOfLease input.agentId lease
    let transitioned ← transitionAgentInternal input.agentId input.target now (input.lease.map (·.generation))
    given input.lease fun lease =>
      updateRow .agents input.agentId fun row => { row with leaseGeneration := some lease.generation }
    return transitioned

structure SetAgentWorktreeInput where
  agentId : AgentId
  lease : FencedLease
  worktreeUri : String

def setAgentWorktree (input : SetAgentWorktreeInput) (clock : Date) : StoreM Agent :=
  let now := clock.toISOString
  transaction do
    assertLeaseInternal input.lease now
    let agent ← mustAgentOfLease input.agentId input.lease
    require (agent.worktreeUri = none) (.failure ("Agent '" ++ input.agentId ++ "' already has a worktree."))
    updateRow .agents input.agentId fun row =>
      { row with
        worktreeUri := some input.worktreeUri
        leaseGeneration := some input.lease.generation
        updatedAt := now }
    let _ ← appendEventInternal input.lease.runId .agentWorktreeAssigned
      [("agentId", .string input.agentId), ("worktreeUri", .string input.worktreeUri)] now
      (some input.lease.generation)
    mustAgent input.agentId

/-! The agents' mailbox. -/

structure SendAgentMessageInput where
  body : JsonObject
  fromAgentId : Option AgentId := none
  kind : AgentMessageKind
  lease : FencedLease
  taskId : Option TaskId := none
  toAgentId : AgentId

def AgentMessageKind.text : AgentMessageKind → String
  | .taskAssignment => "task_assignment" | .taskResult => "task_result" | .question => "question"
  | .answer => "answer" | .reviewRequest => "review_request" | .reviewResult => "review_result"
  | .status => "status"

def sendAgentMessage (input : SendAgentMessageInput) (uuid : String) (clock : Date) : StoreM AgentMessageRow :=
  let now := clock.toISOString
  let id := createId .agentMessage (input.lease.runId ++ ":" ++ uuid)
  transaction do
    assertLeaseInternal input.lease now
    let _ ← mustAgentOfLease input.toAgentId input.lease "Agent message recipient belongs to another Run."
    given input.fromAgentId fun fromAgentId => do
      let _ ← mustAgentOfLease fromAgentId input.lease "Agent message sender belongs to another Run."
    insertInto .agentMessages
      { id := id, runId := input.lease.runId, fromAgentId := input.fromAgentId, toAgentId := input.toAgentId
        taskId := input.taskId, kind := input.kind, body := input.body, status := .pending
        leaseGeneration := input.lease.generation, createdAt := now }
    let _ ← appendEventInternal input.lease.runId .agentMessageSent
      ([("kind", .string input.kind.text), ("messageId", .string id), ("toAgentId", .string input.toAgentId)] ++
        Json.optionalField "fromAgentId" (input.fromAgentId.map .string))
      now (some input.lease.generation)
    mustRow .agentMessages id (notFound "Agent message" id)

structure ReceiveAgentMessagesInput where
  agentId : AgentId
  lease : FencedLease
  limit : Option Int := none

/-- `LIMIT ?`; a negative limit is no limit. -/
def limitRows {α : Type} (limit : Int) (rows : List α) : List α :=
  if limit < 0 then rows else rows.take limit.toNat

def receiveAgentMessages (input : ReceiveAgentMessagesInput) (clock : Date) : StoreM (List AgentMessageRow) :=
  let now := clock.toISOString
  transaction do
    assertLeaseInternal input.lease now
    let rows ← selectRows .agentMessages fun row =>
      row.toAgentId == input.agentId && row.runId == input.lease.runId && row.status == .pending
    let messages := limitRows (input.limit.getD 32)
      (rows.insertionSort fun row other => row.createdAt ≤ other.createdAt)
    messages.forM fun message => do
      updateRow .agentMessages message.id fun row => { row with status := .delivered, deliveredAt := some now }
      let _ ← appendEventInternal input.lease.runId .agentMessageDelivered
        [("messageId", .string message.id), ("toAgentId", .string input.agentId)] now
        (some input.lease.generation)
    return messages.map fun message => { message with deliveredAt := some now, status := .delivered }

def listAgentMessages (s : Store) (runId : RunId) : List AgentMessageRow :=
  ((s .agentMessages).rows.filter fun row => row.runId == runId).insertionSort
    fun row other => row.createdAt ≤ other.createdAt

/-! Session epochs. -/

structure StartSessionEpochInput where
  agentId : AgentId
  lease : Option FencedLease := none
  model : String
  provider : String

/-- One more than the largest ordinal of the agent's epochs, 1 for the first. -/
def nextOrdinal (epochs : List SessionEpochRow) : Nat :=
  (epochs.map (·.ordinal)).foldr max 0 + 1

def startSessionEpoch (input : StartSessionEpochInput) (clock : Date) : StoreM SessionEpochRow :=
  let now := clock.toISOString
  transaction do
    let agent ← mustAgent input.agentId
    given input.lease fun lease =>  do
      require (agent.runId = lease.runId)
        (.leaseFenced lease.runId "Session epoch agent belongs to another Run.")
      assertLeaseInternal lease now
    let epochs ← selectRows .sessionEpochs fun row => row.agentId == input.agentId
    let ordinal := nextOrdinal epochs
    let id := createId .sessionEpoch (agent.id ++ ":" ++ toString ordinal)
    insertInto .sessionEpochs
      { id := id, agentId := agent.id, ordinal := ordinal, provider := input.provider, model := input.model
        startedAt := now, createdAt := now, updatedAt := now }
    mustRow .sessionEpochs id (notFound "Session epoch" id)

structure EndSessionEpochInput where
  id : SessionEpochId
  lease : Option FencedLease := none
  reason : EndReason

/-- The Run of the agent a session epoch belongs to. -/
def epochRun (s : Store) (id : SessionEpochId) : Option RunId :=
  ((s .sessionEpochs).find? id).bind fun epoch => ((s .agents).find? epoch.agentId).map (·.runId)

def endSessionEpoch (input : EndSessionEpochInput) (clock : Date) : StoreM SessionEpochRow :=
  let now := clock.toISOString
  transaction do
    given input.lease fun lease => do
      let s ← get
      require (epochRun s input.id = some lease.runId)
        (.leaseFenced lease.runId "Session epoch belongs to another Run.")
      assertLeaseInternal lease now
    updateRows .sessionEpochs (fun row => row.id == input.id && row.endedAt.isNone) fun row =>
      { row with endedAt := some now, endReason := some input.reason, updatedAt := now }
    mustRow .sessionEpochs input.id (notFound "Session epoch" input.id)

end OttiliCoder
