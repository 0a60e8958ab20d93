import OttiliCoder.Core.Policies
import OttiliCoder.Core.StateMachine
import OttiliCoder.Library.Database

/-! The tables of the control plane. Every column the store reads or writes is a
field of its row; a JSON column holds the value it encodes. -/

namespace OttiliCoder

structure MissionRow where
  id : MissionId
  title : String
  prompt : String
  workspaceUri : String
  createdAt : IsoTimestamp
  updatedAt : IsoTimestamp

/-- A Run as `runFromRow` reports it. -/
structure Run where
  id : RunId
  missionId : MissionId
  status : RunStatus
  title : String
  budget : RunBudget
  usage : BudgetUsage
  currentGoalId : Option GoalId
  startedAt : Option IsoTimestamp
  completedAt : Option IsoTimestamp := none
  blockedReason : Option String := none
  revision : Nat := 0
  createdAt : IsoTimestamp
  updatedAt : IsoTimestamp

structure RunRow extends Run where
  nextSequence : Nat := 0
  runEpoch : Nat := 0

/-- A Goal as `goalFromRow` reports it. -/
structure Goal where
  id : GoalId
  runId : RunId
  title : String
  description : String
  status : GoalStatus
  continuationCount : Nat := 0
  blockerFingerprint : Option String := none
  completedAt : Option IsoTimestamp := none
  createdAt : IsoTimestamp
  updatedAt : IsoTimestamp

structure GoalRow extends Goal where
  goalVersion : String
  blockerAuditEpoch : Nat := 0

structure TaskRow where
  id : TaskId
  runId : RunId
  goalId : Option GoalId
  title : String
  description : String
  status : TaskStatus
  ownerAgentId : Option AgentId := none
  result : Option Json := none
  completedAt : Option IsoTimestamp := none
  leaseGeneration : Option Nat := none
  attempt : Nat := 0
  lastError : Option String := none
  createdAt : IsoTimestamp
  updatedAt : IsoTimestamp

structure TaskDependencyRow where
  taskId : TaskId
  dependencyId : TaskId

structure TaskResourceScopeRow where
  taskId : TaskId
  scope : ResourceScope

inductive AgentRole where
  | coordinator | researcher | implementer | debugger | reviewer | verifier | specialist
deriving DecidableEq

structure AgentRow where
  id : AgentId
  runId : RunId
  taskId : Option TaskId
  role : AgentRole
  status : AgentStatus
  permissions : PermissionPolicy
  sandbox : SandboxPolicy
  worktreeUri : Option String := none
  spawnedAt : IsoTimestamp
  closedAt : Option IsoTimestamp := none
  leaseGeneration : Option Nat := none
  createdAt : IsoTimestamp
  updatedAt : IsoTimestamp

structure AgentEdgeRow where
  parentAgentId : AgentId
  childAgentId : AgentId
  status : String
  createdAt : IsoTimestamp

inductive EndReason where
  | completed | compacted | contextOverflow | providerChanged | aborted | failed
deriving DecidableEq

structure SessionEpochRow where
  id : SessionEpochId
  agentId : AgentId
  ordinal : Nat
  provider : String
  model : String
  startedAt : IsoTimestamp
  endedAt : Option IsoTimestamp := none
  endReason : Option EndReason := none
  handoffContextSnapshotId : Option ContextSnapshotId := none
  createdAt : IsoTimestamp
  updatedAt : IsoTimestamp

inductive RequirementStatus where
  | contradicted | proven | unproven | waived
deriving DecidableEq

structure RequirementRow where
  id : RequirementId
  runId : RunId
  title : String
  required : Bool
  status : RequirementStatus
  createdAt : IsoTimestamp
  updatedAt : IsoTimestamp

inductive EvidenceKind where
  | artifact | command | inspection | review | test
deriving DecidableEq

inductive EvidenceStrength where
  | strong | supporting | weak
deriving DecidableEq

structure EvidenceRow where
  id : EvidenceId
  runId : RunId
  requirementId : RequirementId
  taskId : Option TaskId
  kind : EvidenceKind
  strength : EvidenceStrength
  summary : String
  createdAt : IsoTimestamp

/-- `passed` is whether the status is `passed`; every other row is `failed`. -/
structure ValidationRow where
  id : ValidationId
  runId : RunId
  taskId : Option TaskId
  name : String
  passed : Bool
  summary : String
  independent : Bool
  createdAt : IsoTimestamp
  updatedAt : IsoTimestamp

inductive RunEventType where
  | runCreated | runStatusChanged | goalStatusChanged | taskStatusChanged | agentStatusChanged
  | agentTurnStarted | agentWorktreeAssigned | agentMessage | agentProgress | agentFailed
  | agentCompleted | agentMessageSent | agentMessageDelivered | taskAssigned | taskRecovered
  | providerFailed | contextCompacted | runRetryScheduled | toolCallStarted | toolCallFinished
  | checkpointCreated | checkpointRestored | approvalRequested | approvalResolved
  | recoveryRequired | validationFinished | steeringReceived
deriving DecidableEq

def RunEventType.text : RunEventType → String
  | .runCreated => "run.created"
  | .runStatusChanged => "run.status_changed"
  | .goalStatusChanged => "goal.status_changed"
  | .taskStatusChanged => "task.status_changed"
  | .agentStatusChanged => "agent.status_changed"
  | .agentTurnStarted => "agent.turn_started"
  | .agentWorktreeAssigned => "agent.worktree_assigned"
  | .agentMessage => "agent.message"
  | .agentProgress => "agent.progress"
  | .agentFailed => "agent.failed"
  | .agentCompleted => "agent.completed"
  | .agentMessageSent => "agent.message_sent"
  | .agentMessageDelivered => "agent.message_delivered"
  | .taskAssigned => "task.assigned"
  | .taskRecovered => "task.recovered"
  | .providerFailed => "provider.failed"
  | .contextCompacted => "context.compacted"
  | .runRetryScheduled => "run.retry_scheduled"
  | .toolCallStarted => "tool.call_started"
  | .toolCallFinished => "tool.call_finished"
  | .checkpointCreated => "checkpoint.created"
  | .checkpointRestored => "checkpoint.restored"
  | .approvalRequested => "approval.requested"
  | .approvalResolved => "approval.resolved"
  | .recoveryRequired => "recovery.required"
  | .validationFinished => "validation.finished"
  | .steeringReceived => "steering.received"

structure RunEventRow where
  runId : RunId
  seq : Nat
  type : RunEventType
  payload : JsonObject
  leaseGeneration : Option Nat
  createdAt : IsoTimestamp

structure RunLeaseRow where
  runId : RunId
  id : RunLeaseId
  holderId : String
  generation : Nat
  expiresAt : IsoTimestamp
  heartbeatAt : IsoTimestamp
  host : Option String
  processId : Option Int
  createdAt : IsoTimestamp
  updatedAt : IsoTimestamp

structure CommandReceiptRow where
  commandId : String
  runId : RunId
  result : Run
  createdAt : IsoTimestamp

structure ResourceLockRow where
  id : String
  runId : RunId
  taskId : Option TaskId
  holderId : String
  scope : ResourceScope
  expiresAt : IsoTimestamp
  createdAt : IsoTimestamp
  leaseGeneration : Nat

inductive ActionStatus where
  | pending | claimed
deriving DecidableEq

/-- The one continuation a Run may have. -/
structure ScheduledActionRow where
  runId : RunId
  dueAt : IsoTimestamp
  status : ActionStatus
  claimedBy : Option String := none
  claimedEpoch : Option Nat := none
  attempt : Nat := 0
  createdAt : IsoTimestamp
  updatedAt : IsoTimestamp

inductive WakeStatus where
  | pending | woken
deriving DecidableEq

structure WakeConditionRow where
  id : String
  runId : RunId
  wakeAt : IsoTimestamp
  status : WakeStatus
  createdAt : IsoTimestamp
  updatedAt : IsoTimestamp

inductive ToolCallStatus where
  | running | succeeded | failed | unknownAfterCrash
deriving DecidableEq

structure ToolCallRow where
  id : ToolCallId
  runId : RunId
  agentId : Option AgentId
  taskId : Option TaskId
  name : String
  sideEffectClass : ToolSideEffectClass
  idempotency : ToolIdempotency
  recovery : ToolRecoveryStrategy
  status : ToolCallStatus
  input : Json
  output : Option Json := none
  error : Option JsonObject := none
  leaseGeneration : Nat
  startedAt : IsoTimestamp
  completedAt : Option IsoTimestamp := none

structure CheckpointRow where
  id : CheckpointId
  runId : RunId
  sequence : Nat
  label : String
  reason : String
  workspaceRef : Option String
  manifest : JsonObject
  createdAt : IsoTimestamp

inductive MilestoneStatus where
  | pending | active | completed | cancelled
deriving DecidableEq

structure MilestoneRow where
  id : MilestoneId
  runId : RunId
  title : String
  status : MilestoneStatus
  createdAt : IsoTimestamp
  updatedAt : IsoTimestamp

structure MilestoneTaskRow where
  milestoneId : MilestoneId
  taskId : TaskId

structure DecisionRow where
  id : DecisionId
  runId : RunId
  title : String
  rationale : String
  alternatives : List String
  evidenceIds : List String
  createdAt : IsoTimestamp
  updatedAt : IsoTimestamp

inductive ProblemStatus where
  | opened | waiting | resolved | blocked
deriving DecidableEq

structure ProblemRow where
  id : ProblemId
  runId : RunId
  fingerprint : String
  summary : String
  externalDependency : Bool
  alternateActionAvailable : Bool
  meaningfulAttempts : Nat
  status : ProblemStatus
  createdAt : IsoTimestamp
  updatedAt : IsoTimestamp

structure ProblemObservationRow where
  id : String
  problemId : ProblemId
  meaningful : Bool
  externalDependency : Bool
  alternateActionAvailable : Bool
  note : Option String
  occurredAt : IsoTimestamp

structure TaskProblemRow where
  taskId : TaskId
  problemId : ProblemId

structure TaskRequirementRow where
  taskId : TaskId
  requirementId : RequirementId

structure TaskEvidenceRow where
  taskId : TaskId
  evidenceId : EvidenceId

structure ArtifactRow where
  id : ArtifactId
  runId : RunId
  label : String
  uri : String
  mediaType : Option String
  sizeBytes : Option Number
  checksum : Option String
  createdAt : IsoTimestamp
  updatedAt : IsoTimestamp

structure EvidenceArtifactRow where
  evidenceId : EvidenceId
  artifactId : ArtifactId

structure GitChangeRow where
  id : GitChangeId
  runId : RunId
  repositoryUri : String
  revision : String
  summary : String
  taskIds : List TaskId
  createdAt : IsoTimestamp
  updatedAt : IsoTimestamp

structure CostRecordRow where
  id : CostRecordId
  runId : RunId
  agentId : Option AgentId
  sessionEpochId : Option SessionEpochId
  inputTokens : Number
  outputTokens : Number
  cachedTokens : Number
  costUsd : Number
  createdAt : IsoTimestamp
  updatedAt : IsoTimestamp
  entryKey : Option String

inductive RecoveryStatus where
  | idle | required | reconciling | recovered | manualIntervention
deriving DecidableEq

structure RecoveryStateRow where
  id : RecoveryStateId
  runId : RunId
  status : RecoveryStatus
  lastCheckpointId : Option CheckpointId
  unknownToolCallIds : List String
  reason : Option String
  createdAt : IsoTimestamp
  updatedAt : IsoTimestamp

structure ContextSnapshotRow where
  id : ContextSnapshotId
  runId : RunId
  agentId : Option AgentId
  sessionEpochId : Option SessionEpochId
  summary : String
  tokenCount : Number
  checkpointId : Option CheckpointId
  createdAt : IsoTimestamp
  updatedAt : IsoTimestamp

inductive MemoryScope where
  | run | project | agent
deriving DecidableEq

structure MemoryEntryRow where
  id : MemoryEntryId
  runId : RunId
  scope : MemoryScope
  content : String
  confidence : Number
  agentId : Option AgentId
  sourceEvidenceIds : List String
  createdAt : IsoTimestamp
  updatedAt : IsoTimestamp

inductive ApprovalStatus where
  | pending | approved | consumed | rejected | expired
deriving DecidableEq

structure ApprovalRow where
  id : ApprovalId
  runId : RunId
  agentId : Option AgentId
  toolCallId : Option ToolCallId
  status : ApprovalStatus
  summary : String
  requestedAt : IsoTimestamp
  resolvedAt : Option IsoTimestamp := none
  resolverId : Option String := none
  createdAt : IsoTimestamp
  updatedAt : IsoTimestamp

inductive AgentMessageKind where
  | taskAssignment | taskResult | question | answer | reviewRequest | reviewResult | status
deriving DecidableEq

inductive AgentMessageStatus where
  | pending | delivered
deriving DecidableEq

structure AgentMessageRow where
  id : AgentMessageId
  runId : RunId
  fromAgentId : Option AgentId
  toAgentId : AgentId
  taskId : Option TaskId
  kind : AgentMessageKind
  body : JsonObject
  status : AgentMessageStatus
  leaseGeneration : Nat
  createdAt : IsoTimestamp
  deliveredAt : Option IsoTimestamp := none

structure UsageEntryRow where
  runId : RunId
  entryKey : String
  agentId : Option AgentId
  delta : BudgetDelta
  leaseGeneration : Nat
  createdAt : IsoTimestamp

inductive Table where
  | missions | runs | goals | tasks | taskDependencies | taskResourceScopes | agents | agentEdges
  | sessionEpochs | requirements | evidence | validations | runEvents | runLeases | commandReceipts
  | resourceLocks | scheduledActions | wakeConditions | toolCalls | checkpoints | milestones
  | milestoneTasks | decisions | problems | problemObservations | taskProblems | taskRequirements
  | taskEvidence | artifacts | evidenceArtifacts | gitChanges | costRecords | recoveryStates
  | contextSnapshots | memoryEntries | approvals | agentMessages | usageEntries
deriving DecidableEq

@[reducible] def Row : Table → Type
  | .missions => MissionRow
  | .runs => RunRow
  | .goals => GoalRow
  | .tasks => TaskRow
  | .taskDependencies => TaskDependencyRow
  | .taskResourceScopes => TaskResourceScopeRow
  | .agents => AgentRow
  | .agentEdges => AgentEdgeRow
  | .sessionEpochs => SessionEpochRow
  | .requirements => RequirementRow
  | .evidence => EvidenceRow
  | .validations => ValidationRow
  | .runEvents => RunEventRow
  | .runLeases => RunLeaseRow
  | .commandReceipts => CommandReceiptRow
  | .resourceLocks => ResourceLockRow
  | .scheduledActions => ScheduledActionRow
  | .wakeConditions => WakeConditionRow
  | .toolCalls => ToolCallRow
  | .checkpoints => CheckpointRow
  | .milestones => MilestoneRow
  | .milestoneTasks => MilestoneTaskRow
  | .decisions => DecisionRow
  | .problems => ProblemRow
  | .problemObservations => ProblemObservationRow
  | .taskProblems => TaskProblemRow
  | .taskRequirements => TaskRequirementRow
  | .taskEvidence => TaskEvidenceRow
  | .artifacts => ArtifactRow
  | .evidenceArtifacts => EvidenceArtifactRow
  | .gitChanges => GitChangeRow
  | .costRecords => CostRecordRow
  | .recoveryStates => RecoveryStateRow
  | .contextSnapshots => ContextSnapshotRow
  | .memoryEntries => MemoryEntryRow
  | .approvals => ApprovalRow
  | .agentMessages => AgentMessageRow
  | .usageEntries => UsageEntryRow

@[reducible] def Key : Table → Type
  | .taskDependencies | .agentEdges | .milestoneTasks | .taskProblems | .taskRequirements
  | .taskEvidence | .evidenceArtifacts | .usageEntries => String × String
  | .taskResourceScopes => TaskId × ResourceScope
  | .runEvents => RunId × Nat
  | _ => String

instance : (t : Table) → DecidableEq (Key t)
  | .missions | .runs | .goals | .tasks | .agents | .sessionEpochs | .requirements | .evidence
  | .validations | .runLeases | .commandReceipts | .resourceLocks | .scheduledActions
  | .wakeConditions | .toolCalls | .checkpoints | .milestones | .decisions | .problems
  | .problemObservations | .artifacts | .gitChanges | .costRecords | .recoveryStates
  | .contextSnapshots | .memoryEntries | .approvals | .agentMessages =>
    inferInstanceAs (DecidableEq String)
  | .taskDependencies | .agentEdges | .milestoneTasks | .taskProblems | .taskRequirements
  | .taskEvidence | .evidenceArtifacts | .usageEntries => inferInstanceAs (DecidableEq (String × String))
  | .taskResourceScopes => inferInstanceAs (DecidableEq (TaskId × ResourceScope))
  | .runEvents => inferInstanceAs (DecidableEq (RunId × Nat))

/-- The primary key of each table; events are kept by their Run and sequence. -/
@[reducible] def key : (t : Table) → Row t → Key t
  | .missions => MissionRow.id
  | .runs => fun row => row.id
  | .goals => fun row => row.id
  | .tasks => TaskRow.id
  | .taskDependencies => fun row => (row.taskId, row.dependencyId)
  | .taskResourceScopes => fun row => (row.taskId, row.scope)
  | .agents => AgentRow.id
  | .agentEdges => fun row => (row.parentAgentId, row.childAgentId)
  | .sessionEpochs => SessionEpochRow.id
  | .requirements => RequirementRow.id
  | .evidence => EvidenceRow.id
  | .validations => ValidationRow.id
  | .runEvents => fun row => (row.runId, row.seq)
  | .runLeases => RunLeaseRow.runId
  | .commandReceipts => CommandReceiptRow.commandId
  | .resourceLocks => ResourceLockRow.id
  | .scheduledActions => ScheduledActionRow.runId
  | .wakeConditions => WakeConditionRow.id
  | .toolCalls => ToolCallRow.id
  | .checkpoints => CheckpointRow.id
  | .milestones => MilestoneRow.id
  | .milestoneTasks => fun row => (row.milestoneId, row.taskId)
  | .decisions => DecisionRow.id
  | .problems => ProblemRow.id
  | .problemObservations => ProblemObservationRow.id
  | .taskProblems => fun row => (row.taskId, row.problemId)
  | .taskRequirements => fun row => (row.taskId, row.requirementId)
  | .taskEvidence => fun row => (row.taskId, row.evidenceId)
  | .artifacts => ArtifactRow.id
  | .evidenceArtifacts => fun row => (row.evidenceId, row.artifactId)
  | .gitChanges => GitChangeRow.id
  | .costRecords => CostRecordRow.id
  | .recoveryStates => RecoveryStateRow.id
  | .contextSnapshots => ContextSnapshotRow.id
  | .memoryEntries => MemoryEntryRow.id
  | .approvals => ApprovalRow.id
  | .agentMessages => AgentMessageRow.id
  | .usageEntries => fun row => (row.runId, row.entryKey)

open Relational

abbrev Store := Db key

def Store.empty : Store := fun _ => Keyed.empty

/-- The unique constraints beside the primary keys. -/
def clash : (t : Table) → Row t → Row t → Bool
  | .agentEdges => fun row other => row.childAgentId == other.childAgentId
  | .sessionEpochs => fun row other => row.agentId == other.agentId && row.ordinal == other.ordinal
  | .checkpoints => fun row other => row.runId == other.runId && row.sequence == other.sequence
  | .problems => fun row other => row.runId == other.runId && row.fingerprint == other.fingerprint
  | .costRecords => fun row other =>
    row.runId == other.runId && row.entryKey.isSome && row.entryKey == other.entryKey
  | .recoveryStates => fun row other => row.runId == other.runId
  | _ => fun _ _ => false

namespace Store

def has (s : Store) (t : Table) (k : Key t) : Bool := ((s t).find? k).isSome

def hasOptional (s : Store) (t : Table) (k : Option (Key t)) : Bool := k.all (s.has t)

end Store

/-- The foreign keys, which SQLite enforces. -/
def references (s : Store) : (t : Table) → Row t → Bool
  | .missions, _ => true
  | .runs, row => s.has .missions row.missionId
  | .goals, row => s.has .runs row.runId
  | .tasks, row => s.has .runs row.runId && s.hasOptional .goals row.goalId
  | .taskDependencies, row => s.has .tasks row.taskId && s.has .tasks row.dependencyId
  | .taskResourceScopes, row => s.has .tasks row.taskId
  | .agents, row => s.has .runs row.runId && s.hasOptional .tasks row.taskId
  | .agentEdges, row => s.has .agents row.parentAgentId && s.has .agents row.childAgentId
  | .sessionEpochs, row => s.has .agents row.agentId
  | .requirements, row => s.has .runs row.runId
  | .evidence, row => s.has .runs row.runId && s.has .requirements row.requirementId &&
      s.hasOptional .tasks row.taskId
  | .validations, row => s.has .runs row.runId && s.hasOptional .tasks row.taskId
  | .runEvents, row => s.has .runs row.runId
  | .runLeases, row => s.has .runs row.runId
  | .commandReceipts, row => s.has .runs row.runId
  | .resourceLocks, row => s.has .runs row.runId && s.hasOptional .tasks row.taskId
  | .scheduledActions, row => s.has .runs row.runId
  | .wakeConditions, row => s.has .runs row.runId
  | .toolCalls, row => s.has .runs row.runId && s.hasOptional .agents row.agentId &&
      s.hasOptional .tasks row.taskId
  | .checkpoints, row => s.has .runs row.runId
  | .milestones, row => s.has .runs row.runId
  | .milestoneTasks, row => s.has .milestones row.milestoneId && s.has .tasks row.taskId
  | .decisions, row => s.has .runs row.runId
  | .problems, row => s.has .runs row.runId
  | .problemObservations, row => s.has .problems row.problemId
  | .taskProblems, row => s.has .tasks row.taskId && s.has .problems row.problemId
  | .taskRequirements, row => s.has .tasks row.taskId && s.has .requirements row.requirementId
  | .taskEvidence, row => s.has .tasks row.taskId && s.has .evidence row.evidenceId
  | .artifacts, row => s.has .runs row.runId
  | .evidenceArtifacts, row => s.has .evidence row.evidenceId && s.has .artifacts row.artifactId
  | .gitChanges, row => s.has .runs row.runId
  | .costRecords, row => s.has .runs row.runId && s.hasOptional .agents row.agentId &&
      s.hasOptional .sessionEpochs row.sessionEpochId
  | .recoveryStates, row => s.has .runs row.runId && s.hasOptional .checkpoints row.lastCheckpointId
  | .contextSnapshots, row => s.has .runs row.runId && s.hasOptional .agents row.agentId &&
      s.hasOptional .sessionEpochs row.sessionEpochId && s.hasOptional .checkpoints row.checkpointId
  | .memoryEntries, row => s.has .runs row.runId && s.hasOptional .agents row.agentId
  | .approvals, row => s.has .runs row.runId && s.hasOptional .agents row.agentId &&
      s.hasOptional .toolCalls row.toolCallId
  | .agentMessages, row => s.has .runs row.runId && s.hasOptional .agents row.fromAgentId &&
      s.has .agents row.toAgentId && s.hasOptional .tasks row.taskId
  | .usageEntries, row => s.has .runs row.runId && s.hasOptional .agents row.agentId

def schema : Constraints key where
  clash := clash
  references := references

end OttiliCoder
