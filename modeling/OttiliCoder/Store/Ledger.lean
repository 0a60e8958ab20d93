import OttiliCoder.Store.Runs

/-! The ledger of a Run: requirements, evidence, validations, approvals, problems
and the records an executor leaves behind. -/

namespace OttiliCoder
open Relational Transaction

/-! Requirements, evidence and validations. -/

structure AddRequirementInput where
  id : Option RequirementId := none
  lease : Option FencedLease := none
  required : Option Bool := none
  runId : RunId
  title : String

def addRequirement (input : AddRequirementInput) (uuid : String) (clock : Date) : StoreM RequirementRecord :=
  let now := clock.toISOString
  let id := input.id.getD (createId .requirement (input.runId ++ ":" ++ uuid))
  transaction do
    given input.lease fun lease =>
      assertLeaseOfRun lease input.runId now "Requirement lease does not match its Run."
    let existing ← findRow .requirements id
    onlyIf (existing.any (·.runId == input.runId) = false) do
      insertInto .requirements
        { id := id, runId := input.runId, title := input.title, required := input.required.getD true
          status := .unproven, createdAt := now, updatedAt := now }
    let s ← get
    expect ((listRequirements s input.runId).find? fun candidate => candidate.id == id)
      (.failure ("Requirement '" ++ id ++ "' could not be persisted."))

structure AddEvidenceInput where
  artifactIds : List ArtifactId := []
  kind : EvidenceKind
  lease : Option FencedLease := none
  requirementId : RequirementId
  runId : RunId
  strength : EvidenceStrength
  summary : String
  taskId : Option TaskId := none

def touchRequirement (requirementId : RequirementId) (runId : RunId) (now : IsoTimestamp) : StoreM Unit :=
  updateRows .requirements (fun row => row.id == requirementId && row.runId == runId)
    fun row => { row with updatedAt := now }

/-- The requirement is not asked whether it belongs to the Run. -/
def addEvidence (input : AddEvidenceInput) (uuid : String) (clock : Date) : StoreM EvidenceId :=
  let now := clock.toISOString
  let id := "evidence_" ++ uuid
  transaction do
    given input.lease fun lease =>
      assertLeaseOfRun lease input.runId now "Evidence lease does not match its Run."
    insertInto .evidence
      { id := id, runId := input.runId, requirementId := input.requirementId, taskId := input.taskId
        kind := input.kind, strength := input.strength, summary := input.summary, createdAt := now }
    given input.taskId fun taskId => do
      let task ← mustTask taskId
      require (task.runId = input.runId) (.failure "Evidence task must belong to the same Run.")
      insertOrIgnoreInto .taskEvidence { taskId := taskId, evidenceId := id }
    input.artifactIds.forM fun artifactId => do
      let artifact ← mustRow .artifacts artifactId (notFound "Artifact" artifactId)
      require (artifact.runId = input.runId) (.failure "Evidence artifact must belong to the same Run.")
      insertOrIgnoreInto .evidenceArtifacts { evidenceId := id, artifactId := artifactId }
    touchRequirement input.requirementId input.runId now
    return id

structure SetRequirementStatusInput where
  runId : RunId
  requirementId : RequirementId
  status : RequirementStatus
  lease : Option FencedLease := none

/-- The clock is read for the lease and again for the update. -/
def setRequirementStatus (input : SetRequirementStatusInput) (clock updated : Date) : StoreM Unit :=
  transaction do
    given input.lease fun lease =>
      assertLeaseOfRun lease input.runId clock.toISOString "Requirement lease does not match its Run."
    onlyIf (input.status = .proven) do
      let evidence ← selectRows .evidence fun row =>
        row.requirementId == input.requirementId && row.strength == .strong
      require (evidence.isEmpty = false)
        (.failure ("Requirement '" ++ input.requirementId ++ "' cannot be proven without strong evidence."))
    updateRows .requirements (fun row => row.id == input.requirementId && row.runId == input.runId)
      fun row => { row with status := input.status, updatedAt := updated.toISOString }

structure RecordValidationInput where
  independent : Option Bool := none
  lease : Option FencedLease := none
  name : String
  passed : Bool
  runId : RunId
  summary : String
  taskId : Option TaskId := none

def recordValidation (input : RecordValidationInput) (uuid : String) (clock : Date) : StoreM ValidationId :=
  let now := clock.toISOString
  let id := "validation_" ++ uuid
  transaction do
    given input.lease fun lease =>
      assertRunLeaseInternal lease input.runId now "Validation lease belongs to another Run."
    insertInto .validations
      { id := id, runId := input.runId, taskId := input.taskId, name := input.name, passed := input.passed
        summary := input.summary, independent := input.independent == some true
        createdAt := now, updatedAt := now }
    given input.taskId fun taskId => do
      let task ← mustTask taskId
      require (task.runId = input.runId) (.failure "Validation task must belong to the same Run.")
    let _ ← appendEventInternal input.runId .validationFinished
      [("id", .string id), ("passed", .boolean input.passed)] now
    return id

/-! Approvals. -/

structure RequestApprovalInput where
  agentId : Option AgentId := none
  lease : Option FencedLease := none
  runId : RunId
  summary : String
  toolCallId : Option ToolCallId := none

def requestApproval (input : RequestApprovalInput) (uuid : String) (clock : Date) : StoreM ApprovalRow :=
  let now := clock.toISOString
  let id := createId .approval (input.runId ++ ":" ++ uuid)
  transaction do
    given input.lease fun lease =>
      assertRunLeaseInternal lease input.runId now "Approval lease belongs to another Run."
    insertInto .approvals
      { id := id, runId := input.runId, agentId := input.agentId, toolCallId := input.toolCallId
        status := .pending, summary := input.summary, requestedAt := now, createdAt := now, updatedAt := now }
    let _ ← appendEventInternal input.runId .approvalRequested
      [("approvalId", .string id), ("summary", .string input.summary)] now
    mustApproval id

inductive ApprovalResolution where
  | approved | rejected | expired
deriving DecidableEq

def ApprovalResolution.status : ApprovalResolution → ApprovalStatus
  | .approved => .approved
  | .rejected => .rejected
  | .expired => .expired

def ApprovalResolution.text : ApprovalResolution → String
  | .approved => "approved"
  | .rejected => "rejected"
  | .expired => "expired"

structure ResolveApprovalInput where
  approvalId : ApprovalId
  resolverId : String
  status : ApprovalResolution

/-- Resolves a pending approval. Once no decision is pending, a Run that waits is
set running again with its continuation. -/
def resolveApproval (input : ResolveApprovalInput) (clock : Date) : StoreM ApprovalRow :=
  let now := clock.toISOString
  transaction do
    let existing ← mustApproval input.approvalId
    require (existing.status = .pending)
      (.failure ("Approval '" ++ existing.id ++ "' has already been resolved."))
    updateRows .approvals (fun row => row.id == input.approvalId && row.status == .pending) fun row =>
      { row with
        status := input.status.status
        resolvedAt := some now
        resolverId := some input.resolverId
        updatedAt := now }
    let _ ← appendEventInternal existing.runId .approvalResolved
      [("approvalId", .string existing.id), ("status", .string input.status.text)] now
    let pending ← selectRows .approvals fun row => row.runId == existing.runId && row.status == .pending
    let run ← mustRun existing.runId
    onlyIf (pending.isEmpty = true ∧ run.status = .waitingExternal) do
      transitionRunInternal existing.runId .running now
      ensureContinuationInternal existing.runId now
    mustApproval input.approvalId

/-! Problems. -/

structure RecordProblemInput where
  alternateActionAvailable : Bool
  lease : Option FencedLease := none
  externalDependency : Bool
  fingerprint : String
  meaningful : Option Bool := none
  note : Option String := none
  runId : RunId
  summary : String
  taskId : Option TaskId := none

/-- Three meaningful observations that all wait on external state with no
alternative left make a problem a blocker. -/
def isBlocking (observations : List ProblemObservationRow) : Bool :=
  let meaningful := observations.filter (·.meaningful)
  3 ≤ meaningful.length && meaningful.all (·.externalDependency) &&
    meaningful.all fun observation => !observation.alternateActionAvailable

/-- The problem already recorded under the fingerprint, or the id of a new one. -/
def problemId (stored : List ProblemRow) (runId : RunId) (fingerprint : String) : ProblemId :=
  match stored.head? with
  | some row => row.id
  | none => createId .problem (runId ++ ":" ++ fingerprint)

def openProblem (input : RecordProblemInput) (stored : List ProblemRow) (now : IsoTimestamp) : StoreM Unit :=
  onlyIf (stored.isEmpty = true) do
    insertInto .problems
      { id := problemId stored input.runId input.fingerprint, runId := input.runId
        fingerprint := input.fingerprint, summary := input.summary
        externalDependency := input.externalDependency
        alternateActionAvailable := input.alternateActionAvailable, meaningfulAttempts := 0
        status := .opened, createdAt := now, updatedAt := now }

/-- The `lease` of the input is not read. -/
def recordProblem (input : RecordProblemInput) (uuid : String) (clock : Date) : StoreM ProblemRow :=
  let now := clock.toISOString
  transaction do
    let stored ← selectRows .problems fun row =>
      row.runId == input.runId && row.fingerprint == input.fingerprint
    let id := problemId stored input.runId input.fingerprint
    openProblem input stored now
    insertInto .problemObservations
      { id := createId .event ("problem-observation:" ++ id ++ ":" ++ uuid), problemId := id
        meaningful := input.meaningful != some false, externalDependency := input.externalDependency
        alternateActionAvailable := input.alternateActionAvailable, note := input.note, occurredAt := now }
    given input.taskId fun taskId => do
      let task ← mustTask taskId
      require (task.runId = input.runId) (.failure "Problem task must belong to the same Run.")
      insertOrIgnoreInto .taskProblems { taskId := taskId, problemId := id }
    let observations ← selectRows .problemObservations fun row => row.problemId == id
    let eligible := isBlocking observations
    updateRow .problems id fun row =>
      { row with
        summary := input.summary
        externalDependency := input.externalDependency
        alternateActionAvailable := input.alternateActionAvailable
        meaningfulAttempts := (observations.filter (·.meaningful)).length
        status := if eligible then .blocked else .opened
        updatedAt := now }
    onlyIf (eligible = true) do
      blockRunForProblemInternal input.runId input.fingerprint now
    mustRow .problems id (.failure "Recorded Problem could not be read back.")

/-! Records of an executor. -/

structure CreateMilestoneInput where
  lease : FencedLease
  runId : RunId
  status : Option MilestoneStatus := none
  taskIds : List TaskId := []
  title : String

def createMilestone (input : CreateMilestoneInput) (uuid : String) (clock : Date) : StoreM MilestoneRow :=
  let now := clock.toISOString
  let id := createId .milestone (input.runId ++ ":" ++ uuid)
  transaction do
    assertRunLeaseInternal input.lease input.runId now
    input.taskIds.forM fun taskId => do
      let task ← mustTask taskId
      require (task.runId = input.runId) (.failure "Milestone tasks must belong to the same Run.")
    insertInto .milestones
      { id := id, runId := input.runId, title := input.title, status := input.status.getD .pending
        createdAt := now, updatedAt := now }
    input.taskIds.forM fun taskId => insertInto .milestoneTasks { milestoneId := id, taskId := taskId }
    mustRow .milestones id (notFound "Milestone" id)

structure RecordDecisionInput where
  alternatives : List String := []
  lease : FencedLease
  evidenceIds : List String := []
  rationale : String
  runId : RunId
  title : String

def recordDecision (input : RecordDecisionInput) (uuid : String) (clock : Date) : StoreM DecisionRow := do
  let now := clock.toISOString
  let id := createId .decision (input.runId ++ ":" ++ uuid)
  assertRunLeaseInternal input.lease input.runId now
  insertInto .decisions
    { id := id, runId := input.runId, title := input.title, rationale := input.rationale
      alternatives := input.alternatives, evidenceIds := input.evidenceIds, createdAt := now, updatedAt := now }
  mustRow .decisions id (notFound "Decision" id)

structure AddArtifactInput where
  checksum : Option String := none
  label : String
  lease : FencedLease
  mediaType : Option String := none
  runId : RunId
  sizeBytes : Option Number := none
  uri : String

/-- `checked` is the second reading of the clock, for the lease. -/
def addArtifact (input : AddArtifactInput) (uuid : String) (clock checked : Date) : StoreM ArtifactRow := do
  require (input.sizeBytes.all (fun size => size.isSafeInteger && !size.below 0) = true)
    (.failure "Artifact sizeBytes must be a non-negative safe integer.")
  let now := clock.toISOString
  let id := createId .artifact (input.runId ++ ":" ++ uuid)
  assertRunLeaseInternal input.lease input.runId checked.toISOString
  insertInto .artifacts
    { id := id, runId := input.runId, label := input.label, uri := input.uri, mediaType := input.mediaType
      sizeBytes := input.sizeBytes, checksum := input.checksum, createdAt := now, updatedAt := now }
  mustRow .artifacts id (notFound "Artifact" id)

structure RecordGitChangeInput where
  lease : FencedLease
  repositoryUri : String
  revision : String
  runId : RunId
  summary : String
  taskIds : List TaskId := []

def recordGitChange (input : RecordGitChangeInput) (uuid : String) (clock : Date) : StoreM GitChangeRow := do
  let now := clock.toISOString
  let id := createId .gitChange (input.runId ++ ":" ++ uuid)
  assertRunLeaseInternal input.lease input.runId now
  insertInto .gitChanges
    { id := id, runId := input.runId, repositoryUri := input.repositoryUri, revision := input.revision
      summary := input.summary, taskIds := input.taskIds, createdAt := now, updatedAt := now }
  mustRow .gitChanges id (notFound "GitChange" id)

structure RecordCostInput where
  agentId : Option AgentId := none
  cachedTokens : Option Number := none
  costUsd : Option Number := none
  inputTokens : Option Number := none
  outputTokens : Option Number := none
  lease : Option FencedLease := none
  runId : RunId
  sessionEpochId : Option SessionEpochId := none
  entryKey : Option String := none

def recordCost (input : RecordCostInput) (uuid : String) (clock : Date) : StoreM CostRecordRow := do
  let numeric := [input.cachedTokens.getD 0, input.costUsd.getD 0, input.inputTokens.getD 0,
    input.outputTokens.getD 0]
  require (numeric.all (fun value => value.isFinite && !value.below 0) = true)
    (.failure "Cost records require finite non-negative values.")
  let now := clock.toISOString
  let id := createId .costRecord (input.runId ++ ":" ++ uuid)
  transaction do
    given input.lease fun lease =>
      assertRunLeaseInternal lease input.runId now "Cost record lease belongs to another Run."
    let existing ← selectRows .costRecords fun row =>
      row.runId == input.runId && input.entryKey.isSome && row.entryKey == input.entryKey
    match existing.head? with
    | some row => mustRow .costRecords row.id (notFound "CostRecord" row.id)
    | none => do
      insertInto .costRecords
        { id := id, runId := input.runId, agentId := input.agentId, sessionEpochId := input.sessionEpochId
          inputTokens := input.inputTokens.getD 0, outputTokens := input.outputTokens.getD 0
          cachedTokens := input.cachedTokens.getD 0, costUsd := input.costUsd.getD 0
          createdAt := now, updatedAt := now, entryKey := input.entryKey }
      mustRow .costRecords id (notFound "CostRecord" id)

structure SetRecoveryStateInput where
  lastCheckpointId : Option CheckpointId := none
  lease : FencedLease
  reason : Option String := none
  runId : RunId
  status : RecoveryStatus
  unknownToolCallIds : List String := []

/-- `INSERT ... ON CONFLICT(run_id) DO UPDATE`; the written checkpoint must exist
either way. -/
def upsertRecoveryState (row : RecoveryStateRow) : StoreM Unit := do
  let s ← get
  if (s .recoveryStates).rows.any (fun stored => stored.runId == row.runId) = true then do
    require (s.hasOptional .checkpoints row.lastCheckpointId = true) (.constraint .recoveryStates)
    updateRows .recoveryStates (fun stored => stored.runId == row.runId) fun stored =>
      { stored with
        status := row.status
        lastCheckpointId := row.lastCheckpointId
        unknownToolCallIds := row.unknownToolCallIds
        reason := row.reason
        updatedAt := row.updatedAt }
  else insertInto .recoveryStates row

def setRecoveryState (input : SetRecoveryStateInput) (clock : Date) : StoreM RecoveryStateRow := do
  let now := clock.toISOString
  let id := createId .recoveryState input.runId
  assertRunLeaseInternal input.lease input.runId now
  upsertRecoveryState
    { id := id, runId := input.runId, status := input.status, lastCheckpointId := input.lastCheckpointId
      unknownToolCallIds := input.unknownToolCallIds, reason := input.reason
      createdAt := now, updatedAt := now }
  let rows ← selectRows .recoveryStates fun row => row.runId == input.runId
  expect rows.head? (.failure ("RecoveryState for Run '" ++ input.runId ++ "' was not found."))

structure CreateContextSnapshotInput where
  agentId : Option AgentId := none
  checkpointId : Option CheckpointId := none
  lease : Option FencedLease := none
  runId : RunId
  sessionEpochId : Option SessionEpochId := none
  summary : String
  tokenCount : Number

/-- The session epoch is not asked whether it belongs to the Run. -/
def createContextSnapshot (input : CreateContextSnapshotInput) (uuid : String) (clock : Date) :
    StoreM ContextSnapshotRow := do
  require (input.tokenCount.isSafeInteger = true ∧ input.tokenCount.below 0 = false)
    (.failure "Context snapshot tokenCount must be a non-negative safe integer.")
  let now := clock.toISOString
  let id := createId .contextSnapshot (input.runId ++ ":" ++ uuid)
  transaction do
    given input.lease fun lease =>
      assertRunLeaseInternal lease input.runId now "Context snapshot lease belongs to another Run."
    insertInto .contextSnapshots
      { id := id, runId := input.runId, agentId := input.agentId, sessionEpochId := input.sessionEpochId
        summary := input.summary, tokenCount := input.tokenCount, checkpointId := input.checkpointId
        createdAt := now, updatedAt := now }
    given input.sessionEpochId fun sessionEpochId =>
      updateRow .sessionEpochs sessionEpochId fun row =>
        { row with handoffContextSnapshotId := some id, updatedAt := now }
    mustRow .contextSnapshots id (notFound "ContextSnapshot" id)

structure AddMemoryEntryInput where
  agentId : Option AgentId := none
  lease : Option FencedLease := none
  confidence : Number
  content : String
  runId : RunId
  scope : MemoryScope
  sourceEvidenceIds : List String := []

/-- `checked` is the second reading of the clock, for the lease. -/
def addMemoryEntry (input : AddMemoryEntryInput) (uuid : String) (clock checked : Date) :
    StoreM MemoryEntryRow := do
  require (input.confidence.isFinite = true ∧ input.confidence.below 0 = false ∧
      input.confidence.above 1 = false)
    (.failure "Memory confidence must be within [0, 1].")
  let now := clock.toISOString
  let id := createId .memoryEntry (input.runId ++ ":" ++ uuid)
  given input.lease fun lease => assertRunLeaseInternal lease input.runId checked.toISOString
  insertInto .memoryEntries
    { id := id, runId := input.runId, scope := input.scope, content := input.content
      confidence := input.confidence, agentId := input.agentId
      sourceEvidenceIds := input.sourceEvidenceIds, createdAt := now, updatedAt := now }
  mustRow .memoryEntries id (notFound "MemoryEntry" id)

end OttiliCoder
