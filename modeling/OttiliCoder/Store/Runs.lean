import OttiliCoder.Store.Internal

/-! Runs and Goals: creation, transitions, operator commands and completion. -/

namespace OttiliCoder
open Relational Transaction

/-! Reading. -/

def getRun (s : Store) (runId : RunId) : Option Run := ((s .runs).find? runId).map (·.toRun)

def getGoal (s : Store) (goalId : GoalId) : Option Goal := ((s .goals).find? goalId).map (·.toGoal)

def getTask (s : Store) (taskId : TaskId) : Option Task := ((s .tasks).find? taskId).map (taskFromRow s)

def listEvents (s : Store) (runId : RunId) (afterSequence : Nat := 0) : List RunEvent :=
  (((s .runEvents).rows.filter fun row => row.runId == runId && afterSequence < row.seq).insertionSort
    fun row other => row.seq ≤ other.seq).map eventFromRow

structure RequirementEvidence where
  id : EvidenceId
  kind : EvidenceKind
  strength : EvidenceStrength
  summary : String

structure RequirementRecord where
  evidence : List RequirementEvidence
  id : RequirementId
  required : Bool
  status : RequirementStatus
  title : String

def evidenceFromRow (row : EvidenceRow) : RequirementEvidence :=
  { id := row.id, kind := row.kind, strength := row.strength, summary := row.summary }

def requirementFromRow (s : Store) (row : RequirementRow) : RequirementRecord where
  evidence := (((s .evidence).rows.filter (·.requirementId == row.id)).insertionSort
    fun item other => item.createdAt ≤ other.createdAt).map evidenceFromRow
  id := row.id
  required := row.required
  status := row.status
  title := row.title

def listRequirements (s : Store) (runId : RunId) : List RequirementRecord :=
  (((s .requirements).rows.filter (·.runId == runId)).insertionSort
    fun row other => row.id ≤ other.id).map (requirementFromRow s)

structure ValidationRecord where
  createdAt : IsoTimestamp
  id : ValidationId
  independent : Bool
  name : String
  passed : Bool
  runId : RunId
  summary : String

def validationFromRow (row : ValidationRow) : ValidationRecord where
  createdAt := row.createdAt
  id := row.id
  independent := row.independent
  name := row.name
  passed := row.passed
  runId := row.runId
  summary := row.summary

def listValidations (s : Store) (runId : RunId) : List ValidationRecord :=
  (orderByTexts (·.createdAt) (·.id) ((s .validations).rows.filter (·.runId == runId))).map validationFromRow

/-! Creation. -/

structure RequirementInput where
  id : Option RequirementId := none
  title : String
  required : Option Bool := none

structure InitialGoal where
  description : String
  title : String

structure CreateRunInput where
  budget : Option RunBudget := none
  initialGoal : Option InitialGoal := none
  permissions : Option PermissionPolicy := none
  prompt : String
  sandbox : Option SandboxPolicy := none
  requirements : List RequirementInput := []
  title : Option String := none
  workspaceUri : String

def isSpace (c : Char) : Bool :=
  c.isWhitespace || c.toNat == 0x0b || c.toNat == 0x0c || c.toNat == 0xa0 || c.toNat == 0x1680 ||
    (0x2000 ≤ c.toNat && c.toNat ≤ 0x200a) || c.toNat == 0x2028 || c.toNat == 0x2029 ||
    c.toNat == 0x202f || c.toNat == 0x205f || c.toNat == 0x3000 || c.toNat == 0xfeff

/-- `replace(/\s+/g, " ").trim()`. -/
def normalizeSpace : List Char → List Char
  | [] => []
  | c :: rest =>
    if isSpace c then
      match normalizeSpace rest with
      | [] => []
      | next :: rest => if next == ' ' then next :: rest else ' ' :: next :: rest
    else c :: normalizeSpace rest

def summarizeTitle (prompt : String) : String :=
  let normalized := String.ofList ((normalizeSpace prompt.toList).dropWhile (· == ' '))
  if (codeUnits normalized).length ≤ 96 then normalized
  else String.ofList (normalized.toList.take 93) ++ "..."

structure CreatedRun where
  agent : Agent
  goal : Goal
  run : Run

/-- The Run with its first goal and its coordinator. -/
def insertRun (run : RunRow) (goal : GoalRow) (agent : AgentRow) : StoreM Unit := do
  insertInto .runs run
  insertInto .goals goal
  insertInto .agents agent

/-- `seed` and `goalVersion` are the two random UUIDs drawn. -/
def createRun (input : CreateRunInput) (seed goalVersion : String) (clock : Date) : StoreM CreatedRun :=
  let now := clock.toISOString
  let missionId := createId .mission seed
  let runId := createId .run seed
  let goalId := createId .goal seed
  let agentId := createId .agent (seed ++ ":coordinator")
  let title := input.title.getD (summarizeTitle input.prompt)
  let goalTitle := (input.initialGoal.map (·.title)).getD title
  let goalDescription := (input.initialGoal.map (·.description)).getD input.prompt
  let budget := input.budget.getD {}
  transaction do
    insertInto .missions
      { id := missionId, title := title, prompt := input.prompt, workspaceUri := input.workspaceUri
        createdAt := now, updatedAt := now }
    insertRun
      { id := runId, missionId := missionId, status := .queued, title := title, budget := budget
        usage := emptyBudgetUsage, currentGoalId := some goalId, startedAt := some now
        createdAt := now, updatedAt := now }
      { id := goalId, runId := runId, goalVersion := goalVersion, title := goalTitle
        description := goalDescription, status := .active, createdAt := now, updatedAt := now }
      { id := agentId, runId := runId, taskId := none, role := .coordinator, status := .queued
        permissions := input.permissions.getD defaultPermissions
        sandbox := input.sandbox.getD defaultSandbox, spawnedAt := now, createdAt := now, updatedAt := now }
    input.requirements.zipIdx.forM fun (requirement, index) =>
      insertInto .requirements
        { id := requirement.id.getD (createId .requirement (seed ++ ":" ++ toString index))
          runId := runId, title := requirement.title, required := requirement.required.getD true
          status := .unproven, createdAt := now, updatedAt := now }
    let _ ← appendEventInternal runId .runCreated
      [("missionId", .string missionId), ("title", .string title)] now
    transitionRunInternal runId .running now
    let _ ← transitionAgentInternal agentId .running now
    ensureContinuationInternal runId now
    let agent ← mustAgent agentId
    let goal ← mustGoal goalId
    let run ← mustRun runId
    return { agent := agent, goal := goal, run := run }

/-! Transitions. -/

/-- A status an operation other than a completion proposal may ask for. -/
abbrev OpenStatus := { status : RunStatus // status ≠ .completed }

theorem running_open : RunStatus.running ≠ .completed := by decide

theorem waitingExternal_open : RunStatus.waitingExternal ≠ .completed := by decide

structure TransitionRunInput where
  expectedRevision : Option Nat := none
  lease : Option FencedLease := none
  reason : Option String := none
  runId : RunId
  target : OpenStatus

def transitionRun (input : TransitionRunInput) (clock : Date) : StoreM Run :=
  let now := clock.toISOString
  transaction do
    given input.lease fun lease =>
      assertRunLeaseInternal lease input.runId now "Transition lease belongs to another Run."
    let run ← mustRun input.runId
    given input.expectedRevision fun expected =>
      require (expected = run.revision) (.revisionConflict run.id expected run.revision)
    transitionRunInternal run.id input.target now input.reason
    onlyIf (input.target = RunStatus.running) do
      ensureContinuationInternal run.id now
    mustRun run.id

structure SetGoalStatusInput where
  expectedGoalVersion : String
  lease : Option FencedLease := none
  goalId : GoalId
  target : GoalStatus

/-- The `lease` of the input is not read. -/
def setGoalStatus (input : SetGoalStatusInput) (clock : Date) : StoreM Goal :=
  let now := clock.toISOString
  transaction do
    let row ← mustRow .goals input.goalId (notFound "Goal" input.goalId)
    require (row.goalVersion = input.expectedGoalVersion) (.revisionConflict row.runId 0 1)
    let current := row.toGoal
    assertGoalTransition current.status input.target
    updateRows .goals (fun row => row.id == current.id && row.goalVersion == input.expectedGoalVersion)
      fun row =>
        { row with
          status := input.target
          completedAt := if input.target = .complete then some now else none
          updatedAt := now }
    let _ ← appendEventInternal current.runId .goalStatusChanged
      [("goalId", .string current.id), ("to", .string input.target.text)] now
    onlyIf (shouldContinueGoal input.target) do
      ensureContinuationInternal current.runId now
    mustGoal current.id

def pause (runId : RunId) (expectedRevision : Option Nat) (clock : Date) : StoreM Run :=
  transitionRun { expectedRevision := expectedRevision, runId := runId, target := ⟨.paused, by decide⟩ } clock

def resume (runId : RunId) (expectedRevision : Option Nat) (clock : Date) : StoreM Run := do
  let run ← mustRun runId
  let target : OpenStatus := if run.status = .paused then ⟨.running, by decide⟩ else ⟨.queued, by decide⟩
  transitionRun { expectedRevision := expectedRevision, runId := runId, target := target } clock

def cancel (runId : RunId) (expectedRevision : Option Nat) (clock : Date) : StoreM Run :=
  transitionRun { expectedRevision := expectedRevision, runId := runId, target := ⟨.cancelled, by decide⟩ } clock

/-! Operator commands. -/

inductive DurableRunCommand where
  | cancel | pause | resume
deriving DecidableEq

structure ExecuteCommandInput where
  command : DurableRunCommand
  commandId : String
  reason : Option String := none
  runId : RunId

/-- Runs a command that has no receipt yet. -/
def runCommand (input : ExecuteCommandInput) (run : Run) (now ensuredAt : IsoTimestamp) : StoreM Run :=
  match input.command with
  | .pause => do
    transitionRunInternal run.id .paused now input.reason
    mustRun run.id
  | .cancel => do
    transitionRunInternal run.id .cancelled now input.reason
    mustRun run.id
  | .resume =>
    if run.status = .running then pure run
    else do
      let target : RunStatus :=
        if run.status = .paused ∨ run.status = .waitingExternal then .running else .queued
      transitionRunInternal run.id target now input.reason
      onlyIf (target = .running) do
        ensureContinuationInternal run.id ensuredAt
      mustRun run.id

/-- Executes a user command once per command id. The clock is read up to three
times, for the transition, the continuation and the receipt. -/
def executeCommand (input : ExecuteCommandInput) (clock ensured recorded : Date) : StoreM Run :=
  transaction do
    let prior ← selectRows .commandReceipts fun row =>
      row.commandId == input.commandId && row.runId == input.runId
    match prior.head? with
    | some receipt => return receipt.result
    | none =>
      let run ← mustRun input.runId
      let result ← runCommand input run clock.toISOString ensured.toISOString
      insertInto .commandReceipts
        { commandId := input.commandId, runId := run.id, result := result, createdAt := recorded.toISOString }
      return result

structure SteeringInput where
  runId : RunId
  targetAgentId : Option AgentId := none
  targetGoalId : Option GoalId := none
  text : String

def recordSteeringInput (input : SteeringInput) (clock : Date) : StoreM RunEvent :=
  transaction do
    appendEventInternal input.runId .steeringReceived
      ([("text", .string input.text)] ++
        Json.optionalField "targetAgentId" (input.targetAgentId.map .string) ++
        Json.optionalField "targetGoalId" (input.targetGoalId.map .string))
      clock.toISOString

/-! Completion. -/

structure ProposeCompletionInput where
  accepted : Bool
  independentlyVerified : Option Bool := none
  lease : Option FencedLease := none
  reasons : List String
  runId : RunId

/-- A required requirement that is neither waived nor proven by strong evidence. -/
def RequirementRecord.isUnproven (requirement : RequirementRecord) : Bool :=
  requirement.required && requirement.status != .waived &&
    (requirement.status != .proven || !requirement.evidence.any fun evidence => evidence.strength == .strong)

/-- The store's own reasons to refuse a proposal, from the ledger as it stands. -/
def controlPlaneReasons (requirements : List RequirementRecord) (validations : List ValidationRecord)
    (independentlyVerified : Option Bool) : List String :=
  let unproven := requirements.filter RequirementRecord.isUnproven
  let failedValidations := validations.filter fun validation => !validation.passed
  let hasIndependentValidation := validations.any fun validation => validation.passed && validation.independent
  (if unproven.isEmpty then []
    else ["Required requirements remain unproven: " ++ ", ".intercalate (unproven.map (·.id)) ++ "."]) ++
  (if failedValidations.isEmpty then []
    else ["Deterministic validation failed: " ++ ", ".intercalate (failedValidations.map (·.id)) ++ "."]) ++
  (if hasIndependentValidation then [] else ["No passing independent validation is recorded."]) ++
  (if independentlyVerified = some true then [] else ["No independent verifier acceptance is recorded."])

def proposeCompletion (input : ProposeCompletionInput) (clock : Date) : StoreM Run :=
  let now := clock.toISOString
  transaction do
    given input.lease fun lease =>
      assertRunLeaseInternal lease input.runId now "Completion lease belongs to another Run."
    let run ← mustRun input.runId
    let s ← get
    let controlPlane :=
      controlPlaneReasons (listRequirements s run.id) (listValidations s run.id) input.independentlyVerified
    let accepted := input.accepted && controlPlane.isEmpty
    let reasons := input.reasons ++ controlPlane
    let _ ← appendEventInternal run.id .validationFinished
      [("accepted", .boolean accepted), ("reasons", .array (reasons.map .string))] now
    onlyIf accepted do
      assertRunTransition run.status .completed
      transitionRunInternal run.id .completed now
    mustRun run.id

end OttiliCoder
