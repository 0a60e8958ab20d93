import OttiliCoder.Library.CodePoints
import OttiliCoder.Runtime.Context
import OttiliCoder.Store.Ledger

/-! The durable Task Graph, Agent Graph and evidence tools. A tool makes its store calls one
after the other, each in a transaction of its own. -/

namespace OttiliCoder
open Host

abbrev ToolM := EStateM TurnError Store

/-- A store call; what it throws leaves the tool. -/
def onStore {α : Type} (m : StoreM α) : ToolM α := EStateM.adaptExcept TurnError.store m

structure MissionToolContext where
  /-- The agent whose turn is executing; every write is attributed to it. -/
  agent : Agent
  lease : FencedLease
  runId : RunId

def agentRoles : List AgentRole :=
  [.coordinator, .debugger, .implementer, .researcher, .reviewer, .specialist, .verifier]

def evidenceKinds : List EvidenceKind := [.artifact, .command, .inspection, .review, .test]

def evidenceStrengths : List EvidenceStrength := [.strong, .supporting, .weak]

def messageKinds : List AgentMessageKind :=
  [.answer, .question, .reviewRequest, .reviewResult, .status, .taskAssignment, .taskResult]

/-! Reading the input. -/

/-- What is read from the input of a tool, without the store. -/
abbrev Reading := Except String

def requiredString (input : JsonObject) (key : String) : Reading String :=
  match JsonObject.text? input key with
  | none => throw (key ++ " must be a non-empty string.")
  | some value => if isBlank value then throw (key ++ " must be a non-empty string.") else return value

/-- A missing value may be `null` as well. -/
def given? (input : JsonObject) (key : String) : Option Json :=
  match JsonObject.get? input key with
  | some .null => none
  | value => value

def optionalString (input : JsonObject) (key : String) : Reading (Option String) :=
  match given? input key with
  | none => return none
  | some (.string value) => return some value
  | some _ => throw (key ++ " must be a string.")

def oneOf {Value : Type} (value : String) (allowed : List Value) (text : Value → String) (key : String) : Reading Value :=
  match allowed.find? fun candidate => text candidate == value with
  | none => throw (key ++ " must be one of: " ++ ", ".intercalate (allowed.map text) ++ ".")
  | some found => return found

def objectsOf (items : List Json) (key : String) : Reading (List JsonObject) :=
  if items.all (·.asObject.isSome) then return items.filterMap Json.asObject
  else throw (key ++ " must be an array of objects.")

def objectArray (input : JsonObject) (key : String) : Reading (List JsonObject) :=
  match (JsonObject.get? input key).bind Json.asArray with
  | none => throw (key ++ " must be an array of objects.")
  | some items => objectsOf items key

def stringArray (input : JsonObject) (key : String) : Reading (List String) :=
  match given? input key with
  | none => return []
  | some (.array items) =>
    if items.all (·.asString.isSome) then return items.filterMap Json.asString
    else throw (key ++ " must be an array of strings.")
  | some _ => throw (key ++ " must be an array of strings.")

def reading {α : Type} (read : Reading α) : ToolM α :=
  match read with
  | .ok value => return value
  | .error message => throw (.error message)

def outputOf (value : Json) : ToolResult := { output := storedText (stringify value) }

/-! The tools. -/

section Tools
variable (context : MissionToolContext) (clock : Nat → Date) (uuid : Nat → String)

/-- The ids by title, and what the call has created. -/
structure TaskPlan where
  idsByTitle : List (String × TaskId)
  created : List TaskId := []

/-- `idsByTitle.get(title)`: the entry set last. -/
def TaskPlan.idOf (plan : TaskPlan) (title : String) : Option TaskId :=
  (plan.idsByTitle.reverse.find? fun entry => entry.1 == title).map (·.2)

/-- An existing task or one of the same call, by its title or its id. -/
def resolveDependency (existing : List Task) (plan : TaskPlan) (reference : String) : Reading TaskId :=
  let resolved := (plan.idOf reference).getD reference
  if existing.any (·.id == resolved) || plan.created.contains resolved then return resolved
  else throw ("Task dependency '" ++ reference ++ "' does not name a known task.")

/-- What one entry asks the store for. -/
def readTask (existing : List Task) (plan : TaskPlan) (entry : JsonObject) : Reading CreateTaskInput := do
  let title ← requiredString entry "title"
  let dependencies ← (← stringArray entry "dependsOn").mapM (resolveDependency existing plan)
  let description ← requiredString entry "description"
  let requirementIds ← stringArray entry "requirementIds"
  return {
    dependencies := dependencies
    description := description
    lease := some context.lease
    requirementIds := requirementIds
    runId := context.runId
    title := title }

def planTask (existing : List Task) (plan : TaskPlan) (entry : JsonObject) (place : Nat) : ToolM TaskPlan := do
  let input ← reading (readTask context existing plan entry)
  let task ← onStore (createTask input (uuid place) (clock place))
  return { idsByTitle := plan.idsByTitle ++ [(input.title, task.id)], created := plan.created ++ [task.id] }

def planAll (existing : List Task) : TaskPlan → List JsonObject → Nat → ToolM TaskPlan
  | plan, [], _ => return plan
  | plan, entry :: entries, place => do
    let plan ← planTask context clock uuid existing plan entry place
    planAll existing plan entries (place + 1)

def planTasks (input : JsonObject) : ToolM ToolResult := do
  let requested ← reading (objectArray input "tasks")
  if requested.isEmpty then throw (.error "plan_tasks requires at least one task.")
  let existing := listTasks (← get) context.runId
  let plan ← planAll context clock uuid existing { idsByTitle := existing.map fun task => (task.title, task.id) } requested 0
  let tasks := listTasks (← get) context.runId
  return outputOf (.object [("created", .nat plan.created.length),
    ("tasks", .array (tasks.map fun task =>
      .object [("id", .string task.id), ("status", .string task.status.text), ("title", .string task.title)]))])

def listTasksTool : ToolM ToolResult := do
  let tasks := listTasks (← get) context.runId
  return outputOf (.array (tasks.map fun task =>
    .object [("dependencyIds", .array (task.dependencyIds.map .string)), ("id", .string task.id),
      ("ownerAgentId", (task.ownerAgentId.map Json.string).getD .null), ("status", .string task.status.text),
      ("title", .string task.title)]))

def ownedTask (s : Store) (agent : Agent) (taskId : TaskId) : Reading Task :=
  match getTask s taskId with
  | none => throw ("Task '" ++ taskId ++ "' was not found.")
  | some task =>
    if task.ownerAgentId = some agent.id then return task
    else throw ("Agent '" ++ agent.id ++ "' does not own task '" ++ taskId ++ "'; it is owned by '" ++
      task.ownerAgentId.getD "nobody" ++ "'.")

/-- The evidence an entry of `complete_task` asks the store for. -/
def readEvidence (taskId : Option TaskId) (entry : JsonObject) (kindKey strengthKey : String) : Reading AddEvidenceInput := do
  let kind ← oneOf (← requiredString entry "kind") evidenceKinds EvidenceKind.text kindKey
  let requirementId ← requiredString entry "requirementId"
  let strength ← oneOf (← requiredString entry "strength") evidenceStrengths EvidenceStrength.text strengthKey
  let summary ← requiredString entry "summary"
  return {
    kind := kind
    lease := some context.lease
    requirementId := requirementId
    runId := context.runId
    strength := strength
    summary := summary
    taskId := taskId }

def addTaskEvidences (taskId : TaskId) : List JsonObject → Nat → ToolM Unit
  | [], _ => return
  | entry :: entries, place => do
    let evidence ← reading (readEvidence context (some taskId) entry "evidence.kind" "evidence.strength")
    let _ ← onStore (addEvidence evidence (uuid place) (clock place))
    addTaskEvidences taskId entries (place + 1)

/-- `{ evidence: input.evidence ?? [] }`. -/
def evidenceEntries (input : JsonObject) : Reading (List JsonObject) :=
  objectArray [("evidence", (given? input "evidence").getD (.array []))] "evidence"

def completeTask (input : JsonObject) : ToolM ToolResult := do
  let taskId ← reading (requiredString input "taskId")
  let task ← reading (ownedTask (← get) context.agent taskId)
  let summary ← reading (requiredString input "summary")
  let entries ← reading (evidenceEntries input)
  addTaskEvidences context clock uuid task.id entries 0
  let completed ← onStore (transitionTask
    { lease := some context.lease, result := some (.object [("summary", .string summary)]), taskId := task.id
      target := .completed } (clock entries.length))
  let ready := listTasks (← get) context.runId { status := [.ready] }
  return outputOf (.object [("readyTasks", .array (ready.map fun task => .string task.id)),
    ("status", .string completed.status.text), ("taskId", .string completed.id)])

def failTask (input : JsonObject) : ToolM ToolResult := do
  let taskId ← reading (requiredString input "taskId")
  let task ← reading (ownedTask (← get) context.agent taskId)
  let error ← reading (requiredString input "error")
  let failed ← onStore (transitionTask
    { error := some error, lease := some context.lease, taskId := task.id, target := .failed } (clock 0))
  return outputOf (.object [("status", .string failed.status.text), ("taskId", .string failed.id)])

/-- The task, when it may be delegated. -/
def delegableTask (s : Store) (taskId : TaskId) : Reading Task :=
  match (getTask s taskId).filter fun task => task.runId == context.runId with
  | none => throw ("Task '" ++ taskId ++ "' does not belong to this Run.")
  | some task =>
    match task.ownerAgentId with
    | some owner => throw ("Task '" ++ taskId ++ "' is already owned by agent '" ++ owner ++ "'.")
    | none => return task

/-- The instructions are read when the delegate is already there. -/
def delegateTask (input : JsonObject) : ToolM ToolResult := do
  let taskId ← reading (requiredString input "taskId")
  let task ← reading (delegableTask context (← get) taskId)
  let role ← reading (do oneOf (← requiredString input "role") agentRoles AgentRole.text "role")
  let child ← onStore (spawnAgent
    { lease := some context.lease, parentAgentId := some context.agent.id
      permissions := some context.agent.permissions, role := role, runId := context.runId
      sandbox := some context.agent.sandbox, taskId := some task.id } (uuid 0) (clock 0))
  let _ ← onStore (transitionAgent { agentId := child.id, lease := some context.lease, target := .queued } (clock 1))
  let instructions ← reading (requiredString input "instructions")
  let _ ← onStore (sendAgentMessage
    { body := [("instructions", .string instructions), ("taskId", .string task.id), ("title", .string task.title)]
      fromAgentId := some context.agent.id, kind := .taskAssignment, lease := context.lease
      taskId := some task.id, toAgentId := child.id } (uuid 1) (clock 2))
  return outputOf (.object [("agentId", .string child.id), ("role", .string child.role.text), ("taskId", .string task.id)])

/-- The body of a message: an object, or else a text. -/
def messageBody (input : JsonObject) : Reading JsonObject :=
  match (JsonObject.get? input "body").bind Json.asObject with
  | some body => return body
  | none => return [("text", .string (← requiredString input "text"))]

def messageAgent (input : JsonObject) : ToolM ToolResult := do
  let toAgentId ← reading (requiredString input "agentId")
  let body ← reading (messageBody input)
  let kind ← reading (do oneOf ((← optionalString input "kind").getD "status") messageKinds AgentMessageKind.text "kind")
  let message ← onStore (sendAgentMessage
    { body := body, fromAgentId := some context.agent.id, kind := kind, lease := context.lease, toAgentId := toAgentId }
    (uuid 0) (clock 0))
  return outputOf (.object [("messageId", .string message.id)])

/-- An id is read once more when there is one. -/
def readRequirement (input : JsonObject) : Reading AddRequirementInput := do
  let title ← requiredString input "title"
  let id ← match ← optionalString input "id" with
    | none => pure none
    | some _ => some <$> requiredString input "id"
  return {
    id := id
    lease := some context.lease
    required := some (match JsonObject.get? input "required" with
      | some (.boolean false) => false
      | _ => true)
    runId := context.runId
    title := title }

def addRequirementTool (input : JsonObject) : ToolM ToolResult := do
  let requirement ← onStore (addRequirement (← reading (readRequirement context input)) (uuid 0) (clock 0))
  return outputOf (.object [("id", .string requirement.id), ("status", .string requirement.status.text)])

def recordEvidence (input : JsonObject) : ToolM ToolResult := do
  let evidence ← reading (readEvidence context context.agent.taskId input "kind" "strength")
  let evidenceId ← onStore (addEvidence evidence (uuid 0) (clock 0))
  return outputOf (.object [("evidenceId", .string evidenceId)])

/-- `input[key] === true`. -/
def isTrue (input : JsonObject) (key : String) : Bool :=
  match JsonObject.get? input key with
  | some (.boolean true) => true
  | _ => false

def recordValidationTool (input : JsonObject) : ToolM ToolResult := do
  let passed := isTrue input "passed"
  let name ← reading (requiredString input "name")
  let summary ← reading (requiredString input "summary")
  let validationId ← onStore (recordValidation
    { independent := some (isTrue input "independent"), lease := some context.lease, name := name, passed := passed
      runId := context.runId, summary := summary } (uuid 0) (clock 0))
  return outputOf (.object [("id", .string validationId), ("name", .string name), ("passed", .boolean passed)])

def proveRequirement (input : JsonObject) : ToolM ToolResult := do
  let requirementId ← reading (requiredString input "requirementId")
  onStore (setRequirementStatus
    { runId := context.runId, requirementId := requirementId, status := .proven, lease := some context.lease }
    (clock 0) (clock 1))
  let proven := (listRequirements (← get) context.runId).find? fun candidate => candidate.id == requirementId
  return outputOf (.object ([("requirementId", .string requirementId)] ++
    Json.optionalField "status" (proven.map fun requirement => .string requirement.status.text)))

end Tools

inductive MissionTool where
  | planTasks | listTasks | completeTask | failTask | delegateTask | messageAgent | addRequirement | recordEvidence
  | recordValidation | proveRequirement
deriving DecidableEq

namespace MissionTool

/-- In the order they are registered. -/
def all : List MissionTool :=
  [planTasks, listTasks, completeTask, failTask, delegateTask, messageAgent, addRequirement, recordEvidence,
    recordValidation, proveRequirement]

def name : MissionTool → String
  | planTasks => "plan_tasks" | listTasks => "list_tasks" | completeTask => "complete_task" | failTask => "fail_task"
  | delegateTask => "delegate_task" | messageAgent => "message_agent" | addRequirement => "add_requirement"
  | recordEvidence => "record_evidence" | recordValidation => "record_validation"
  | proveRequirement => "prove_requirement"

def description : MissionTool → String
  | planTasks => "Create durable tasks for this Run. Dependencies may reference an existing task id or the title of another task in the same call."
  | listTasks => "List the durable Task Graph with status, ownership, and dependencies."
  | completeTask => "Finish a task this agent owns, optionally recording evidence against a requirement."
  | failTask => "Report that a task this agent owns could not be finished. The task becomes retryable rather than terminal."
  | delegateTask => "Delegate a task to a new durable sub-agent with a specific role. The sub-agent survives a daemon restart and reports back through the mailbox."
  | messageAgent => "Send a durable message to another agent in this Run. Messages persist across daemon restarts."
  | addRequirement => "Declare a durable requirement this Run must prove before it may complete."
  | recordEvidence => "Record evidence against a requirement. Only `strong` evidence can prove a requirement."
  | recordValidation => "Record a validation result, such as a test run. A failing validation blocks completion."
  | proveRequirement => "Mark a requirement as proven. This is rejected unless strong evidence already exists."

def execute (tool : MissionTool) (context : MissionToolContext) (clock : Nat → Date) (uuid : Nat → String)
    (input : JsonObject) : ToolM ToolResult :=
  match tool with
  | planTasks => OttiliCoder.planTasks context clock uuid input
  | listTasks => OttiliCoder.listTasksTool context
  | completeTask => OttiliCoder.completeTask context clock uuid input
  | failTask => OttiliCoder.failTask context clock input
  | delegateTask => OttiliCoder.delegateTask context clock uuid input
  | messageAgent => OttiliCoder.messageAgent context clock uuid input
  | addRequirement => OttiliCoder.addRequirementTool context clock uuid input
  | recordEvidence => OttiliCoder.recordEvidence context clock uuid input
  | recordValidation => OttiliCoder.recordValidationTool context clock uuid input
  | proveRequirement => OttiliCoder.proveRequirement context clock input

end MissionTool

end OttiliCoder
