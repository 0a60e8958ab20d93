import OttiliCoder.Context.Planner
import OttiliCoder.Runtime.Provider
import OttiliCoder.Store.Graph
import OttiliCoder.Store.Runs

/-! The context of a turn, compiled from the store and the checked-out workspace. -/

namespace OttiliCoder
open Host StableSort

/-! Reading. -/

def listContextSnapshots (s : Store) (runId : RunId) : List ContextSnapshotRow :=
  orderByTexts (·.createdAt) (·.id) ((s .contextSnapshots).rows.filter (·.runId == runId))

def listMemoryEntries (s : Store) (runId : RunId) : List MemoryEntryRow :=
  orderByTexts (·.createdAt) (·.id) ((s .memoryEntries).rows.filter (·.runId == runId))

def listProblems (s : Store) (runId : RunId) : List ProblemRow :=
  orderByTexts (·.createdAt) (·.id) ((s .problems).rows.filter (·.runId == runId))

/-! What the workspace shows. -/

structure WorkspaceDiagnostic where
  path : String
  line : Nat
  severity : String
  message : String

structure GitStatusEntry where
  indexStatus : String
  worktreeStatus : String
  path : String

structure GitStatus where
  branch : Option String := none
  head : Option String := none
  entries : List GitStatusEntry := []

structure WorkspaceView where
  diagnostics : List WorkspaceDiagnostic := []
  repoMapText : Option String := none
  semanticText : Option String := none
  status : Option GitStatus := none
  diff : Option String := none

structure RunContextRequest where
  activeTask : Option Task
  agent : Agent
  inbox : List AgentMessageRow
  mission : MissionRow
  run : Run

structure CompiledContext where
  messages : List RuntimeMessage
  omitted : List String
  usedTokens : Nat
deriving DecidableEq

structure RunContextCompilerOptions where
  budgetTokens : Option Number := none
  maxTranscriptCharacters : Option Nat := none
  maxTranscriptMessages : Option Nat := none

def defaultBudgetTokens : Number := 12000

def stringifyForContext (value : Json) (limit : Nat := 8000) : JsString :=
  let encoded := stringify value
  if encoded.length ≤ limit then encoded else encoded.take limit ++ units "\n[durable tool output truncated]"

def AgentRole.text : AgentRole → String
  | .coordinator => "coordinator" | .researcher => "researcher" | .implementer => "implementer"
  | .debugger => "debugger" | .reviewer => "reviewer" | .verifier => "verifier" | .specialist => "specialist"

def sharedBriefing : String :=
  "Record durable evidence with record_evidence/record_validation; the completion gate re-audits the ledger and ignores any claim of being finished. A normal response never finishes the Run."

def roleBriefing (agent : Agent) : String :=
  match agent.role with
  | .coordinator => "You are the Ottili mission coordinator. Break the mission into durable tasks, delegate specialised work with delegate_task, and drive toward independently verifiable completion. " ++ sharedBriefing
  | .researcher => "You are an Ottili research agent. Investigate the workspace and report findings to the coordinator. Do not change code. " ++ sharedBriefing
  | .implementer => "You are an Ottili implementation agent. Make the smallest correct change that satisfies your task. " ++ sharedBriefing
  | .debugger => "You are an Ottili debugging agent. Reproduce the failure first, then explain and fix its cause. " ++ sharedBriefing
  | .reviewer => "You are an Ottili review agent. Review the change critically and independently; do not accept it because it was requested. " ++ sharedBriefing
  | .verifier => "You are an Ottili verification agent. Re-derive whether the requirements are actually proven by the recorded evidence. " ++ sharedBriefing
  | .specialist => "You are an Ottili specialist agent working one task of a larger mission. " ++ sharedBriefing

/-! The texts of stored values. A counter that is not finite is shown as `null`. -/

def countValue : Number → JsonValue
  | .finite value => jsonNumber value
  | .notFinite => .null

def entriesValue (entries : List (String × Option Number)) : List (JsString × JsonValue) :=
  entries.filterMap fun (name, value) => value.map fun value => (utf16 name, countValue value)

def usageText (usage : BudgetUsage) : JsString := (JsonValue.object (entriesValue usage.entries)).stringify

def reserveValue (name : String) (reserve : Option BudgetReservation) : List (JsString × JsonValue) :=
  match reserve with
  | none => []
  | some reserve =>
    [(utf16 name, .object (entriesValue (reserve.toBudgetDelta.entries ++ [("totalTokens", reserve.totalTokens)])))]

/-- The fields come in the order of the type, whatever order they were given in. -/
def budgetText (budget : RunBudget) : JsString :=
  let reserves := reserveValue "recovery" budget.recoveryReserve ++ reserveValue "validation" budget.validationReserve
  (JsonValue.object (entriesValue budget.ceilings ++
    if reserves.isEmpty then [] else [(units "reserve", .object reserves)])).stringify

def RequirementStatus.text : RequirementStatus → String
  | .contradicted => "contradicted" | .proven => "proven" | .unproven => "unproven" | .waived => "waived"

def EvidenceKind.text : EvidenceKind → String
  | .artifact => "artifact" | .command => "command" | .inspection => "inspection" | .review => "review" | .test => "test"

def EvidenceStrength.text : EvidenceStrength → String
  | .strong => "strong" | .supporting => "supporting" | .weak => "weak"

/-- `lines.join("\n")`. -/
def joinLines (lines : List JsString) : JsString := [unit '\n'].intercalate lines

/-! Mission-critical context. -/

def taskText (activeTask : Option Task) : String :=
  match activeTask with
  | none => "You own no task right now. Use plan_tasks to break the mission down, or take the next ready task."
  | some task =>
    "Current task '" ++ task.title ++ "' (" ++ task.id ++ "): " ++ task.description ++
      match task.lastError with
      | none => ""
      | some error => "\nPrevious attempt failed: " ++ error ++ " (attempt " ++ toString task.attempt ++ ")"

def runStateText (run : Run) (agent : Agent) : JsString :=
  utf16 ("Run status: " ++ run.status.text ++ ". Agent role: " ++ agent.role.text ++ ". Budget used: ") ++
    usageText run.usage ++ units " of " ++ budgetText run.budget ++ units "."

def requirementLine (requirement : RequirementRecord) : JsString :=
  utf16 ("- " ++ requirement.id ++ " [" ++ requirement.status.text ++
    (if requirement.required then ", required" else ", optional") ++ "] " ++ requirement.title ++
    if requirement.evidence.isEmpty then ""
    else "\n    evidence: " ++ ", ".intercalate (requirement.evidence.map fun item => item.kind.text ++ "/" ++ item.strength.text))

def fixedItems (s : Store) (request : RunContextRequest) : List ContextItem :=
  let requirements := listRequirements s request.run.id
  [{ content := utf16 (taskText request.activeTask), id := "task.active", priority := some 10, source := "task" },
    { content := runStateText request.run request.agent, id := "run.state", priority := some 8, source := "run_state" }] ++
  (match request.run.currentGoalId.bind (getGoal s) with
    | none => []
    | some goal =>
      [{ content := utf16 ("Goal '" ++ goal.title ++ "': " ++ goal.description ++ " (" ++ goal.status.text ++ ")")
         id := "goal.active", priority := some 9, source := "goal" }]) ++
  if requirements.isEmpty then []
  else
    [{ content := units "Requirements the completion gate will re-audit:\n" ++ joinLines (requirements.map requirementLine)
       id := "requirements", priority := some 9, source := "validation" }]

/-! Everything else competes for the remaining budget. -/

def taskLine (task : Task) : JsString :=
  utf16 ("- " ++ task.id ++ " [" ++ task.status.text ++ "] " ++ task.title ++
    (if task.dependencyIds.isEmpty then "" else " (after " ++ ", ".intercalate task.dependencyIds ++ ")") ++
    match task.ownerAgentId with
    | none => ""
    | some owner => " owner=" ++ owner)

def messageLine (message : AgentMessageRow) : JsString :=
  utf16 ("- " ++ message.kind.text ++ " from " ++ message.fromAgentId.getD "the run" ++ ": ") ++
    stringify (.object message.body)

def inboxItem (inbox : List AgentMessageRow) : ContextItem where
  content := units "Messages addressed to you:\n" ++ joinLines (inbox.map messageLine)
  id := "agent.inbox"
  priority := some 7
  relevance := some 1
  source := "run_state"

/-- `rows.slice(-count)`. -/
def lastRows {α : Type} (count : Nat) (rows : List α) : List α := rows.drop (rows.length - count)

def isConfident (entry : MemoryEntryRow) : Bool :=
  match entry.confidence with
  | .finite value => decide (1 / 2 ≤ value)
  | .notFinite => false

def memoryItem (entry : MemoryEntryRow) : ContextItem where
  content := utf16 ("Durable memory: " ++ entry.content)
  id := "memory." ++ entry.id
  relevance := some entry.confidence
  source := "memory"

def gitText (status : GitStatus) : String :=
  "Git: branch " ++ status.branch.getD "detached" ++ " at " ++ status.head.getD "no commit" ++ ".\n" ++
    if status.entries.isEmpty then "The working tree is clean."
    else "\n".intercalate ((status.entries.take 40).map fun entry =>
      "- " ++ entry.indexStatus ++ entry.worktreeStatus ++ " " ++ entry.path)

def diagnosticLine (diagnostic : WorkspaceDiagnostic) : String :=
  "- " ++ diagnostic.severity ++ " " ++ diagnostic.path ++ ":" ++ toString diagnostic.line ++ " " ++ diagnostic.message

def workspaceItems (workspace : WorkspaceView) : List ContextItem :=
  (match workspace.status with
    | none => []
    | some status =>
      [{ allowTruncate := some true, content := utf16 (gitText status), id := "git.status", priority := some 5
         relevance := some (.finite (9 / 10)), source := "git" }]) ++
  (match workspace.diff with
    | none => []
    | some diff =>
      if diff.isEmpty then []
      else
        [{ allowTruncate := some true, content := utf16 ("Uncommitted diff:\n" ++ diff), id := "git.diff"
           maxTokens := some 2000, relevance := some (.finite (85 / 100)), source := "git" }]) ++
  (if workspace.diagnostics.isEmpty then []
    else
      [{ allowTruncate := some true
         content := utf16 ("Language server diagnostics:\n" ++ "\n".intercalate ((workspace.diagnostics.take 40).map diagnosticLine))
         id := "lsp.diagnostics", priority := some 5, relevance := some (.finite (9 / 10)), source := "lsp" }]) ++
  (match workspace.semanticText with
    | none => []
    | some text =>
      [{ allowTruncate := some true, content := utf16 text, id := "semantic.matches"
         relevance := some (.finite (8 / 10)), source := "semantic" }]) ++
  match workspace.repoMapText with
  | none => []
  | some text =>
    [{ allowTruncate := some true, content := utf16 ("Repository map:\n" ++ text), id := "repo.map"
       relevance := some (.finite (6 / 10)), source := "repo_map" }]

def taskItems (s : Store) (runId : RunId) : List ContextItem :=
  let tasks := listTasks s runId
  if tasks.isEmpty then []
  else
    [{ allowTruncate := some true, content := units "Task graph:\n" ++ joinLines (tasks.map taskLine), id := "task.graph"
       relevance := some (.finite (95 / 100)), source := "task" }]

def inboxItems (inbox : List AgentMessageRow) : List ContextItem := if inbox.isEmpty then [] else [inboxItem inbox]

/-- What the ledger holds against completion, and what is remembered of the Run. -/
def ledgerItems (s : Store) (runId : RunId) : List ContextItem :=
  let validations := lastRows 5 ((listValidations s runId).filter fun validation => !validation.passed)
  let memories := lastRows 8 ((listMemoryEntries s runId).filter isConfident)
  let problems := lastRows 5 ((listProblems s runId).filter fun problem => problem.status != .resolved)
  (if validations.isEmpty then []
    else
      [{ content := utf16 ("Failing validations that still block completion:\n" ++
           "\n".intercalate (validations.map fun validation => "- " ++ validation.name ++ ": " ++ validation.summary))
         id := "validation.failing", priority := some 6, relevance := some 1, source := "validation" }]) ++
  (match (listContextSnapshots s runId).getLast? with
    | none => []
    | some snapshot =>
      [{ allowTruncate := some true, content := utf16 ("Prior context checkpoint:\n" ++ snapshot.summary)
         id := "context.snapshot", relevance := some (.finite (8 / 10)), source := "run_state" }]) ++
  memories.map memoryItem ++
  if problems.isEmpty then []
  else
    [{ content := utf16 ("Open problems:\n" ++ "\n".intercalate (problems.map fun problem => "- " ++ problem.summary))
       id := "problems", relevance := some (.finite (85 / 100)), source := "run_state" }]

def candidateItems (s : Store) (request : RunContextRequest) (workspace : Option WorkspaceView) : List ContextItem :=
  taskItems s request.run.id ++ inboxItems request.inbox ++ ledgerItems s request.run.id ++
    match workspace with
    | none => []
    | some workspace => workspaceItems workspace

/-! The transcript, from durable events only. -/

/-- What an event is to the model. -/
def eventMessage (event : RunEvent) : Option RuntimeMessage :=
  match event.type with
  | .steeringReceived => (JsonObject.text? event.payload "text").map fun text =>
    { content := utf16 text, role := .user }
  | .agentMessage => (JsonObject.text? event.payload "text").map fun text =>
    { content := utf16 text, role := .assistant }
  | .toolCallStarted => (JsonObject.text? event.payload "name").map fun name =>
    { content := utf16 ("Tool invoked: " ++ name ++ "."), role := .assistant }
  | .toolCallFinished => (JsonObject.text? event.payload "toolCallId").map fun toolCallId =>
    { content := match JsonObject.get? event.payload "output" with
        | none => units "Tool finished without serializable output."
        | some output => stringifyForContext output
      role := .tool
      toolCallId := some toolCallId }
  | _ => none

/-- The messages kept of a reversed list, from its front. -/
def retainMessages : Nat → Nat → List RuntimeMessage → List RuntimeMessage
  | _, _, [] => []
  | 0, _, _ :: _ => []
  | messages + 1, characters, message :: rest =>
    if characters < message.content.length then []
    else message :: retainMessages messages (characters - message.content.length) rest

/-- Keeps the most recent exchange rather than the oldest. -/
def trimMessages (messages : List RuntimeMessage) (maximumMessages maximumCharacters : Nat) : List RuntimeMessage :=
  (retainMessages maximumMessages maximumCharacters messages.reverse).reverse

section Compiler
variable (collation : Collation) (options : RunContextCompilerOptions)

def transcript (s : Store) (runId : RunId) : List RuntimeMessage :=
  trimMessages ((listEvents s runId).filterMap eventMessage) (options.maxTranscriptMessages.getD 48)
    (options.maxTranscriptCharacters.getD 48000)

def contextPlan (s : Store) (request : RunContextRequest) (workspace : Option WorkspaceView) : Planning ContextPlan :=
  planContext collation {
    budgetTokens := options.budgetTokens.getD defaultBudgetTokens
    candidates := candidateItems s request workspace
    fixed := fixedItems s request }

def OmittedContextItem.text (item : OmittedContextItem) : String := item.source ++ ":" ++ item.reason.text

/-- `workspace` is what `readWorkspace` has read; it never throws. -/
def compile (s : Store) (request : RunContextRequest) (workspace : Option WorkspaceView) : Planning CompiledContext := do
  let plan ← contextPlan collation options s request workspace
  return {
    messages := [
      { content := utf16 (roleBriefing request.agent), role := .system },
      { content := utf16 request.mission.prompt, role := .user },
      { content := plan.text, role := .system }] ++ transcript options s request.run.id
    omitted := plan.omitted.map (·.text)
    usedTokens := plan.usedTokens }

end Compiler

def sampleRequest (s : Store) (runId : RunId) : Option RunContextRequest := do
  let run ← getRun s runId
  let agent ← (listAgents s runId).head?
  let mission ← (s .missions).find? run.missionId
  return { activeTask := none, agent := agent, inbox := [], mission := mission, run := run }

end OttiliCoder
