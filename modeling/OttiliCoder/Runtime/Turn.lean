import OttiliCoder.Library.Binary64
import OttiliCoder.Runtime.Coordinator
import OttiliCoder.Runtime.Engine
import OttiliCoder.Runtime.MissionTools
import OttiliCoder.Store.Schedule
import OttiliCoder.Validation.Stagnation

/-! A turn of the RunCoordinator. -/

namespace OttiliCoder
open Host StableSort

def getMission (s : Store) (missionId : MissionId) : Option MissionRow := (s .missions).find? missionId

def listApprovals (s : Store) (runId : RunId) : List ApprovalRow :=
  ((s .approvals).rows.filter fun row => row.runId == runId).insertionSort fun row other => row.createdAt ≤ other.createdAt

/-- A tool of the workspace, as the turn knows it. -/
structure SourceTool extends ProviderTool where
  completesRun : Bool := false

/-- What a turn is run with. -/
structure TurnSettings where
  collation : Collation
  context : RunContextCompilerOptions := {}
  checkpointOnTaskCompletion : Bool := false
  independentVerifier : Option IndependentVerifier := some deterministicIndependentVerifier
  maxProviderAttempts : Nat := 6
  maxToolCalls : Option Nat := none
  model : String
  provider : String

/-- What a turn meets: the clock and the UUIDs as they are read, and what each `await`
comes to. -/
structure TurnEnvironment where
  clock : Nat → Date
  uuid : Nat → String
  /-- The URI of the provisioned worktree; nothing where none is asked for. -/
  worktree : Option (Answer String) := none
  sourceTools : Answer (List SourceTool)
  workspace : Answer (Option WorkspaceView)
  exchanges : Nat → Exchange
  /-- `Math.random()`, below 1. -/
  random : Rat := 0
  /-- Capturing a checkpoint of the workspace: its snapshot ref, nothing where there is no Git repository. -/
  snapshot : Answer (Option String)

/-- A store call of the turn. -/
def store {α : Type} (m : StoreM α) : TurnM α := do
  let world ← get
  match m world.store with
  | .ok value after =>
    set { world with store := after }
    return value
  | .error error after =>
    set { world with store := after }
    throw (.store error)

def readStore : TurnM Store := do
  let world ← get
  return world.store

/-! Failures. -/

structure ProviderFailure where
  kind : ProviderFailureKind
  message : String
  retryAfterMs : Option Number := none

def classifyProviderFailure : TurnError → ProviderFailure
  | .providerFailure kind message retryAfterMs => { kind := kind, message := message, retryAfterMs := retryAfterMs }
  | .aborted _ => { kind := .connectionTimeout, message := "Provider request was aborted." }
  | .unknown => { kind := .network, message := "Provider request failed with an unknown error." }
  | error => { kind := .network, message := toolFailureText error }

def ProviderFailureKind.text : ProviderFailureKind → String
  | .authentication => "authentication" | .connectionTimeout => "connection_timeout"
  | .contextOverflow => "context_overflow" | .firstByteTimeout => "first_byte_timeout"
  | .invalidRequest => "invalid_request" | .malformedOutput => "malformed_output"
  | .modelUnavailable => "model_unavailable" | .network => "network" | .rateLimited => "rate_limited"
  | .server => "server" | .streamInactive => "stream_inactive"

/-- `Math.round(value)`. -/
def roundHalfUp (value : Rat) : Int := (value + 1 / 2).floor

/-- A quarter of the backoff is jittered; a delay the provider gives is left as it is. -/
def retryDelayMs (random : Rat) (attempt : Nat) (retryAfterMs : Option Number) : Number :=
  match retryAfterMs with
  | some delay => delay
  | none =>
    let base : Rat := min 30000 (1000 * 2 ^ min attempt 6)
    let spread := base * (1 / 4)
    .finite (roundHalfUp (max 0 (min 30000 (base - spread + random * spread * 2))))

/-- `new Date(Date.now() + delay)`: the sum is a double, of which a date keeps the whole milliseconds. -/
def wakeDate (now : Date) (delay : Number) : Option Date :=
  match delay with
  | .finite delay => (Binary64.nearest (now.ms + delay)).bind fun sum =>
    Date.ofMs? (if 0 ≤ sum.value then sum.value.floor else sum.value.ceil)
  | .notFinite => none

/-- The provider failures since the last turn that produced something. -/
def consecutiveProviderFailures (s : Store) (runId : RunId) : Nat :=
  let produced := [RunEventType.agentMessage, .toolCallFinished, .validationFinished]
  ((((listEvents s runId).map (·.type)).reverse.takeWhile fun type => !produced.contains type).filter (· == .providerFailed)).length

/-- The last lines of what the Run has said and done. -/
def summarizeContext (events : List RunEvent) : JsString :=
  let shown := [RunEventType.steeringReceived, .agentMessage, .toolCallFinished]
  let lines := (lastRows 40 (events.filter fun event => shown.contains event.type)).map fun event =>
    utf16 (event.type.text ++ ": ") ++ stringifyForContext (.object event.payload)
  lastRows 24000 (joinLines lines)

/-! Progress, from durable events. -/

/-- `String(value)` of a stored value. -/
def plainText : Json → String
  | .null => "null"
  | .boolean value => if value then "true" else "false"
  | .number value => storedText (jsonNumber value).stringify
  | .string value => value
  | .array items => itemsText items
  | .object _ => "[object Object]"
where
  /-- `items.join(",")`. -/
  itemsText : List Json → String
    | [] => ""
    | [item] => itemText item
    | item :: items => itemText item ++ "," ++ itemsText items
  itemText : Json → String
    | .null => ""
    | item => plainText item

def errorMessage (payload : JsonObject) : Option Json :=
  ((JsonObject.get? payload "error").bind Json.asObject).bind fun error => JsonObject.get? error "message"

/-- What an event says about the attempt it belongs to. -/
def noteProgress (attempt : ProgressAttempt) (event : RunEvent) : ProgressAttempt :=
  match event.type with
  | .validationFinished => { attempt with evidenceAdded := true }
  | .taskStatusChanged =>
    if JsonObject.text? event.payload "to" = some "completed" then { attempt with meaningfulChange := true } else attempt
  | .toolCallFinished =>
    match errorMessage event.payload with
    | some message => { attempt with blockerFingerprint := some (plainText message) }
    | none => { attempt with meaningfulChange := true }
  | .providerFailed => { attempt with
      blockerFingerprint := some (((given? event.payload "message").map plainText).getD "provider") }
  | _ => attempt

/-- The attempts before, and the one the events are in. -/
def attemptsOf : Option ProgressAttempt → List RunEvent → List ProgressAttempt
  | current, [] => current.toList
  | current, event :: events =>
    if event.type = .agentTurnStarted then current.toList ++ attemptsOf (some {}) events
    else attemptsOf (current.map fun attempt => noteProgress attempt event) events

def progressAttempts (s : Store) (runId : RunId) : List ProgressAttempt := attemptsOf none (listEvents s runId)

section Turn
variable (settings : TurnSettings) (environment : TurnEnvironment) (lease : FencedLease)

/-- Parks a finished delegate and reports upward. -/
def settleActingAgent (agent : Agent) (uuid : String) (sent moved : Date) : StoreM Unit :=
  if agent.role = .coordinator then return
  else do
    let s ← get
    let owned := listTasks s lease.runId { ownerAgentId := some agent.id }
    if owned.any fun task => task.status.isUnfinished then
      discard (transitionAgent { agentId := agent.id, lease := some lease, target := .waiting } moved)
    else
      let finished := owned.filter fun task => task.status == .completed
      Transaction.given agent.parentAgentId fun parent =>
        discard (sendAgentMessage
          { body := [("completedTaskIds", .array (finished.map fun task => .string task.id)), ("role", .string agent.role.text)]
            fromAgentId := some agent.id, kind := .taskResult, lease := lease, taskId := agent.taskId, toAgentId := parent }
          uuid sent)
      discard (transitionAgent { agentId := agent.id, lease := some lease, target := .completed } moved)

/-- A fresh agent for the task the acting one is stuck on. -/
def delegateStuckTask (acting : Agent) (stuck : Task) (reason : String) : TurnM Unit := do
  let _ ← store (transitionTask
    { error := some reason, lease := some lease, taskId := stuck.id, target := .failed } (environment.clock 21))
  let replacement ← store (spawnAgent
    { lease := some lease, parentAgentId := some acting.id, permissions := some acting.permissions
      role := if acting.role = .debugger then .reviewer else .debugger, runId := lease.runId
      sandbox := some acting.sandbox, taskId := some stuck.id } (environment.uuid 20) (environment.clock 22))
  let _ ← store (transitionAgent { agentId := replacement.id, lease := some lease, target := .queued } (environment.clock 23))
  store (discard (sendAgentMessage
    { body := [("reason", .string reason), ("taskId", .string stuck.id), ("title", .string stuck.title)]
      fromAgentId := some acting.id, kind := .taskAssignment, lease := lease, taskId := some stuck.id
      toAgentId := replacement.id } (environment.uuid 21) (environment.clock 24)))

/-- Turns repeated turns without progress into a durable change of strategy. -/
def reactToStagnation (acting : Agent) : TurnM Unit := do
  let runId := lease.runId
  let s ← readStore
  let assessment := assessStagnation (progressAttempts s runId)
  Transaction.onlyIf (assessment.action ≠ .continue) do
    let _ ← store (appendFencedEvent
      { lease := lease
        payload := [("action", .string assessment.action.text), ("agentId", .string acting.id),
          ("reason", .string assessment.reason), ("repeatedBlockerCount", .nat assessment.repeatedBlockerCount)]
        type := .agentProgress } (environment.clock 20))
    let s ← readStore
    let running := listTasks s runId { ownerAgentId := some acting.id, status := [.running] }
    match assessment.action with
    | .continue => return
    | .replan =>
      running.forM fun task => store (discard (transitionTask
        { error := some assessment.reason, lease := some lease, taskId := task.id, target := .failed } (environment.clock 21)))
    | .freshAgent =>
      Transaction.given running.head? fun stuck => delegateStuckTask environment lease acting stuck assessment.reason
    | .blocked =>
      store (discard (recordProblem
        { alternateActionAvailable := false, externalDependency := false, fingerprint := "stagnation:" ++ runId
          meaningful := some true, runId := runId, summary := assessment.reason } (environment.uuid 22) (environment.clock 25)))

/-- A pause or a cancel is no provider outage and never schedules a retry. -/
def handleAbort (epochId : SessionEpochId) : TurnM Bool := do
  let _ ← store (endSessionEpoch { id := epochId, lease := some lease, reason := .aborted } (environment.clock 30))
  return true

def handleApprovalWait (approvalId : ApprovalId) (epochId : SessionEpochId) : TurnM Bool := do
  let _ ← store (endSessionEpoch { id := epochId, lease := some lease, reason := .completed } (environment.clock 31))
  let s ← readStore
  let approval := (listApprovals s lease.runId).find? fun candidate => candidate.id == approvalId
  let pending := approval.any fun approval => approval.status == .pending
  Transaction.onlyIf (pending && (getRun s lease.runId).any fun run => run.status == .running) do
    store (discard (transitionRun
      { lease := some lease, reason := some ("Awaiting approval '" ++ approvalId ++ "'."), runId := lease.runId
        target := ⟨.waitingExternal, by decide⟩ } (environment.clock 32)))
  return true

/-- Whatever is no context overflow is tried again later while attempts are left, or is a problem of the Run. -/
def retryFailure (failure : ProviderFailure) : TurnM Bool := do
  let s ← readStore
  let kind := failure.kind
  let consecutiveFailures := consecutiveProviderFailures s lease.runId
  if kind.retryable && decide (consecutiveFailures ≤ settings.maxProviderAttempts) then
    let delay := retryDelayMs environment.random consecutiveFailures failure.retryAfterMs
    let _ ← store (scheduleWake
      { lease := some lease, runId := lease.runId, wakeAt := wakeDate (environment.clock 37) delay }
      (environment.uuid 31) (environment.clock 38))
    let _ ← store (appendFencedEvent
      { lease := lease
        payload := [("consecutiveFailures", .nat consecutiveFailures),
          ("delayMs", match delay with | .finite value => .number value | .notFinite => .null), ("kind", .string kind.text)]
        type := .runRetryScheduled } (environment.clock 39))
    return false
  else
    let _ ← store (recordProblem
      { alternateActionAvailable := kind.retryable, externalDependency := true, fingerprint := "provider:" ++ kind.text
        meaningful := some true, note := some (storedText ((utf16 failure.message).take 500)), runId := lease.runId
        summary := if kind.retryable then
            "Provider kept failing with '" ++ kind.text ++ "' after " ++ toString consecutiveFailures ++ " consecutive attempts."
          else "Provider failure '" ++ kind.text ++ "' needs operator or provider configuration input." }
      (environment.uuid 32) (environment.clock 40))
    let s ← readStore
    Transaction.onlyIf ((getRun s lease.runId).any fun run => run.status == .running) do
      store (discard (transitionRun
        { lease := some lease, reason := some ("Provider failure: " ++ kind.text), runId := lease.runId
          target := ⟨.waitingExternal, by decide⟩ } (environment.clock 41)))
    return false

def handleFailure (epochId : SessionEpochId) (error : TurnError) : TurnM Bool := do
  let failure := classifyProviderFailure error
  let overflow := decide (failure.kind = .contextOverflow)
  Transaction.onlyIf overflow do
    let s ← readStore
    let summary := summarizeContext (listEvents s lease.runId)
    store (discard (createContextSnapshot
      { lease := some lease, runId := lease.runId, sessionEpochId := some epochId, summary := storedText summary
        tokenCount := .finite (quarters summary.length) } (environment.uuid 30) (environment.clock 33)))
  let _ ← store (endSessionEpoch
    { id := epochId, lease := some lease, reason := if overflow then .contextOverflow else .failed } (environment.clock 34))
  let _ ← store (appendFencedEvent
    { lease := lease, payload := [("kind", .string failure.kind.text), ("message", .string failure.message)]
      type := .providerFailed } (environment.clock 35))
  if overflow then
    let _ ← store (appendFencedEvent
      { lease := lease, payload := [("action", .string "new_session_epoch"), ("reason", .string "context_overflow")]
        type := .contextCompacted } (environment.clock 36))
    return true
  else retryFailure settings environment lease failure

def provisionWorktree (agent : Agent) (mission : MissionRow) (provisioned : Answer String) : TurnM String :=
  tryCatch
    (do
      let worktreeUri ← await provisioned
      let _ ← store (setAgentWorktree { agentId := agent.id, lease := lease, worktreeUri := worktreeUri } (environment.clock 3))
      return worktreeUri)
    fun error => do
      let _ ← store (appendFencedEvent
        { lease := lease
          payload := [("agentId", .string agent.id), ("kind", .string "worktree_provisioning_failed"),
            ("message", .string (toolFailureText error))]
          type := .agentProgress } (environment.clock 4))
      return mission.workspaceUri

/-- The delegate's own worktree, provisioned once; a failure falls back to the shared workspace. -/
def ensureAgentWorktree (agent : Agent) (mission : MissionRow) : TurnM String :=
  match environment.worktree with
  | none => return mission.workspaceUri
  | some provisioned =>
    if agent.role = .coordinator then return mission.workspaceUri
    else
      match agent.worktreeUri with
      | some worktreeUri => return worktreeUri
      | none => provisionWorktree environment lease agent mission provisioned

/-- A real snapshot ref with a durable row beside it; a failure is recorded and goes no further. -/
def createMilestoneCheckpoint (acting : Agent) (call : ToolCall) : TurnM Unit := do
  let reason := match JsonObject.text? call.input "summary" with
    | some summary => if isBlank summary then "Task completed." else summary
    | none => "Task completed."
  tryCatch
    (do
      let snapshot ← await environment.snapshot
      Transaction.given snapshot fun ref => do
        let s ← readStore
        let manifest : JsonObject := [
          ("agents", .array ((listAgents s lease.runId).map fun agent =>
            .object [("id", .string agent.id), ("role", .string agent.role.text), ("status", .string agent.status.text)])),
          ("requirements", .array ((listRequirements s lease.runId).map fun requirement =>
            .object [("id", .string requirement.id), ("status", .string requirement.status.text),
              ("title", .string requirement.title)])),
          ("tasks", .array ((listTasks s lease.runId).map fun task =>
            .object [("id", .string task.id), ("status", .string task.status.text), ("title", .string task.title)]))]
        store (discard (createCheckpoint
          { label := "task_completed", lease := lease, manifest := manifest, reason := reason, runId := lease.runId
            workspaceRef := some ref } (environment.uuid 23) (environment.clock 26))))
    fun error =>
      store (discard (appendFencedEvent
        { lease := lease
          payload := [("agentId", .string acting.id), ("kind", .string "checkpoint_failed"),
            ("message", .string (toolFailureText error))]
          type := .agentProgress } (environment.clock 27)))

/-- The agent of the turn, its task and its epoch, once its messages are drained. -/
structure TurnOpening where
  acting : Agent
  inbox : List AgentMessageRow
  activeTask : Option Task
  epoch : SessionEpochRow
  workspaceUri : String

/-- The turn up to the context: recovery, the acting agent, its messages, its task and its epoch. -/
def openTurn (coordinator : Agent) (mission : MissionRow) : TurnM TurnOpening := do
  let _ ← store (recoverGraphWork lease (environment.clock 0))
  let acting ← store (selectActingAgent lease.runId coordinator lease (environment.clock 1) (environment.clock 2))
  let workspaceUri ← ensureAgentWorktree environment lease acting mission
  let inbox ← store (receiveAgentMessages { agentId := acting.id, lease := lease } (environment.clock 5))
  let activeTask ← store (claimTaskFor acting lease (environment.clock 6))
  let epoch ← store (startSessionEpoch
    { agentId := acting.id, lease := some lease, model := settings.model, provider := settings.provider } (environment.clock 7))
  let _ ← store (appendFencedEvent
    { lease := lease, payload := [("agentId", .string acting.id), ("sessionEpochId", .string epoch.id)]
      type := .agentTurnStarted } (environment.clock 8))
  return { acting := acting, inbox := inbox, activeTask := activeTask, epoch := epoch, workspaceUri := workspaceUri }

/-- The tools the model is offered; a mission tool does not replace one of the workspace. -/
def offeredTools (sourceTools : List SourceTool) : List ProviderTool :=
  sourceTools.map (·.toProviderTool) ++
    (MissionTool.all.filter fun tool => !sourceTools.any (·.name == tool.name)).map fun tool =>
      { name := tool.name, description := tool.description }

def contextRequest (opening : TurnOpening) (mission : MissionRow) (run : Run) : RunContextRequest where
  activeTask := opening.activeTask
  agent := opening.acting
  inbox := opening.inbox
  mission := { mission with workspaceUri := opening.workspaceUri }
  run := run

/-- What was left out of the context is recorded. -/
def compileContext (opening : TurnOpening) (mission : MissionRow) (run : Run) : TurnM CompiledContext := do
  let workspace ← await environment.workspace
  let s ← readStore
  match compile settings.collation settings.context s (contextRequest opening mission run) workspace with
  | .error message => throw (.error message)
  | .ok context =>
    Transaction.onlyIf (!context.omitted.isEmpty) do
      store (discard (appendFencedEvent
        { lease := lease
          payload := [("agentId", .string opening.acting.id), ("omitted", .array (context.omitted.map .string)),
            ("usedTokens", .nat context.usedTokens)]
          type := .contextCompacted } (environment.clock 9)))
    return context

/-- What the model reported, as the shared budget takes it. -/
def TurnUsage.delta (usage : TurnUsage) : BudgetDelta where
  inputTokens := usage.inputTokens
  outputTokens := usage.outputTokens
  cachedTokens := usage.cachedTokens
  costUsd := usage.costUsd

/-- The epoch keys both writes, so a replayed turn cannot charge the budget twice. -/
def chargeTurn (opening : TurnOpening) (usage : TurnUsage) : TurnM Unit := do
  let _ ← store (recordUsageFenced lease usage.delta (some ⟨some opening.acting.id, opening.epoch.id⟩) (environment.clock 10))
  let _ ← store (recordCost
    { agentId := some opening.acting.id, cachedTokens := usage.cachedTokens, costUsd := usage.costUsd
      inputTokens := usage.inputTokens, outputTokens := usage.outputTokens, lease := some lease, runId := lease.runId
      sessionEpochId := some opening.epoch.id, entryKey := some opening.epoch.id } (environment.uuid 10) (environment.clock 11))

/-- The turn after its charge. -/
def concludeWith (opening : TurnOpening) (sourceTools : List SourceTool) (result : TurnProgress) : TurnM Bool := do
  let acting := opening.acting
  result.events.forM fun event =>
    match event with
    | .assistantText text =>
      store (discard (appendFencedEvent
        { lease := lease
          payload := [("agentId", .string acting.id), ("sessionEpochId", .string opening.epoch.id), ("text", .string text)]
          type := .agentMessage } (environment.clock 12)))
    | _ => return
  let _ ← store (endSessionEpoch { id := opening.epoch.id, lease := some lease, reason := .completed } (environment.clock 13))
  store (settleActingAgent lease acting (environment.uuid 11) (environment.clock 14) (environment.clock 15))
  reactToStagnation environment lease acting
  let succeeded := (result.toolExecutions.filter fun execution => execution.outcome.toBool).map (·.call)
  let completed :=
    if settings.checkpointOnTaskCompletion then succeeded.find? fun call => call.name == "complete_task" else none
  Transaction.given completed (createMilestoneCheckpoint environment lease acting)
  let requestedCompletion := succeeded.any fun call =>
    (sourceTools.find? fun tool => tool.name == call.name).any (·.completesRun)
  if requestedCompletion then
    store (concludeTurn settings.independentVerifier lease.runId lease (environment.uuid 12) (environment.clock 16)
      (environment.clock 17))
  else return true

/-- What a turn is played with. -/
structure TurnStart where
  mission : MissionRow
  run : Run
  opening : TurnOpening
  sourceTools : List SourceTool

/-- The turn up to what is caught: nothing to play, and whether to ask for another turn, or the start of one. -/
def startTurn : TurnM (Except Bool TurnStart) := do
  let world ← get
  let s := world.store
  if world.aborted.isSome then return .error true
  else
    match (getRun s lease.runId).filter fun run => run.currentGoalId.isSome with
    | none => return .error false
    | some run =>
      match coordinatorOf s run.id with
      | none => throw (.error ("Run '" ++ run.id ++ "' has no coordinator Agent."))
      | some coordinator =>
        match getMission s run.missionId with
        | none => throw (.error ("Run '" ++ run.id ++ "' has no Mission."))
        | some mission => do
          let opening ← openTurn settings environment lease coordinator mission
          let sourceTools ← await environment.sourceTools
          return .ok { mission := mission, run := run, opening := opening, sourceTools := sourceTools }

/-- The requests of a turn. -/
def runEngine (start : TurnStart) (context : CompiledContext) : TurnM TurnProgress :=
  AgentTurnEngine.run (offeredTools start.sourceTools) environment.exchanges
    { maxToolCalls := settings.maxToolCalls, messages := context.messages, model := settings.model }

/-- The part of the turn that is caught. -/
def playTurn (start : TurnStart) : TurnM Bool := do
  let context ← compileContext settings environment lease start.opening start.mission start.run
  let result ← runEngine settings environment start context
  let world ← get
  if world.aborted.isSome then handleAbort environment lease start.opening.epoch.id
  else
    chargeTurn environment lease start.opening result.usage
    concludeWith settings environment lease start.opening start.sourceTools result

/-- An abort is no outage, and neither is an approval that is waited for. -/
def catchTurn (start : TurnStart) (error : TurnError) : TurnM Bool := do
  let world ← get
  if world.aborted.isSome then handleAbort environment lease start.opening.epoch.id
  else
    match error with
    | .approvalRequired approvalId => handleApprovalWait environment lease approvalId start.opening.epoch.id
    | error => handleFailure settings environment lease start.opening.epoch.id error

/-- A turn; `true` asks for another one. -/
def execute : TurnM Bool := do
  let started ← startTurn settings environment lease
  match started with
  | .error again => return again
  | .ok start => tryCatch (playTurn settings environment lease start) (catchTurn settings environment lease start)

end Turn

end OttiliCoder
