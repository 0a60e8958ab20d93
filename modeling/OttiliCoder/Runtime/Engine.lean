import OttiliCoder.Runtime.Provider
import OttiliCoder.Store.Calls

/-! The turn engine. What the environment does at each `await` of a turn, what it answers
and what the store and the signal are then, is given in advance; the engine is a function
of these answers. -/

namespace OttiliCoder
open Host Transaction

/-- What comes of one `await`: the calls made to the store meanwhile, the signal
afterwards, and the value or the error. -/
structure Answer (α : Type) where
  meanwhile : List Call := []
  /-- What `throwIfAborted` throws, once the signal is aborted. -/
  aborted : Option TurnError := none
  outcome : Except TurnError α

/-- A provider response, and what each of its tool calls comes to. -/
structure Exchange where
  response : Answer ProviderTurnResponse
  tools : Nat → Answer ToolResult

/-- A request a turn sends or a tool it runs, with what comes of it. -/
inductive TurnAct where
  | asked (request : ProviderTurnRequest) (answer : Answer ProviderTurnResponse)
  | ran (call : ToolCall) (answer : Answer ToolResult)

structure TurnWorld where
  store : Store
  aborted : Option TurnError
  /-- What the turn has asked and run, in order. -/
  acts : List TurnAct := []
  /-- The requests the provider got, as a scripted provider keeps them. -/
  requests : List ProviderTurnRequest := []
  /-- The responses the provider returned. -/
  responses : List ProviderTurnResponse := []

abbrev TurnM := EStateM TurnError TurnWorld

def await {α : Type} (answer : Answer α) : TurnM α := do
  modify fun world =>
    { world with store := performAll Call.perform answer.meanwhile world.store, aborted := answer.aborted }
  match answer.outcome with
  | .ok value => return value
  | .error error => throw error

structure ToolExecutionEvent where
  call : ToolCall
  outcome : Except String ToolResult

inductive TurnEvent where
  | assistantText (text : String)
  | providerResponse
  | toolFinished (call : ToolCall) (result : ToolResult)
  | toolStarted (call : ToolCall)

structure AgentTurnInput where
  maxToolCalls : Option Nat := none
  messages : List RuntimeMessage
  model : String

/-- The locals of a turn. -/
structure TurnProgress where
  messages : List RuntimeMessage
  events : List TurnEvent := []
  toolExecutions : List ToolExecutionEvent := []
  usage : TurnUsage := {}
  toolCount : Nat := 0

/-- `(left ?? 0) + (right ?? 0)`, unless both are missing. -/
def mergeCount (left right : Option Number) : Option Number :=
  if left.isNone && right.isNone then none else some ((left.getD 0).plus (right.getD 0))

def mergeUsage (target : TurnUsage) (next : Option TurnUsage) : TurnUsage :=
  match next with
  | none => target
  | some next => {
      cachedTokens := mergeCount target.cachedTokens next.cachedTokens
      costUsd := mergeCount target.costUsd next.costUsd
      inputTokens := mergeCount target.inputTokens next.inputTokens
      outputTokens := mergeCount target.outputTokens next.outputTokens }

/-- `error instanceof Error ? error.message : "Tool failed with an unknown error."`. -/
def toolFailureText : TurnError → String
  | .providerFailure _ message _ => message
  | .approvalRequired approvalId => "Tool execution is awaiting approval '" ++ approvalId ++ "'."
  | .aborted message => message
  | .store error => error.text
  | .error message => message
  | .unknown => "Tool failed with an unknown error."

namespace AgentTurnEngine

/-- An abort stops the turn at the next boundary. -/
def throwIfAborted : TurnM Unit := do
  let world ← get
  match world.aborted with
  | some reason => throw reason
  | none => return

def toolMessage (call : ToolCall) (content : String) : RuntimeMessage :=
  { role := .tool, content := utf16 content, toolCallId := some call.id }

/-- Approval is a durable stop condition, not feedback to the model; other failures are. -/
def toolFailed (progress : TurnProgress) (call : ToolCall) : TurnError → TurnM TurnProgress
  | .approvalRequired approvalId => throw (.approvalRequired approvalId)
  | error => do
    let world ← get
    if world.aborted.isSome then throw error
    else return { progress with
      toolExecutions := progress.toolExecutions ++ [{ call := call, outcome := .error (toolFailureText error) }]
      messages := progress.messages ++ [toolMessage call ("Tool failed: " ++ toolFailureText error)] }

def toolFinished (progress : TurnProgress) (call : ToolCall) (result : ToolResult) : TurnProgress :=
  { progress with
    toolExecutions := progress.toolExecutions ++ [{ call := call, outcome := .ok result }]
    messages := progress.messages ++ [toolMessage call result.output]
    events := progress.events ++ [.toolFinished call result] }

def execute (answer : Answer ToolResult) (call : ToolCall) : TurnM ToolResult := do
  modify fun world => { world with acts := world.acts ++ [.ran call answer] }
  await answer

def executeTool (answer : Answer ToolResult) (progress : TurnProgress) (call : ToolCall) : TurnM TurnProgress :=
  let progress : TurnProgress := { progress with events := progress.events ++ [.toolStarted call] }
  tryCatch
    (do
      let result ← execute answer call
      throwIfAborted
      return toolFinished progress call result)
    (toolFailed progress call)

section Turn
variable (tools : List ProviderTool) (maxToolCalls : Nat)

def callTool (answer : Answer ToolResult) (progress : TurnProgress) (call : ToolCall) : TurnM TurnProgress := do
  throwIfAborted
  let progress := { progress with toolCount := progress.toolCount + 1 }
  if maxToolCalls < progress.toolCount then
    throw (.providerFailure .malformedOutput ("Tool call limit of " ++ toString maxToolCalls ++ " exceeded."))
  else if tools.any (·.name == call.name) then executeTool answer progress call
  else
    let error := "Unknown tool '" ++ call.name ++ "'."
    return { progress with
      toolExecutions := progress.toolExecutions ++ [{ call := call, outcome := .error error }]
      messages := progress.messages ++ [toolMessage call error] }

/-- The calls of one response, each with its place among them. -/
def callTools (answers : Nat → Answer ToolResult) : Nat → List ToolCall → TurnProgress → TurnM TurnProgress
  | _, [], progress => return progress
  | place, call :: calls, progress => do
    let progress ← callTool tools maxToolCalls (answers place) progress call
    callTools answers (place + 1) calls progress

def complete (answer : Answer ProviderTurnResponse) (request : ProviderTurnRequest) : TurnM ProviderTurnResponse := do
  modify fun world => { world with requests := world.requests ++ [request], acts := world.acts ++ [.asked request answer] }
  let response ← await answer
  modify fun world => { world with responses := world.responses ++ [response] }
  return response

/-- What a response adds before its tool calls. -/
def receive (progress : TurnProgress) (response : ProviderTurnResponse) : TurnProgress :=
  let progress := { progress with
    usage := mergeUsage progress.usage response.usage
    events := progress.events ++ [.providerResponse] }
  match response.text with
  | none => progress
  | some text => { progress with
      messages := progress.messages ++ [{ role := .assistant, content := utf16 text }]
      events := progress.events ++ [.assistantText text] }

/-- The loop of the turn. Every round but the last makes a tool call within the limit, so
`maxToolCalls + 1` rounds are enough (`loop_rounds`). -/
def loop (model : String) : Nat → (Nat → Exchange) → TurnProgress → TurnM TurnProgress
  | 0, _, _ => throw .unknown
  | rounds + 1, exchanges, progress => do
    throwIfAborted
    let response ← complete (exchanges 0).response { messages := progress.messages, model := model, tools := tools }
    throwIfAborted
    let progress := receive progress response
    if response.calls.isEmpty then return progress
    else
      let progress ← callTools tools maxToolCalls (exchanges 0).tools 0 response.calls progress
      loop model rounds (fun later => exchanges (later + 1)) progress

attribute [grind =] loop

end Turn

def run (tools : List ProviderTool) (exchanges : Nat → Exchange) (input : AgentTurnInput) : TurnM TurnProgress :=
  let maxToolCalls := input.maxToolCalls.getD 32
  loop tools maxToolCalls input.model (maxToolCalls + 1) exchanges { messages := input.messages }

end AgentTurnEngine

end OttiliCoder
