import OttiliCoder.Integrations.Mcp

/-! A tool call that goes to an MCP server, with the signal of its turn. The engine looks at the
signal, the supervisor connects, and the transport sends `tools/call`; between these the call is
suspended, and what else happens at the server goes on. The calls that `Server` counts are others. -/

namespace OttiliCoder.Mcp

inductive McpTransport where
  | stdio | streamableHttp
deriving DecidableEq

/-- Where a call is. -/
inductive CallPhase where
  /-- The engine has not come to it. -/
  | ready
  /-- `connect` awaits `setDesiredState`. -/
  | connecting
  /-- `open` awaits a promise, which it made itself or found in the entry. -/
  | waiting (own : Bool)
  /-- That promise has settled, and `callTool` has not gone on. -/
  | resuming (outcome : Option ClientId)
  /-- `tools/call` awaits its answer. -/
  | requesting (client : ClientId)
  | settled (failed : Bool)
deriving DecidableEq

structure McpCall where
  transport : McpTransport
  server : Server
  phase : CallPhase
  /-- The signal is aborted; the text is that of its reason. -/
  aborted : Option String
  /-- How many `tools/call` requests have been sent. -/
  sent : Nat

inductive CallEvent where
  /-- The engine comes to the call. -/
  | begins
  /-- `connect` goes on to `open`. -/
  | goesOn
  /-- `open` returns, or throws. -/
  | resumes
  | answered (failed : Bool)
  | server (event : McpEvent)

/-- The error of an `initialize` whose signal is aborted. -/
def initializeAborted (transport : McpTransport) (reason : String) : McpFailure :=
  match transport with
  | .stdio => { mcpTransportError "MCP request initialize was aborted." with retryable := false }
  | .streamableHttp => mcpTransportError s!"MCP HTTP request failed: {reason}"

namespace McpCall

def initial (transport : McpTransport) (config : McpServerConfig) : McpCall where
  transport
  server := .initial config
  phase := .ready
  aborted := none
  sent := 0

section Steps
variable (call : McpCall)

def settle (failed : Bool) : McpCall := { call with phase := .settled failed }

/-- `client.callTool(...)`. A `fetch` whose signal is aborted sends nothing; a request over stdio does
not look whether its signal is. -/
def callTool (client : ClientId) : McpCall :=
  if (call.server.clients client).initialized = false ∨ (call.server.clients client).closed = true then call.settle true
  else if call.transport = .streamableHttp ∧ call.aborted.isSome = true then call.settle true
  else { call with phase := .requesting client, sent := call.sent + 1 }

/-- `open(entry, signal, true)`. -/
def openEntry : McpCall :=
  match call.server.entry.client, call.server.entry.connecting with
  | some client, _ => call.callTool client
  | none, some (.settled outcome) => { call with phase := .resuming outcome }
  | none, some _ => { call with phase := .waiting false }
  | none, none =>
    if call.server.entry.desiredState = .connected then
      { call with server := call.server.beginAttempt true, phase := .waiting true }
    else call.settle true

/-- The `initialize` of an attempt made for the call is rejected; `perform` ignores this in any other phase. -/
def rejectInitialize (reason : String) : McpCall :=
  { call with server := call.server.perform (.initializeFailed (initializeAborted call.transport reason)) }

/-- The call hears of its promise, and of the process whose answer it awaits. -/
def follow : McpCall :=
  match call.phase with
  | .waiting _ =>
    match call.server.entry.connecting with
    | some (.settled outcome) => { call with phase := .resuming outcome }
    | _ => call
  | .requesting client =>
    if call.transport = .stdio ∧ (call.server.clients client).closed = true then call.settle true else call
  | _ => call

/-- Something happens at the server. Over HTTP an `initialize` with an aborted signal is rejected where it is asked. -/
def serverPerforms (event : McpEvent) : McpCall :=
  let next := { call with server := call.server.perform event }
  match call.transport, call.phase, call.aborted with
  | .streamableHttp, .waiting true, some reason => (next.rejectInitialize reason).follow
  | _, _, _ => next.follow

end Steps

/-- An event that cannot happen in the state changes nothing. -/
def perform (event : CallEvent) (call : McpCall) : McpCall :=
  match event, call.phase with
  | .begins, .ready =>
    if call.aborted.isSome = true then call.settle true
    else { call with server := call.server.setConnected, phase := .connecting }
  | .goesOn, .connecting => call.openEntry
  | .resumes, .resuming none => call.settle true
  | .resumes, .resuming (some client) => call.callTool client
  | .answered failed, .requesting _ => call.settle failed
  | .server event, _ => call.serverPerforms event
  | _, _ => call

/-- The signal is aborted. Only a request that is pending has a listener. -/
def abort (reason : String) (call : McpCall) : McpCall :=
  let aborted := { call with aborted := some reason }
  match call.phase with
  | .requesting _ => aborted.settle true
  | .waiting true => aborted.rejectInitialize reason
  | _ => aborted

end McpCall

end OttiliCoder.Mcp
