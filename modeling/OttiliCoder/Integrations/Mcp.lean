import Mathlib.Algebra.Group.Nat.Defs
import Mathlib.Logic.Function.Basic
import OttiliCoder.Library.Keyed

/-! The supervisor of MCP servers. Its methods are asynchronous, so the state says which calls are
suspended and where, and an event is one stretch of code between two suspension points: a call up to
its first `await`, or what follows when an awaited promise settles. -/

namespace OttiliCoder.Mcp
open Relational

abbrev ServerId := String

inductive McpDesiredState where
  | connected | disconnected
deriving DecidableEq

inductive McpServerState where
  | disconnected | connecting | connected | reconnecting | failed
deriving DecidableEq

structure McpReconnectPolicy where
  maxAttempts : Nat
  baseDelayMs : Nat
  maxDelayMs : Nat
deriving DecidableEq

/-- `Partial<McpReconnectPolicy>`; the catalog takes non-negative integers only. -/
structure McpReconnectConfig where
  maxAttempts : Option Nat := none
  baseDelayMs : Option Nat := none
  maxDelayMs : Option Nat := none
deriving DecidableEq

/-- What the supervisor reads of a configuration; the transport is the factory's. -/
structure McpServerConfig where
  id : ServerId
  desiredState : Option McpDesiredState := none
  reconnect : McpReconnectConfig := {}
deriving DecidableEq

/-- What `toMcpFailure` keeps of an error. -/
structure McpFailure where
  code : String
  message : String
  retryable : Bool
deriving DecidableEq

def mcpTransportError (message : String) : McpFailure := ⟨"MCP_TRANSPORT", message, true⟩

def mcpConfigurationError (message : String) : McpFailure := ⟨"MCP_CONFIGURATION", message, false⟩

def defaultMcpReconnectPolicy : McpReconnectPolicy where
  baseDelayMs := 1000
  maxAttempts := 3
  maxDelayMs := 30000

/-- The catalog does not compare the two delays, so only this does. -/
def normalizeReconnectPolicy (policy : McpReconnectConfig) : Except McpFailure McpReconnectPolicy :=
  let normalized : McpReconnectPolicy := {
    baseDelayMs := policy.baseDelayMs.getD defaultMcpReconnectPolicy.baseDelayMs
    maxAttempts := policy.maxAttempts.getD defaultMcpReconnectPolicy.maxAttempts
    maxDelayMs := policy.maxDelayMs.getD defaultMcpReconnectPolicy.maxDelayMs }
  if normalized.maxDelayMs < normalized.baseDelayMs then .error (mcpConfigurationError "MCP reconnect policy has invalid limits.")
  else .ok normalized

/-- Clients are numbered in the order they are created. -/
abbrev ClientId := Nat

/-- A client and its connection: `closed` when it has been told to close, or has dropped. -/
structure McpClient where
  initialized : Bool := false
  closed : Bool := false
deriving DecidableEq

/-- The promise of `connectEntry`: what it awaits, or what it has come to. -/
inductive Connecting where
  /-- `await this.transportFactory.connect(...)` -/
  | connection
  /-- `await this.connection.request("initialize", ...)` -/
  | initializing (client : ClientId)
  /-- `await this.connection.notify("notifications/initialized")` -/
  | notifying (client : ClientId)
  /-- `await this.closeEntry(entry)` after a failure, of the connection opened if there was one. -/
  | closing (client : Option ClientId) (error : McpFailure)
  /-- The promise has settled, with a client or an error; `open` has not seen it yet. -/
  | settled (outcome : Option ClientId)
deriving DecidableEq

structure ManagedMcpServer where
  config : McpServerConfig
  desiredState : McpDesiredState
  state : McpServerState
  attempt : Nat
  nextReconnectAt : Option Int
  connectedAt : Option Int
  lastError : Option McpFailure
  client : Option ClientId
  /-- The client whose close listener is registered. -/
  unsubscribeClose : Option ClientId
  connecting : Option Connecting
deriving DecidableEq

/-- The entry of a server, with its clients and the calls suspended on it. -/
structure Server where
  entry : ManagedMcpServer
  clients : ClientId → McpClient
  created : Nat
  /-- Calls of `connect` that await `setDesiredState`. -/
  connects : Nat
  /-- Calls of `setDesiredState` that await `closeEntry`. -/
  disconnects : Nat

namespace Server

def id (server : Server) : ServerId := server.entry.config.id

def initial (config : McpServerConfig) : Server where
  entry := {
    config
    desiredState := config.desiredState.getD .disconnected
    state := .disconnected
    attempt := 0
    nextReconnectAt := none
    connectedAt := none
    lastError := none
    client := none
    unsubscribeClose := none
    connecting := none }
  clients := fun _ => {}
  created := 0
  connects := 0
  disconnects := 0

/-- The wait before the next attempt, after so many that failed. -/
def backoff (policy : McpReconnectPolicy) (attempt : Nat) : Nat := min policy.maxDelayMs (policy.baseDelayMs * 2 ^ (attempt - 1))

section Steps
variable (server : Server)

/-- `client.close()`, up to its suspension. -/
def closeClient (client : ClientId) : Server :=
  { server with clients := Function.update server.clients client { server.clients client with initialized := false, closed := true } }

/-- `closeEntry`, up to the close it awaits. -/
def closeEntry : Server :=
  let closed := { server with entry := { server.entry with unsubscribeClose := none, client := none, connectedAt := none } }
  match server.entry.client with
  | none => closed
  | some client => closed.closeClient client

/-- A policy that does not normalize throws after the first four writes. -/
def recordFailure (failure : McpFailure) (now : Int) : Server :=
  let entry := { server.entry with
    client := none, connectedAt := none, lastError := some failure, attempt := server.entry.attempt + 1 }
  match normalizeReconnectPolicy entry.config.reconnect with
  | .error _ => { server with entry }
  | .ok policy =>
    if entry.desiredState = .connected ∧ failure.retryable = true ∧ entry.attempt < policy.maxAttempts then
      { server with entry := { entry with
          nextReconnectAt := some (now + backoff policy entry.attempt), state := .reconnecting } }
    else { server with entry := { entry with nextReconnectAt := none, state := .failed } }

/-- `setDesiredState(id, "connected")`. -/
def setConnected : Server :=
  if server.entry.state = .failed then
    { server with entry := { server.entry with
        desiredState := .connected, attempt := 0, nextReconnectAt := none, lastError := none, state := .disconnected } }
  else { server with entry := { server.entry with desiredState := .connected } }

/-- `setDesiredState(id, "disconnected")`, up to its suspension. -/
def setDisconnected : Server :=
  let closed := closeEntry { server with entry := { server.entry with desiredState := .disconnected } }
  { closed with disconnects := closed.disconnects + 1 }

/-- What `open` starts when there is neither a client nor a promise of one. -/
def beginAttempt (manual : Bool) : Server :=
  let entry :=
    if manual = true ∧ server.entry.state = .failed then
      { server.entry with attempt := 0, lastError := none, nextReconnectAt := none }
    else server.entry
  { server with entry := { entry with
      state := if entry.attempt = 0 then .connecting else .reconnecting, connecting := some .connection } }

/-- `open` finds no client and no promise, and the server is to be connected. -/
def opensNew : Bool :=
  server.entry.client.isNone && server.entry.connecting.isNone && server.entry.desiredState == .connected

/-- The turn of `reconcile` at this entry goes on to `open`. -/
def due (now : Int) : Bool :=
  server.opensNew && server.entry.state != .failed && server.entry.nextReconnectAt.all fun date => decide (date ≤ now)

/-- `connectEntry` catches an error. -/
def catchError (client : Option ClientId) (error : McpFailure) : Server :=
  let closed := server.closeEntry
  { closed with entry := { closed.entry with connecting := some (.closing client error) } }

def settle (outcome : Option ClientId) : Server :=
  { server with entry := { server.entry with connecting := some (.settled outcome) } }

/-- `new McpClient(...)` is published, listened to and asked to initialize. -/
def publish : Server :=
  { server with
    entry := { server.entry with
      client := some server.created, unsubscribeClose := some server.created, connecting := some (.initializing server.created) }
    clients := Function.update server.clients server.created {}
    created := server.created + 1 }

def succeed (now : Int) : Server :=
  { server with entry := { server.entry with
      attempt := 0, connectedAt := some now, lastError := none, nextReconnectAt := none, state := .connected } }

/-- The close listener of a client. -/
def heardClose (client : ClientId) (reason : Option McpFailure) (now : Int) : Server :=
  if server.entry.client = some client then
    let dropped := { server with entry := { server.entry with client := none, unsubscribeClose := none } }
    if server.entry.desiredState = .connected then
      dropped.recordFailure (reason.getD (mcpTransportError "MCP connection closed unexpectedly.")) now
    else dropped
  else server

/-- The connection of the client is open: it was not told to close and has not dropped. -/
def Live (client : ClientId) : Prop := client < server.created ∧ (server.clients client).closed = false

instance (client : ClientId) : Decidable (server.Live client) := by
  unfold Live
  infer_instance

/-- A connection drops; its listener runs while it is registered. -/
def drop (client : ClientId) (reason : Option McpFailure) (now : Int) : Server :=
  let gone := { server with clients := Function.update server.clients client { server.clients client with closed := true } }
  if server.entry.unsubscribeClose = some client then gone.heardClose client reason now else gone

end Steps

end Server

inductive McpEvent where
  /-- The operator calls `setDesiredState(id, "connected")`. -/
  | setConnected
  /-- `setDesiredState(id, "disconnected")` or `disconnect(id)` is called, or goes on to its end. -/
  | setDisconnected | disconnectReturns
  /-- The operator calls `connect`, or `listTools` or `callTool` does. -/
  | connect | listTools | callTool
  /-- A call of `connect` goes on to `open`. -/
  | opens
  /-- The turn of `reconcile(now)` at this server. -/
  | reconciles (now : Int)
  | connectionOpened | connectionFailed (error : McpFailure)
  | initializeReturned | initializeFailed (error : McpFailure)
  | notified (now : Int) | notifyFailed (error : McpFailure)
  /-- The failed attempt has closed its client. -/
  | closeReturned (now : Int)
  /-- `open` sees the settled promise. -/
  | observed
  | dropped (client : ClientId) (reason : Option McpFailure) (now : Int)

namespace Server

/-- An event that cannot happen in the state changes nothing. -/
def perform (event : McpEvent) (server : Server) : Server :=
  match event with
  | .setConnected => server.setConnected
  | .setDisconnected => server.setDisconnected
  | .disconnectReturns =>
    if server.disconnects = 0 then server
    else
      { server with
        entry := { server.entry with state := .disconnected, attempt := 0, nextReconnectAt := none }
        disconnects := server.disconnects - 1 }
  | .connect | .listTools | .callTool =>
    let connecting := server.setConnected
    { connecting with connects := connecting.connects + 1 }
  | .opens =>
    if server.connects = 0 then server
    else
      let opening := { server with connects := server.connects - 1 }
      if opening.opensNew then opening.beginAttempt true else opening
  | .reconciles now => if server.due now then server.beginAttempt false else server
  | .connectionOpened => if server.entry.connecting = some .connection then server.publish else server
  | .connectionFailed error =>
    if server.entry.connecting = some .connection then server.catchError none error else server
  | .initializeReturned =>
    match server.entry.connecting with
    | some (.initializing client) =>
      { server with
        entry := { server.entry with connecting := some (.notifying client) }
        clients := Function.update server.clients client { server.clients client with initialized := true } }
    | _ => server
  | .initializeFailed error =>
    match server.entry.connecting with
    | some (.initializing client) => server.catchError (some client) error
    | _ => server
  | .notified now =>
    match server.entry.connecting with
    | some (.notifying client) => (server.succeed now).settle (some client)
    | _ => server
  | .notifyFailed error =>
    match server.entry.connecting with
    | some (.notifying client) => server.catchError (some client) error
    | _ => server
  | .closeReturned now =>
    match server.entry.connecting with
    | some (.closing _ error) => (server.recordFailure error now).settle none
    | _ => server
  | .observed =>
    match server.entry.connecting with
    | some (.settled _) => { server with entry := { server.entry with connecting := none } }
    | _ => server
  | .dropped client reason now => if server.Live client then server.drop client reason now else server

section Config
variable (server : Server)

@[simp] theorem closeEntry_config : server.closeEntry.entry.config = server.entry.config := by
  unfold closeEntry
  cases server.entry.client <;> rfl

@[simp] theorem recordFailure_config (failure : McpFailure) (now : Int) :
    (server.recordFailure failure now).entry.config = server.entry.config := by
  unfold recordFailure
  dsimp only
  split
  · rfl
  · split <;> rfl

@[simp] theorem setConnected_config : server.setConnected.entry.config = server.entry.config := by
  unfold setConnected
  split <;> rfl

@[simp] theorem beginAttempt_config (manual : Bool) : (server.beginAttempt manual).entry.config = server.entry.config := by
  unfold beginAttempt
  dsimp only
  split <;> rfl

@[simp] theorem drop_config (client : ClientId) (reason : Option McpFailure) (now : Int) :
    (server.drop client reason now).entry.config = server.entry.config := by
  unfold drop heardClose
  dsimp only
  split
  · split
    · split
      · rw [recordFailure_config]
      · rfl
    · rfl
  · rfl

/-- A server keeps its configuration, and so its id. -/
theorem perform_config (event : McpEvent) : (server.perform event).entry.config = server.entry.config := by
  cases event with
  | setConnected => exact setConnected_config server
  | setDisconnected => exact closeEntry_config _
  | disconnectReturns => unfold perform; dsimp only; split <;> rfl
  | connect => exact setConnected_config server
  | listTools => exact setConnected_config server
  | callTool => exact setConnected_config server
  | opens =>
    unfold perform
    dsimp only
    split
    · rfl
    · split
      · exact beginAttempt_config _ true
      · rfl
  | reconciles now =>
    unfold perform
    dsimp only
    split
    · exact beginAttempt_config server false
    · rfl
  | connectionOpened => unfold perform; dsimp only; split <;> rfl
  | connectionFailed error =>
    unfold perform
    dsimp only
    split
    · exact closeEntry_config server
    · rfl
  | initializeReturned => unfold perform; dsimp only; split <;> rfl
  | initializeFailed error =>
    unfold perform
    dsimp only
    split
    · exact closeEntry_config server
    · rfl
  | notified now => unfold perform; dsimp only; split <;> rfl
  | notifyFailed error =>
    unfold perform
    dsimp only
    split
    · exact closeEntry_config server
    · rfl
  | closeReturned now =>
    unfold perform
    dsimp only
    split
    · exact recordFailure_config server _ now
    · rfl
  | observed => unfold perform; dsimp only; split <;> rfl
  | dropped client reason now =>
    unfold perform
    dsimp only
    split
    · exact drop_config server client reason now
    · rfl

end Config

end Server

/-- The entries, and the calls of `createMcpTools` under way: each has servers left to ask. -/
structure Supervisor where
  servers : Keyed Server.id
  builds : List (List ServerId)

inductive SupervisorEvent where
  | server (id : ServerId) (event : McpEvent)
  /-- `createMcpTools` is called. -/
  | createMcpTools
  /-- Such a call lists the tools of its next server. -/
  | nextServer (build : Nat)

namespace Supervisor

/-- The supervisor of a catalog, in which no two servers have one id. -/
def start (catalog : Keyed McpServerConfig.id) : Supervisor where
  servers := ⟨catalog.rows.map Server.initial, by
    rw [List.map_map]
    exact catalog.unique⟩
  builds := []

def connectedServerIds (supervisor : Supervisor) : List ServerId :=
  (supervisor.servers.rows.filter fun server => server.entry.state == .connected).map Server.id

/-- The server an event is about, and what happens there. -/
def target (supervisor : Supervisor) : SupervisorEvent → Option (ServerId × McpEvent)
  | .server id event => some (id, event)
  | .createMcpTools => none
  | .nextServer build => (supervisor.builds[build]?.bind List.head?).map fun id => (id, .listTools)

def perform (event : SupervisorEvent) (supervisor : Supervisor) : Supervisor where
  servers :=
    match supervisor.target event with
    | none => supervisor.servers
    | some (id, event) =>
      supervisor.servers.update (fun server => server.id == id) (Server.perform event) fun server =>
        congrArg McpServerConfig.id (server.perform_config event)
  builds :=
    match event with
    | .server _ _ => supervisor.builds
    | .createMcpTools => supervisor.builds ++ [supervisor.connectedServerIds]
    | .nextServer build => supervisor.builds.modify build List.tail

end Supervisor

end OttiliCoder.Mcp
