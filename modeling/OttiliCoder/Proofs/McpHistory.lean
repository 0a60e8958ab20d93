import OttiliCoder.Integrations.Mcp
import OttiliCoder.Library.Reached

/-! What happens to a supervised server over a run: the history an observer would write down, and the
connections that are open. -/

namespace OttiliCoder.Mcp
open Relational Transaction

/-! The steps of a server, each as one update of its entry. -/

namespace Server
variable {server : Server}

/-- The clients once `closeEntry` has told its client to close. -/
def closedClients (server : Server) : ClientId → McpClient :=
  match server.entry.client with
  | none => server.clients
  | some client => Function.update server.clients client { server.clients client with initialized := false, closed := true }

theorem closeEntry_eq : server.closeEntry =
    { server with
      entry := { server.entry with unsubscribeClose := none, client := none, connectedAt := none }
      clients := server.closedClients } := by
  unfold closeEntry closedClients
  cases server.entry.client <;> rfl

theorem catchError_eq {client : Option ClientId} {error : McpFailure} : server.catchError client error =
    { server with
      entry := { server.entry with
        unsubscribeClose := none, client := none, connectedAt := none, connecting := some (.closing client error) }
      clients := server.closedClients } := by
  rw [catchError, closeEntry_eq]

theorem setDisconnected_eq : server.setDisconnected =
    { server with
      entry := { server.entry with
        desiredState := .disconnected, unsubscribeClose := none, client := none, connectedAt := none }
      clients := server.closedClients
      disconnects := server.disconnects + 1 } := by
  rw [setDisconnected, closeEntry_eq]
  rfl

/-- The failure is one the supervisor tries again after: the server is to be connected, and attempts are left. -/
def Retried (server : Server) (failure : McpFailure) (policy : McpReconnectPolicy) : Prop :=
  server.entry.desiredState = .connected ∧ failure.retryable = true ∧ server.entry.attempt + 1 < policy.maxAttempts

instance (failure : McpFailure) (policy : McpReconnectPolicy) : Decidable (server.Retried failure policy) := by
  unfold Retried
  infer_instance

def failureState (server : Server) (failure : McpFailure) : McpServerState :=
  match normalizeReconnectPolicy server.entry.config.reconnect with
  | .error _ => server.entry.state
  | .ok policy => if server.Retried failure policy then .reconnecting else .failed

def failureDate (server : Server) (failure : McpFailure) (now : Int) : Option Int :=
  match normalizeReconnectPolicy server.entry.config.reconnect with
  | .error _ => server.entry.nextReconnectAt
  | .ok policy => if server.Retried failure policy then some (now + backoff policy (server.entry.attempt + 1)) else none

theorem recordFailure_eq {failure : McpFailure} {now : Int} : server.recordFailure failure now =
    { server with entry := { server.entry with
        client := none, connectedAt := none, lastError := some failure, attempt := server.entry.attempt + 1
        nextReconnectAt := server.failureDate failure now, state := server.failureState failure } } := by
  unfold recordFailure failureDate failureState
  dsimp only
  cases normalizeReconnectPolicy server.entry.config.reconnect with
  | error _ => rfl
  | ok policy =>
    dsimp only
    by_cases retried : server.Retried failure policy
    · rw [if_pos retried, if_pos retried]
      exact if_pos retried
    · rw [if_neg retried, if_neg retried]
      exact if_neg retried

theorem setConnected_eq : server.setConnected =
    { server with entry := { server.entry with
        desiredState := .connected
        attempt := if server.entry.state = .failed then 0 else server.entry.attempt
        nextReconnectAt := if server.entry.state = .failed then none else server.entry.nextReconnectAt
        lastError := if server.entry.state = .failed then none else server.entry.lastError
        state := if server.entry.state = .failed then .disconnected else server.entry.state } } := by
  unfold setConnected
  split
  · rfl
  · rfl

/-- What the supervisor does on a drop it hears of. -/
theorem drop_heard {client : ClientId} {reason : Option McpFailure} {now : Int} (published : server.entry.client = some client)
    (heard : server.entry.unsubscribeClose = some client) (wanted : server.entry.desiredState = .connected) :
    server.drop client reason now =
      recordFailure { server with
        entry := { server.entry with client := none, unsubscribeClose := none }
        clients := Function.update server.clients client { server.clients client with closed := true } }
        (reason.getD (mcpTransportError "MCP connection closed unexpectedly.")) now := by
  unfold drop heardClose
  rw [if_pos heard]
  dsimp only
  rw [if_pos published, if_pos wanted]

theorem drop_unwanted {client : ClientId} {reason : Option McpFailure} {now : Int} (published : server.entry.client = some client)
    (heard : server.entry.unsubscribeClose = some client) (unwanted : server.entry.desiredState ≠ .connected) :
    server.drop client reason now =
      { server with
        entry := { server.entry with client := none, unsubscribeClose := none }
        clients := Function.update server.clients client { server.clients client with closed := true } } := by
  unfold drop heardClose
  rw [if_pos heard]
  dsimp only
  rw [if_pos published, if_neg unwanted]

theorem drop_disconnects {client : ClientId} {reason : Option McpFailure} {now : Int} :
    (server.drop client reason now).disconnects = server.disconnects := by
  unfold drop heardClose
  dsimp only
  split
  · split
    · split
      · rw [recordFailure_eq]
      · rfl
    · rfl
  · rfl

/-! One connection at a time. -/

/-- The open connections are that of the client the entry holds, and an attempt at another starts without one. -/
structure Sole (server : Server) : Prop where
  live : ∀ client, server.Live client ↔ server.entry.client = some client
  heard : ∀ client, server.entry.client = some client → server.entry.unsubscribeClose = some client
  opening : server.entry.connecting = some .connection → server.entry.client = none
  initializing : ∀ client, server.entry.connecting = some (.initializing client) →
    server.entry.client = none ∨ server.entry.client = some client
  notifying : ∀ client, server.entry.connecting = some (.notifying client) →
    server.entry.client = none ∨ server.entry.client = some client
  closing : ∀ client error, server.entry.connecting = some (.closing client error) → server.entry.client = none

theorem sole_initial (config : McpServerConfig) : (initial config).Sole where
  live client := by simp [Live, initial]
  heard _ published := by cases published
  opening _ := rfl
  initializing _ none := by cases none
  notifying _ none := by cases none
  closing _ _ none := by cases none

theorem not_live_closed (sole : server.Sole) (client : ClientId) : ¬(server.closeEntry).Live client := by
  rw [closeEntry_eq]
  rintro ⟨created, opened⟩
  cases published : server.entry.client with
  | none =>
    rw [closedClients, published] at opened
    have held := (sole.live client).mp ⟨created, opened⟩
    rw [published] at held
    cases held
  | some held =>
    rw [closedClients, published] at opened
    by_cases same : client = held
    · subst same
      simp at opened
    · have kept := (sole.live client).mp ⟨created, by simpa [Function.update_of_ne same] using opened⟩
      rw [published] at kept
      exact same (Option.some.inj kept).symm

theorem Sole.unpublished (none : server.entry.client = none) (dead : ∀ client, ¬server.Live client) : server.Sole where
  live client := by simp [none, dead client]
  heard client published := by simp [none] at published
  opening _ := none
  initializing _ _ := .inl none
  notifying _ _ := .inl none
  closing _ _ _ := none

/-- What neither opens nor closes a connection keeps the rule. -/
theorem Sole.frame (sole : server.Sole) {server' : Server} (client : server'.entry.client = server.entry.client)
    (heard : server'.entry.unsubscribeClose = server.entry.unsubscribeClose) (live : ∀ client, server'.Live client ↔ server.Live client)
    (connecting : server'.entry.connecting = server.entry.connecting ∨ server'.entry.connecting = none ∨
      ∃ outcome, server'.entry.connecting = some (.settled outcome)) : server'.Sole := by
  rcases connecting with same | done | ⟨outcome, done⟩
  · exact ⟨fun held => (live held).trans (client ▸ sole.live held), fun held published => heard ▸ sole.heard held (client ▸ published),
      fun phase => client ▸ sole.opening (same ▸ phase), fun held phase => client ▸ sole.initializing held (same ▸ phase),
      fun held phase => client ▸ sole.notifying held (same ▸ phase), fun held error phase => client ▸ sole.closing held error (same ▸ phase)⟩
  · exact ⟨fun held => (live held).trans (client ▸ sole.live held), fun held published => heard ▸ sole.heard held (client ▸ published),
      by simp [done], by simp [done], by simp [done], by simp [done]⟩
  · exact ⟨fun held => (live held).trans (client ▸ sole.live held), fun held published => heard ▸ sole.heard held (client ▸ published),
      by simp [done], by simp [done], by simp [done], by simp [done]⟩

theorem Sole.closed (sole : server.Sole) {connecting : Option Connecting} :
    Sole { server.closeEntry with entry := { server.closeEntry.entry with connecting } } := by
  apply Sole.unpublished
  · rw [closeEntry_eq]
  · exact not_live_closed sole

/-- The drop of the held connection leaves none. -/
theorem not_live_dropped (sole : server.Sole) {client : ClientId} (published : server.entry.client = some client) (other : ClientId) :
    ¬(other < server.created ∧ (Function.update server.clients client { server.clients client with closed := true } other).closed = false) := by
  rintro ⟨created, opened⟩
  by_cases same : other = client
  · subst same
    simp at opened
  · have held := (sole.live other).mp ⟨created, by simpa [Function.update_of_ne same] using opened⟩
    rw [published] at held
    exact same (Option.some.inj held).symm

theorem Sole.dropped (sole : server.Sole) {client : ClientId} (live : server.Live client) {reason : Option McpFailure} {now : Int} :
    (server.drop client reason now).Sole := by
  have published := (sole.live client).mp live
  have heard := sole.heard client published
  by_cases wanted : server.entry.desiredState = .connected
  · rw [drop_heard published heard wanted, recordFailure_eq]
    exact .unpublished rfl (not_live_dropped sole published)
  · rw [drop_unwanted published heard wanted]
    exact .unpublished rfl (not_live_dropped sole published)

theorem sole_publish (sole : server.Sole) (phase : server.entry.connecting = some .connection) : server.publish.Sole := by
  have none := sole.opening phase
  have dead : ∀ client, ¬server.Live client := by
    intro client live
    rw [sole.live, none] at live
    cases live
  constructor
  · intro client
    constructor
    · rintro ⟨created, opened⟩
      by_cases same : client = server.created
      · rw [same]
        rfl
      · have kept : server.Live client := by
          refine ⟨Nat.lt_of_le_of_ne (Nat.le_of_lt_succ created) same, ?_⟩
          simpa [publish, Function.update_of_ne same] using opened
        exact absurd kept (dead client)
    · intro published
      cases published
      exact ⟨Nat.lt_succ_self _, by simp [publish]⟩
  · exact fun client published => published
  · exact fun phase => nomatch phase
  · intro client phase
    cases phase
    exact .inr rfl
  · exact fun client phase => nomatch phase
  · exact fun client error phase => nomatch phase

theorem beginAttempt_client {manual : Bool} : (server.beginAttempt manual).entry.client = server.entry.client := by
  unfold beginAttempt
  dsimp only
  split <;> rfl

theorem sole_begin {manual : Bool} (sole : server.Sole) (new : server.opensNew = true) : (server.beginAttempt manual).Sole := by
  have none : server.entry.client = none := by
    simp only [opensNew, Bool.and_eq_true, Option.isNone_iff_eq_none] at new
    exact new.1.1
  refine .unpublished (beginAttempt_client.trans none) fun client live => ?_
  have held := (sole.live client).mp live
  rw [none] at held
  cases held

theorem opensNew_of_due {now : Int} (due : server.due now = true) : server.opensNew = true := by
  simp only [Server.due, Bool.and_eq_true] at due
  exact due.1.1

theorem sole_initialized (sole : server.Sole) {client : ClientId} (phase : server.entry.connecting = some (.initializing client)) :
    Sole { server with
      entry := { server.entry with connecting := some (.notifying client) }
      clients := Function.update server.clients client { server.clients client with initialized := true } } := by
  have live : ∀ held, (Function.update server.clients client { server.clients client with initialized := true } held).closed =
      (server.clients held).closed := by
    intro held
    by_cases same : held = client
    · subst same
      simp
    · rw [Function.update_of_ne same]
  constructor
  · intro held
    rw [← sole.live held, Live, Live, live held]
  · exact sole.heard
  · exact fun phase => nomatch phase
  · exact fun held phase => nomatch phase
  · intro held asked
    cases asked
    exact sole.initializing client phase
  · exact fun held error phase => nomatch phase

end Server

/-! The history of a server, the newest first. -/

inductive Happening where
  /-- A call of `disconnect` has returned. -/
  | disconnected
  /-- The operator has called `connect` or `setDesiredState(id, "connected")`. -/
  | summoned
  /-- The failures are counted anew; an attempt may be under way. -/
  | reset (pending : Bool)
  /-- A connection attempt starts: `reconcile` starts it at its `now`, a caller at once. -/
  | attempted (now : Option Int)
  /-- `initialize` of the client has returned. -/
  | initialized (client : ClientId)
  | succeeded
  /-- A call of `connect` is given the client, or one of `listTools` or `callTool` goes on to use it. -/
  | handedOut (client : ClientId)
  /-- The attempt has failed, with the client if it had come to one. None follows a final failure. -/
  | failed (client : Option ClientId) (now : Int) (final : Bool)
  | dropped (client : ClientId) (now : Int) (final : Bool)
deriving DecidableEq

/-- The error of a dropped connection. -/
def dropFailure (reason : Option McpFailure) : McpFailure := reason.getD (mcpTransportError "MCP connection closed unexpectedly.")

namespace Server
variable (server : Server)

/-- A connection attempt has neither succeeded nor failed. -/
def pending : Bool :=
  match server.entry.connecting with
  | none | some (.settled _) => false
  | some _ => true

/-- Setting a failed server to connected counts anew. -/
def resets : List Happening := if server.entry.state = .failed then [.reset server.pending] else []

/-- The client that `open` gives at once. -/
def offered : Option ClientId :=
  match server.entry.client, server.entry.connecting with
  | some client, _ => some client
  | none, some (.settled outcome) => outcome
  | none, _ => none

/-- The server is not to be connected, or the failure is not one to try again after. -/
def final (failure : McpFailure) : Bool := server.entry.desiredState == .disconnected || !failure.retryable

/-- What an event adds to the history. A promise that settles is handed to every caller that shares it. -/
def happenings : McpEvent → List Happening
  | .setConnected | .connect => .summoned :: server.resets
  | .listTools | .callTool => server.resets
  | .disconnectReturns => if server.disconnects = 0 then [] else [.disconnected, .reset server.pending]
  | .opens =>
    if server.connects = 0 then []
    else if server.opensNew then .attempted none :: server.resets
    else server.offered.toList.map .handedOut
  | .reconciles now => if server.due now then [.attempted (some now)] else []
  | .notified _ =>
    match server.entry.connecting with
    | some (.notifying client) => [.handedOut client, .succeeded, .initialized client]
    | _ => []
  | .closeReturned now =>
    match server.entry.connecting with
    | some (.closing client error) => [.failed client now (server.final error)]
    | _ => []
  | .dropped client reason now => if server.Live client then [.dropped client now (server.final (dropFailure reason))] else []
  | _ => []

/-- What an event comes to: the state after it, and what it adds to the history. -/
inductive Stepped (server : Server) : McpEvent → Server → List Happening → Prop
  | ignored (event : McpEvent) : Stepped server event server []
  | setConnected : Stepped server .setConnected server.setConnected (.summoned :: server.resets)
  | setDisconnected : Stepped server .setDisconnected server.setDisconnected []
  | disconnectReturns (some : server.disconnects ≠ 0) : Stepped server .disconnectReturns
      { server with
        entry := { server.entry with state := .disconnected, attempt := 0, nextReconnectAt := none }
        disconnects := server.disconnects - 1 }
      [.disconnected, .reset server.pending]
  | connect : Stepped server .connect { server.setConnected with connects := server.setConnected.connects + 1 } (.summoned :: server.resets)
  | listTools : Stepped server .listTools { server.setConnected with connects := server.setConnected.connects + 1 } server.resets
  | callTool : Stepped server .callTool { server.setConnected with connects := server.setConnected.connects + 1 } server.resets
  | opensNew (new : server.opensNew = true) :
      Stepped server .opens (beginAttempt { server with connects := server.connects - 1 } true) (.attempted none :: server.resets)
  | opensOld : Stepped server .opens { server with connects := server.connects - 1 } (server.offered.toList.map .handedOut)
  | reconciles {now : Int} (due : server.due now = true) :
      Stepped server (.reconciles now) (server.beginAttempt false) [.attempted (some now)]
  | connectionOpened (phase : server.entry.connecting = some .connection) : Stepped server .connectionOpened server.publish []
  | connectionFailed {error : McpFailure} (phase : server.entry.connecting = some .connection) :
      Stepped server (.connectionFailed error) (server.catchError none error) []
  | initializeReturned {client : ClientId} (phase : server.entry.connecting = some (.initializing client)) :
      Stepped server .initializeReturned
        { server with
          entry := { server.entry with connecting := some (.notifying client) }
          clients := Function.update server.clients client { server.clients client with initialized := true } } []
  | initializeFailed {client : ClientId} {error : McpFailure} (phase : server.entry.connecting = some (.initializing client)) :
      Stepped server (.initializeFailed error) (server.catchError (some client) error) []
  | notified {client : ClientId} {now : Int} (phase : server.entry.connecting = some (.notifying client)) :
      Stepped server (.notified now) ((server.succeed now).settle (some client)) [.handedOut client, .succeeded, .initialized client]
  | notifyFailed {client : ClientId} {error : McpFailure} (phase : server.entry.connecting = some (.notifying client)) :
      Stepped server (.notifyFailed error) (server.catchError (some client) error) []
  | closeReturned {client : Option ClientId} {error : McpFailure} {now : Int} (phase : server.entry.connecting = some (.closing client error)) :
      Stepped server (.closeReturned now) ((server.recordFailure error now).settle none) [.failed client now (server.final error)]
  | observed {outcome : Option ClientId} (phase : server.entry.connecting = some (.settled outcome)) :
      Stepped server .observed { server with entry := { server.entry with connecting := none } } []
  | dropped {client : ClientId} {reason : Option McpFailure} {now : Int} (live : server.Live client) :
      Stepped server (.dropped client reason now) (server.drop client reason now) [.dropped client now (server.final (dropFailure reason))]

theorem stepped (event : McpEvent) : Stepped server event (server.perform event) (server.happenings event) := by
  unfold perform happenings
  cases event with
  | setConnected => exact .setConnected
  | setDisconnected => exact .setDisconnected
  | disconnectReturns =>
    dsimp only
    split
    · exact .ignored _
    · next some => exact .disconnectReturns some
  | connect => exact .connect
  | listTools => exact .listTools
  | callTool => exact .callTool
  | opens =>
    dsimp only
    split
    · exact .ignored _
    · by_cases new : server.opensNew = true
      · rw [if_pos new, if_pos (show opensNew { server with connects := server.connects - 1 } = true from new)]
        exact .opensNew new
      · rw [if_neg new, if_neg (show ¬opensNew { server with connects := server.connects - 1 } = true from new)]
        exact .opensOld
  | reconciles now =>
    dsimp only
    split
    · next due => exact .reconciles due
    · exact .ignored _
  | dropped client reason now =>
    dsimp only
    split
    · next live => exact .dropped live
    · exact .ignored _
  | _ =>
    -- the rest is up to the phase of the attempt
    dsimp only
    cases phase : server.entry.connecting with
    | none => exact .ignored _
    | some connecting =>
      cases connecting <;> first
        | exact .ignored _
        | exact .connectionOpened phase
        | exact .connectionFailed phase
        | exact .initializeReturned phase
        | exact .initializeFailed phase
        | exact .notified phase
        | exact .notifyFailed phase
        | exact .closeReturned phase
        | exact .observed phase

variable {server} in
theorem sole_perform (sole : server.Sole) (event : McpEvent) : (server.perform event).Sole := by
  have connected : server.setConnected.Sole := by
    rw [setConnected_eq]
    exact sole.frame rfl rfl (fun _ => Iff.rfl) (.inl rfl)
  have opening : Sole { server with connects := server.connects - 1 } := sole.frame rfl rfl (fun _ => Iff.rfl) (.inl rfl)
  have step := server.stepped event
  generalize server.perform event = server', server.happenings event = added at step
  cases step with
  | ignored => exact sole
  | setConnected => exact connected
  | setDisconnected =>
    apply Sole.unpublished
    · rw [setDisconnected, closeEntry_eq]
    · have wanted : Sole { server with entry := { server.entry with desiredState := .disconnected } } :=
        sole.frame rfl rfl (fun _ => Iff.rfl) (.inl rfl)
      exact not_live_closed wanted
  | disconnectReturns => exact sole.frame rfl rfl (fun _ => Iff.rfl) (.inl rfl)
  | connect => exact connected.frame rfl rfl (fun _ => Iff.rfl) (.inl rfl)
  | listTools => exact connected.frame rfl rfl (fun _ => Iff.rfl) (.inl rfl)
  | callTool => exact connected.frame rfl rfl (fun _ => Iff.rfl) (.inl rfl)
  | opensNew new => exact sole_begin opening new
  | opensOld => exact opening
  | reconciles due => exact sole_begin sole (opensNew_of_due due)
  | connectionOpened phase => exact sole_publish sole phase
  | connectionFailed => exact sole.closed
  | initializeReturned phase => exact sole_initialized sole phase
  | initializeFailed => exact sole.closed
  | notified => exact sole.frame rfl rfl (fun _ => Iff.rfl) (.inr (.inr ⟨_, rfl⟩))
  | notifyFailed => exact sole.closed
  | closeReturned phase =>
    have none := sole.closing _ _ phase
    rw [recordFailure_eq]
    apply Sole.unpublished
    · rfl
    · intro client live
      have held := (sole.live client).mp live
      rw [none] at held
      cases held
  | observed => exact sole.frame rfl rfl (fun _ => Iff.rfl) (.inr (.inl rfl))
  | dropped live => exact sole.dropped live

end Server

/-- A supervisor whose servers are watched. -/
structure Watched where
  supervisor : Supervisor
  history : ServerId → List Happening

namespace Watched

def start (catalog : Keyed McpServerConfig.id) : Watched := ⟨.start catalog, fun _ => []⟩

def perform (event : SupervisorEvent) (watched : Watched) : Watched where
  supervisor := watched.supervisor.perform event
  history id :=
    match watched.supervisor.target event with
    | none => watched.history id
    | some (target, event) =>
      if id = target then
        ((watched.supervisor.servers.find? id).elim [] fun server => server.happenings event) ++ watched.history id
      else watched.history id

/-- A condition on what happens at a server, in the light of its history. -/
def Meets (condition : Server → List Happening → McpEvent → Prop) (watched : Watched) (event : SupervisorEvent) : Prop :=
  match watched.supervisor.target event with
  | none => True
  | some (id, happens) => ∀ server ∈ watched.supervisor.servers.rows, server.id = id → condition server (watched.history id) happens

instance {condition : Server → List Happening → McpEvent → Prop} [∀ server history event, Decidable (condition server history event)]
    (watched : Watched) (event : SupervisorEvent) : Decidable (Meets condition watched event) := by
  unfold Meets
  split <;> infer_instance

/-- What every event that meets the condition keeps of its own server holds of all servers in every state reached. -/
theorem invariant {condition : Server → List Happening → McpEvent → Prop} {inv : Server → List Happening → Prop}
    {catalog : Keyed McpServerConfig.id} {watched : Watched} (initial : ∀ config, inv (Server.initial config) [])
    (kept : ∀ server history event, inv server history → condition server history event →
      inv (server.perform event) (server.happenings event ++ history))
    (reached : Reached (start catalog) perform (Meets condition) watched) :
    ∀ server ∈ watched.supervisor.servers, inv server (watched.history server.id) := by
  let held : Watched → Prop := fun watched => ∀ server ∈ watched.supervisor.servers, inv server (watched.history server.id)
  change held watched
  refine reached.invariant ?_ ?_
  · intro server listed
    obtain ⟨config, _, rfl⟩ := List.mem_map.mp listed
    exact initial config
  · intro watched event _ before meets server listed
    cases aimed : watched.supervisor.target event with
    | none =>
      have same : server ∈ watched.supervisor.servers := by simpa [perform, Supervisor.perform, aimed] using listed
      simpa [perform, aimed] using before server same
    | some aim =>
      obtain ⟨target, happens⟩ := aim
      rw [Meets, aimed] at meets
      have updated := listed
      simp only [perform, Supervisor.perform, aimed] at updated
      obtain ⟨old, stored, rfl⟩ := Keyed.mem_update.mp updated
      simp only [perform, aimed]
      split
      · next named =>
        have same : old.id = target := by simpa using named
        have same_id : (old.perform happens).id = old.id := congrArg McpServerConfig.id (old.perform_config happens)
        subst same
        rw [same_id, if_pos rfl, Keyed.find?_key stored]
        exact kept old _ happens (before old stored) (meets old stored rfl)
      · next other =>
        have different : old.id ≠ target := by simpa using other
        rw [if_neg different]
        exact before old stored

/-- The history of a server in a run, and its entry at the end. -/
def after (catalog : Keyed McpServerConfig.id) (events : List SupervisorEvent) : Watched :=
  performAll perform events (start catalog)

def entryOf (watched : Watched) (id : ServerId) : Option ManagedMcpServer := (watched.supervisor.servers.find? id).map (·.entry)

end Watched

def sampleCatalog : Keyed McpServerConfig.id := ⟨[{ id := "files" }], by simp⟩

/-- A connection of the sample server that comes about. -/
def sampleConnection : List SupervisorEvent :=
  [.connect, .opens, .connectionOpened, .initializeReturned, .notified 5, .observed].map (.server "files")

example : ((Watched.after sampleCatalog sampleConnection).entryOf "files").map (·.state) = some .connected := by decide +kernel

end OttiliCoder.Mcp
