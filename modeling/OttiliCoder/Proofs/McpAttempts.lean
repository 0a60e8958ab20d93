import OttiliCoder.Integrations.McpCall
import OttiliCoder.Proofs.McpHistory

/-! How a connection attempt goes on, whatever happens at its server. -/

namespace OttiliCoder.Mcp
open Transaction

/-! What every event does to an attempt, and to a client there is already. -/

namespace Server

/-- How the promise of an attempt goes on. -/
inductive Advances (event : McpEvent) : Option Connecting → Option Connecting → Prop
  | same (connecting : Option Connecting) : Advances event connecting connecting
  | begins : Advances event none (some .connection)
  | opened (happened : event = .connectionOpened) (client : ClientId) : Advances event (some .connection) (some (.initializing client))
  | initialized (happened : event = .initializeReturned) (client : ClientId) :
      Advances event (some (.initializing client)) (some (.notifying client))
  | notified (client : ClientId) : Advances event (some (.notifying client)) (some (.settled (some client)))
  | fails {before : Connecting} (client : Option ClientId) (error : McpFailure) :
      Advances event (some before) (some (.closing client error))
  | closed (client : Option ClientId) (error : McpFailure) : Advances event (some (.closing client error)) (some (.settled none))
  | observed (outcome : Option ClientId) : Advances event (some (.settled outcome)) none

theorem opensNew_iff {server : Server} : server.opensNew = true ↔
    server.entry.client = none ∧ server.entry.connecting = none ∧ server.entry.desiredState = .connected := by
  simp [opensNew, and_assoc]

theorem beginAttempt_connecting {server : Server} {manual : Bool} :
    (server.beginAttempt manual).entry.connecting = some .connection := by
  unfold beginAttempt
  rfl

theorem drop_connecting {server : Server} {client : ClientId} {reason : Option McpFailure} {now : Int} :
    (server.drop client reason now).entry.connecting = server.entry.connecting := by
  unfold drop heardClose
  dsimp only
  split
  · split
    · split
      · rw [recordFailure_eq]
      · rfl
    · rfl
  · rfl

theorem advances (server : Server) (event : McpEvent) :
    Advances event server.entry.connecting (server.perform event).entry.connecting := by
  have step := server.stepped event
  generalize server.perform event = server', server.happenings event = added at step ⊢
  cases step with
  | ignored => exact .same _
  | setConnected => rw [setConnected_eq]; exact .same _
  | setDisconnected => rw [setDisconnected_eq]; exact .same _
  | disconnectReturns => exact .same _
  | connect => rw [setConnected_eq]; exact .same _
  | listTools => rw [setConnected_eq]; exact .same _
  | callTool => rw [setConnected_eq]; exact .same _
  | opensNew new =>
    rw [beginAttempt_connecting, (opensNew_iff.mp new).2.1]
    exact .begins
  | opensOld => exact .same _
  | reconciles due =>
    rw [beginAttempt_connecting, (opensNew_iff.mp (opensNew_of_due due)).2.1]
    exact .begins
  | connectionOpened phase => rw [phase]; exact .opened rfl _
  | connectionFailed phase => rw [phase, catchError_eq]; exact .fails _ _
  | initializeReturned phase => rw [phase]; exact .initialized rfl _
  | initializeFailed phase => rw [phase, catchError_eq]; exact .fails _ _
  | notified phase => rw [phase]; exact .notified _
  | notifyFailed phase => rw [phase, catchError_eq]; exact .fails _ _
  | closeReturned phase => rw [phase]; exact .closed _ _
  | observed phase => rw [phase]; exact .observed _
  | dropped => rw [drop_connecting]; exact .same _

/-- A client there is stays, and what has closed stays closed; one that has initialized has, until it closes. -/
structure Keeps (client : ClientId) (server server' : Server) : Prop where
  created : client < server'.created
  closed : (server.clients client).closed = true → (server'.clients client).closed = true
  initialized : (server.clients client).initialized = true → (server'.clients client).closed = false →
    (server'.clients client).initialized = true

theorem Keeps.same {server server' : Server} {client : ClientId} (created : client < server'.created)
    (clients : server'.clients client = server.clients client) : Keeps client server server' :=
  ⟨created, fun closed => clients ▸ closed, fun initialized _ => clients ▸ initialized⟩

theorem closedClients_keeps {server : Server} {client : ClientId} :
    ((server.clients client).closed = true → (server.closedClients client).closed = true) ∧
    ((server.clients client).initialized = true → (server.closedClients client).closed = false →
      (server.closedClients client).initialized = true) := by
  unfold closedClients
  cases server.entry.client with
  | none => exact ⟨fun closed => closed, fun initialized _ => initialized⟩
  | some held =>
    by_cases same : client = held
    · subst same
      simp
    · simp only [Function.update_of_ne same]
      exact ⟨fun closed => closed, fun initialized _ => initialized⟩

theorem drop_clients (server : Server) (client : ClientId) (reason : Option McpFailure) (now : Int) :
    (server.drop client reason now).created = server.created ∧ (server.drop client reason now).clients =
      Function.update server.clients client { server.clients client with closed := true } := by
  unfold drop heardClose
  dsimp only
  split
  · split
    · split
      · rw [recordFailure_eq]
        exact ⟨rfl, rfl⟩
      · exact ⟨rfl, rfl⟩
    · exact ⟨rfl, rfl⟩
  · exact ⟨rfl, rfl⟩

theorem beginAttempt_clients {server : Server} {manual : Bool} :
    (server.beginAttempt manual).created = server.created ∧ (server.beginAttempt manual).clients = server.clients := ⟨rfl, rfl⟩

theorem keeps (server : Server) (event : McpEvent) (client : ClientId) (created : client < server.created) :
    Keeps client server (server.perform event) := by
  have step := server.stepped event
  generalize server.perform event = server', server.happenings event = added at step ⊢
  cases step with
  | setConnected => rw [setConnected_eq]; exact .same created rfl
  | setDisconnected =>
    rw [setDisconnected_eq]
    exact ⟨created, closedClients_keeps.1, closedClients_keeps.2⟩
  | connect => rw [setConnected_eq]; exact .same created rfl
  | listTools => rw [setConnected_eq]; exact .same created rfl
  | callTool => rw [setConnected_eq]; exact .same created rfl
  | connectionOpened =>
    refine .same (Nat.lt_succ_of_lt created) ?_
    exact Function.update_of_ne (Nat.ne_of_lt created) _ _
  | connectionFailed | initializeFailed | notifyFailed =>
    rw [catchError_eq]
    exact ⟨created, closedClients_keeps.1, closedClients_keeps.2⟩
  | initializeReturned phase =>
    rename_i asked
    by_cases same : client = asked
    · subst same
      refine ⟨created, ?_, ?_⟩ <;> simp
    · exact .same created (Function.update_of_ne same _ _)
  | closeReturned => rw [recordFailure_eq]; exact .same created rfl
  | @dropped dropped reason now live =>
    obtain ⟨sameCreated, clients⟩ := server.drop_clients dropped reason now
    refine ⟨sameCreated ▸ created, ?_, ?_⟩ <;> rw [clients]
    · by_cases same : client = dropped
      · subst same
        simp
      · rw [Function.update_of_ne same]
        exact fun closed => closed
    · by_cases same : client = dropped
      · subst same
        simp
      · rw [Function.update_of_ne same]
        exact fun initialized _ => initialized
  | _ => exact .same created rfl

/-- Unless its connection has closed, the client is one that has initialized. -/
def Introduced (server : Server) (client : ClientId) : Prop :=
  client < server.created ∧ ((server.clients client).closed = false → (server.clients client).initialized = true)

theorem Keeps.introduced {server server' : Server} {client : ClientId} (keeps : Keeps client server server')
    (introduced : server.Introduced client) : server'.Introduced client := by
  refine ⟨keeps.created, fun still => keeps.initialized (introduced.2 ?_) still⟩
  by_contra closed
  rw [keeps.closed (by simpa using closed)] at still
  cases still

/-- An attempt comes to its client in the order of its phases. -/
structure Orderly (server : Server) : Prop where
  initializing : ∀ client, server.entry.connecting = some (.initializing client) → client < server.created
  notifying : ∀ client, server.entry.connecting = some (.notifying client) → server.Introduced client
  settled : ∀ client, server.entry.connecting = some (.settled (some client)) → server.Introduced client

theorem orderly_initial (config : McpServerConfig) : (initial config).Orderly := by
  constructor <;> exact fun _ absurd => nomatch absurd

theorem orderly_perform {server : Server} (orderly : server.Orderly) (event : McpEvent) : (server.perform event).Orderly := by
  have advances := server.advances event
  have keeps := server.keeps event
  generalize was : server.entry.connecting = before, is : (server.perform event).entry.connecting = after at advances
  cases advances with
  | same =>
    refine ⟨?_, ?_, ?_⟩ <;> intro client phase
    · exact (keeps client (orderly.initializing client (was.trans (is.symm.trans phase)))).created
    · have introduced := orderly.notifying client (was.trans (is.symm.trans phase))
      exact (keeps client introduced.1).introduced introduced
    · have introduced := orderly.settled client (was.trans (is.symm.trans phase))
      exact (keeps client introduced.1).introduced introduced
  | opened happened client =>
    subst happened
    have published : server.perform .connectionOpened = server.publish := by simp [perform, was]
    rw [published]
    refine ⟨?_, ?_, ?_⟩ <;> intro client phase <;> cases phase
    exact Nat.lt_succ_self _
  | initialized happened client =>
    subst happened
    have created := orderly.initializing client was
    refine ⟨?_, ?_, ?_⟩ <;> intro held phase <;> rw [is] at phase <;> cases phase
    refine ⟨(keeps client created).created, fun _ => ?_⟩
    simp [perform, was]
  | notified client =>
    have introduced := orderly.notifying client was
    refine ⟨?_, ?_, ?_⟩ <;> intro held phase <;> rw [is] at phase <;> cases phase
    exact (keeps client introduced.1).introduced introduced
  | _ => refine ⟨?_, ?_, ?_⟩ <;> intro held phase <;> rw [is] at phase <;> cases phase

/-- An attempt goes on, or its promise settles. -/
theorem pending_perform {server : Server} (pending : server.pending = true) (event : McpEvent) :
    (server.perform event).pending = true ∨ ∃ outcome, (server.perform event).entry.connecting = some (.settled outcome) := by
  have advances := server.advances event
  unfold Server.pending at pending ⊢
  generalize server.entry.connecting = before, (server.perform event).entry.connecting = after at advances pending
  cases advances with
  | same => exact .inl pending
  | begins => cases pending
  | notified client => exact .inr ⟨_, rfl⟩
  | closed => exact .inr ⟨_, rfl⟩
  | observed => cases pending
  | _ => exact .inl rfl

def Gone (server : Server) (client : ClientId) : Prop := client < server.created ∧ (server.clients client).closed = true

theorem Gone.perform {server : Server} {client : ClientId} (gone : server.Gone client) (event : McpEvent) :
    (server.perform event).Gone client :=
  have keeps := server.keeps event client gone.1
  ⟨keeps.created, keeps.closed gone.2⟩

/-- The attempt that an aborted call awaits cannot give it a client it could ask. -/
def Ends (server : Server) (transport : McpTransport) (own : Bool) : Prop :=
  match server.entry.connecting with
  | some .connection => own = true ∧ transport = .streamableHttp
  | some (.notifying client) => transport = .stdio ∧ server.Gone client
  | some (.closing _ _) | some (.settled none) => True
  | some (.settled (some client)) => transport = .streamableHttp ∨ server.Gone client
  | _ => False

variable {server : Server} {transport : McpTransport} {own : Bool}

/-- Such an attempt goes on to one, unless an attempt over HTTP comes to ask its server to initialize. -/
theorem ends_perform (pending : server.pending = true) (ends : server.Ends transport own) (event : McpEvent) :
    (server.perform event).Ends transport own ∨
      own = true ∧ transport = .streamableHttp ∧ ∃ client, (server.perform event).entry.connecting = some (.initializing client) := by
  have advances := server.advances event
  have gone : ∀ client, server.Gone client → (server.perform event).Gone client := fun _ gone => gone.perform event
  unfold Ends Server.pending at *
  generalize server.entry.connecting = before, (server.perform event).entry.connecting = after at advances ends pending
  cases advances with
  | same =>
    cases before with
    | none => exact ends.elim
    | some connecting =>
      cases connecting with
      | notifying client => exact .inl ⟨ends.1, gone client ends.2⟩
      | settled outcome => cases pending
      | _ => exact .inl ends
  | opened happened client => exact .inr ⟨ends.1, ends.2, client, rfl⟩
  | notified client => exact .inl (.inr (gone client ends.2))
  | observed => cases pending
  | begins => exact ends.elim
  | initialized => exact ends.elim
  | _ => exact .inl trivial

/-- Only an attempt that waits for the server to initialize hears that this has failed. -/
theorem initializeFailed_ignored {error : McpFailure} (other : ∀ client, server.entry.connecting ≠ some (.initializing client)) :
    server.perform (.initializeFailed error) = server := by
  unfold perform
  dsimp only
  split
  · next client asked => exact absurd asked (other client)
  · rfl

theorem initializeFailed_closing {error : McpFailure} {client : ClientId}
    (asked : server.entry.connecting = some (.initializing client)) :
    (server.perform (.initializeFailed error)).entry.connecting = some (.closing (some client) error) := by
  simp [perform, asked, catchError]

theorem initializeFailed_pending (pending : server.pending = true) (error : McpFailure) :
    (server.perform (.initializeFailed error)).pending = true := by
  by_cases asked : ∃ client, server.entry.connecting = some (.initializing client)
  · obtain ⟨client, asked⟩ := asked
    unfold Server.pending
    rw [initializeFailed_closing asked]
  · rw [initializeFailed_ignored fun client here => asked ⟨client, here⟩]
    exact pending

theorem initializeFailed_ends (error : McpFailure)
    (ends : server.Ends transport own ∨ ∃ client, server.entry.connecting = some (.initializing client)) :
    (server.perform (.initializeFailed error)).Ends transport own := by
  rcases ends with ends | ⟨client, asked⟩
  · rw [initializeFailed_ignored ?_]
    · exact ends
    · intro client asked
      unfold Ends at ends
      rw [asked] at ends
      exact ends.elim
  · unfold Ends
    rw [initializeFailed_closing asked]
    trivial

/-! Whatever has happened at a server, another call may come to a new attempt there. -/

/-- Nothing is held and no attempt is under way. -/
def Idle (server : Server) : Prop := server.entry.client = none ∧ server.entry.connecting = none

theorem idle_settled {outcome : Option ClientId} (unpublished : server.entry.client = none)
    (settled : server.entry.connecting = some (.settled outcome)) : (server.perform .observed).Idle := by
  simp [Idle, perform, settled, unpublished]

theorem idle_closing {client : Option ClientId} {error : McpFailure}
    (closing : server.entry.connecting = some (.closing client error)) :
    (performAll perform [.closeReturned 0, .observed] server).Idle := by
  have returned : server.perform (.closeReturned 0) = (server.recordFailure error 0).settle none := by simp [perform, closing]
  change ((server.perform (.closeReturned 0)).perform .observed).Idle
  rw [returned, recordFailure_eq]
  exact idle_settled rfl rfl

theorem idle_caught {event : McpEvent} (caught : ∃ client error, server.perform event = server.catchError client error) :
    (performAll perform [event, .closeReturned 0, .observed] server).Idle := by
  obtain ⟨client, error, caught⟩ := caught
  change (performAll perform [.closeReturned 0, .observed] (server.perform event)).Idle
  rw [caught]
  exact idle_closing rfl

theorem comes_idle (unpublished : server.entry.client = none) : ∃ events, (performAll perform events server).Idle := by
  let error := mcpTransportError "MCP connection closed unexpectedly."
  cases phase : server.entry.connecting with
  | none => exact ⟨[], unpublished, phase⟩
  | some connecting =>
    cases connecting with
    | connection =>
      exact ⟨[.connectionFailed error, .closeReturned 0, .observed], idle_caught ⟨none, error, by simp [perform, phase]⟩⟩
    | initializing client =>
      exact ⟨[.initializeFailed error, .closeReturned 0, .observed], idle_caught ⟨some client, error, by simp [perform, phase]⟩⟩
    | notifying client =>
      exact ⟨[.notifyFailed error, .closeReturned 0, .observed], idle_caught ⟨some client, error, by simp [perform, phase]⟩⟩
    | closing client failure => exact ⟨[.closeReturned 0, .observed], idle_closing phase⟩
    | settled outcome => exact ⟨[.observed], idle_settled unpublished phase⟩

theorem unpublished_dropped {client : ClientId} (sole : server.Sole) (published : server.entry.client = some client) :
    (server.perform (.dropped client none 0)).entry.client = none := by
  have heard := sole.heard client published
  have dropped : server.perform (.dropped client none 0) = server.drop client none 0 := if_pos ((sole.live client).mpr published)
  rw [dropped]
  by_cases wanted : server.entry.desiredState = .connected
  · rw [drop_heard published heard wanted, recordFailure_eq]
  · rw [drop_unwanted published heard wanted]

theorem attempts_idle (idle : server.Idle) : (performAll perform [.connect, .opens] server).entry.client = none ∧
    (performAll perform [.connect, .opens] server).entry.connecting = some .connection := by
  obtain ⟨unpublished, resting⟩ := idle
  have new : opensNew { server.setConnected with connects := server.connects } = true := by
    rw [opensNew_iff, setConnected_eq]
    exact ⟨unpublished, resting, rfl⟩
  have opens : performAll perform [.connect, .opens] server =
      beginAttempt { server.setConnected with connects := server.connects } true := by
    rw [setConnected_eq] at new ⊢
    change perform .opens (perform .connect server) = _
    unfold perform
    simp only [setConnected_eq, Nat.add_sub_cancel]
    rw [if_neg (Nat.succ_ne_zero _), if_pos new]
  rw [opens, beginAttempt_client, setConnected_eq]
  exact ⟨unpublished, beginAttempt_connecting⟩

theorem comes_opening (sole : server.Sole) : ∃ events, (performAll perform events server).entry.client = none ∧
    (performAll perform events server).entry.connecting = some .connection := by
  have unpublished : ∃ events, (performAll perform events server).entry.client = none := by
    cases published : server.entry.client with
    | none => exact ⟨[], published⟩
    | some client => exact ⟨[.dropped client none 0], unpublished_dropped sole published⟩
  obtain ⟨dropping, unpublished⟩ := unpublished
  obtain ⟨resting, idle⟩ := comes_idle unpublished
  refine ⟨dropping ++ resting ++ [.connect, .opens], ?_⟩
  rw [performAll_append, performAll_append]
  exact attempts_idle idle

end Server

end OttiliCoder.Mcp
