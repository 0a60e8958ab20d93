import OttiliCoder.Proofs.McpHistory

/-! A server that the operator has disconnected. What an attempt does after a suspension does not look at the
desired state again, and tool calls connect like the operator, so the server may come back on its own. -/

namespace OttiliCoder.Mcp
open Relational Transaction

/-- A disconnect has returned, and the operator has not called for the server since. -/
def quiet : List Happening → Bool
  | [] => false
  | .disconnected :: _ => true
  | .summoned :: _ => false
  | _ :: earlier => quiet earlier

/-- No connection attempt was started while the server was to be left alone. -/
def Untouched : List Happening → Prop
  | [] => True
  | .attempted _ :: earlier => quiet earlier = false ∧ Untouched earlier
  | _ :: earlier => Untouched earlier

/-- The event does not bring back a server that is being disconnected or has been. -/
def Respects (server : Server) (history : List Happening) : McpEvent → Prop
  | .setConnected | .connect => server.disconnects = 0
  | .listTools | .callTool => server.disconnects = 0 ∧ quiet history = false
  | .connectionOpened => server.entry.connecting = some .connection → server.entry.desiredState = .connected
  | .notified _ =>
    match server.entry.connecting with
    | some (.notifying _) => quiet history = false
    | _ => True
  | _ => True

instance (server : Server) (history : List Happening) (event : McpEvent) : Decidable (Respects server history event) := by
  unfold Respects
  split <;> try infer_instance
  split <;> infer_instance

/-- The supervisor holds nothing of the server, and does not want it connected. -/
structure Gone (server : Server) : Prop where
  client : server.entry.client = none
  state : server.entry.state ≠ .connected
  closed : ∀ client, ¬server.Live client
  desired : server.entry.desiredState = .disconnected

/-- What the run keeps: from the call of a disconnect on, the server is not to be connected and has no client. -/
structure Left (server : Server) (history : List Happening) : Prop where
  sole : server.Sole
  leaving : quiet history = true ∨ 0 < server.disconnects →
    server.entry.desiredState = .disconnected ∧ server.entry.client = none
  state : quiet history = true → server.entry.state ≠ .connected
  untouched : Untouched history

section Steps
variable {server server' : Server} {history happenings : List Happening} {event : McpEvent}

theorem left_initial (config : McpServerConfig) : Left (Server.initial config) [] where
  sole := Server.sole_initial config
  leaving either := by simp [quiet, Server.initial] at either
  state quiet := by cases quiet
  untouched := trivial

theorem Left.gone (left : Left server history) (alone : quiet history = true) : Gone server where
  client := (left.leaving (.inl alone)).2
  state := left.state alone
  closed client live := by
    rw [left.sole.live, (left.leaving (.inl alone)).2] at live
    cases live
  desired := (left.leaving (.inl alone)).1

/-- A server that is wanted is neither left alone nor being disconnected. -/
theorem Left.wanted (left : Left server history) (wanted : server.entry.desiredState = .connected) :
    quiet history = false ∧ server.disconnects = 0 := by
  have free : ¬(quiet history = true ∨ 0 < server.disconnects) := by
    intro either
    have unwanted := (left.leaving either).1
    rw [wanted] at unwanted
    cases unwanted
  rw [not_or, Bool.not_eq_true, Nat.not_lt, Nat.le_zero] at free
  exact free

/-- While the server is wanted there is nothing to keep. -/
theorem Left.free (sole : server.Sole) (alone : quiet history = false) (none : server.disconnects = 0)
    (untouched : Untouched history) : Left server history where
  sole := sole
  leaving either := by simp [alone, none] at either
  state quiet := by simp [alone] at quiet
  untouched := untouched

/-- A step that leaves the wish, takes no client and does not end in "connected" keeps the server as it is. -/
theorem Left.frame (left : Left server history) (sole : server'.Sole) (desired : server'.entry.desiredState = server.entry.desiredState)
    (client : server.entry.client = none → server'.entry.client = none) (disconnects : server'.disconnects = server.disconnects)
    (state : server.entry.state ≠ .connected → server'.entry.state ≠ .connected) : Left server' history where
  sole := sole
  leaving either := by
    rw [disconnects] at either
    obtain ⟨unwanted, none⟩ := left.leaving either
    exact ⟨desired.trans unwanted, client none⟩
  state alone := state (left.state alone)
  untouched := left.untouched

theorem quiet_resets : quiet (server.resets ++ history) = quiet history := by
  unfold Server.resets
  split <;> rfl

theorem untouched_resets (untouched : Untouched history) : Untouched (server.resets ++ history) := by
  unfold Server.resets
  split <;> exact untouched

theorem quiet_handedOut (client : Option ClientId) : quiet (client.toList.map .handedOut ++ history) = quiet history := by
  cases client <;> rfl

theorem untouched_handedOut (client : Option ClientId) (untouched : Untouched history) :
    Untouched (client.toList.map .handedOut ++ history) := by
  cases client <;> exact untouched

theorem begin_entry {manual : Bool} : (server.beginAttempt manual).disconnects = server.disconnects := rfl

/-- An attempt starts at a server that is wanted. -/
theorem Left.attempt (left : Left server history) (new : server.opensNew = true) {manual : Bool} {now : Option Int}
    {resets : List Happening} (same : quiet (resets ++ history) = quiet history) (untouched : Untouched (resets ++ history)) :
    Left (server.beginAttempt manual) (.attempted now :: (resets ++ history)) := by
  have wanted : server.entry.desiredState = .connected := by
    simp only [Server.opensNew, Bool.and_eq_true, beq_iff_eq] at new
    exact new.2
  obtain ⟨alone, none⟩ := left.wanted wanted
  have calm : quiet (resets ++ history) = false := same.trans alone
  exact .free (Server.sole_begin left.sole new) calm (begin_entry.trans none) ⟨calm, untouched⟩

theorem Left.caught (left : Left server history) (client : Option ClientId) (error : McpFailure) :
    Left (server.catchError client error) history := by
  have sole : (server.catchError client error).Sole := left.sole.closed
  rw [Server.catchError_eq] at *
  exact left.frame sole rfl (fun _ => rfl) rfl fun kept => kept

theorem failureState_ne {failure : McpFailure} (other : server.entry.state ≠ .connected) : server.failureState failure ≠ .connected := by
  unfold Server.failureState
  split
  · exact other
  · split <;> exact McpServerState.noConfusion

/-- Callers that are given a client change nothing. -/
theorem Left.given (left : Left server history) (client : Option ClientId) : Left server (client.toList.map .handedOut ++ history) where
  sole := left.sole
  leaving either := left.leaving (quiet_handedOut client ▸ either)
  state alone := left.state (quiet_handedOut client ▸ alone)
  untouched := untouched_handedOut client left.untouched

theorem left_perform (left : Left server history) (respects : Respects server history event) :
    Left (server.perform event) (server.happenings event ++ history) := by
  have sole := Server.sole_perform left.sole event
  have kept : server.setConnected.disconnects = server.disconnects := by rw [Server.setConnected_eq]
  have opening : Left { server with connects := server.connects - 1 } history :=
    left.frame (left.sole.frame rfl rfl (fun _ => Iff.rfl) (.inl rfl)) rfl (fun none => none) rfl fun kept => kept
  have step := server.stepped event
  generalize server.perform event = server', server.happenings event = added at *
  cases step with
  | ignored => exact left
  | setConnected => exact .free sole rfl (kept.trans respects) (untouched_resets left.untouched)
  | connect => exact .free sole rfl (kept.trans respects) (untouched_resets left.untouched)
  | listTools => exact .free sole (quiet_resets.trans respects.2) (kept.trans respects.1) (untouched_resets left.untouched)
  | callTool => exact .free sole (quiet_resets.trans respects.2) (kept.trans respects.1) (untouched_resets left.untouched)
  | setDisconnected =>
    rw [Server.setDisconnected_eq] at *
    exact ⟨sole, fun _ => ⟨rfl, rfl⟩, left.state, left.untouched⟩
  | disconnectReturns some =>
    obtain ⟨unwanted, none⟩ := left.leaving (.inr (Nat.pos_of_ne_zero some))
    exact ⟨sole, fun _ => ⟨unwanted, none⟩, fun _ => McpServerState.noConfusion, left.untouched⟩
  | opensNew new => exact opening.attempt new quiet_resets (untouched_resets left.untouched)
  | opensOld => exact opening.given server.offered
  | reconciles due =>
    exact left.attempt (Server.opensNew_of_due due) (show quiet ([] ++ history) = quiet history from rfl) left.untouched
  | connectionOpened phase =>
    obtain ⟨alone, none⟩ := left.wanted (respects phase)
    exact .free sole alone none left.untouched
  | connectionFailed => exact left.caught none _
  | initializeReturned => exact left.frame sole rfl (fun none => none) rfl fun kept => kept
  | initializeFailed => exact left.caught (some _) _
  | notified phase =>
    have alone : quiet history = false := by
      unfold Respects at respects
      rwa [phase] at respects
    exact ⟨sole, left.leaving, fun quiet => absurd (alone.symm.trans quiet) Bool.false_ne_true, left.untouched⟩
  | notifyFailed => exact left.caught (some _) _
  | closeReturned =>
    rw [Server.recordFailure_eq] at *
    exact ⟨sole, fun either => ⟨(left.leaving either).1, rfl⟩, fun alone => failureState_ne (left.state alone), left.untouched⟩
  | observed => exact left.frame sole rfl (fun none => none) rfl fun kept => kept
  | dropped live =>
    -- a server that is left has no connection that could drop
    have published := (left.sole.live _).mp live
    have free : ¬(quiet history = true ∨ 0 < server.disconnects) := by
      intro either
      rw [(left.leaving either).2] at published
      cases published
    rw [not_or, Bool.not_eq_true, Nat.not_lt, Nat.le_zero] at free
    exact .free sole free.1 (Server.drop_disconnects.trans free.2) left.untouched

end Steps

/-- A server the operator has disconnected stays so, in every run none of whose events brings it back. -/
theorem disconnected_stays {catalog : Keyed McpServerConfig.id} {watched : Watched}
    (reached : Reached (Watched.start catalog) Watched.perform (Watched.Meets Respects) watched) :
    ∀ server ∈ watched.supervisor.servers, quiet (watched.history server.id) = true →
      Gone server ∧ Untouched (watched.history server.id) := by
  intro server listed alone
  have left := Watched.invariant left_initial (fun _ _ _ left respects => left_perform left respects) reached server listed
  exact ⟨left.gone alone, left.untouched⟩

def sampleDisconnect : List SupervisorEvent := [.server "files" .setDisconnected, .server "files" .disconnectReturns]

def disconnectedSample : Watched := .after sampleCatalog (sampleConnection ++ sampleDisconnect)

theorem disconnected_stays_sample : ∃ server ∈ disconnectedSample.supervisor.servers,
    quiet (disconnectedSample.history server.id) = true ∧ Gone server ∧ Untouched (disconnectedSample.history server.id) := by
  have alone : ∃ server ∈ disconnectedSample.supervisor.servers.rows, quiet (disconnectedSample.history server.id) = true := by
    decide +kernel
  obtain ⟨server, listed, alone⟩ := alone
  exact ⟨server, listed, alone, disconnected_stays (Reached.start.performAll (by decide +kernel)) server listed alone⟩

/-- The connection opens after the disconnect. -/
def lateConnection : Watched :=
  .after sampleCatalog ([.connect, .opens, .setDisconnected, .disconnectReturns, .connectionOpened, .initializeReturned,
    .notified 5].map (.server "files"))

/-- The tools of the Run are listed while the server is connected, and again after the disconnect. -/
def lateListing : Watched :=
  .after sampleCatalog (sampleConnection ++ [.createMcpTools] ++ sampleDisconnect ++
    [.nextServer 0, .server "files" .opens, .server "files" .connectionOpened])

theorem disconnected_returns :
    quiet (lateConnection.history "files") = true ∧
    (lateConnection.entryOf "files").map (fun entry => (entry.client, entry.state)) = some (some 0, .connected) ∧
    quiet (lateListing.history "files") = true ∧
    (lateListing.entryOf "files").map (fun entry => (entry.client, entry.desiredState)) = some (some 1, .connected) := by
  decide +kernel

end OttiliCoder.Mcp
