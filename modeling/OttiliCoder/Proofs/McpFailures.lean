import OttiliCoder.Proofs.McpHistory

/-! What the supervisor counts. A connection that fails is to be counted once, attempts are to end after as
many failures as the policy allows, and a client is to be handed out once it is ready. -/

namespace OttiliCoder.Mcp
open Relational Transaction Server

/-! The same, read off the history of the server. -/

/-- The drop of this connection is in the history. -/
def counted (client : Option ClientId) (history : List Happening) : Bool :=
  history.any fun
    | .dropped other _ _ => client == some other
    | _ => false

/-- The connections that failed or dropped since the last success or reset, each counted once. -/
def failuresSince : List Happening → Nat
  | [] => 0
  | .succeeded :: _ => 0
  | .reset _ :: _ => 0
  | .failed client _ _ :: earlier => failuresSince earlier + if counted client earlier then 0 else 1
  | .dropped _ _ _ :: earlier => failuresSince earlier + 1
  | _ :: earlier => failuresSince earlier

/-- The attempts made since then; one under way at a reset is among them. -/
def attemptsSince : List Happening → Nat
  | [] => 0
  | .succeeded :: _ => 0
  | .reset pending :: _ => if pending then 1 else 0
  | .attempted _ :: earlier => attemptsSince earlier + 1
  | _ :: earlier => attemptsSince earlier

def dropsSince : List Happening → Nat
  | [] => 0
  | .succeeded :: _ => 0
  | .reset _ :: _ => 0
  | .dropped _ _ _ :: earlier => dropsSince earlier + 1
  | _ :: earlier => dropsSince earlier

/-- When the last of the failures since then was. -/
def lastFailure : List Happening → Option Int
  | [] => none
  | .succeeded :: _ => none
  | .reset _ :: _ => none
  | .failed _ now _ :: _ => some now
  | .dropped _ now _ :: _ => some now
  | _ :: earlier => lastFailure earlier

/-- A failure since then was final. -/
def gaveUp : List Happening → Bool
  | [] => false
  | .succeeded :: _ => false
  | .reset _ :: _ => false
  | .failed _ _ final :: earlier => final || gaveUp earlier
  | .dropped _ _ final :: earlier => final || gaveUp earlier
  | _ :: earlier => gaveUp earlier

/-- Every client handed out had completed `initialize`. -/
def Ready : List Happening → Prop
  | [] => True
  | .handedOut client :: earlier => .initialized client ∈ earlier ∧ Ready earlier
  | _ :: earlier => Ready earlier

/-- Every attempt of `reconcile` has waited since the last failure. -/
def Waits (policy : McpReconnectPolicy) : List Happening → Prop
  | [] => True
  | .attempted (some now) :: earlier =>
    (∀ date, lastFailure earlier = some date → date + backoff policy (failuresSince earlier) ≤ now) ∧ Waits policy earlier
  | _ :: earlier => Waits policy earlier

namespace Server

/-- The handshake of a published client is under way. -/
def shaking (server : Server) : Bool :=
  match server.entry.connecting with
  | some (.initializing _) | some (.notifying _) => true
  | _ => false

end Server

/-- No caller comes upon a client in its handshake, and no connection drops in it or at a server that is not wanted. -/
def Undisturbed (server : Server) (_ : List Happening) : McpEvent → Prop
  | .opens => server.entry.client ≠ none → server.shaking = false
  | .dropped _ _ _ => server.entry.desiredState = .connected ∧ server.shaking = false
  | _ => True

instance (server : Server) (history : List Happening) (event : McpEvent) : Decidable (Undisturbed server history event) := by
  unfold Undisturbed
  split <;> infer_instance

/-- The counts of a server agree with its history. -/
structure Accounted (policy : McpReconnectPolicy) (server : Server) (history : List Happening) : Prop where
  ready : Ready history
  attempts : server.entry.attempt = failuresSince history
  exact : attemptsSince history + dropsSince history = failuresSince history + if server.pending then 1 else 0
  bound : failuresSince history ≤ policy.maxAttempts
  failed : server.entry.state = .failed ↔ failuresSince history = policy.maxAttempts ∨ gaveUp history = true
  unfailed : server.pending = true → server.entry.state ≠ .failed
  waits : Waits policy history

/-- The client's handshake is under way or has failed. -/
def InHandshake (server : Server) (client : ClientId) : Prop :=
  server.entry.connecting = some (.initializing client) ∨ server.entry.connecting = some (.notifying client) ∨
    ∃ error, server.entry.connecting = some (.closing (some client) error)

/-- What the run keeps. -/
structure Counts (policy : McpReconnectPolicy) (server : Server) (history : List Happening) : Prop extends
    Accounted policy server history where
  sole : server.Sole
  limits : normalizeReconnectPolicy server.entry.config.reconnect = .ok policy
  some : 1 ≤ policy.maxAttempts
  fresh : server.entry.client ≠ none → server.shaking = false → failuresSince history = 0 ∧ gaveUp history = false
  date : ∀ date, lastFailure history = .some date → server.entry.state ≠ .failed →
    server.entry.nextReconnectAt = .some (date + backoff policy (failuresSince history))
  published : ∀ client, server.entry.client = .some client → server.shaking = false → .initialized client ∈ history
  outcome : ∀ client, server.entry.connecting = .some (.settled (.some client)) → .initialized client ∈ history
  known : ∀ client now final, .dropped client now final ∈ history → client < server.created
  unheard : ∀ client, InHandshake server client → ∀ now final, .dropped client now final ∉ history

section Steps
variable {policy : McpReconnectPolicy} {server server' : Server} {history : List Happening} {event : McpEvent}

theorem pending_congr (connecting : server'.entry.connecting = server.entry.connecting) : server'.pending = server.pending := by
  unfold pending
  rw [connecting]

theorem shaking_congr (connecting : server'.entry.connecting = server.entry.connecting) : server'.shaking = server.shaking := by
  unfold shaking
  rw [connecting]

/-- What leaves the counts and the phase of the attempt, and publishes no client. -/
theorem Counts.frame (counts : Counts policy server history) (sole : server'.Sole)
    (config : server'.entry.config = server.entry.config) (client : ∀ client, server'.entry.client = .some client → server.entry.client = .some client)
    (connecting : server'.entry.connecting = server.entry.connecting) (state : server'.entry.state = server.entry.state)
    (attempt : server'.entry.attempt = server.entry.attempt) (next : server'.entry.nextReconnectAt = server.entry.nextReconnectAt)
    (created : server'.created = server.created) : Counts policy server' history where
  ready := counts.ready
  attempts := attempt.trans counts.attempts
  exact := by
    rw [pending_congr connecting]
    exact counts.exact
  bound := counts.bound
  failed := by
    rw [state]
    exact counts.failed
  unfailed pending := state ▸ counts.unfailed (pending_congr connecting ▸ pending)
  waits := counts.waits
  sole := sole
  limits := config ▸ counts.limits
  some := counts.some
  fresh held calm := by
    obtain ⟨one, held⟩ := Option.ne_none_iff_exists'.mp held
    have before : server.entry.client ≠ none := by
      rw [client one held]
      exact Option.some_ne_none one
    exact counts.fresh before (shaking_congr connecting ▸ calm)
  date date last unfailed := next.trans (counts.date date last (state ▸ unfailed))
  published held published calm := counts.published held (client held published) (shaking_congr connecting ▸ calm)
  outcome held settled := counts.outcome held (connecting ▸ settled)
  known held now final listed := created ▸ counts.known held now final listed
  unheard held shaken := counts.unheard held (by
    unfold InHandshake at *
    rwa [connecting] at shaken)

/-- A happening that counts for nothing. -/
theorem Counts.note (counts : Counts policy server history) {happening : Happening} (ready : Ready (happening :: history))
    (waits : Waits policy (happening :: history)) (failures : failuresSince (happening :: history) = failuresSince history)
    (attempts : attemptsSince (happening :: history) = attemptsSince history) (drops : dropsSince (happening :: history) = dropsSince history)
    (last : lastFailure (happening :: history) = lastFailure history) (gave : gaveUp (happening :: history) = gaveUp history)
    (other : ∀ client now final, happening ≠ .dropped client now final) :
    Counts policy server (happening :: history) where
  ready := ready
  attempts := counts.attempts.trans failures.symm
  exact := by
    rw [failures, attempts, drops]
    exact counts.exact
  bound := failures.symm ▸ counts.bound
  failed := by
    rw [failures, gave]
    exact counts.failed
  unfailed := counts.unfailed
  waits := waits
  sole := counts.sole
  limits := counts.limits
  some := counts.some
  fresh held calm := by
    rw [failures, gave]
    exact counts.fresh held calm
  date date since unfailed := by
    rw [failures]
    exact counts.date date (last ▸ since) unfailed
  published client published calm := List.mem_cons_of_mem _ (counts.published client published calm)
  outcome client settled := List.mem_cons_of_mem _ (counts.outcome client settled)
  known client now final listed := by
    rcases List.mem_cons.mp listed with new | old
    · exact absurd new.symm (other client now final)
    · exact counts.known client now final old
  unheard client shaken now final listed := by
    rcases List.mem_cons.mp listed with new | old
    · exact other client now final new.symm
    · exact counts.unheard client shaken now final old

/-- Without a failure the attempts are not used up. -/
theorem not_full (some : 1 ≤ policy.maxAttempts) (none : failuresSince history = 0) (trying : gaveUp history = false) :
    ¬(failuresSince history = policy.maxAttempts ∨ gaveUp history = true) := by
  intro full
  rw [none, trying] at full
  rcases full with full | gave
  · omega
  · cases gave

/-- The count starts again at zero. -/
theorem Counts.anew (counts : Counts policy server history) (sole : server'.Sole) (config : server'.entry.config = server.entry.config)
    (client : ∀ client, server'.entry.client = .some client → server.entry.client = .some client)
    (connecting : server'.entry.connecting = server.entry.connecting) (state : server'.entry.state ≠ .failed)
    (attempt : server'.entry.attempt = 0) (created : server'.created = server.created) :
    Counts policy server' (.reset server.pending :: history) where
  ready := counts.ready
  attempts := attempt
  exact := by
    rw [pending_congr connecting]
    exact (Nat.add_zero _).trans (Nat.zero_add _).symm
  bound := Nat.zero_le _
  failed := ⟨fun failed => absurd failed state, fun full => absurd full (not_full counts.some rfl rfl)⟩
  unfailed _ := state
  waits := counts.waits
  sole := sole
  limits := config ▸ counts.limits
  some := counts.some
  fresh _ _ := ⟨rfl, rfl⟩
  date date since := nomatch since
  published held published calm :=
    List.mem_cons_of_mem _ (counts.published held (client held published) (shaking_congr connecting ▸ calm))
  outcome held settled := List.mem_cons_of_mem _ (counts.outcome held (connecting ▸ settled))
  known held now final listed := by
    rw [created]
    exact counts.known held now final (by simpa using listed)
  unheard held shaken now final listed := by
    unfold InHandshake at shaken
    rw [connecting] at shaken
    exact counts.unheard held shaken now final (by simpa using listed)

theorem Counts.wanted (counts : Counts policy server history) : Counts policy server.setConnected (server.resets ++ history) := by
  have sole := Server.sole_perform counts.sole .setConnected
  change server.setConnected.Sole at sole
  rw [setConnected_eq] at *
  by_cases failed : server.entry.state = .failed
  · rw [show server.resets = [.reset server.pending] from if_pos failed]
    exact counts.anew sole rfl (fun _ held => held) rfl (by simp [failed]) (by simp [failed]) rfl
  · rw [show server.resets = [] from if_neg failed]
    exact counts.frame sole rfl (fun _ held => held) rfl (by simp [failed]) (by simp [failed]) (by simp [failed]) rfl

theorem opensNew_iff : server.opensNew = true ↔
    server.entry.client = none ∧ server.entry.connecting = none ∧ server.entry.desiredState = .connected := by
  simp [opensNew, and_assoc]

theorem begin_eq {manual : Bool} (unfailed : server.entry.state ≠ .failed) : server.beginAttempt manual =
    { server with entry := { server.entry with
        state := if server.entry.attempt = 0 then .connecting else .reconnecting, connecting := some .connection } } := by
  unfold beginAttempt
  rw [if_neg fun both => unfailed both.2]

/-- An attempt starts at a server that has not failed. -/
theorem Counts.begin (counts : Counts policy server history) (new : server.opensNew = true) (unfailed : server.entry.state ≠ .failed)
    {manual : Bool} {now : Option Int} (waits : Waits policy (.attempted now :: history)) :
    Counts policy (server.beginAttempt manual) (.attempted now :: history) := by
  obtain ⟨none, idle, -⟩ := opensNew_iff.mp new
  have sole : (server.beginAttempt manual).Sole := sole_begin counts.sole new
  have waiting : server.pending = false := by
    unfold pending
    rw [idle]
  have started : (if server.entry.attempt = 0 then McpServerState.connecting else .reconnecting) ≠ .failed := by
    split <;> exact McpServerState.noConfusion
  rw [begin_eq unfailed] at *
  constructor
  · exact ⟨counts.ready, counts.attempts, by
      have exact := counts.exact
      rw [waiting] at exact
      change attemptsSince history + 1 + dropsSince history = failuresSince history + 1
      simp only [Bool.false_eq_true, if_false] at exact
      omega, counts.bound, ⟨fun failed => absurd failed started, fun full => absurd (counts.failed.mpr full) unfailed⟩, fun _ => started, waits⟩
  · exact sole
  · exact counts.limits
  · exact counts.some
  · exact fun held => absurd none held
  · exact fun date since _ => counts.date date since unfailed
  · exact fun client published => by
      rw [show server.entry.client = Option.none from none] at published
      cases published
  · exact fun client settled => nomatch settled
  · exact fun client now final listed => counts.known client now final (by simpa using listed)
  · exact fun client shaken => by simp [InHandshake] at shaken

/-- A failed server is opened by hand as one that counts anew. -/
theorem begin_failed (failed : server.entry.state = .failed) : server.beginAttempt true =
    beginAttempt { server with entry := { server.entry with
      attempt := 0, lastError := none, nextReconnectAt := none, state := .disconnected } } false := by
  unfold beginAttempt
  rw [if_pos ⟨rfl, failed⟩, if_neg fun both => Bool.false_ne_true both.1]

theorem Counts.opened (counts : Counts policy server history) (new : server.opensNew = true) :
    Counts policy (server.beginAttempt true) (.attempted none :: (server.resets ++ history)) := by
  by_cases failed : server.entry.state = .failed
  · rw [show server.resets = [.reset server.pending] from if_pos failed, begin_failed failed]
    have anew : Counts policy { server with entry := { server.entry with
        attempt := 0, lastError := none, nextReconnectAt := none, state := .disconnected } } (.reset server.pending :: history) :=
      counts.anew (counts.sole.frame rfl rfl (fun _ => Iff.rfl) (.inl rfl)) rfl (fun _ held => held) rfl McpServerState.noConfusion rfl rfl
    exact anew.begin new McpServerState.noConfusion counts.waits
  · rw [show server.resets = [] from if_neg failed]
    exact counts.begin new failed counts.waits

/-- The attempt fails, and its client is closed before the failure is recorded. -/
theorem Counts.caught (counts : Counts policy server history) {client : Option ClientId} {error : McpFailure}
    (pending : server.pending = true) (own : ∀ one, client = .some one → InHandshake server one) : Counts policy (server.catchError client error) history := by
  have sole : (server.catchError client error).Sole := counts.sole.closed
  rw [catchError_eq] at *
  constructor
  · refine ⟨counts.ready, counts.attempts, ?_, counts.bound, counts.failed, fun _ => counts.unfailed pending, counts.waits⟩
    have exact := counts.exact
    rwa [pending] at exact
  · exact sole
  · exact counts.limits
  · exact counts.some
  · exact fun held => absurd rfl held
  · exact counts.date
  · exact fun one published => nomatch published
  · exact fun one settled => nomatch settled
  · exact counts.known
  · intro one shaken
    rcases shaken with phase | phase | ⟨_, phase⟩
    · cases phase
    · cases phase
    · cases phase
      exact counts.unheard _ (own _ rfl)

theorem Counts.publish (counts : Counts policy server history) (phase : server.entry.connecting = .some .connection) :
    Counts policy server.publish history := by
  have sole := sole_publish counts.sole phase
  have pending : server.pending = true := by
    unfold Server.pending
    rw [phase]
  constructor
  · refine ⟨counts.ready, counts.attempts, ?_, counts.bound, counts.failed, fun _ => counts.unfailed pending, counts.waits⟩
    have exact := counts.exact
    rwa [pending] at exact
  · exact sole
  · exact counts.limits
  · exact counts.some
  · exact fun _ calm => absurd calm Bool.noConfusion
  · exact counts.date
  · exact fun one _ calm => absurd calm Bool.noConfusion
  · exact fun one settled => nomatch settled
  · exact fun one now final listed => Nat.lt_succ_of_lt (counts.known one now final listed)
  · intro one shaken now final listed
    have earlier := counts.known one now final listed
    rcases shaken with phase | phase | ⟨_, phase⟩
    · cases phase
      exact Nat.lt_irrefl _ earlier
    · cases phase
    · cases phase

theorem Counts.asked (counts : Counts policy server history) {client : ClientId} (phase : server.entry.connecting = .some (.initializing client)) :
    Counts policy { server with
      entry := { server.entry with connecting := .some (.notifying client) }
      clients := Function.update server.clients client { server.clients client with initialized := true } } history := by
  have pending : server.pending = true := by
    unfold Server.pending
    rw [phase]
  constructor
  · refine ⟨counts.ready, counts.attempts, ?_, counts.bound, counts.failed, fun _ => counts.unfailed pending, counts.waits⟩
    have exact := counts.exact
    rwa [pending] at exact
  · exact sole_initialized counts.sole phase
  · exact counts.limits
  · exact counts.some
  · exact fun _ calm => absurd calm Bool.noConfusion
  · exact counts.date
  · exact fun one _ calm => absurd calm Bool.noConfusion
  · exact fun one settled => nomatch settled
  · exact counts.known
  · intro one shaken
    rcases shaken with next | next | ⟨_, next⟩
    · cases next
    · cases next
      exact counts.unheard _ (.inl phase)
    · cases next

/-- The handshake ends, and the client is handed out. -/
theorem Counts.succeeded (counts : Counts policy server history) {client : ClientId} {now : Int}
    (phase : server.entry.connecting = .some (.notifying client)) (sole : ((server.succeed now).settle (.some client)).Sole) :
    Counts policy ((server.succeed now).settle (.some client)) (.handedOut client :: .succeeded :: .initialized client :: history) := by
  constructor
  · exact ⟨⟨by simp, counts.ready⟩, rfl, rfl, Nat.zero_le _,
      ⟨McpServerState.noConfusion, fun full => absurd full (not_full counts.some rfl rfl)⟩, fun _ => McpServerState.noConfusion, counts.waits⟩
  · exact sole
  · exact counts.limits
  · exact counts.some
  · exact fun _ _ => ⟨rfl, rfl⟩
  · exact fun date since => nomatch since
  · intro one published _
    have own : server.entry.client = none ∨ server.entry.client = .some client := counts.sole.notifying client phase
    rw [show server.entry.client = .some one from published] at own
    rcases own with none | same
    · cases none
    · cases same
      simp
  · intro one settled
    cases settled
    simp
  · exact fun one at_ final listed => counts.known one at_ final (by simpa using listed)
  · intro one shaken
    rcases shaken with next | next | ⟨_, next⟩
    · cases next
    · cases next
    · cases next

theorem not_counted {client : Option ClientId} (unheard : ∀ one, client = .some one → ∀ now final, .dropped one now final ∉ history) :
    counted client history = false := by
  rw [counted, List.any_eq_false]
  intro happening listed drop
  cases happening with
  | dropped other now final =>
    have same : client = .some other := by simpa using drop
    exact unheard other same now final listed
  | _ => cases drop

theorem not_inHandshake (idle : server.pending = false) (client : ClientId) : ¬InHandshake server client := by
  unfold pending at idle
  intro shaken
  rcases shaken with phase | phase | ⟨error, phase⟩
  · simp [phase] at idle
  · simp [phase] at idle
  · simp [phase] at idle

theorem retried_iff {error : McpFailure} :
    server.Retried error policy ↔ server.final error = false ∧ server.entry.attempt + 1 < policy.maxAttempts := by
  unfold Retried final
  cases server.entry.desiredState <;> cases error.retryable <;> simp

/-- A failure or a drop is recorded, and no attempt is under way. -/
theorem Counts.recorded (counts : Counts policy server history) {happening : Happening} {error : McpFailure} {now : Int}
    {heard : Option ClientId} {connecting : Option Connecting} {clients : ClientId → McpClient}
    (unfailed : server.entry.state ≠ .failed) (ready : Ready (happening :: history)) (waits : Waits policy (happening :: history))
    (failures : failuresSince (happening :: history) = failuresSince history + 1)
    (exact : attemptsSince (happening :: history) + dropsSince (happening :: history) = failuresSince history + 1)
    (last : lastFailure (happening :: history) = .some now)
    (gave : gaveUp (happening :: history) = (server.final error || gaveUp history))
    (known : ∀ client now final, .dropped client now final ∈ happening :: history → client < server.created)
    (outcome : ∀ client, connecting = .some (.settled (.some client)) → server.entry.connecting = .some (.settled (.some client))) :
    let server' := { server with
      entry := { server.entry with
        client := none, connectedAt := none, lastError := .some error, attempt := server.entry.attempt + 1
        nextReconnectAt := server.failureDate error now, state := server.failureState error, unsubscribeClose := heard, connecting }
      clients }
    server'.Sole → server'.pending = false → Counts policy server' (happening :: history) := by
  intro server' sole idle
  have counting : server.entry.attempt = failuresSince history := counts.attempts
  have left : failuresSince history < policy.maxAttempts :=
    Nat.lt_of_le_of_ne counts.bound fun full => unfailed (counts.failed.mpr (.inl full))
  have trying : gaveUp history = false := by
    rw [← Bool.not_eq_true]
    exact fun gave => unfailed (counts.failed.mpr (.inr gave))
  have state : server'.entry.state = if server.Retried error policy then .reconnecting else .failed := by
    change server.failureState error = _
    rw [failureState, counts.limits]
  have date : server'.entry.nextReconnectAt =
      if server.Retried error policy then .some (now + backoff policy (server.entry.attempt + 1)) else none := by
    change server.failureDate error now = _
    rw [failureDate, counts.limits]
  constructor
  · constructor
    · exact ready
    · rw [failures]
      exact congrArg (· + 1) counting
    · rw [exact, failures, idle]
      rfl
    · rw [failures]
      exact left
    · rw [state, failures, gave, trying]
      by_cases again : server.Retried error policy
      · obtain ⟨open_, more⟩ := retried_iff.mp again
        rw [if_pos again, open_]
        simp only [reduceCtorEq, Bool.or_self, Bool.false_eq_true, or_false, false_iff]
        omega
      · rw [if_neg again]
        rw [retried_iff] at again
        cases closed : server.final error with
        | true => simp
        | false =>
          simp only [closed, true_and] at again
          simp only [Bool.or_self, Bool.false_eq_true, or_false, true_iff]
          omega
    · intro pending
      rw [idle] at pending
      cases pending
    · exact waits
  · exact sole
  · exact counts.limits
  · exact counts.some
  · exact fun held => absurd rfl held
  · intro since sinceLast unfailed
    rw [last] at sinceLast
    cases sinceLast
    have again : server.Retried error policy := by
      by_contra final
      exact unfailed (state.trans (if_neg final))
    rw [failures, ← counting, date, if_pos again]
  · exact fun client published => nomatch published
  · exact fun client settled => List.mem_cons_of_mem _ (counts.outcome client (outcome client settled))
  · exact known
  · exact fun client shaken => absurd shaken (not_inHandshake idle client)

/-- The failed attempt has closed its client. -/
theorem Counts.ended (counts : Counts policy server history) {client : Option ClientId} {error : McpFailure} {now : Int}
    (phase : server.entry.connecting = .some (.closing client error)) (sole : ((server.recordFailure error now).settle none).Sole) :
    Counts policy ((server.recordFailure error now).settle none) (.failed client now (server.final error) :: history) := by
  have pending : server.pending = true := by
    unfold Server.pending
    rw [phase]
  have once : counted client history = false := by
    apply not_counted
    intro one same
    exact counts.unheard one (.inr (.inr ⟨error, by rw [phase, same]⟩))
  have failures : failuresSince (.failed client now (server.final error) :: history) = failuresSince history + 1 := by
    rw [failuresSince, once]
    rfl
  have ready : Ready (.failed client now (server.final error) :: history) := counts.ready
  rw [recordFailure_eq] at *
  apply counts.recorded (counts.unfailed pending) ready counts.waits failures _ rfl rfl _ _ sole rfl
  · have exact := counts.exact
    rw [pending] at exact
    exact exact
  · exact fun one at_ final listed => counts.known one at_ final (by simpa using listed)
  · exact fun one settled => nomatch settled

/-- A connection in use drops. -/
theorem Counts.dropped (counts : Counts policy server history) {client : ClientId} {reason : Option McpFailure} {now : Int}
    (live : server.Live client) (wanted : server.entry.desiredState = .connected) (calm : server.shaking = false) :
    Counts policy (server.drop client reason now) (.dropped client now (server.final (dropFailure reason)) :: history) := by
  have sole : (server.drop client reason now).Sole := counts.sole.dropped live
  have published := (counts.sole.live client).mp live
  have held : server.entry.client ≠ none := by
    rw [published]
    exact Option.some_ne_none client
  have idle : server.pending = false := by
    cases phase : server.entry.connecting with
    | none => simp [pending, phase]
    | some connecting =>
      cases connecting with
      | connection => exact absurd (counts.sole.opening phase) held
      | initializing _ => simp [shaking, phase] at calm
      | notifying _ => simp [shaking, phase] at calm
      | closing one error => exact absurd (counts.sole.closing one error phase) held
      | settled _ => simp [pending, phase]
  obtain ⟨none, trying⟩ := counts.fresh held calm
  have unfailed : server.entry.state ≠ .failed := fun failed => not_full counts.some none trying (counts.failed.mp failed)
  have ready : Ready (.dropped client now (server.final (dropFailure reason)) :: history) := counts.ready
  rw [drop_heard published (counts.sole.heard client published) wanted, recordFailure_eq] at *
  apply counts.recorded unfailed ready counts.waits rfl _ rfl rfl _ (fun _ settled => settled) sole idle
  · have exact := counts.exact
    rw [idle] at exact
    change attemptsSince history + (dropsSince history + 1) = failuresSince history + 1
    simp only [Bool.false_eq_true, if_false] at exact
    omega
  · intro one at_ final listed
    rcases List.mem_cons.mp listed with new | old
    · cases new
      exact live.1
    · exact counts.known one at_ final old

/-- `open` has seen the outcome of its promise. -/
theorem Counts.seen (counts : Counts policy server history) {outcome : Option ClientId}
    (phase : server.entry.connecting = .some (.settled outcome)) :
    Counts policy { server with entry := { server.entry with connecting := none } } history := by
  have idle : server.pending = false := by
    unfold Server.pending
    rw [phase]
  have calm : server.shaking = false := by
    unfold shaking
    rw [phase]
  constructor
  · refine ⟨counts.ready, counts.attempts, ?_, counts.bound, counts.failed, (fun pending => nomatch pending), counts.waits⟩
    have exact := counts.exact
    rwa [idle] at exact
  · exact counts.sole.frame rfl rfl (fun _ => Iff.rfl) (.inr (.inl rfl))
  · exact counts.limits
  · exact counts.some
  · exact fun held _ => counts.fresh held calm
  · exact counts.date
  · exact fun client published _ => counts.published client published calm
  · exact fun client settled => nomatch settled
  · exact counts.known
  · exact fun client shaken => absurd shaken (not_inHandshake rfl client)

/-- A client that `open` gives at once has been initialized. -/
theorem Counts.offers (counts : Counts policy server history) (calm : server.entry.client ≠ none → server.shaking = false)
    {client : ClientId} (offered : server.offered = .some client) : .initialized client ∈ history := by
  unfold Server.offered at offered
  split at offered
  · next held =>
    cases offered
    apply counts.published client held
    apply calm
    rw [held]
    exact Option.some_ne_none client
  · next phase =>
    rw [offered] at phase
    exact counts.outcome client phase
  · cases offered

theorem Counts.given (counts : Counts policy server history) (calm : server.entry.client ≠ none → server.shaking = false) :
    Counts policy server (server.offered.toList.map .handedOut ++ history) := by
  cases offered : server.offered with
  | none => exact counts
  | some client =>
    have ready : Ready (.handedOut client :: history) := ⟨counts.offers calm offered, counts.ready⟩
    exact counts.note ready counts.waits rfl rfl rfl rfl rfl fun _ _ _ => Happening.noConfusion

/-- `reconcile` comes to a server no sooner than its back-off allows. -/
theorem Counts.waited (counts : Counts policy server history) {now : Int} (due : server.due now = true) :
    server.entry.state ≠ .failed ∧ Waits policy (.attempted (.some now) :: history) := by
  simp only [Server.due, Bool.and_eq_true, bne_iff_ne] at due
  obtain ⟨⟨_, unfailed⟩, next⟩ := due
  refine ⟨unfailed, ?_, counts.waits⟩
  intro date last
  rw [counts.date date last unfailed] at next
  simpa using next

theorem counts_perform (counts : Counts policy server history) (calm : Undisturbed server history event) :
    Counts policy (server.perform event) (server.happenings event ++ history) := by
  have sole := Server.sole_perform counts.sole event
  have called : Counts policy { server.setConnected with connects := server.setConnected.connects + 1 } (server.resets ++ history) :=
    counts.wanted.frame (counts.wanted.sole.frame rfl rfl (fun _ => Iff.rfl) (.inl rfl)) rfl (fun _ held => held) rfl rfl rfl rfl rfl
  have opening : Counts policy { server with connects := server.connects - 1 } history :=
    counts.frame (counts.sole.frame rfl rfl (fun _ => Iff.rfl) (.inl rfl)) rfl (fun _ held => held) rfl rfl rfl rfl rfl
  have step := server.stepped event
  generalize server.perform event = server', server.happenings event = added at *
  cases step with
  | ignored => exact counts
  | setConnected =>
    have ready : Ready (.summoned :: (server.resets ++ history)) := counts.wanted.ready
    exact counts.wanted.note ready counts.wanted.waits rfl rfl rfl rfl rfl fun _ _ _ => Happening.noConfusion
  | connect =>
    have ready : Ready (.summoned :: (server.resets ++ history)) := called.ready
    exact called.note ready called.waits rfl rfl rfl rfl rfl fun _ _ _ => Happening.noConfusion
  | listTools => exact called
  | callTool => exact called
  | setDisconnected =>
    rw [setDisconnected_eq] at *
    exact counts.frame sole rfl (fun _ held => nomatch held) rfl rfl rfl rfl rfl
  | disconnectReturns some =>
    have anew := counts.anew sole rfl (fun _ held => held) rfl McpServerState.noConfusion rfl rfl
    have ready : Ready (.disconnected :: .reset server.pending :: history) := counts.ready
    exact anew.note ready counts.waits rfl rfl rfl rfl rfl fun _ _ _ => Happening.noConfusion
  | opensNew new => exact opening.opened new
  | opensOld => exact opening.given calm
  | reconciles due =>
    obtain ⟨unfailed, waits⟩ := counts.waited due
    exact counts.begin (opensNew_of_due due) unfailed waits
  | connectionOpened phase => exact counts.publish phase
  | connectionFailed phase =>
    apply counts.caught
    · rw [Server.pending, phase]
    · exact fun _ same => nomatch same
  | initializeReturned phase => exact counts.asked phase
  | initializeFailed phase =>
    apply counts.caught
    · rw [Server.pending, phase]
    · intro one same
      cases same
      exact .inl phase
  | notified phase => exact counts.succeeded phase sole
  | notifyFailed phase =>
    apply counts.caught
    · rw [Server.pending, phase]
    · intro one same
      cases same
      exact .inr (.inl phase)
  | closeReturned phase => exact counts.ended phase sole
  | observed phase => exact counts.seen phase
  | dropped live =>
    obtain ⟨wanted, quiet⟩ := calm
    exact counts.dropped live wanted quiet

theorem counts_initial {config : McpServerConfig} (limits : normalizeReconnectPolicy config.reconnect = .ok policy)
    (some : 1 ≤ policy.maxAttempts) : Counts policy (Server.initial config) [] where
  ready := trivial
  attempts := rfl
  exact := rfl
  bound := Nat.zero_le _
  failed := ⟨McpServerState.noConfusion, fun full => absurd full (not_full some rfl rfl)⟩
  unfailed _ := McpServerState.noConfusion
  waits := trivial
  sole := Server.sole_initial config
  limits := limits
  some := some
  fresh held := absurd rfl held
  date _ since := nomatch since
  published _ held := nomatch held
  outcome _ settled := nomatch settled
  known _ _ _ listed := nomatch listed
  unheard client shaken := absurd shaken (not_inHandshake rfl client)

end Steps

/-- A failed server has had as many attempts and drops as the policy allows, unless one of the failures was final. -/
theorem Accounted.spent {policy : McpReconnectPolicy} {server : Server} {history : List Happening}
    (accounted : Accounted policy server history) (failed : server.entry.state = .failed) (trying : gaveUp history = false) :
    attemptsSince history + dropsSince history = policy.maxAttempts := by
  have idle : server.pending = false := by
    rw [← Bool.not_eq_true]
    exact fun pending => accounted.unfailed pending failed
  have full : failuresSince history = policy.maxAttempts := by
    rcases accounted.failed.mp failed with full | gave
    · exact full
    · rw [trying] at gave
      cases gave
  rw [accounted.exact, idle, full]
  rfl

/-- The connection of the sample server drops, and two attempts of `reconcile` fail. -/
def sampleFailures : List SupervisorEvent :=
  sampleConnection ++ [.dropped 0 none 10, .reconciles 1010, .connectionFailed (mcpTransportError "refused"), .closeReturned 1020, .observed,
    .reconciles 3020, .connectionFailed (mcpTransportError "refused"), .closeReturned 3030, .observed].map (.server "files")

def failedSample : Watched := .after sampleCatalog sampleFailures

/-- A second caller comes while `initialize` is under way. -/
def earlyCaller : Watched := .after sampleCatalog ([.connect, .opens, .connectionOpened, .connect, .opens].map (.server "files"))

/-- The connection drops while `initialize` is under way, which then fails. -/
def droppedHandshake : Watched :=
  .after sampleCatalog ([.connect, .opens, .connectionOpened, .dropped 0 none 5, .initializeFailed (mcpTransportError "closed"),
    .closeReturned 6, .observed].map (.server "files"))

end OttiliCoder.Mcp
