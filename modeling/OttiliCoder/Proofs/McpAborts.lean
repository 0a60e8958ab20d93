import OttiliCoder.Proofs.McpAttempts

/-! A tool call whose signal is aborted: when it sends nothing from then on and fails without a
further message from the server. -/

namespace OttiliCoder.Mcp
open Transaction

namespace CallEvent

/-- A step that waits for no message from the server: what the program does on its own, and what the
operating system tells it of a process or a pipe. -/
def ofProgram (transport : McpTransport) : CallEvent → Bool
  | .begins | .goesOn | .resumes => true
  | .answered _ => false
  | .server event =>
    match event with
    | .connectionOpened | .closeReturned _ | .observed => true
    | .notified _ => transport == .stdio
    | _ => false

end CallEvent

namespace McpCall
variable {call : McpCall}

/-- Since its signal was aborted the call has sent nothing, and steps of the program alone make it
fail, unless it had settled before. -/
structure Stopped (call later : McpCall) : Prop where
  sent : later.sent = call.sent
  fails : (∃ failed, call.phase = .settled failed) ∨
    ∃ own, (∀ event ∈ own, event.ofProgram call.transport = true) ∧ (performAll perform own later).phase = .settled true

/-- An abort at this moment stops the call, whatever happens from then on. -/
def StopsAtAbort (call : McpCall) (reason : String) : Prop := ∀ events, Stopped call (performAll perform events (call.abort reason))

/-- The call has yet to look at its signal, has a request open that an abort rejects, or waits for what
can only fail. Over HTTP a request made with an aborted signal counts too, for `fetch` rejects it. -/
def Guarded (call : McpCall) : Prop :=
  match call.phase with
  | .ready | .requesting _ | .settled _ | .resuming none => True
  | .connecting => False
  | .resuming (some client) => call.transport = .streamableHttp ∨ (call.server.clients client).closed = true
  | .waiting own =>
    match call.server.entry.connecting with
    | some .connection => own = true ∧ call.transport = .streamableHttp
    | some (.initializing _) => own = true
    | some (.notifying client) => call.transport = .stdio ∧ (call.server.clients client).closed = true
    | _ => True

/-! Before the abort. -/

structure Sound (call : McpCall) : Prop where
  signal : call.aborted = none
  sole : call.server.Sole
  orderly : call.server.Orderly
  waiting : ∀ own, call.phase = .waiting own → call.server.pending = true
  resuming : ∀ client, call.phase = .resuming (some client) → call.server.Introduced client

theorem sound_initial (transport : McpTransport) (config : McpServerConfig) : (initial transport config).Sound where
  signal := rfl
  sole := Server.sole_initial config
  orderly := Server.orderly_initial config
  waiting _ phase := nomatch phase
  resuming _ phase := nomatch phase

/-- A call that is neither waiting nor resuming asks nothing of the server. -/
theorem Sound.elsewhere (sound : call.Sound) {phase : CallPhase} (sent : Nat) (notWaiting : ∀ own, phase ≠ .waiting own)
    (notResuming : ∀ client, phase ≠ .resuming (some client)) : Sound { call with phase, sent } where
  signal := sound.signal
  sole := sound.sole
  orderly := sound.orderly
  waiting own same := absurd same (notWaiting own)
  resuming client same := absurd same (notResuming client)

theorem Sound.settle (sound : call.Sound) (failed : Bool) : (call.settle failed).Sound :=
  sound.elsewhere call.sent (fun _ => nofun) (fun _ => nofun)

theorem Sound.callTool (sound : call.Sound) (client : ClientId) : (call.callTool client).Sound := by
  unfold McpCall.callTool
  split
  · exact sound.settle true
  · split
    · exact sound.settle true
    · exact sound.elsewhere _ (fun _ => nofun) (fun _ => nofun)

theorem Sound.openEntry (sound : call.Sound) : call.openEntry.Sound := by
  unfold McpCall.openEntry
  split
  · exact sound.callTool _
  · next settled =>
    refine ⟨sound.signal, sound.sole, sound.orderly, fun _ => nofun, ?_⟩
    intro client same
    cases same
    exact sound.orderly.settled client settled
  · next connecting notSettled unpublished found =>
    refine ⟨sound.signal, sound.sole, sound.orderly, ?_, fun _ => nofun⟩
    intro own _
    unfold Server.pending
    rw [found]
    cases connecting with
    | settled outcome => exact absurd rfl (notSettled outcome)
    | _ => rfl
  · next unpublished idle =>
    split
    · next desired =>
      have new := Server.opensNew_iff.mpr ⟨unpublished, idle, desired⟩
      refine ⟨sound.signal, Server.sole_begin sound.sole new, ?_, ?_, fun _ => nofun⟩
      · constructor <;> intro client phase <;> rw [Server.beginAttempt_connecting] at phase <;> cases phase
      · intro own _
        unfold Server.pending
        rw [Server.beginAttempt_connecting]
    · exact sound.settle true

/-- What the call hears of keeps what it stands for. -/
theorem sound_follow (signal : call.aborted = none) (sole : call.server.Sole) (orderly : call.server.Orderly)
    (waiting : ∀ own, call.phase = .waiting own →
      call.server.pending = true ∨ ∃ outcome, call.server.entry.connecting = some (.settled outcome))
    (resuming : ∀ client, call.phase = .resuming (some client) → call.server.Introduced client) : call.follow.Sound := by
  unfold follow
  split
  · next own here =>
    split
    · next outcome settled =>
      refine ⟨signal, sole, orderly, fun _ => nofun, ?_⟩
      intro client same
      cases same
      exact orderly.settled client settled
    · next unsettled =>
      refine ⟨signal, sole, orderly, ?_, resuming⟩
      intro own here
      rcases waiting own here with pending | ⟨outcome, settled⟩
      · exact pending
      · exact absurd settled (unsettled outcome)
  · split
    · exact ⟨signal, sole, orderly, fun _ => nofun, fun _ => nofun⟩
    · next client here _ => exact ⟨signal, sole, orderly, fun own same => (nomatch here.symm.trans same), resuming⟩
  · next notWaiting _ => exact ⟨signal, sole, orderly, fun own same => absurd same (notWaiting own), resuming⟩

theorem serverPerforms_unaborted (signal : call.aborted = none) (event : McpEvent) :
    call.serverPerforms event = follow { call with server := call.server.perform event } := by
  unfold serverPerforms
  split
  · next aborted => cases signal.symm.trans aborted
  · rfl

theorem sound_perform (sound : call.Sound) (event : CallEvent) : (call.perform event).Sound := by
  unfold perform
  split
  · split
    · exact sound.settle true
    · have same : call.server.setConnected = call.server.perform .setConnected := rfl
      rw [same]
      exact ⟨sound.signal, Server.sole_perform sound.sole .setConnected, Server.orderly_perform sound.orderly .setConnected,
        fun _ => nofun, fun _ => nofun⟩
  · exact sound.openEntry
  · exact sound.settle true
  · exact sound.callTool _
  · exact sound.settle _
  · next event =>
    rw [serverPerforms_unaborted sound.signal]
    refine sound_follow sound.signal (Server.sole_perform sound.sole event) (Server.orderly_perform sound.orderly event) ?_ ?_
    · intro own here
      exact Server.pending_perform (sound.waiting own here) event
    · intro client here
      have introduced := sound.resuming client here
      exact (call.server.keeps event client introduced.1).introduced introduced
  · exact sound

theorem sound_performAll (events : List CallEvent) (sound : call.Sound) : (performAll perform events call).Sound := by
  induction events generalizing call with
  | nil => exact sound
  | cons event rest ih => exact ih (sound_perform sound event)

/-! After it. -/

/-- An aborted call that can only fail. -/
def Failing (call : McpCall) : Prop :=
  call.aborted.isSome = true ∧
  match call.phase with
  | .ready | .resuming none | .settled true => True
  | .connecting | .requesting _ | .settled false => False
  | .resuming (some client) => call.transport = .streamableHttp ∨ call.server.Gone client
  | .waiting own => call.server.pending = true ∧ call.server.Ends call.transport own

theorem failing_follow {own : Bool} (aborted : call.aborted.isSome = true) (here : call.phase = .waiting own)
    (ends : call.server.Ends call.transport own) : call.follow.Failing := by
  unfold follow
  rw [here]
  dsimp only
  split
  · next outcome settled =>
    unfold Server.Ends at ends
    rw [settled] at ends
    cases outcome with
    | none => exact ⟨aborted, trivial⟩
    | some client => exact ⟨aborted, ends⟩
  · next unsettled =>
    refine ⟨aborted, ?_⟩
    rw [here]
    refine ⟨?_, ends⟩
    unfold Server.Ends at ends
    unfold Server.pending
    cases phase : call.server.entry.connecting with
    | none =>
      rw [phase] at ends
      exact ends.elim
    | some connecting =>
      cases connecting with
      | settled outcome => exact absurd phase (unsettled outcome)
      | _ => rfl

/-- What the call tells its server, it does not send: the count and the transport stay. -/
theorem follow_sent : call.follow.sent = call.sent ∧ call.follow.transport = call.transport := by
  unfold follow
  split
  · split <;> exact ⟨rfl, rfl⟩
  · split <;> exact ⟨rfl, rfl⟩
  · exact ⟨rfl, rfl⟩

theorem serverPerforms_sent (event : McpEvent) :
    (call.serverPerforms event).sent = call.sent ∧ (call.serverPerforms event).transport = call.transport := by
  unfold serverPerforms
  split
  · exact follow_sent
  · exact follow_sent

theorem callTool_transport {client : ClientId} : (call.callTool client).transport = call.transport := by
  unfold callTool
  split
  · rfl
  · split <;> rfl

theorem perform_transport (event : CallEvent) : (call.perform event).transport = call.transport := by
  unfold perform
  split
  · split <;> rfl
  · unfold openEntry
    split
    · exact callTool_transport
    · rfl
    · rfl
    · split <;> rfl
  · rfl
  · exact callTool_transport
  · rfl
  · exact (serverPerforms_sent _).2
  · rfl

theorem performAll_transport (events : List CallEvent) : (performAll perform events call).transport = call.transport := by
  induction events generalizing call with
  | nil => rfl
  | cons event rest ih => exact ih.trans (perform_transport event)

theorem abort_transport (reason : String) : (call.abort reason).transport = call.transport := by
  unfold abort
  dsimp only
  split <;> rfl

theorem callTool_failing {client : ClientId} (aborted : call.aborted.isSome = true)
    (dead : call.transport = .streamableHttp ∨ call.server.Gone client) : call.callTool client = call.settle true := by
  unfold callTool
  split
  · rfl
  · next live =>
    rcases dead with http | gone
    · rw [if_pos ⟨http, aborted⟩]
    · exact absurd (.inr gone.2) live

theorem failing_settled (aborted : call.aborted.isSome = true) : (call.settle true).Failing := ⟨aborted, trivial⟩

theorem serverPerforms_elsewhere {event : McpEvent} (notWaiting : ∀ own, call.phase ≠ .waiting own)
    (notAsking : ∀ client, call.phase ≠ .requesting client) :
    call.serverPerforms event = { call with server := call.server.perform event } := by
  unfold serverPerforms follow
  split
  · next waits _ => exact absurd waits (notWaiting true)
  · dsimp only
    split
    · next waits => exact absurd waits (notWaiting _)
    · next asks => exact absurd asks (notAsking _)
    · rfl

theorem failing_server (failing : call.Failing) (event : McpEvent) : (call.serverPerforms event).Failing := by
  obtain ⟨aborted, stands⟩ := failing
  cases here : call.phase with
  | waiting own =>
    rw [here] at stands
    have next := Server.ends_perform stands.1 stands.2 event
    unfold serverPerforms
    split
    · next reason http waits signal =>
      obtain rfl : own = true := by simpa using here.symm.trans waits
      refine failing_follow aborted here (Server.initializeFailed_ends _ ?_)
      exact next.imp_right fun ⟨_, _, asked⟩ => asked
    · next others =>
      rcases next with ends | ⟨rfl, http, _⟩
      · exact failing_follow aborted here ends
      · obtain ⟨reason, signal⟩ := Option.isSome_iff_exists.mp aborted
        exact absurd signal (others reason http here)
  | ready =>
    rw [serverPerforms_elsewhere (by simp [here]) (by simp [here])]
    refine ⟨aborted, ?_⟩
    rw [here]
    trivial
  | resuming outcome =>
    rw [serverPerforms_elsewhere (by simp [here]) (by simp [here])]
    refine ⟨aborted, ?_⟩
    rw [here] at stands ⊢
    cases outcome with
    | none => trivial
    | some client => exact Or.imp_right (fun gone : call.server.Gone client => gone.perform event) stands
  | settled failed =>
    rw [serverPerforms_elsewhere (by simp [here]) (by simp [here])]
    refine ⟨aborted, ?_⟩
    rw [here] at stands ⊢
    cases failed with
    | true => trivial
    | false => exact stands.elim
  | connecting =>
    rw [here] at stands
    exact stands.elim
  | requesting client =>
    rw [here] at stands
    exact stands.elim

theorem failing_perform (failing : call.Failing) (event : CallEvent) :
    (call.perform event).Failing ∧ (call.perform event).sent = call.sent := by
  obtain ⟨aborted, stands⟩ := failing
  unfold perform
  split
  · rw [if_pos aborted]
    exact ⟨failing_settled aborted, rfl⟩
  · next here =>
    rw [here] at stands
    exact stands.elim
  · exact ⟨failing_settled aborted, rfl⟩
  · next client here =>
    rw [here] at stands
    rw [callTool_failing aborted stands]
    exact ⟨failing_settled aborted, rfl⟩
  · next here =>
    rw [here] at stands
    exact stands.elim
  · next event => exact ⟨failing_server ⟨aborted, stands⟩ event, (serverPerforms_sent event).1⟩
  · exact ⟨⟨aborted, stands⟩, rfl⟩

theorem failing_performAll (events : List CallEvent) (failing : call.Failing) :
    (performAll perform events call).Failing ∧ (performAll perform events call).sent = call.sent := by
  induction events generalizing call with
  | nil => exact ⟨failing, rfl⟩
  | cons event rest ih =>
    obtain ⟨next, sent⟩ := failing_perform failing event
    obtain ⟨later, laterSent⟩ := ih next
    exact ⟨later, laterSent.trans sent⟩

/-- Steps of the program alone make the call fail. -/
def Fails (transport : McpTransport) (call : McpCall) : Prop :=
  ∃ own, (∀ event ∈ own, event.ofProgram transport = true) ∧ (performAll perform own call).phase = .settled true

theorem Fails.step {transport : McpTransport} (event : CallEvent) (ofProgram : event.ofProgram transport = true)
    (fails : (call.perform event).Fails transport) : call.Fails transport := by
  obtain ⟨own, each, settled⟩ := fails
  exact ⟨event :: own, List.forall_mem_cons.mpr ⟨ofProgram, each⟩, settled⟩

theorem fails_settled {transport : McpTransport} (here : call.phase = .settled true) : call.Fails transport :=
  ⟨[], fun _ => nofun, here⟩

theorem fails_resuming {transport : McpTransport} {outcome : Option ClientId} (failing : call.Failing)
    (here : call.phase = .resuming outcome) : call.Fails transport := by
  obtain ⟨aborted, stands⟩ := failing
  rw [here] at stands
  apply Fails.step .resumes rfl
  apply fails_settled
  unfold perform
  rw [here]
  cases outcome with
  | none => rfl
  | some client =>
    dsimp only
    rw [callTool_failing aborted stands]
    rfl

/-- The promise of the call settles. -/
theorem serverPerforms_settles {own : Bool} {event : McpEvent} {outcome : Option ClientId} (here : call.phase = .waiting own)
    (settles : (call.server.perform event).entry.connecting = some (.settled outcome)) :
    (call.serverPerforms event).phase = .resuming outcome := by
  unfold serverPerforms
  split
  · have ignored : ∀ error, (call.server.perform event).perform (.initializeFailed error) = call.server.perform event :=
      fun error => Server.initializeFailed_ignored fun client => by simp [settles]
    simp [follow, rejectInitialize, here, ignored, settles]
  · simp [follow, here, settles]

theorem fails_closing {transport : McpTransport} {own : Bool} {client : Option ClientId} {error : McpFailure} (failing : call.Failing)
    (here : call.phase = .waiting own) (closing : call.server.entry.connecting = some (.closing client error)) :
    call.Fails transport := by
  apply Fails.step (.server (.closeReturned 0)) rfl
  have settles : (call.server.perform (.closeReturned 0)).entry.connecting = some (.settled none) := by
    simp [Server.perform, closing, Server.settle]
  exact fails_resuming (failing_perform failing _).1 (serverPerforms_settles here settles)

/-- An attempt over HTTP is rejected where it comes to ask its server. -/
theorem opened_closing {reason : String} (http : call.transport = .streamableHttp) (here : call.phase = .waiting true)
    (aborted : call.aborted = some reason) (opening : call.server.entry.connecting = some .connection) :
    (call.serverPerforms .connectionOpened).phase = .waiting true ∧
      ∃ client error, (call.serverPerforms .connectionOpened).server.entry.connecting = some (.closing client error) := by
  have published : call.server.perform .connectionOpened = call.server.publish := by simp [Server.perform, opening]
  have failed : ∀ error, call.server.publish.perform (.initializeFailed error) =
      call.server.publish.catchError (some call.server.created) error := fun _ => rfl
  have performed : call.serverPerforms .connectionOpened = rejectInitialize { call with server := call.server.publish } reason := by
    simp [serverPerforms, http, here, aborted, published, follow, rejectInitialize, failed, Server.catchError]
  rw [performed]
  exact ⟨here, _, _, rfl⟩

theorem Failing.fails (failing : call.Failing) : call.Fails call.transport := by
  obtain ⟨aborted, stands⟩ := failing
  cases here : call.phase with
  | ready =>
    apply Fails.step .begins rfl
    apply fails_settled
    simp [perform, here, aborted, settle]
  | connecting =>
    rw [here] at stands
    exact stands.elim
  | requesting client =>
    rw [here] at stands
    exact stands.elim
  | settled failed =>
    rw [here] at stands
    cases failed with
    | true => exact fails_settled here
    | false => exact stands.elim
  | resuming outcome => exact fails_resuming ⟨aborted, stands⟩ here
  | waiting own =>
    have failing : call.Failing := ⟨aborted, stands⟩
    rw [here] at stands
    obtain ⟨pending, ends⟩ := stands
    unfold Server.Ends at ends
    unfold Server.pending at pending
    cases phase : call.server.entry.connecting with
    | none =>
      rw [phase] at ends
      exact ends.elim
    | some connecting =>
      rw [phase] at ends pending
      cases connecting with
      | connection =>
        obtain ⟨rfl, http⟩ := ends
        obtain ⟨reason, signal⟩ := Option.isSome_iff_exists.mp aborted
        obtain ⟨waits, client, error, closing⟩ := opened_closing http here signal phase
        apply Fails.step (.server .connectionOpened) rfl
        exact fails_closing (failing_perform failing (.server .connectionOpened)).1 waits closing
      | initializing client => exact ends.elim
      | notifying client =>
        rw [ends.1]
        apply Fails.step (.server (.notified 0)) rfl
        have settles : (call.server.perform (.notified 0)).entry.connecting = some (.settled (some client)) := by
          simp [Server.perform, phase, Server.settle]
        exact fails_resuming (failing_perform failing _).1 (serverPerforms_settles here settles)
      | closing client error => exact fails_closing failing here phase
      | settled outcome => cases pending

theorem guarded_ends {own : Bool} (sound : call.Sound) (guarded : call.Guarded) (here : call.phase = .waiting own) :
    call.server.Ends call.transport own ∨ own = true ∧ ∃ client, call.server.entry.connecting = some (.initializing client) := by
  have pending := sound.waiting own here
  unfold Guarded at guarded
  rw [here] at guarded
  dsimp only at guarded
  unfold Server.pending at pending
  unfold Server.Ends
  cases phase : call.server.entry.connecting with
  | none =>
    rw [phase] at pending
    cases pending
  | some connecting =>
    rw [phase] at guarded pending
    cases connecting with
    | connection => exact .inl guarded
    | initializing asked => exact .inr ⟨guarded, asked, rfl⟩
    | notifying client => exact .inl ⟨guarded.1, (sound.orderly.notifying client phase).1, guarded.2⟩
    | closing client error => exact .inl trivial
    | settled outcome => cases pending

theorem guarded_failing (sound : call.Sound) (guarded : call.Guarded) (unsettled : ∀ failed, call.phase ≠ .settled failed)
    (reason : String) : (call.abort reason).Failing ∧ (call.abort reason).sent = call.sent := by
  unfold abort
  cases here : call.phase with
  | ready =>
    refine ⟨⟨rfl, ?_⟩, rfl⟩
    simp
  | connecting =>
    unfold Guarded at guarded
    rw [here] at guarded
    exact guarded.elim
  | requesting client => exact ⟨⟨rfl, trivial⟩, rfl⟩
  | settled failed => exact absurd here (unsettled failed)
  | resuming outcome =>
    unfold Guarded at guarded
    rw [here] at guarded
    refine ⟨⟨rfl, ?_⟩, rfl⟩
    dsimp only
    cases outcome with
    | none => trivial
    | some client => exact guarded.imp_right fun closed => ⟨(sound.resuming client here).1, closed⟩
  | waiting own =>
    have pending := sound.waiting own here
    have ends := guarded_ends sound guarded here
    cases own with
    | true =>
      refine ⟨⟨rfl, ?_⟩, rfl⟩
      simp only [rejectInitialize]
      exact ⟨Server.initializeFailed_pending pending _, Server.initializeFailed_ends _ (ends.imp_right And.right)⟩
    | false =>
      refine ⟨⟨rfl, ?_⟩, rfl⟩
      dsimp only
      exact ⟨pending, ends.resolve_right fun ⟨mine, _⟩ => nomatch mine⟩

/-! Where an abort stops nothing. -/

/-- The call awaits an answer of the server, and nothing will reject it. -/
def Stuck (call : McpCall) : Prop :=
  ∃ own client, call.phase = .waiting own ∧
    (call.server.entry.connecting = some (.initializing client) ∧ (own = true → call.transport = .stdio) ∨
      call.server.entry.connecting = some (.notifying client) ∧ call.transport = .streamableHttp)

/-- An event that the server ignores is nothing to a call that waits for more. -/
theorem serverPerforms_ignored {event : McpEvent} (ignored : call.server.perform event = call.server) (stuck : call.Stuck) :
    call.serverPerforms event = call := by
  obtain ⟨own, client, here, asked⟩ := stuck
  have unheard : call.follow = call := by
    unfold follow
    rw [here]
    rcases asked with ⟨asked, _⟩ | ⟨asked, _⟩ <;> rw [asked]
  unfold serverPerforms
  split
  · next reason http waits _ =>
    have unrejected : call.rejectInitialize reason = call := by
      unfold rejectInitialize
      rcases asked with ⟨_, only⟩ | ⟨asked, _⟩
      · have stdio := only (by simpa [here] using waits)
        cases stdio.symm.trans http
      · rw [Server.initializeFailed_ignored fun other => by simp [asked]]
    rw [ignored]
    exact (congrArg follow unrejected).trans unheard
  · rw [ignored]
    exact unheard

theorem stuck_perform {event : CallEvent} (stuck : call.Stuck) (ofProgram : event.ofProgram call.transport = true) :
    call.perform event = call := by
  obtain ⟨own, client, here, asked⟩ := stuck
  cases event with
  | answered failed => cases ofProgram
  | server event =>
    refine serverPerforms_ignored ?_ ⟨own, client, here, asked⟩
    cases event with
    | connectionOpened => rcases asked with ⟨asked, _⟩ | ⟨asked, _⟩ <;> simp [Server.perform, asked]
    | closeReturned now => rcases asked with ⟨asked, _⟩ | ⟨asked, _⟩ <;> simp [Server.perform, asked]
    | observed => rcases asked with ⟨asked, _⟩ | ⟨asked, _⟩ <;> simp [Server.perform, asked]
    | notified now =>
      rcases asked with ⟨asked, _⟩ | ⟨_, http⟩
      · simp [Server.perform, asked]
      · simp [CallEvent.ofProgram, http] at ofProgram
    | _ => cases ofProgram
  | _ =>
    unfold perform
    rw [here]

theorem Stuck.performAll {own : List CallEvent} (stuck : call.Stuck) (each : ∀ event ∈ own, event.ofProgram call.transport = true) :
    performAll perform own call = call := by
  induction own with
  | nil => rfl
  | cons event rest ih =>
    have first := stuck_perform stuck (each event List.mem_cons_self)
    change Transaction.performAll perform rest (call.perform event) = call
    rw [first]
    exact ih fun later listed => each later (List.mem_cons_of_mem _ listed)

theorem Stuck.not_fails (stuck : call.Stuck) : ¬call.Fails call.transport := by
  rintro ⟨own, each, settled⟩
  rw [stuck.performAll each] at settled
  obtain ⟨_, _, here, _⟩ := stuck
  rw [here] at settled
  cases settled

/-- An abort that no listener hears. -/
theorem abort_unheard {reason : String} (notAsking : ∀ client, call.phase ≠ .requesting client)
    (unasked : call.phase = .waiting true → ∀ client, call.server.entry.connecting ≠ some (.initializing client)) :
    call.abort reason = { call with aborted := some reason } := by
  unfold abort
  dsimp only
  split
  · next client asks => exact absurd asks (notAsking client)
  · next waits =>
    unfold rejectInitialize
    rw [Server.initializeFailed_ignored (unasked waits)]
  · rfl

theorem callTool_sends {client : ClientId} (stdio : call.transport = .stdio) (introduced : call.server.Introduced client)
    (still : (call.server.clients client).closed = false) : (call.callTool client).sent = call.sent + 1 := by
  have initialized := introduced.2 still
  simp [callTool, initialized, still, stdio]

/-- What happens at the server before `connect` goes on is nothing to the call. -/
theorem connecting_performAll (events : List McpEvent) (here : call.phase = .connecting) :
    performAll perform (events.map .server) call = { call with server := performAll Server.perform events call.server } := by
  induction events generalizing call with
  | nil => rfl
  | cons event rest ih =>
    have unheard : call.perform (.server event) = { call with server := call.server.perform event } :=
      serverPerforms_elsewhere (by simp [here]) (by simp [here])
    change performAll perform (rest.map .server) (call.perform (.server event)) = _
    rw [unheard]
    exact ih here

/-- The promise that the call awaits is of an attempt that comes to ask its server. -/
theorem stuck_opened {own : Bool} (here : call.phase = .waiting own) (opening : call.server.entry.connecting = some .connection)
    (mine : own = true → call.transport = .stdio) : (call.perform (.server .connectionOpened)).Stuck := by
  have published : call.server.perform .connectionOpened = call.server.publish := by simp [Server.perform, opening]
  have waits : call.perform (.server .connectionOpened) = { call with server := call.server.publish } := by
    unfold perform
    dsimp only
    unfold serverPerforms
    split
    · next http waits _ =>
      have stdio := mine (by simpa [here] using waits)
      cases stdio.symm.trans http
    · simp [follow, here, published, Server.publish]
  rw [waits]
  exact ⟨own, call.server.created, here, .inl ⟨rfl, mine⟩⟩

/-- Over stdio, a call that goes on with a client that has initialized sends its request. -/
theorem notified_sends {own : Bool} {client : ClientId} {reason : String} (sound : call.Sound) (here : call.phase = .waiting own)
    (notifying : call.server.entry.connecting = some (.notifying client)) (stdio : call.transport = .stdio)
    (still : (call.server.clients client).closed = false) :
    (performAll perform [.server (.notified 0), .resumes] { call with aborted := some reason }).sent ≠ call.sent := by
  have settles : call.server.perform (.notified 0) = (call.server.succeed 0).settle (some client) := by simp [Server.perform, notifying]
  have notified : perform (.server (.notified 0)) { call with aborted := some reason } =
      { call with
        aborted := some reason, server := (call.server.succeed 0).settle (some client), phase := .resuming (some client) } := by
    simp [perform, serverPerforms, stdio, settles, follow, here, Server.settle]
  change ((perform (.server (.notified 0)) { call with aborted := some reason }).perform .resumes).sent ≠ call.sent
  rw [notified]
  have sends : (callTool { call with
      aborted := some reason, server := (call.server.succeed 0).settle (some client), phase := .resuming (some client) } client).sent =
      call.sent + 1 := callTool_sends stdio (sound.orderly.notifying client notifying) still
  exact Nat.ne_of_gt (Nat.lt_of_succ_le sends.ge)

theorem stdio_of_ne {transport : McpTransport} (other : transport ≠ .streamableHttp) : transport = .stdio := by
  cases transport with
  | stdio => rfl
  | streamableHttp => exact absurd rfl other

theorem stdio_open {client : ClientId}
    (unguarded : ¬(call.transport = .streamableHttp ∨ (call.server.clients client).closed = true)) :
    call.transport = .stdio ∧ (call.server.clients client).closed = false :=
  ⟨stdio_of_ne fun http => unguarded (.inl http), by simpa using fun closed => unguarded (.inr closed)⟩

/-- Where the call is not guarded, something it does not see leaves it waiting, or sends its request. -/
theorem unguarded_goes_on (sound : call.Sound) (unguarded : ¬call.Guarded) (reason : String) :
    ∃ events, (performAll perform events (call.abort reason)).Stuck ∨
      (performAll perform events (call.abort reason)).sent ≠ call.sent := by
  unfold Guarded at unguarded
  cases here : call.phase with
  | ready => simp [here] at unguarded
  | requesting client => simp [here] at unguarded
  | settled failed => simp [here] at unguarded
  | connecting =>
    -- another call makes an attempt, which this one joins
    have unheard : call.abort reason = { call with aborted := some reason } := abort_unheard (by simp [here]) (by simp [here])
    obtain ⟨events, unpublished, opening⟩ := Server.comes_opening sound.sole
    refine ⟨events.map .server ++ [.goesOn, .server .connectionOpened], .inl ?_⟩
    have elsewhere : performAll perform (events.map .server) { call with aborted := some reason } =
        { call with aborted := some reason, server := performAll Server.perform events call.server } :=
      connecting_performAll events here
    rw [performAll_append, unheard, elsewhere]
    have joins : ∀ joining : McpCall, joining.phase = .connecting → joining.server.entry.client = none →
        joining.server.entry.connecting = some .connection →
        joining.perform .goesOn = { joining with phase := .waiting false } := by
      intro joining connects unpublished opening
      simp [perform, connects, openEntry, unpublished, opening]
    have joined := joins { call with aborted := some reason, server := performAll Server.perform events call.server }
      here unpublished opening
    change ((perform .goesOn _).perform (.server .connectionOpened)).Stuck
    rw [joined]
    exact stuck_opened rfl opening nofun
  | resuming outcome =>
    rw [here] at unguarded
    cases outcome with
    | none => exact absurd trivial unguarded
    | some client =>
      obtain ⟨stdio, still⟩ := stdio_open unguarded
      have unheard : call.abort reason = { call with aborted := some reason } := abort_unheard (by simp [here]) (by simp [here])
      refine ⟨[.resumes], .inr ?_⟩
      have resumes : performAll perform [.resumes] (call.abort reason) = callTool { call with aborted := some reason } client := by
        rw [unheard]
        simp [performAll, perform, here]
      have sends : (callTool { call with aborted := some reason } client).sent = call.sent + 1 :=
        callTool_sends stdio (sound.resuming client here) still
      rw [resumes, sends]
      exact Nat.succ_ne_self _
  | waiting own =>
    rw [here] at unguarded
    dsimp only at unguarded
    cases phase : call.server.entry.connecting with
    | none =>
      rw [phase] at unguarded
      exact absurd trivial unguarded
    | some connecting =>
      rw [phase] at unguarded
      cases connecting with
      | closing client error => exact absurd trivial unguarded
      | settled outcome => exact absurd trivial unguarded
      | connection =>
        have unheard : call.abort reason = { call with aborted := some reason } := abort_unheard (by simp [here]) (by simp [phase])
        refine ⟨[.server .connectionOpened], .inl ?_⟩
        rw [unheard]
        refine stuck_opened here phase fun mine => ?_
        exact stdio_of_ne fun http => unguarded ⟨mine, http⟩
      | initializing client =>
        have other : own = false := by simpa using unguarded
        subst other
        have unheard : call.abort reason = { call with aborted := some reason } := abort_unheard (by simp [here]) (by simp [here])
        refine ⟨[], .inl ?_⟩
        rw [unheard]
        exact ⟨false, client, here, .inl ⟨phase, nofun⟩⟩
      | notifying client =>
        have unheard : call.abort reason = { call with aborted := some reason } := abort_unheard (by simp [here]) (by simp [phase])
        rw [unheard]
        by_cases http : call.transport = .streamableHttp
        · exact ⟨[], .inl ⟨own, client, here, .inr ⟨phase, http⟩⟩⟩
        · have stdio := stdio_of_ne http
          obtain ⟨_, still⟩ := stdio_open fun stands => stands.elim http fun closed => unguarded ⟨stdio, closed⟩
          exact ⟨[.server (.notified 0), .resumes], .inr (notified_sends sound here phase stdio still)⟩

/-! A call that has settled. -/

theorem serverPerforms_settled {failed : Bool} {event : McpEvent} (here : call.phase = .settled failed) :
    call.serverPerforms event = { call with server := call.server.perform event } :=
  serverPerforms_elsewhere (by simp [here]) (by simp [here])

theorem settled_performAll {failed : Bool} (events : List CallEvent) (here : call.phase = .settled failed) :
    (performAll perform events call).sent = call.sent := by
  induction events generalizing call with
  | nil => rfl
  | cons event rest ih =>
    have kept : (call.perform event).phase = .settled failed ∧ (call.perform event).sent = call.sent := by
      cases event with
      | server event =>
        change (call.serverPerforms event).phase = _ ∧ (call.serverPerforms event).sent = _
        rw [serverPerforms_settled here]
        exact ⟨here, rfl⟩
      | _ => simp [perform, here]
    exact (ih kept.1).trans kept.2

end McpCall

/-- At every moment of a call to an MCP server, an abort stops it if and only if the call is guarded there. -/
theorem stops_at_abort_iff (transport : McpTransport) (config : McpServerConfig) (before : List CallEvent) (reason : String) :
    (performAll McpCall.perform before (.initial transport config)).StopsAtAbort reason ↔
      (performAll McpCall.perform before (.initial transport config)).Guarded := by
  have sound := McpCall.sound_performAll before (McpCall.sound_initial transport config)
  generalize performAll McpCall.perform before (.initial transport config) = call at sound
  constructor
  · intro stops
    by_contra unguarded
    obtain ⟨events, goesOn⟩ := McpCall.unguarded_goes_on sound unguarded reason
    obtain ⟨sent, fails⟩ := stops events
    rcases goesOn with stuck | sends
    · rcases fails with ⟨failed, settled⟩ | fails
      · exact unguarded (by simp [McpCall.Guarded, settled])
      · refine stuck.not_fails ?_
        rw [McpCall.performAll_transport, McpCall.abort_transport]
        exact fails
    · exact sends sent
  · intro guarded events
    by_cases settled : ∃ failed, call.phase = .settled failed
    · obtain ⟨failed, here⟩ := settled
      have unheard : call.abort reason = { call with aborted := some reason } :=
        McpCall.abort_unheard (by simp [here]) (by simp [here])
      rw [unheard]
      exact ⟨McpCall.settled_performAll events here, .inl ⟨failed, here⟩⟩
    · obtain ⟨failing, unsent⟩ := McpCall.guarded_failing sound guarded (fun failed here => settled ⟨failed, here⟩) reason
      obtain ⟨later, sent⟩ := McpCall.failing_performAll events failing
      refine ⟨sent.trans unsent, .inr ?_⟩
      have fails := later.fails
      rw [McpCall.performAll_transport, McpCall.abort_transport] at fails
      exact fails

/-- Aborted while its own attempt starts the process, a call sends its request all the same. -/
theorem aborted_call_is_sent : ¬∀ (transport : McpTransport) (config : McpServerConfig) (before : List CallEvent) (reason : String),
    (performAll McpCall.perform before (.initial transport config)).StopsAtAbort reason := by
  intro always
  have stopped := always .stdio { id := "files" } [.begins, .goesOn] "scheduler stopped"
    [.server .connectionOpened, .server .initializeReturned, .server (.notified 0), .resumes]
  have sent := stopped.sent
  revert sent
  decide +kernel

end OttiliCoder.Mcp
