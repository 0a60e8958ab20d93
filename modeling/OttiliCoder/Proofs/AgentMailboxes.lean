import Std.Data.String.ToNat
import OttiliCoder.Agents.Mailbox
import OttiliCoder.Proofs.Budget

/-! Histories of the agents' mailbox: what calls and reloads keep, and which messages it refuses. -/

namespace OttiliCoder.Agents
open Host Relational Transaction Results

/-! Reloading. -/

/-- The entry of a message in the key index. -/
def AgentMailboxMessage.entry (message : AgentMailboxMessage) : Option (String × String) :=
  message.idempotencyKey.map fun key => (idempotencyIndexKey message.recipientAgentId key, message.id)

theorem AgentMailboxMessage.entry_eq_some {message : AgentMailboxMessage} {pair : String × String} :
    message.entry = some pair ↔
      ∃ key, message.idempotencyKey = some key ∧ (idempotencyIndexKey message.recipientAgentId key, message.id) = pair := by
  simp [AgentMailboxMessage.entry]

namespace AgentMailbox

/-- The key index is the one its messages give, and every message is of this Run. -/
structure Indexed (mailbox : AgentMailbox) : Prop where
  index : mailbox.idempotentMessageIds.rows = mailbox.messagesById.rows.filterMap AgentMailboxMessage.entry
  home : ∀ message ∈ mailbox.messagesById, message.runId = mailbox.runId

/-- The mailbox with one more message. -/
def adding (mailbox : AgentMailbox) (message : AgentMailboxMessage) : AgentMailbox :=
  (mailbox.setMessage message).indexMessage message

section Adding
variable {mailbox : AgentMailbox} {message : AgentMailboxMessage}

theorem adding_runId : (mailbox.adding message).runId = mailbox.runId := by
  cases named : message.idempotencyKey <;> simp [adding, indexMessage, setMessage, named]

theorem adding_nextSequence : (mailbox.adding message).nextSequence = mailbox.nextSequence := by
  cases named : message.idempotencyKey <;> simp [adding, indexMessage, setMessage, named]

theorem adding_messages : (mailbox.adding message).messagesById = mailbox.messagesById.put message := by
  cases named : message.idempotencyKey <;> simp [adding, indexMessage, setMessage, named]

theorem adding_rows (fresh : mailbox.messagesById.find? message.id = none) :
    (mailbox.adding message).messagesById.rows = mailbox.messagesById.rows ++ [message] := by
  rw [adding_messages, Keyed.put_fresh fresh]

theorem mem_adding (fresh : mailbox.messagesById.find? message.id = none) {other : AgentMailboxMessage} :
    other ∈ (mailbox.adding message).messagesById ↔ other ∈ mailbox.messagesById ∨ other = message := by
  rw [Keyed.mem_def, adding_rows fresh, List.mem_append, List.mem_singleton]
  rfl

theorem adding_index (free : mailbox.keyTaken message = false) :
    (mailbox.adding message).idempotentMessageIds.rows = mailbox.idempotentMessageIds.rows ++ message.entry.toList := by
  cases named : message.idempotencyKey with
  | none => simp [adding, indexMessage, setMessage, AgentMailboxMessage.entry, named]
  | some key =>
    have absent : mailbox.idempotentMessageIds.find? (idempotencyIndexKey message.recipientAgentId key) = none := by
      simpa [keyTaken, named] using free
    simp only [adding, indexMessage, named, setMessage, AgentMailboxMessage.entry, Option.map_some, Option.toList_some]
    exact Keyed.put_fresh absent

theorem Indexed.adding (indexed : mailbox.Indexed) (fresh : mailbox.messagesById.find? message.id = none)
    (free : mailbox.keyTaken message = false) (home : message.runId = mailbox.runId) : (mailbox.adding message).Indexed where
  index := by
    rw [adding_index free, adding_rows fresh, List.filterMap_append, indexed.index]
    cases named : message.entry with
    | none => rw [List.filterMap_cons_none named]; rfl
    | some pair => rw [List.filterMap_cons_some named]; rfl
  home other listed := by
    rw [adding_runId]
    rcases (mem_adding fresh).mp listed with before | rfl
    · exact indexed.home other before
    · exact home

end Adding

theorem indexed_blank {runId : RunId} {nextSequence : Nat} : (blank runId nextSequence).Indexed where
  index := rfl
  home _ listed := absurd listed Keyed.not_mem_empty

section Restoring
variable {mailbox restored : AgentMailbox} {message : AgentMailboxMessage} {messages : List AgentMailboxMessage}
  {snapshot : AgentMailboxSnapshot}

theorem assertSnapshotMessage_ok {runId : RunId} : assertSnapshotMessage runId message = .ok () ↔
    message.runId = runId ∧ (1 ≤ message.sequence ∧ message.sequence ≤ maxSafeInteger) ∧
      message.deliveryAttempts ≤ maxSafeInteger ∧ (message.status = .delivered → message.deliveredAt ≠ none) := by
  unfold assertSnapshotMessage
  split
  · next other => simp [other]
  · next home =>
    split
    · next outside =>
      simp only [reduceCtorEq, false_iff]
      omega
    · next inside =>
      split
      · next many =>
        simp only [reduceCtorEq, false_iff]
        omega
      · next few =>
        split
        · next unstamped =>
          simp only [reduceCtorEq, false_iff]
          exact fun ⟨_, _, _, stamped⟩ => stamped unstamped.1 unstamped.2
        · next stamped =>
          simp only [true_iff]
          exact ⟨not_not.mp home, by omega, by omega, fun delivered none => stamped ⟨delivered, none⟩⟩

theorem restoreMessage_ok : mailbox.restoreMessage message = .ok restored ↔
    assertSnapshotMessage mailbox.runId message = .ok () ∧ mailbox.messagesById.find? message.id = none ∧
      message.sequence ∉ mailbox.messagesById.rows.map (·.sequence) ∧ mailbox.keyTaken message = false ∧
        restored = mailbox.adding message := by
  unfold restoreMessage
  cases checked : assertSnapshotMessage mailbox.runId message with
  | error error => simp
  | ok =>
    simp only [true_and]
    split
    · next taken => simp [Option.isSome_iff_ne_none.mp taken]
    · next fresh =>
      split
      · next seen => simp [seen]
      · next unseen =>
        split
        · next taken => simp [taken]
        · next free => simp [Option.not_isSome_iff_eq_none.mp fresh, unseen, free, adding, eq_comm]

/-- What the constructor's loop makes of a list of messages. -/
theorem restoreAll_ok (indexed : mailbox.Indexed) (done : messages.foldlM restoreMessage mailbox = .ok restored) :
    restored.Indexed ∧ restored.messagesById.rows = mailbox.messagesById.rows ++ messages ∧
      restored.runId = mailbox.runId ∧ restored.nextSequence = mailbox.nextSequence := by
  induction messages generalizing mailbox with
  | nil =>
    cases done
    exact ⟨indexed, by simp, rfl, rfl⟩
  | cons message rest ih =>
    rw [List.foldlM_cons] at done
    obtain ⟨middle, first, later⟩ := except_bind_ok.mp done
    obtain ⟨checked, fresh, -, free, rfl⟩ := restoreMessage_ok.mp first
    have home := (assertSnapshotMessage_ok.mp checked).1
    obtain ⟨kept, rows, run, next⟩ := ih (indexed.adding fresh free home) later
    refine ⟨kept, ?_, run.trans adding_runId, next.trans adding_nextSequence⟩
    rw [rows, adding_rows fresh, List.append_assoc, List.singleton_append]

/-- The loop accepts messages that pass their checks and share no id, sequence or key. -/
theorem restoreAll_accepts (indexed : mailbox.Indexed) (checked : ∀ message ∈ messages, assertSnapshotMessage mailbox.runId message = .ok ())
    (ids : ((mailbox.messagesById.rows ++ messages).map (·.id)).Nodup)
    (sequences : ((mailbox.messagesById.rows ++ messages).map (·.sequence)).Nodup)
    (entries : (((mailbox.messagesById.rows ++ messages).filterMap AgentMailboxMessage.entry).map Prod.fst).Nodup) :
    ∃ restored, messages.foldlM restoreMessage mailbox = .ok restored := by
  induction messages generalizing mailbox with
  | nil => exact ⟨mailbox, rfl⟩
  | cons message rest ih =>
    have valid := checked message List.mem_cons_self
    have fresh : mailbox.messagesById.find? message.id = none := Keyed.find?_upcoming ids
    have unseen : message.sequence ∉ mailbox.messagesById.rows.map (·.sequence) := by
      intro seen
      rw [List.map_append, List.nodup_append] at sequences
      exact sequences.2.2 _ seen _ (by simp) rfl
    have free : mailbox.keyTaken message = false := by
      cases named : message.idempotencyKey with
      | none => simp [keyTaken, named]
      | some key =>
        rw [List.filterMap_append, ← indexed.index, List.filterMap_cons_some (AgentMailboxMessage.entry_eq_some.mpr ⟨key, named, rfl⟩)] at entries
        simp [keyTaken, named, Keyed.find?_upcoming entries]
    have step : mailbox.restoreMessage message = .ok (mailbox.adding message) :=
      restoreMessage_ok.mpr ⟨valid, fresh, unseen, free, rfl⟩
    have together : (mailbox.adding message).messagesById.rows ++ rest = mailbox.messagesById.rows ++ message :: rest := by
      rw [adding_rows fresh, List.append_assoc, List.singleton_append]
    rw [List.foldlM_cons, step]
    apply ih (indexed.adding fresh free (assertSnapshotMessage_ok.mp valid).1)
    · intro other listed
      rw [adding_runId]
      exact checked other (List.mem_cons_of_mem _ listed)
    · rwa [together]
    · rwa [together]
    · rwa [together]

theorem restore_ok (done : restore snapshot = .ok restored) : restored.Indexed ∧ restored.messagesById.rows = snapshot.messages ∧
    restored.runId = snapshot.runId ∧ restored.nextSequence = snapshot.nextSequence := by
  unfold restore at done
  split at done
  · cases done
  · cases looped : snapshot.messages.foldlM restoreMessage (blank snapshot.runId snapshot.nextSequence) with
    | error error =>
      rw [looped] at done
      cases done
    | ok mailbox =>
      rw [looped] at done
      simp only at done
      split at done
      · cases done
      · cases done
        exact restoreAll_ok indexed_blank looped

theorem restore_of_loop (bounds : 1 ≤ snapshot.nextSequence ∧ snapshot.nextSequence ≤ maxSafeInteger)
    (looped : snapshot.messages.foldlM restoreMessage (blank snapshot.runId snapshot.nextSequence) = .ok restored)
    (later : restored.maximumSequence < restored.nextSequence) : restore snapshot = .ok restored := by
  unfold restore
  rw [if_neg (by omega), looped]
  exact if_neg (Nat.not_le.mpr later)

theorem maximumSequence_lt {bound : Nat} (positive : 0 < bound) (below : ∀ message ∈ mailbox.messagesById, message.sequence < bound) :
    mailbox.maximumSequence < bound := by
  have folded : ∀ (messages : List AgentMailboxMessage) (start : Nat), start < bound → (∀ message ∈ messages, message.sequence < bound) →
      messages.foldl (fun maximum message => max maximum message.sequence) start < bound := by
    intro messages
    induction messages with
    | nil => exact fun _ small _ => small
    | cons message rest ih =>
      intro start small each
      exact ih _ (max_lt small (each message List.mem_cons_self)) fun other listed => each other (List.mem_cons_of_mem _ listed)
  exact folded _ 0 positive below

end Restoring

/-! What one call does: it changes nothing, adds a message, or moves messages on. -/

/-- What a call may make of a stored message. -/
inductive Moves (call : MailboxCall) (message : AgentMailboxMessage) : AgentMailboxMessage → Prop
  | stays : Moves call message message
  | delivered (input : ClaimAgentMessagesInput) (named : call = .claim input) (queued : message.status = .queued) :
      Moves call message (deliver input message)
  | acknowledged (acknowledgedAt : IsoTimestamp) (delivered : message.status = .delivered) :
      Moves call message { message with
        status := .acknowledged, acknowledgedAt := some acknowledgedAt, updatedAt := acknowledgedAt }
  | requeued (requeuedAt : IsoTimestamp) (delivered : message.status = .delivered) :
      Moves call message { message with status := .queued, updatedAt := requeuedAt }
  | cancelled (cancelledAt : IsoTimestamp) (reason : Option String) (live : message.status ≠ .cancelled ∧ message.status ≠ .acknowledged) :
      Moves call message { message with
        status := .cancelled
        cancelledAt := some cancelledAt
        updatedAt := cancelledAt
        cancellationReason := reason }

/-- The messages are moved on where they stand, and nothing else changes. -/
structure Moved (call : MailboxCall) (mailbox mailbox' : AgentMailbox) : Prop where
  runId : mailbox'.runId = mailbox.runId
  nextSequence : mailbox'.nextSequence = mailbox.nextSequence
  index : mailbox'.idempotentMessageIds = mailbox.idempotentMessageIds
  rows : ∃ move : AgentMailboxMessage → AgentMailboxMessage,
    mailbox'.messagesById.rows = mailbox.messagesById.rows.map move ∧
      ∀ message ∈ mailbox.messagesById, Moves call message (move message)

/-- The message is new, from an input that passed the checks. -/
structure Accepted (hash : String → String) (mailbox : AgentMailbox) (input : EnqueueAgentMessageInput)
    (message : AgentMailboxMessage) (mailbox' : AgentMailbox) : Prop where
  checked : assertEnqueueInput input = .ok ()
  named : ∃ messageId, mailbox.messageIdOf hash input = .ok messageId ∧ message = mailbox.newMessage messageId input
  fresh : mailbox.messagesById.find? message.id = none
  free : mailbox.keyTaken message = false
  stored : mailbox' = { mailbox.adding message with nextSequence := increment mailbox.nextSequence }

section Changes
variable {hash : String → String} {mailbox mailbox' : AgentMailbox} {message current : AgentMailboxMessage}
  {messages : List AgentMailboxMessage} {input : EnqueueAgentMessageInput} {claimInput : ClaimAgentMessagesInput}
  {call : MailboxCall} {messageId : String}

theorem moved_refl : Moved call mailbox mailbox where
  runId := rfl
  nextSequence := rfl
  index := rfl
  rows := ⟨id, by simp, fun _ _ => .stays⟩

theorem requireMessage_ok : mailbox.requireMessage messageId = .ok message ↔
    message ∈ mailbox.messagesById ∧ message.id = messageId := by
  rw [← Keyed.find?_eq_some, requireMessage]
  cases mailbox.messagesById.find? messageId <;> simp

theorem moved_setMessage (stored : current ∈ mailbox.messagesById) (same : message.id = current.id)
    (moves : Moves call current message) : Moved call mailbox (mailbox.setMessage message) where
  runId := rfl
  nextSequence := rfl
  index := rfl
  rows := by
    have present : (mailbox.messagesById.find? message.id).isSome = true := by
      rw [same, Keyed.find?_key stored]
      rfl
    refine ⟨fun other => if other.id = message.id then message else other, Keyed.put_stored present, ?_⟩
    intro other listed
    dsimp only
    split
    · next equal => rwa [Keyed.eq_of_key listed stored (equal.trans same)]
    · exact .stays

/-- An input that is no retry adds its message. -/
theorem enqueue_new (none : mailbox.existingId input = none) (done : mailbox.enqueue hash input = .ok (message, mailbox')) :
    Accepted hash mailbox input message mailbox' := by
  unfold enqueue at done
  obtain ⟨_, checked, rest⟩ := except_bind_ok.mp done
  rw [none] at rest
  obtain ⟨messageId, named, added⟩ := except_bind_ok.mp rest
  split at added
  · cases added
  · next fresh =>
    cases added
    refine ⟨checked, ⟨messageId, named, rfl⟩, Option.not_isSome_iff_eq_none.mp fresh, ?_, rfl⟩
    simp only [existingId, Option.bind_eq_none_iff, Option.map_eq_none_iff] at none
    rw [keyTaken, Option.any_eq_false]
    intro key given
    simp [newMessage, none key given]

/-- A retry finds the message under its key and changes nothing. -/
theorem enqueue_retry {existingId : String} (found : mailbox.existingId input = some existingId)
    (done : mailbox.enqueue hash input = .ok (message, mailbox')) :
    mailbox' = mailbox ∧ mailbox.requireMessage existingId = .ok message ∧ isSameIdempotentMessage message input = .ok true := by
  unfold enqueue at done
  obtain ⟨_, _, rest⟩ := except_bind_ok.mp done
  rw [found] at rest
  obtain ⟨existing, required, rest⟩ := except_bind_ok.mp rest
  obtain ⟨same, compared, rest⟩ := except_bind_ok.mp rest
  split at rest
  · next equal =>
    cases rest
    exact ⟨rfl, required, equal ▸ compared⟩
  · cases rest

theorem foldl_setMessage : messages.foldl setMessage mailbox = { mailbox with messagesById := messages.foldl Keyed.put mailbox.messagesById } := by
  induction messages generalizing mailbox with
  | nil => rfl
  | cons message rest ih =>
    rw [List.foldl_cons, ih]
    rfl

theorem mem_listMessages : message ∈ mailbox.listMessages ↔ message ∈ mailbox.messagesById :=
  List.mem_insertionSort _

theorem mem_queuedFor {recipient : AgentId} : message ∈ mailbox.queuedFor recipient ↔
    message ∈ mailbox.messagesById ∧ message.recipientAgentId = recipient ∧ message.status = .queued := by
  simp [queuedFor, mem_listMessages]

theorem nodup_queuedFor {recipient : AgentId} : ((mailbox.queuedFor recipient).map (·.id)).Nodup := by
  have listed : (mailbox.listMessages.map (·.id)).Nodup :=
    ((List.perm_insertionSort _ _).map _).nodup_iff.mpr mailbox.messagesById.unique
  exact listed.sublist (List.filter_sublist.map _)

/-- What a claim returns and stores. -/
theorem claim_ok {claimed : List AgentMailboxMessage} (done : mailbox.claim claimInput = .ok (claimed, mailbox')) :
    ∃ limit, normalizeClaimLimit claimInput.limit = .ok limit ∧
      claimed = ((mailbox.queuedFor claimInput.recipientAgentId).take limit).map (deliver claimInput) ∧
        mailbox' = claimed.foldl setMessage mailbox := by
  unfold claim at done
  obtain ⟨limit, normal, rest⟩ := except_bind_ok.mp done
  refine ⟨limit, normal, ?_⟩
  split at rest
  · next none =>
    cases rest
    simp [none]
  · split at rest
    · cases rest
    · cases rest
      exact ⟨rfl, rfl⟩

theorem moved_claim {claimed : List AgentMailboxMessage} (done : mailbox.claim claimInput = .ok (claimed, mailbox')) :
    Moved (.claim claimInput) mailbox mailbox' := by
  obtain ⟨limit, -, rfl, rfl⟩ := claim_ok done
  let chosen := (mailbox.queuedFor claimInput.recipientAgentId).take limit
  have queued : ∀ message ∈ chosen, message ∈ mailbox.messagesById ∧ message.status = .queued := by
    intro message listed
    obtain ⟨stored, -, waiting⟩ := mem_queuedFor.mp (List.mem_of_mem_take listed)
    exact ⟨stored, waiting⟩
  have rows := Keyed.foldl_put (f := deliver claimInput) (fun _ => rfl) (fun message listed => (queued message listed).1)
    (nodup_queuedFor.sublist ((List.take_sublist _ _).map _))
  rw [foldl_setMessage]
  refine ⟨rfl, rfl, rfl, _, rows, ?_⟩
  intro message stored
  split
  · next listed =>
    obtain ⟨other, inside, same⟩ := List.mem_map.mp listed
    have equal : other = message := Keyed.eq_of_key (queued other inside).1 stored same
    exact .delivered claimInput rfl (equal ▸ (queued other inside).2)
  · exact .stays

theorem moved_acknowledge {recipient : AgentId} {acknowledgedAt : IsoTimestamp} {deliveryId : Option String}
    (done : mailbox.acknowledge messageId recipient acknowledgedAt deliveryId = .ok (message, mailbox')) :
    Moved call mailbox mailbox' := by
  unfold acknowledge at done
  obtain ⟨current, required, rest⟩ := except_bind_ok.mp done
  obtain ⟨_, _, rest⟩ := except_bind_ok.mp rest
  split at rest
  · cases rest
    exact moved_refl
  · split at rest
    · cases rest
    · next delivered =>
      obtain ⟨_, _, rest⟩ := except_bind_ok.mp rest
      cases rest
      exact moved_setMessage (requireMessage_ok.mp required).1 rfl (.acknowledged acknowledgedAt (not_not.mp delivered))

theorem moved_requeue {recipient : AgentId} {requeuedAt : IsoTimestamp} {deliveryId : Option String}
    (done : mailbox.requeue messageId recipient requeuedAt deliveryId = .ok (message, mailbox')) :
    Moved call mailbox mailbox' := by
  unfold requeue at done
  obtain ⟨current, required, rest⟩ := except_bind_ok.mp done
  obtain ⟨_, _, rest⟩ := except_bind_ok.mp rest
  split at rest
  · cases rest
  · next delivered =>
    obtain ⟨_, _, rest⟩ := except_bind_ok.mp rest
    cases rest
    exact moved_setMessage (requireMessage_ok.mp required).1 rfl (.requeued requeuedAt (not_not.mp delivered))

theorem moved_cancel {cancelledAt : IsoTimestamp} {reason : Option String}
    (done : mailbox.cancel messageId cancelledAt reason = .ok (message, mailbox')) : Moved call mailbox mailbox' := by
  unfold cancel at done
  obtain ⟨current, required, rest⟩ := except_bind_ok.mp done
  split at rest
  · cases rest
    exact moved_refl
  · next live =>
    split at rest
    · cases rest
    · next unfinished =>
      cases rest
      exact moved_setMessage (requireMessage_ok.mp required).1 rfl (.cancelled cancelledAt _ ⟨live, unfinished⟩)

/-- The three things a call does; a reload is the constructor's. -/
inductive Change (hash : String → String) (mailbox : AgentMailbox) (call : MailboxCall) (mailbox' : AgentMailbox) : Prop
  | accepted (input : EnqueueAgentMessageInput) (message : AgentMailboxMessage) (accepted : Accepted hash mailbox input message mailbox')
  | moved (moved : Moved call mailbox mailbox')
  | reloaded (named : call = .reload) (restored : restore mailbox.snapshot = .ok mailbox')

theorem moved_after {α : Type} {result : Except MailboxError (α × AgentMailbox)}
    (each : ∀ value mailbox', result = .ok (value, mailbox') → Moved call mailbox mailbox') :
    Moved call mailbox (mailbox.after result) := by
  rcases result with error | ⟨value, changed⟩
  · exact moved_refl
  · exact each value changed rfl

theorem perform_change (hash : String → String) (call : MailboxCall) (mailbox : AgentMailbox) :
    Change hash mailbox call (mailbox.perform hash call) := by
  cases call with
  | enqueue input =>
    cases done : mailbox.enqueue hash input with
    | error error =>
      apply Change.moved
      rw [perform, done]
      exact moved_refl
    | ok result =>
      obtain ⟨message, changed⟩ := result
      have led : mailbox.perform hash (.enqueue input) = changed := by rw [perform, done, after]
      rw [led]
      cases found : mailbox.existingId input with
      | none => exact .accepted input message (enqueue_new found done)
      | some existingId =>
        rw [(enqueue_retry found done).1]
        exact .moved moved_refl
  | claim input => exact .moved (moved_after fun _ _ done => moved_claim done)
  | acknowledge messageId recipient acknowledgedAt deliveryId => exact .moved (moved_after fun _ _ done => moved_acknowledge done)
  | requeue messageId recipient requeuedAt deliveryId => exact .moved (moved_after fun _ _ done => moved_requeue done)
  | cancel messageId cancelledAt reason => exact .moved (moved_after fun _ _ done => moved_cancel done)
  | reload =>
    cases restored : restore mailbox.snapshot with
    | error error =>
      apply Change.moved
      rw [perform, restored]
      exact moved_refl
    | ok changed =>
      have led : mailbox.perform hash .reload = changed := by
        rw [perform, restored]
        rfl
      exact .reloaded rfl (led ▸ restored)

end Changes

/-! One message over a history. -/

/-- What the sender wrote: the message without what deliveries make of it. -/
def asSent (message : AgentMailboxMessage) : AgentMailboxMessage :=
  { message with
    status := .queued
    deliveryAttempts := 0
    deliveryId := none
    deliveredAt := none
    acknowledgedAt := none
    cancelledAt := none
    cancellationReason := none
    updatedAt := message.createdAt }

/-- How a message stands later: with the same content, and just as it was once it is finished. -/
structure Succeeds (message later : AgentMailboxMessage) : Prop where
  sent : asSent later = asSent message
  attempts : message.deliveryAttempts ≤ later.deliveryAttempts
  final : message.status = .acknowledged ∨ message.status = .cancelled → later = message

/-- The delivery id a claim makes up for an attempt. -/
def deliveryIdentity (message : AgentMailboxMessage) (attempt : Nat) : String :=
  "delivery:" ++ message.recipientAgentId ++ ":" ++ toString message.sequence ++ ":" ++ toString attempt

/-- What deliveries with default identities keep of a message. -/
structure Tracked (message : AgentMailboxMessage) : Prop where
  counted : message.deliveryAttempts ≤ maxSafeInteger
  stamped : message.status = .delivered → message.deliveredAt ≠ none
  identified : message.deliveryId =
    if message.deliveryAttempts = 0 then none else some (deliveryIdentity message message.deliveryAttempts)

/-- What the checks of an input leave in its message. -/
structure Addressed (message : AgentMailboxMessage) : Prop where
  recipient : message.recipientAgentId.length ≠ 0
  key : ∀ key, message.idempotencyKey = some key → isBlank key = false
  id : isBlank message.id = false

section Messages
variable {message later latest : AgentMailboxMessage} {call : MailboxCall}

theorem increment_safe {counter : Nat} (safe : counter ≤ maxSafeInteger) : increment counter = counter + 1 := by
  unfold increment maxSafeInteger at *
  omega

theorem Succeeds.refl (message : AgentMailboxMessage) : Succeeds message message := ⟨rfl, Nat.le_refl _, fun _ => rfl⟩

theorem Succeeds.trans (first : Succeeds message later) (second : Succeeds later latest) : Succeeds message latest where
  sent := second.sent.trans first.sent
  attempts := first.attempts.trans second.attempts
  final finished := by
    have same := first.final finished
    subst same
    exact second.final finished

theorem Succeeds.id (succeeds : Succeeds message later) : later.id = message.id := by
  have same := congrArg AgentMailboxMessage.id succeeds.sent
  exact same

theorem Succeeds.sequence (succeeds : Succeeds message later) : later.sequence = message.sequence := by
  have same := congrArg AgentMailboxMessage.sequence succeeds.sent
  exact same

theorem Succeeds.deliveryIdentity (succeeds : Succeeds message later) (attempt : Nat) :
    AgentMailbox.deliveryIdentity later attempt = AgentMailbox.deliveryIdentity message attempt := by
  have same := congrArg (AgentMailbox.deliveryIdentity · attempt) succeeds.sent
  exact same

theorem Moves.sent (moves : Moves call message later) : asSent later = asSent message := by
  cases moves <;> rfl

theorem Moves.entry (moves : Moves call message later) : later.entry = message.entry := by
  have same := congrArg AgentMailboxMessage.entry moves.sent
  exact same

theorem Moves.succeeds (moves : Moves call message later) (safe : message.deliveryAttempts ≤ maxSafeInteger) :
    Succeeds message later := by
  refine ⟨moves.sent, ?_, fun finished => ?_⟩
  · cases moves with
    | delivered input named queued =>
      change _ ≤ increment message.deliveryAttempts
      rw [increment_safe safe]
      exact Nat.le_succ _
    | _ => exact Nat.le_refl _
  · cases moves with
    | stays => rfl
    | delivered input named queued => simp [queued] at finished
    | acknowledged acknowledgedAt delivered => simp [delivered] at finished
    | requeued requeuedAt delivered => simp [delivered] at finished
    | cancelled cancelledAt reason live => simp [live] at finished

theorem deliveryIdentity_injective {attempt other : Nat}
    (same : deliveryIdentity message attempt = deliveryIdentity message other) : attempt = other := by
  have digits : toString attempt = toString other := String.append_right_inj _ |>.mp same
  exact Nat.repr_injective digits

end Messages

/-! The mailbox over a history whose claims name no deliveries and whose counters stay safe integers. -/

/-- Every counter is one the constructor would take. -/
structure Countable (mailbox : AgentMailbox) : Prop where
  nextSequence : mailbox.nextSequence ≤ maxSafeInteger
  attempts : ∀ message ∈ mailbox.messagesById, message.deliveryAttempts ≤ maxSafeInteger

structure Valid (mailbox : AgentMailbox) : Prop where
  indexed : mailbox.Indexed
  started : 1 ≤ mailbox.nextSequence
  countable : mailbox.Countable
  ordered : mailbox.messagesById.rows.Pairwise fun message other => message.sequence < other.sequence
  numbered : ∀ message ∈ mailbox.messagesById, 1 ≤ message.sequence ∧ message.sequence < mailbox.nextSequence
  tracked : ∀ message ∈ mailbox.messagesById, Tracked message
  addressed : ∀ message ∈ mailbox.messagesById, Addressed message

/-- A claim of the history leaves its deliveries their default identities. -/
def DefaultDelivery : MailboxCall → Prop
  | .claim input => input.deliveryId = none
  | _ => True

def Admits (hash : String → String) (mailbox : AgentMailbox) (call : MailboxCall) : Prop :=
  DefaultDelivery call ∧ (mailbox.perform hash call).Countable

instance {mailbox : AgentMailbox} : Decidable (Countable mailbox) :=
  decidable_of_iff (mailbox.nextSequence ≤ maxSafeInteger ∧ ∀ message ∈ mailbox.messagesById.rows, message.deliveryAttempts ≤ maxSafeInteger)
    ⟨fun ⟨next, attempts⟩ => ⟨next, attempts⟩, fun countable => ⟨countable.nextSequence, countable.attempts⟩⟩

instance {call : MailboxCall} : Decidable (DefaultDelivery call) := by
  cases call <;> unfold DefaultDelivery <;> infer_instance

instance {hash : String → String} {mailbox : AgentMailbox} {call : MailboxCall} : Decidable (Admits hash mailbox call) := by
  unfold Admits
  infer_instance

/-- The mailbox after a list of calls. -/
abbrev run (hash : String → String) (calls : List MailboxCall) (mailbox : AgentMailbox) : AgentMailbox :=
  performAll (perform hash) calls mailbox

abbrev AdmitsAll (hash : String → String) (calls : List MailboxCall) (mailbox : AgentMailbox) : Prop :=
  AllAllowed (perform hash) (Admits hash) mailbox calls

section Histories
variable {hash : String → String} {mailbox mailbox' : AgentMailbox} {message : AgentMailboxMessage}
  {input : EnqueueAgentMessageInput} {call : MailboxCall} {calls : List MailboxCall} {runId : RunId}

theorem valid_empty : (empty runId).Valid where
  indexed := indexed_blank
  started := Nat.le_refl 1
  countable := ⟨show 1 ≤ maxSafeInteger by decide, fun _ listed => absurd listed Keyed.not_mem_empty⟩
  ordered := List.Pairwise.nil
  numbered _ listed := absurd listed Keyed.not_mem_empty
  tracked _ listed := absurd listed Keyed.not_mem_empty
  addressed _ listed := absurd listed Keyed.not_mem_empty

theorem Valid.listMessages (valid : mailbox.Valid) : mailbox.listMessages = mailbox.messagesById.rows :=
  (valid.ordered.imp fun earlier => Nat.le_of_lt earlier).insertionSort_eq

theorem Valid.sequences (valid : mailbox.Valid) : (mailbox.messagesById.rows.map (·.sequence)).Nodup := by
  rw [List.Nodup, List.pairwise_map]
  exact valid.ordered.imp fun earlier => Nat.ne_of_lt earlier

/-- Reloading the snapshot gives the very mailbox. -/
theorem Valid.restore (valid : mailbox.Valid) : restore mailbox.snapshot = .ok mailbox := by
  have listed : mailbox.snapshot.messages = mailbox.messagesById.rows := valid.listMessages
  have entries : ((mailbox.messagesById.rows.filterMap AgentMailboxMessage.entry).map Prod.fst).Nodup := by
    rw [← valid.indexed.index]
    exact mailbox.idempotentMessageIds.unique
  have checked : ∀ message ∈ mailbox.messagesById.rows, assertSnapshotMessage mailbox.runId message = .ok () := by
    intro message stored
    obtain ⟨positive, below⟩ := valid.numbered message stored
    have tracked := valid.tracked message stored
    exact assertSnapshotMessage_ok.mpr ⟨valid.indexed.home message stored, ⟨positive, by have := valid.countable.nextSequence; omega⟩,
      tracked.counted, tracked.stamped⟩
  obtain ⟨restored, looped⟩ := restoreAll_accepts
    (show (blank mailbox.runId mailbox.nextSequence).Indexed from indexed_blank) checked
    mailbox.messagesById.unique valid.sequences entries
  obtain ⟨indexed, rows, run, next⟩ := restoreAll_ok indexed_blank looped
  have messages : restored.messagesById = mailbox.messagesById := Keyed.ext rows
  have index : restored.idempotentMessageIds = mailbox.idempotentMessageIds := by
    apply Keyed.ext
    rw [indexed.index, messages, valid.indexed.index]
  have same : restored = mailbox := by
    cases restored
    cases mailbox
    simp_all [blank]
  subst same
  have started := valid.started
  have safe := valid.countable.nextSequence
  have later : restored.maximumSequence < restored.nextSequence :=
    maximumSequence_lt started fun message stored => (valid.numbered message stored).2
  rw [← listed] at looped
  exact restore_of_loop ⟨started, safe⟩ looped later

theorem isBlank_eq_false {text : String} {u : Nat} (present : u ∈ utf16 text) (visible : isWhiteSpace u = false) :
    isBlank text = false := by
  rw [← Bool.not_eq_true]
  intro blank
  have trimmed : trim (utf16 text) = [] := by simpa [isBlank] using blank
  have white := List.rdropWhile_eq_nil_iff.mp trimmed
  rw [← List.takeWhile_append_dropWhile (p := isWhiteSpace) (l := utf16 text), List.mem_append] at present
  rcases present with leading | inside
  · simp [List.mem_takeWhile_imp leading] at visible
  · simp [white u inside] at visible

theorem assertEnqueueInput_ok : assertEnqueueInput input = .ok () ↔
    input.recipientAgentId.length ≠ 0 ∧ input.idempotencyKey.any isBlank = false ∧ input.messageId.any isBlank = false := by
  unfold assertEnqueueInput
  split
  · next none => simp [none]
  · next some =>
    split
    · next blank => simp [blank]
    · next named =>
      split
      · next blank => simp [blank]
      · next known => simp [some, named, known]

/-- A message just accepted is addressed as its input is. -/
theorem Accepted.addressed (accepted : Accepted hash mailbox input message mailbox') : Addressed message := by
  obtain ⟨recipient, keyed, known⟩ := assertEnqueueInput_ok.mp accepted.checked
  obtain ⟨messageId, named, rfl⟩ := accepted.named
  refine ⟨recipient, ?_, ?_⟩
  · intro key given
    rw [show input.idempotencyKey = some key from given] at keyed
    exact keyed
  · unfold messageIdOf at named
    cases given : input.messageId with
    | some explicit =>
      rw [given] at named known
      cases named
      exact known
    | none =>
      rw [given] at named
      dsimp only at named
      unfold createAgentMailboxMessageId at named
      split at named
      · cases named
      · cases named
        have present : (97 : Nat) ∈ utf16 ("agent-message_" ++ hash (mailbox.runId ++ ":" ++ input.recipientAgentId ++ ":" ++
            input.idempotencyKey.getD (toString mailbox.nextSequence))) :=
          List.mem_flatMap.mpr ⟨'a', by simp [String.toList_append], by decide⟩
        exact isBlank_eq_false present (by decide)

theorem Accepted.mem (accepted : Accepted hash mailbox input message mailbox') {other : AgentMailboxMessage} :
    other ∈ mailbox'.messagesById ↔ other ∈ mailbox.messagesById ∨ other = message := by
  rw [accepted.stored]
  exact mem_adding accepted.fresh

theorem Accepted.indexed (accepted : Accepted hash mailbox input message mailbox') (indexed : mailbox.Indexed) : mailbox'.Indexed := by
  obtain ⟨messageId, named, fresh⟩ := accepted.named
  have home : message.runId = mailbox.runId := by rw [fresh]; rfl
  have kept := indexed.adding accepted.fresh accepted.free home
  rw [accepted.stored]
  exact ⟨kept.index, kept.home⟩

theorem Accepted.valid (accepted : Accepted hash mailbox input message mailbox') (valid : mailbox.Valid)
    (countable : mailbox'.Countable) : mailbox'.Valid := by
  have addressed := accepted.addressed
  have stored := accepted.stored
  obtain ⟨messageId, named, fresh⟩ := accepted.named
  have next : mailbox'.nextSequence = mailbox.nextSequence + 1 := by
    rw [stored]
    exact increment_safe valid.countable.nextSequence
  have number : message.sequence = mailbox.nextSequence := by rw [fresh]; rfl
  have rows : mailbox'.messagesById.rows = mailbox.messagesById.rows ++ [message] := by
    rw [stored]
    exact adding_rows accepted.fresh
  refine ⟨accepted.indexed valid.indexed, ?_, countable, ?_, ?_, ?_, ?_⟩
  · rw [next]
    omega
  · rw [rows, List.pairwise_append]
    refine ⟨valid.ordered, List.pairwise_singleton _ _, ?_⟩
    intro earlier listed other last
    rw [List.mem_singleton.mp last, number]
    exact (valid.numbered earlier listed).2
  · intro other listed
    rw [next]
    rcases accepted.mem.mp listed with before | rfl
    · have bounds := valid.numbered other before
      omega
    · have started := valid.started
      omega
  · intro other listed
    rcases accepted.mem.mp listed with before | rfl
    · exact valid.tracked other before
    · rw [fresh]
      exact ⟨Nat.zero_le _, fun delivered => AgentMessageStatus.noConfusion delivered, rfl⟩
  · intro other listed
    rcases accepted.mem.mp listed with before | rfl
    · exact valid.addressed other before
    · exact addressed

theorem Moves.tracked {later : AgentMailboxMessage} (moves : Moves call message later) (plain : DefaultDelivery call)
    (tracked : Tracked message) (safe : later.deliveryAttempts ≤ maxSafeInteger) : Tracked later := by
  cases moves with
  | stays => exact tracked
  | delivered input named queued =>
    subst named
    have more := increment_safe tracked.counted
    refine ⟨safe, by simp [deliver], ?_⟩
    change some (input.deliveryId.getD (defaultDeliveryId message)) = if increment message.deliveryAttempts = 0 then none
      else some (deliveryIdentity message (increment message.deliveryAttempts))
    rw [show input.deliveryId = none from plain, if_neg (by omega)]
    rfl
  | acknowledged acknowledgedAt delivered => exact ⟨safe, fun again => AgentMessageStatus.noConfusion again, tracked.identified⟩
  | requeued requeuedAt delivered => exact ⟨safe, fun again => AgentMessageStatus.noConfusion again, tracked.identified⟩
  | cancelled cancelledAt reason live => exact ⟨safe, fun again => AgentMessageStatus.noConfusion again, tracked.identified⟩

theorem Moves.addressed {later : AgentMailboxMessage} (moves : Moves call message later) (addressed : Addressed message) :
    Addressed later := by
  cases moves <;> exact ⟨addressed.recipient, addressed.key, addressed.id⟩

theorem Moved.mem (moved : Moved call mailbox mailbox') {later : AgentMailboxMessage} (listed : later ∈ mailbox'.messagesById) :
    ∃ message ∈ mailbox.messagesById, Moves call message later := by
  obtain ⟨move, rows, moves⟩ := moved.rows
  rw [Keyed.mem_def, rows] at listed
  obtain ⟨message, stored, rfl⟩ := List.mem_map.mp listed
  exact ⟨message, stored, moves message stored⟩

theorem Moved.indexed (moved : Moved call mailbox mailbox') (indexed : mailbox.Indexed) : mailbox'.Indexed := by
  constructor
  · obtain ⟨move, rows, moves⟩ := moved.rows
    rw [moved.index, rows, List.filterMap_map, indexed.index]
    apply List.filterMap_congr
    intro message stored
    exact (moves message stored).entry.symm
  · intro later listed
    obtain ⟨message, stored, moves⟩ := moved.mem listed
    have home := congrArg AgentMailboxMessage.runId moves.sent
    rw [moved.runId]
    exact home.trans (indexed.home message stored)

theorem Moved.valid (moved : Moved call mailbox mailbox') (plain : DefaultDelivery call) (valid : mailbox.Valid)
    (countable : mailbox'.Countable) : mailbox'.Valid := by
  refine ⟨moved.indexed valid.indexed, moved.nextSequence ▸ valid.started, countable, ?_, ?_, ?_, ?_⟩
  · obtain ⟨move, rows, moves⟩ := moved.rows
    have numbers : ∀ message ∈ mailbox.messagesById.rows, (move message).sequence = message.sequence := fun message stored =>
      ((moves message stored).succeeds (valid.countable.attempts message stored)).sequence
    rw [rows, List.pairwise_map]
    apply valid.ordered.imp_of_mem
    intro message other first second earlier
    rw [numbers message first, numbers other second]
    exact earlier
  · intro later listed
    obtain ⟨message, stored, moves⟩ := moved.mem listed
    rw [moved.nextSequence, (moves.succeeds (valid.countable.attempts message stored)).sequence]
    exact valid.numbered message stored
  · intro later listed
    obtain ⟨message, stored, moves⟩ := moved.mem listed
    exact moves.tracked plain (valid.tracked message stored) (countable.attempts later listed)
  · intro later listed
    obtain ⟨message, stored, moves⟩ := moved.mem listed
    exact moves.addressed (valid.addressed message stored)

/-- The index keeps to the messages whatever the calls are. -/
theorem Indexed.afterCall (indexed : mailbox.Indexed) (hash : String → String) (call : MailboxCall) :
    (mailbox.perform hash call).Indexed := by
  cases perform_change hash call mailbox with
  | accepted input message accepted => exact accepted.indexed indexed
  | moved moved => exact moved.indexed indexed
  | reloaded named restored => exact (restore_ok restored).1

/-- A reload of a valid mailbox is no change at all. -/
theorem Valid.reloaded (valid : mailbox.Valid) (restored : AgentMailbox.restore mailbox.snapshot = .ok mailbox') : mailbox' = mailbox := by
  rw [valid.restore] at restored
  exact (Except.ok.inj restored).symm

theorem Valid.afterCall (valid : mailbox.Valid) (admitted : Admits hash mailbox call) : (mailbox.perform hash call).Valid := by
  obtain ⟨plain, countable⟩ := admitted
  cases perform_change hash call mailbox with
  | accepted input message accepted => exact accepted.valid valid countable
  | moved moved => exact moved.valid plain valid countable
  | reloaded named restored =>
    rw [valid.reloaded restored]
    exact valid

/-- Every message is still there after a call, with its content and never behind. -/
theorem Valid.succeeds (valid : mailbox.Valid) (stored : message ∈ mailbox.messagesById) (hash : String → String) (call : MailboxCall) :
    ∃ later ∈ (mailbox.perform hash call).messagesById, Succeeds message later := by
  cases perform_change hash call mailbox with
  | accepted input added accepted => exact ⟨message, accepted.mem.mpr (.inl stored), .refl message⟩
  | moved moved =>
    obtain ⟨move, rows, moves⟩ := moved.rows
    refine ⟨move message, ?_, (moves message stored).succeeds (valid.countable.attempts message stored)⟩
    rw [Keyed.mem_def, rows]
    exact List.mem_map_of_mem stored
  | reloaded named restored =>
    rw [valid.reloaded restored]
    exact ⟨message, stored, .refl message⟩

/-- What holds over a whole history from a valid mailbox. -/
theorem Valid.afterAll (valid : mailbox.Valid) (admitted : mailbox.AdmitsAll hash calls) :
    (mailbox.run hash calls).Valid := by
  induction calls generalizing mailbox with
  | nil => exact valid
  | cons call rest ih => exact ih (valid.afterCall admitted.1) admitted.2

theorem Valid.succeedsAll (valid : mailbox.Valid) (admitted : mailbox.AdmitsAll hash calls)
    (stored : message ∈ mailbox.messagesById) :
    ∃ later ∈ (mailbox.run hash calls).messagesById, Succeeds message later := by
  induction calls generalizing mailbox message with
  | nil => exact ⟨message, stored, .refl message⟩
  | cons call rest ih =>
    obtain ⟨next, listed, first⟩ := valid.succeeds stored hash call
    obtain ⟨later, present, onward⟩ := ih (valid.afterCall admitted.1) admitted.2 listed
    exact ⟨later, present, first.trans onward⟩

end Histories


/-! What a mailbox promises its callers. -/

/-- A claim returns the oldest of the messages that wait for the recipient, as delivered, and stores them so. -/
def ClaimsOldest (mailbox : AgentMailbox) (input : ClaimAgentMessagesInput) : Prop :=
  ∀ limit, normalizeClaimLimit input.limit = .ok limit →
    ∃ (waiting : List AgentMailboxMessage) (mailbox' : AgentMailbox), (∀ message, message ∈ waiting ↔
        message ∈ mailbox.messagesById ∧ message.recipientAgentId = input.recipientAgentId ∧ message.status = .queued) ∧
      (waiting.Pairwise fun message other => message.sequence < other.sequence) ∧
      mailbox.claim input = .ok ((waiting.take limit).map (deliver input), mailbox') ∧
      ∀ message ∈ waiting.take limit, deliver input message ∈ mailbox'.messagesById

/-- An input that sends a keyed message again, with the same JSON content. -/
structure Retries (message : AgentMailboxMessage) (input : EnqueueAgentMessageInput) : Prop where
  key : message.idempotencyKey.isSome = true ∧ input.idempotencyKey = message.idempotencyKey
  recipient : input.recipientAgentId = message.recipientAgentId
  sender : input.senderAgentId = message.senderAgentId
  kind : input.kind = message.kind
  payload : ∃ text, canonicalJson message.payload = .ok text ∧ canonicalJson input.payload = .ok text
  id : ∀ messageId, input.messageId = some messageId → messageId = message.id

/-- The delivery id neither requeues the message nor acknowledges it, unless it is acknowledged already. -/
def Stale (mailbox : AgentMailbox) (messageId deliveryId : String) : Prop :=
  ∀ recipient at_, (∃ error, mailbox.requeue messageId recipient at_ (some deliveryId) = .error error) ∧
    ((∃ error, mailbox.acknowledge messageId recipient at_ (some deliveryId) = .error error) ∨
      ∃ message, message.status = .acknowledged ∧ mailbox.acknowledge messageId recipient at_ (some deliveryId) = .ok (message, mailbox))

section Promises
variable {hash : String → String} {mailbox mailbox' : AgentMailbox} {message : AgentMailboxMessage}
  {input : EnqueueAgentMessageInput} {claimInput : ClaimAgentMessagesInput} {runId : RunId}

theorem claim_default {limit : Nat} (plain : claimInput.deliveryId = none) (normal : normalizeClaimLimit claimInput.limit = .ok limit) :
    mailbox.claim claimInput = .ok (((mailbox.queuedFor claimInput.recipientAgentId).take limit).map (deliver claimInput),
      (((mailbox.queuedFor claimInput.recipientAgentId).take limit).map (deliver claimInput)).foldl setMessage mailbox) := by
  unfold claim
  refine except_bind_ok.mpr ⟨limit, normal, ?_⟩
  split
  · next none => simp [none]
  · rw [plain]
    rfl

theorem mem_foldl_setMessage {chosen : List AgentMailboxMessage} (stored : ∀ message ∈ chosen, message ∈ mailbox.messagesById)
    (distinct : (chosen.map (·.id)).Nodup) (listed : message ∈ chosen) :
    deliver claimInput message ∈ ((chosen.map (deliver claimInput)).foldl setMessage mailbox).messagesById := by
  rw [foldl_setMessage, Keyed.mem_def, Keyed.foldl_put (f := deliver claimInput) (fun _ => rfl) stored distinct]
  apply List.mem_map.mpr
  exact ⟨message, stored message listed, if_pos (List.mem_map_of_mem listed)⟩

theorem Valid.claimsOldest (valid : mailbox.Valid) (plain : claimInput.deliveryId = none) : mailbox.ClaimsOldest claimInput := by
  intro limit normal
  refine ⟨mailbox.queuedFor claimInput.recipientAgentId, _, fun _ => mem_queuedFor, ?_, claim_default plain normal, ?_⟩
  · rw [queuedFor, valid.listMessages]
    exact valid.ordered.sublist List.filter_sublist
  · intro message listed
    refine mem_foldl_setMessage (fun other inside => ?_) (nodup_queuedFor.sublist ((List.take_sublist _ _).map _)) listed
    exact (mem_queuedFor.mp (List.mem_of_mem_take inside)).1

theorem existingId_of_mem (indexed : mailbox.Indexed) (stored : message ∈ mailbox.messagesById) {key : String}
    (keyed : message.idempotencyKey = some key) :
    mailbox.idempotentMessageIds.find? (idempotencyIndexKey message.recipientAgentId key) =
      some (idempotencyIndexKey message.recipientAgentId key, message.id) := by
  have listed : (idempotencyIndexKey message.recipientAgentId key, message.id) ∈ mailbox.idempotentMessageIds := by
    rw [Keyed.mem_def, indexed.index]
    exact List.mem_filterMap.mpr ⟨message, stored, AgentMailboxMessage.entry_eq_some.mpr ⟨key, keyed, rfl⟩⟩
  exact Keyed.find?_eq_some.mpr ⟨listed, rfl⟩

/-- A retry that passes the checks of its input is answered with the message. -/
theorem enqueue_of_retries (indexed : mailbox.Indexed) (stored : message ∈ mailbox.messagesById) (retries : Retries message input)
    (checked : assertEnqueueInput input = .ok ()) : mailbox.enqueue hash input = .ok (message, mailbox) := by
  obtain ⟨key, keyed⟩ := Option.isSome_iff_exists.mp retries.key.1
  have given : input.idempotencyKey = some key := retries.key.2.trans keyed
  have found : mailbox.existingId input = some message.id := by
    rw [existingId, given, Option.bind_some, retries.recipient, existingId_of_mem indexed stored keyed]
    rfl
  obtain ⟨text, old, new⟩ := retries.payload
  have identity : input.messageId.all (fun messageId => message.id == messageId) = true := by
    rw [Option.all_eq_true]
    intro messageId named
    rw [retries.id messageId named]
    exact beq_self_eq_true _
  have same : isSameIdempotentMessage message input = .ok true := by
    unfold isSameIdempotentMessage
    rw [if_pos ⟨retries.recipient.symm, retries.sender.symm, retries.kind.symm, retries.key.2.symm, identity⟩, old, new]
    exact congrArg Except.ok (beq_self_eq_true text)
  unfold enqueue
  refine except_bind_ok.mpr ⟨(), checked, ?_⟩
  rw [found]
  refine except_bind_ok.mpr ⟨message, requireMessage_ok.mpr ⟨stored, rfl⟩, ?_⟩
  exact except_bind_ok.mpr ⟨true, same, rfl⟩

theorem Addressed.checks (addressed : Addressed message) (retries : Retries message input) : assertEnqueueInput input = .ok () := by
  refine assertEnqueueInput_ok.mpr ⟨retries.recipient ▸ addressed.recipient, ?_, ?_⟩
  · rw [retries.key.2]
    cases keyed : message.idempotencyKey with
    | none => rfl
    | some key => exact addressed.key key keyed
  · cases named : input.messageId with
    | none => rfl
    | some messageId =>
      rw [retries.id messageId named]
      exact addressed.id

theorem stale_of_other {deliveryId : String} (stored : message ∈ mailbox.messagesById) (other : message.deliveryId ≠ some deliveryId) :
    mailbox.Stale message.id deliveryId := by
  intro recipient at_
  have required : mailbox.requireMessage message.id = .ok message := requireMessage_ok.mpr ⟨stored, rfl⟩
  have refused : assertDelivery message (some deliveryId) = .error (.invariantViolation "Mailbox delivery identity is stale") :=
    if_pos ⟨rfl, other⟩
  unfold requeue acknowledge
  rw [required]
  simp only [bind, Except.bind]
  cases assertRecipient message recipient with
  | error error => exact ⟨⟨error, rfl⟩, .inl ⟨error, rfl⟩⟩
  | ok =>
    simp only [refused]
    constructor
    · split
      · exact ⟨_, rfl⟩
      · exact ⟨_, rfl⟩
    · split
      · next done => exact .inr ⟨message, done, rfl⟩
      · split
        · exact .inl ⟨_, rfl⟩
        · exact .inl ⟨_, rfl⟩

/-- After the message is claimed again, the identity of the earlier delivery is stale for good. -/
theorem Valid.stale (valid : mailbox.Valid) (stored : message ∈ mailbox.messagesById) {deliveryId : String}
    (given : message.deliveryId = some deliveryId) {between rest : List MailboxCall} {claimed : List AgentMailboxMessage}
    (admitted : mailbox.AdmitsAll hash (between ++ .claim claimInput :: rest))
    (again : (mailbox.run hash between).claim claimInput = .ok (claimed, mailbox'))
    (returned : message.id ∈ claimed.map (·.id)) :
    (mailbox.run hash (between ++ .claim claimInput :: rest)).Stale message.id deliveryId := by
  obtain ⟨first, admits, onward⟩ := allAllowed_append.mp admitted
  have before := valid.afterAll first
  obtain ⟨current, present, since⟩ := valid.succeedsAll first stored
  have led : (mailbox.run hash between).perform hash (.claim claimInput) = mailbox' := by
    rw [AgentMailbox.perform, again, after]
  -- the message claimed is the one that was delivered before, with one more attempt
  obtain ⟨limit, normal, rfl, stores⟩ := claim_ok again
  obtain ⟨delivered, listed, same⟩ := List.mem_map.mp returned
  obtain ⟨queued, inside, rfl⟩ := List.mem_map.mp listed
  obtain ⟨waiting, -, status⟩ := mem_queuedFor.mp (List.mem_of_mem_take inside)
  have equal : queued = current := Keyed.eq_of_key waiting present (same.trans since.id.symm)
  subst equal
  have kept : deliver claimInput queued ∈ mailbox'.messagesById := by
    rw [stores]
    refine mem_foldl_setMessage (fun other inside => ?_) (nodup_queuedFor.sublist ((List.take_sublist _ _).map _)) inside
    exact (mem_queuedFor.mp (List.mem_of_mem_take inside)).1
  have later := before.afterCall admits
  rw [led] at later onward
  obtain ⟨latest, last, thereafter⟩ := later.succeedsAll onward kept
  have safe := before.countable.attempts queued present
  have moves : Moves (.claim claimInput) queued (deliver claimInput queued) := .delivered claimInput rfl status
  have whole := since.trans ((moves.succeeds safe).trans thereafter)
  have more : message.deliveryAttempts < latest.deliveryAttempts := by
    have counted := thereafter.attempts
    change increment queued.deliveryAttempts ≤ _ at counted
    rw [increment_safe safe] at counted
    have earlier := since.attempts
    omega
  rw [run, performAll_append]
  change (((mailbox.run hash between).perform hash (.claim claimInput)).run hash rest).Stale message.id deliveryId
  rw [led, ← whole.id]
  refine stale_of_other last fun unchanged => ?_
  have old := (valid.tracked message stored).identified
  have new := ((later.afterAll onward).tracked latest last).identified
  rw [if_neg (by omega), unchanged, whole.deliveryIdentity] at new
  rw [given] at old
  split at old
  · cases old
  · have attempts := deliveryIdentity_injective ((Option.some.inj old).symm.trans (Option.some.inj new))
    omega

/-- A mailbox over its whole history. -/
theorem mailbox_history (reached : Reached (empty runId) (AgentMailbox.perform hash) (Admits hash) mailbox) :
    restore mailbox.snapshot = .ok mailbox ∧
    (∀ message ∈ mailbox.messagesById, 1 ≤ message.sequence ∧ message.sequence < mailbox.nextSequence) ∧
    (∀ message ∈ mailbox.messagesById, ∀ other ∈ mailbox.messagesById, message.sequence = other.sequence → message = other) ∧
    (∀ claimInput, claimInput.deliveryId = none → mailbox.ClaimsOldest claimInput) ∧
    (∀ input message mailbox', mailbox.enqueue hash input = .ok (message, mailbox') → message ∈ mailbox'.messagesById) ∧
    (∀ message ∈ mailbox.messagesById, ∀ calls, mailbox.AdmitsAll hash calls →
      ∃ later ∈ (mailbox.run hash calls).messagesById, Succeeds message later ∧
        ∀ other ∈ (mailbox.run hash calls).messagesById, other.id = message.id → other = later) ∧
    (∀ message ∈ mailbox.messagesById, ∀ input, Retries message input → mailbox.enqueue hash input = .ok (message, mailbox)) ∧
    (∀ message ∈ mailbox.messagesById, ∀ deliveryId, message.status = .delivered → message.deliveryId = some deliveryId →
      ∀ between claimInput rest claimed mailbox',
        mailbox.AdmitsAll hash (between ++ .claim claimInput :: rest) →
        (mailbox.run hash between).claim claimInput = .ok (claimed, mailbox') →
        message.id ∈ claimed.map (·.id) →
        (mailbox.run hash (between ++ .claim claimInput :: rest)).Stale message.id deliveryId) := by
  have valid : mailbox.Valid := reached.invariant valid_empty fun _ _ _ valid admitted => valid.afterCall admitted
  refine ⟨valid.restore, valid.numbered, ?_, fun _ plain => valid.claimsOldest plain, ?_, ?_, ?_, ?_⟩
  · exact fun message stored other listed same => List.inj_on_of_nodup_map valid.sequences stored listed same
  · intro input message mailbox' done
    cases found : mailbox.existingId input with
    | none => exact (enqueue_new found done).mem.mpr (.inr rfl)
    | some existingId =>
      obtain ⟨unchanged, required, -⟩ := AgentMailbox.enqueue_retry found done
      rw [unchanged]
      exact (requireMessage_ok.mp required).1
  · intro message stored calls admitted
    obtain ⟨later, listed, succeeds⟩ := valid.succeedsAll admitted stored
    exact ⟨later, listed, succeeds, fun other present same => Keyed.eq_of_key present listed (same.trans succeeds.id.symm)⟩
  · exact fun message stored input retries => enqueue_of_retries valid.indexed stored retries ((valid.addressed message stored).checks retries)
  · exact fun message stored deliveryId _ given between claimInput rest claimed mailbox' admitted again returned =>
      valid.stale stored given admitted again returned

def sampleMessage : EnqueueAgentMessageInput where
  recipientAgentId := "agent-1"
  kind := .handoff
  payload := .object [("done", .boolean true)]
  createdAt := "t1"
  messageId := some "message-1"

def sampleClaim : ClaimAgentMessagesInput where
  recipientAgentId := "agent-1"
  deliveredAt := "t2"

theorem mailbox_history_delivered :
    let mailbox := (empty "run-1").run deterministicHash [.enqueue sampleMessage, .claim sampleClaim]
    restore mailbox.snapshot = .ok mailbox := by
  have sent : Reached (empty "run-1") (AgentMailbox.perform deterministicHash) (Admits deterministicHash)
      ((empty "run-1").perform deterministicHash (.enqueue sampleMessage)) := .step _ .start (by decide +kernel)
  exact (mailbox_history (.step (.claim sampleClaim) sent (by decide +kernel))).1

/-- Once the message is acknowledged, the identity of its earlier delivery is no longer refused. -/
theorem earlier_delivery_acknowledges :
    let delivered := (empty "run-1").run deterministicHash [.enqueue sampleMessage, .claim sampleClaim]
    let again := delivered.run deterministicHash [.requeue "message-1" "agent-1" "t3" (some "delivery:agent-1:1:1"), .claim sampleClaim,
      .acknowledge "message-1" "agent-1" "t4" (some "delivery:agent-1:1:2")]
    (delivered.getMessage "message-1").map (·.deliveryId) = some (some "delivery:agent-1:1:1") ∧
      (again.getMessage "message-1").map (·.deliveryId) = some (some "delivery:agent-1:1:2") ∧
      (again.acknowledge "message-1" "agent-1" "t5" (some "delivery:agent-1:1:1")).isOk = true := by
  decide +kernel

end Promises

end AgentMailbox

end OttiliCoder.Agents
