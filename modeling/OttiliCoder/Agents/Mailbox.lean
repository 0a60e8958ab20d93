import Mathlib.Data.List.Sort
import OttiliCoder.Core.Policies
import OttiliCoder.Core.Stringify
import OttiliCoder.Library.Keyed
import OttiliCoder.Library.Reached

/-! The recoverable mailbox of a Run's agents: a queue of messages for each recipient, with
two indexes and a counter. -/

namespace OttiliCoder.Agents
open Host Relational Transaction

inductive AgentMessageKind where
  | input | steering | handoff | control | system
deriving DecidableEq

inductive AgentMessageStatus where
  | queued | delivered | acknowledged | cancelled
deriving DecidableEq

/-- The JSON value of a message. Its type admits every number; only `canonicalJson` refuses some. -/
inductive Payload where
  | null
  | boolean (value : Bool)
  | number (value : Number)
  | string (value : String)
  | array (items : List Payload)
  | object (fields : List (String × Payload))

/-- Counters are natural numbers, so what is left of `Number.isSafeInteger` is its bound. -/
structure AgentMailboxMessage where
  id : String
  runId : RunId
  sequence : Nat
  recipientAgentId : AgentId
  senderAgentId : Option AgentId := none
  kind : AgentMessageKind
  payload : Payload
  idempotencyKey : Option String := none
  status : AgentMessageStatus
  deliveryAttempts : Nat
  deliveryId : Option String := none
  deliveredAt : Option IsoTimestamp := none
  acknowledgedAt : Option IsoTimestamp := none
  cancelledAt : Option IsoTimestamp := none
  cancellationReason : Option String := none
  createdAt : IsoTimestamp
  updatedAt : IsoTimestamp

structure AgentMailboxSnapshot where
  runId : RunId
  nextSequence : Nat
  messages : List AgentMailboxMessage

structure EnqueueAgentMessageInput where
  recipientAgentId : AgentId
  kind : AgentMessageKind
  payload : Payload
  createdAt : IsoTimestamp
  senderAgentId : Option AgentId := none
  idempotencyKey : Option String := none
  messageId : Option String := none

structure ClaimAgentMessagesInput where
  recipientAgentId : AgentId
  deliveredAt : IsoTimestamp
  deliveryId : Option String := none
  limit : Option Number := none

inductive MailboxError where
  | invariantViolation (message : InvariantMessage)
deriving DecidableEq

structure AgentMailbox where
  runId : RunId
  nextSequence : Nat
  messagesById : Keyed AgentMailboxMessage.id
  /-- From `idempotencyIndexKey` to the id of the message. -/
  idempotentMessageIds : Keyed (Prod.fst : String × String → String)

def maxSafeInteger : Nat := 2 ^ 53 - 1

/-- `counter + 1` of a double: from 2 ^ 53 on, adding one is rounded away. -/
def increment (counter : Nat) : Nat := min (counter + 1) (2 ^ 53)

/-- `text.trim().length === 0`. -/
def isBlank (text : String) : Bool := (trim (utf16 text)).length == 0

def joined (separator : JsString) : List JsString → JsString := List.intercalate separator

mutual
/-- The JSON text of a value, with the fields of every object in the order of their names. -/
def canonicalJson : Payload → Except MailboxError JsString
  | .null => .ok (stringify .null)
  | .boolean value => .ok (stringify (.boolean value))
  | .string value => .ok (stringify (.string value))
  | .number .notFinite => .error (.invariantViolation "Mailbox payload must contain finite numbers")
  | .number (.finite value) => .ok (stringify (.number value))
  | .array items => (canonicalItems items).map fun texts => units "[" ++ joined (units ",") texts ++ units "]"
  | .object fields => (canonicalFields fields).map fun texts =>
      units "\x7b" ++ joined (units ",") ((texts.insertionSort fun one other => one.1 ≤ other.1).map (·.2)) ++ units "\x7d"

def canonicalItems : List Payload → Except MailboxError (List JsString)
  | [] => .ok []
  | item :: items => do return (← canonicalJson item) :: (← canonicalItems items)

/-- The name of each field, and its text. -/
def canonicalFields : List (String × Payload) → Except MailboxError (List (JsString × JsString))
  | [] => .ok []
  | (name, value) :: fields => do
    let text ← canonicalJson value
    return (utf16 name, stringify (.string name) ++ units ":" ++ text) :: (← canonicalFields fields)
end

def idempotencyIndexKey (recipientAgentId : AgentId) (key : String) : String := recipientAgentId ++ ":" ++ key

/-- The identity of a message, from the hash of its recipient and its key or number. -/
def createAgentMailboxMessageId (hash : String → String) (runId : RunId) (recipientAgentId : AgentId) (material : String) :
    Except MailboxError String :=
  if material.length = 0 then .error (.invariantViolation "Mailbox message material must not be empty")
  else .ok ("agent-message_" ++ hash (runId ++ ":" ++ recipientAgentId ++ ":" ++ material))

def normalizeClaimLimit : Option Number → Except MailboxError Nat
  | none => .ok 1
  | some .notFinite => .error (.invariantViolation "Mailbox claim limit must be a non-negative safe integer")
  | some (.finite limit) =>
    if !(Number.finite limit).isSafeInteger || (Number.finite limit).below 0 then
      .error (.invariantViolation "Mailbox claim limit must be a non-negative safe integer")
    else .ok limit.num.toNat

def isSameIdempotentMessage (existing : AgentMailboxMessage) (input : EnqueueAgentMessageInput) : Except MailboxError Bool :=
  if existing.recipientAgentId = input.recipientAgentId ∧ existing.senderAgentId = input.senderAgentId ∧
      existing.kind = input.kind ∧ existing.idempotencyKey = input.idempotencyKey ∧
      input.messageId.all (fun messageId => existing.id == messageId) then do
    let stored ← canonicalJson existing.payload
    let given ← canonicalJson input.payload
    return stored == given
  else .ok false

def defaultDeliveryId (message : AgentMailboxMessage) : String :=
  "delivery:" ++ message.recipientAgentId ++ ":" ++ toString message.sequence ++ ":" ++
    toString (increment message.deliveryAttempts)

def assertDelivery (message : AgentMailboxMessage) (deliveryId : Option String) : Except MailboxError Unit :=
  if deliveryId.isSome ∧ message.deliveryId ≠ deliveryId then
    .error (.invariantViolation "Mailbox delivery identity is stale")
  else .ok ()

def assertRecipient (message : AgentMailboxMessage) (recipientAgentId : AgentId) : Except MailboxError Unit :=
  if message.recipientAgentId ≠ recipientAgentId then
    .error (.invariantViolation "Mailbox recipient does not own this message")
  else .ok ()

def assertEnqueueInput (input : EnqueueAgentMessageInput) : Except MailboxError Unit :=
  if input.recipientAgentId.length = 0 then .error (.invariantViolation "Mailbox recipient must not be empty")
  else if input.idempotencyKey.any isBlank then .error (.invariantViolation "Mailbox idempotency key must not be empty")
  else if input.messageId.any isBlank then .error (.invariantViolation "Mailbox message identity must not be empty")
  else .ok ()

/-- The types leave every kind and status a legal one. -/
def assertSnapshotMessage (runId : RunId) (message : AgentMailboxMessage) : Except MailboxError Unit :=
  if message.runId ≠ runId then .error (.invariantViolation "Mailbox message belongs to a different run")
  else if maxSafeInteger < message.sequence ∨ message.sequence < 1 then
    .error (.invariantViolation "Mailbox message sequence must be a positive safe integer")
  else if maxSafeInteger < message.deliveryAttempts then
    .error (.invariantViolation "Mailbox delivery attempts must be a non-negative safe integer")
  else if message.status = .delivered ∧ message.deliveredAt = none then
    .error (.invariantViolation "A delivered mailbox message must include a delivery timestamp")
  else .ok ()

namespace AgentMailbox

def blank (runId : RunId) (nextSequence : Nat) : AgentMailbox where
  runId := runId
  nextSequence := nextSequence
  messagesById := Keyed.empty
  idempotentMessageIds := Keyed.empty

/-- `messagesById.set(message.id, message)`. -/
def setMessage (mailbox : AgentMailbox) (message : AgentMailboxMessage) : AgentMailbox :=
  { mailbox with messagesById := mailbox.messagesById.put message }

/-- `idempotentMessageIds.set(idempotencyIndexKey(...), message.id)`, for a message with a key. -/
def indexMessage (mailbox : AgentMailbox) (message : AgentMailboxMessage) : AgentMailbox :=
  match message.idempotencyKey with
  | none => mailbox
  | some key => { mailbox with
      idempotentMessageIds := mailbox.idempotentMessageIds.put (idempotencyIndexKey message.recipientAgentId key, message.id) }

section Construction

def keyTaken (mailbox : AgentMailbox) (message : AgentMailboxMessage) : Bool :=
  message.idempotencyKey.any fun key =>
    (mailbox.idempotentMessageIds.find? (idempotencyIndexKey message.recipientAgentId key)).isSome

/-- One turn of the constructor's loop; the sequences seen are those of the messages stored. -/
def restoreMessage (mailbox : AgentMailbox) (message : AgentMailboxMessage) : Except MailboxError AgentMailbox :=
  match assertSnapshotMessage mailbox.runId message with
  | .error error => .error error
  | .ok () =>
    if (mailbox.messagesById.find? message.id).isSome then
      .error (.invariantViolation "Mailbox message identity appears twice")
    else if message.sequence ∈ mailbox.messagesById.rows.map (·.sequence) then
      .error (.invariantViolation "Mailbox sequence appears twice")
    else if mailbox.keyTaken message then
      .error (.invariantViolation "Mailbox idempotency key appears more than once for a recipient")
    else .ok ((mailbox.setMessage message).indexMessage message)

def maximumSequence (mailbox : AgentMailbox) : Nat :=
  mailbox.messagesById.rows.foldl (fun maximum message => max maximum message.sequence) 0

/-- `new AgentMailbox(snapshot)`. -/
def restore (snapshot : AgentMailboxSnapshot) : Except MailboxError AgentMailbox :=
  if maxSafeInteger < snapshot.nextSequence ∨ snapshot.nextSequence < 1 then
    .error (.invariantViolation "Mailbox next sequence must be a positive safe integer")
  else
    match snapshot.messages.foldlM restoreMessage (blank snapshot.runId snapshot.nextSequence) with
    | .error error => .error error
    | .ok mailbox =>
      if mailbox.nextSequence ≤ mailbox.maximumSequence then
        .error (.invariantViolation "Mailbox next sequence must be after every persisted message")
      else .ok mailbox

/-- The mailbox of a new Run. -/
def empty (runId : RunId) : AgentMailbox := blank runId 1

example : (restore ⟨"run", 1, []⟩).toOption.map (fun mailbox => (mailbox.runId, mailbox.nextSequence)) = some ("run", 1) := rfl

end Construction

section Calls
variable (mailbox : AgentMailbox)

def listMessages : List AgentMailboxMessage :=
  mailbox.messagesById.rows.insertionSort fun left right => left.sequence ≤ right.sequence

def snapshot : AgentMailboxSnapshot := ⟨mailbox.runId, mailbox.nextSequence, mailbox.listMessages⟩

def getMessage (messageId : String) : Option AgentMailboxMessage := mailbox.messagesById.find? messageId

def queuedFor (recipientAgentId : AgentId) : List AgentMailboxMessage :=
  mailbox.listMessages.filter fun message => message.recipientAgentId == recipientAgentId && message.status == .queued

def queuedCountFor (recipientAgentId : AgentId) : Nat := (mailbox.queuedFor recipientAgentId).length

def requireMessage (messageId : String) : Except MailboxError AgentMailboxMessage :=
  match mailbox.messagesById.find? messageId with
  | none => .error (.invariantViolation "Mailbox message does not exist")
  | some message => .ok message

/-! The checks of a call come before its writes, so a call that throws leaves the mailbox as it was. -/

def newMessage (messageId : String) (input : EnqueueAgentMessageInput) : AgentMailboxMessage where
  id := messageId
  runId := mailbox.runId
  sequence := mailbox.nextSequence
  recipientAgentId := input.recipientAgentId
  senderAgentId := input.senderAgentId
  kind := input.kind
  payload := input.payload
  idempotencyKey := input.idempotencyKey
  status := .queued
  deliveryAttempts := 0
  createdAt := input.createdAt
  updatedAt := input.createdAt

/-- `input.messageId ?? createAgentMailboxMessageId(...)`. -/
def messageIdOf (hash : String → String) (input : EnqueueAgentMessageInput) : Except MailboxError String :=
  match input.messageId with
  | some messageId => .ok messageId
  | none =>
    createAgentMailboxMessageId hash mailbox.runId input.recipientAgentId
      (input.idempotencyKey.getD (toString mailbox.nextSequence))

/-- The second half of `enqueue`, for an input that is no retry. -/
def accept (hash : String → String) (input : EnqueueAgentMessageInput) : Except MailboxError (AgentMailboxMessage × AgentMailbox) := do
  let messageId ← mailbox.messageIdOf hash input
  if (mailbox.messagesById.find? messageId).isSome then
    .error (.invariantViolation "Mailbox message identity already exists")
  else
    let message := mailbox.newMessage messageId input
    .ok (message, { (mailbox.setMessage message).indexMessage message with nextSequence := increment mailbox.nextSequence })

/-- The message under the input's key, if the key has been used. -/
def existingId (input : EnqueueAgentMessageInput) : Option String :=
  input.idempotencyKey.bind fun key =>
    (mailbox.idempotentMessageIds.find? (idempotencyIndexKey input.recipientAgentId key)).map (·.2)

/-- Adds an input exactly once when an idempotency key is supplied. -/
def enqueue (hash : String → String) (input : EnqueueAgentMessageInput) :
    Except MailboxError (AgentMailboxMessage × AgentMailbox) := do
  let _ ← assertEnqueueInput input
  match mailbox.existingId input with
  | none => mailbox.accept hash input
  | some existingId =>
    let existing ← mailbox.requireMessage existingId
    let same ← isSameIdempotentMessage existing input
    if same then .ok (existing, mailbox)
    else .error (.invariantViolation "Mailbox idempotency key was reused with different message content")

/-- The message of one delivery. -/
def deliver (input : ClaimAgentMessagesInput) (message : AgentMailboxMessage) : AgentMailboxMessage :=
  { message with
    status := .delivered
    deliveryAttempts := increment message.deliveryAttempts
    deliveryId := some (input.deliveryId.getD (defaultDeliveryId message))
    deliveredAt := some input.deliveredAt
    updatedAt := input.deliveredAt }

/-- Claims the oldest queued messages for a recipient and records delivery. -/
def claim (input : ClaimAgentMessagesInput) : Except MailboxError (List AgentMailboxMessage × AgentMailbox) := do
  let limit ← normalizeClaimLimit input.limit
  if limit = 0 then .ok ([], mailbox)
  else if input.deliveryId.any isBlank then .error (.invariantViolation "Mailbox delivery ID must not be empty")
  else
    let delivered := ((mailbox.queuedFor input.recipientAgentId).take limit).map (deliver input)
    .ok (delivered, delivered.foldl setMessage mailbox)

def acknowledge (messageId : String) (recipientAgentId : AgentId) (acknowledgedAt : IsoTimestamp)
    (deliveryId : Option String) : Except MailboxError (AgentMailboxMessage × AgentMailbox) := do
  let current ← mailbox.requireMessage messageId
  let _ ← assertRecipient current recipientAgentId
  if current.status = .acknowledged then .ok (current, mailbox)
  else if current.status ≠ .delivered then
    .error (.invariantViolation "Only a delivered mailbox message can be acknowledged")
  else do
    let _ ← assertDelivery current deliveryId
    let acknowledged := { current with
      status := .acknowledged, acknowledgedAt := some acknowledgedAt, updatedAt := acknowledgedAt }
    .ok (acknowledged, mailbox.setMessage acknowledged)

/-- Moves an interrupted delivery back into the durable queue. -/
def requeue (messageId : String) (recipientAgentId : AgentId) (requeuedAt : IsoTimestamp) (deliveryId : Option String) :
    Except MailboxError (AgentMailboxMessage × AgentMailbox) := do
  let current ← mailbox.requireMessage messageId
  let _ ← assertRecipient current recipientAgentId
  if current.status ≠ .delivered then .error (.invariantViolation "Only a delivered mailbox message can be requeued")
  else do
    let _ ← assertDelivery current deliveryId
    let queued := { current with status := .queued, updatedAt := requeuedAt }
    .ok (queued, mailbox.setMessage queued)

def cancel (messageId : String) (cancelledAt : IsoTimestamp) (cancellationReason : Option String) :
    Except MailboxError (AgentMailboxMessage × AgentMailbox) := do
  let current ← mailbox.requireMessage messageId
  if current.status = .cancelled then .ok (current, mailbox)
  else if current.status = .acknowledged then
    .error (.invariantViolation "An acknowledged mailbox message cannot be cancelled")
  else
    let cancelled := { current with
      status := .cancelled
      cancelledAt := some cancelledAt
      updatedAt := cancelledAt
      cancellationReason := cancellationReason.or current.cancellationReason }
    .ok (cancelled, mailbox.setMessage cancelled)

end Calls

end AgentMailbox

/-- A call on a mailbox, or its replacement by the one a snapshot of it gives. -/
inductive MailboxCall where
  | enqueue (input : EnqueueAgentMessageInput)
  | claim (input : ClaimAgentMessagesInput)
  | acknowledge (messageId : String) (recipientAgentId : AgentId) (acknowledgedAt : IsoTimestamp) (deliveryId : Option String)
  | requeue (messageId : String) (recipientAgentId : AgentId) (requeuedAt : IsoTimestamp) (deliveryId : Option String)
  | cancel (messageId : String) (cancelledAt : IsoTimestamp) (cancellationReason : Option String)
  | reload

namespace AgentMailbox

/-- The mailbox a call leaves: the one it was if the call throws. -/
def after {α : Type} (mailbox : AgentMailbox) : Except MailboxError (α × AgentMailbox) → AgentMailbox
  | .ok (_, changed) => changed
  | .error _ => mailbox

def perform (hash : String → String) (call : MailboxCall) (mailbox : AgentMailbox) : AgentMailbox :=
  match call with
  | .enqueue input => mailbox.after (mailbox.enqueue hash input)
  | .claim input => mailbox.after (mailbox.claim input)
  | .acknowledge messageId recipientAgentId acknowledgedAt deliveryId =>
    mailbox.after (mailbox.acknowledge messageId recipientAgentId acknowledgedAt deliveryId)
  | .requeue messageId recipientAgentId requeuedAt deliveryId =>
    mailbox.after (mailbox.requeue messageId recipientAgentId requeuedAt deliveryId)
  | .cancel messageId cancelledAt cancellationReason =>
    mailbox.after (mailbox.cancel messageId cancelledAt cancellationReason)
  | .reload => mailbox.after ((restore mailbox.snapshot).map fun restored => ((), restored))

end AgentMailbox

end OttiliCoder.Agents
