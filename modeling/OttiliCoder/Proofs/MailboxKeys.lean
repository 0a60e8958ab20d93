import OttiliCoder.Proofs.AgentMailboxes

/-! Which inputs the agents' mailbox refuses. A message has its identity from its key or from its number,
and a key its place in the index from one joined text, so different messages may claim the same place. -/

namespace OttiliCoder.Agents
open Host Relational Transaction Results

/-! Payloads with a canonical text. -/

namespace Payload

mutual
/-- All the numbers of the value are finite. -/
def isFinite : Payload → Bool
  | .number value => value.isFinite
  | .array items => itemsFinite items
  | .object fields => fieldsFinite fields
  | _ => true

def itemsFinite : List Payload → Bool
  | [] => true
  | item :: items => item.isFinite && itemsFinite items

def fieldsFinite : List (String × Payload) → Bool
  | [] => true
  | (_, value) :: fields => value.isFinite && fieldsFinite fields
end

end Payload

mutual
theorem canonicalJson_ok (payload : Payload) : (∃ text, canonicalJson payload = .ok text) ↔ payload.isFinite = true := by
  cases payload with
  | null => simp [canonicalJson, Payload.isFinite]
  | boolean value => simp [canonicalJson, Payload.isFinite]
  | string value => simp [canonicalJson, Payload.isFinite]
  | number value => cases value <;> simp [canonicalJson, Payload.isFinite, Number.isFinite]
  | array items =>
    rw [canonicalJson, Payload.isFinite, ← canonicalItems_ok items]
    simp only [except_map_ok]
    exact ⟨fun ⟨_, texts, done, _⟩ => ⟨texts, done⟩, fun ⟨texts, done⟩ => ⟨_, texts, done, rfl⟩⟩
  | object fields =>
    rw [canonicalJson, Payload.isFinite, ← canonicalFields_ok fields]
    simp only [except_map_ok]
    exact ⟨fun ⟨_, texts, done, _⟩ => ⟨texts, done⟩, fun ⟨texts, done⟩ => ⟨_, texts, done, rfl⟩⟩

theorem canonicalItems_ok (items : List Payload) : (∃ texts, canonicalItems items = .ok texts) ↔ Payload.itemsFinite items = true := by
  cases items with
  | nil => simp [canonicalItems, Payload.itemsFinite]
  | cons item items =>
    rw [Payload.itemsFinite, Bool.and_eq_true, ← canonicalJson_ok item, ← canonicalItems_ok items]
    simp only [canonicalItems, except_bind_ok]
    constructor
    · rintro ⟨_, text, first, texts, rest, _⟩
      exact ⟨⟨text, first⟩, texts, rest⟩
    · rintro ⟨⟨text, first⟩, texts, rest⟩
      exact ⟨_, text, first, texts, rest, rfl⟩

theorem canonicalFields_ok (fields : List (String × Payload)) :
    (∃ texts, canonicalFields fields = .ok texts) ↔ Payload.fieldsFinite fields = true := by
  cases fields with
  | nil => simp [canonicalFields, Payload.fieldsFinite]
  | cons field fields =>
    obtain ⟨name, value⟩ := field
    rw [Payload.fieldsFinite, Bool.and_eq_true, ← canonicalJson_ok value, ← canonicalFields_ok fields]
    simp only [canonicalFields, except_bind_ok]
    constructor
    · rintro ⟨_, text, first, texts, rest, _⟩
      exact ⟨⟨text, first⟩, texts, rest⟩
    · rintro ⟨⟨text, first⟩, texts, rest⟩
      exact ⟨_, text, first, texts, rest, rfl⟩
end

namespace AgentMailbox

/-! What an input may meet in the mailbox. -/

/-- The message is the recipient's under the input's key. -/
def Holds (message : AgentMailboxMessage) (input : EnqueueAgentMessageInput) : Prop :=
  message.recipientAgentId = input.recipientAgentId ∧ message.idempotencyKey = input.idempotencyKey ∧
    input.idempotencyKey.isSome = true

/-- The payloads are the same value, or have the same canonical text. -/
def SamePayload (stored given : Payload) : Prop :=
  stored = given ∨ ∃ text, canonicalJson stored = .ok text ∧ canonicalJson given = .ok text

def SameContent (message : AgentMailboxMessage) (input : EnqueueAgentMessageInput) : Prop :=
  message.senderAgentId = input.senderAgentId ∧ message.kind = input.kind ∧ SamePayload message.payload input.payload

/-- The recipient has the input's key already, with other content. -/
def KeyUsed (mailbox : AgentMailbox) (input : EnqueueAgentMessageInput) : Prop :=
  ∃ message ∈ mailbox.messagesById, Holds message input ∧ ¬SameContent message input

/-- The key, or the number of a message without one. -/
def material (message : AgentMailboxMessage) : String := message.idempotencyKey.getD (toString message.sequence)

def inputMaterial (mailbox : AgentMailbox) (input : EnqueueAgentMessageInput) : String :=
  input.idempotencyKey.getD (toString mailbox.nextSequence)

/-- The identity a message of this Run is given when its input names none. -/
def derivedId (hash : String → String) (mailbox : AgentMailbox) (recipientAgentId : AgentId) (material : String) : String :=
  "agent-message_" ++ hash (mailbox.runId ++ ":" ++ recipientAgentId ++ ":" ++ material)

/-- The message stands where the input's would: under the same joined text of recipient and key or number, if its
identity is derived from that, and under the very identity if it was named. -/
def Occupies (hash : String → String) (mailbox : AgentMailbox) (message : AgentMailboxMessage) (input : EnqueueAgentMessageInput) : Prop :=
  if message.id = mailbox.derivedId hash message.recipientAgentId (material message) then
    message.recipientAgentId ++ ":" ++ material message = input.recipientAgentId ++ ":" ++ mailbox.inputMaterial input
  else message.id = mailbox.derivedId hash input.recipientAgentId (mailbox.inputMaterial input)

/-- A keyed message under the joined text of the input's recipient and key. -/
def SharesKey (message : AgentMailboxMessage) (input : EnqueueAgentMessageInput) : Prop :=
  ∃ key other, message.idempotencyKey = some key ∧ input.idempotencyKey = some other ∧
    message.recipientAgentId ++ ":" ++ key = input.recipientAgentId ++ ":" ++ other

/-- The input meets no message by accident: a retry has a canonical text, and a new message has a key and an
identity of its own. -/
structure Unambiguous (hash : String → String) (mailbox : AgentMailbox) (input : EnqueueAgentMessageInput) : Prop where
  finite : ∀ message ∈ mailbox.messagesById, Holds message input → SameContent message input → input.payload.isFinite = true
  apart : (∀ message ∈ mailbox.messagesById, ¬Holds message input) →
    ∀ message ∈ mailbox.messagesById, ¬SharesKey message input ∧ ¬mailbox.Occupies hash message input

section Inputs
variable {hash : String → String} {mailbox start : AgentMailbox} {message other : AgentMailboxMessage}
  {input : EnqueueAgentMessageInput} {snapshot : AgentMailboxSnapshot}

/-- With an injective hash, an identity is known from the text it is made of. -/
theorem occupies_iff (injective : Function.Injective hash) :
    mailbox.Occupies hash message input ↔ message.id = mailbox.derivedId hash input.recipientAgentId (mailbox.inputMaterial input) := by
  unfold Occupies
  split
  · next derived =>
    rw [derived]
    simp only [derivedId, String.append_assoc, String.append_right_inj, injective.eq_iff]
  · rfl

theorem sharesKey_of_holds (holds : Holds message input) : SharesKey message input := by
  obtain ⟨recipient, keyed, some⟩ := holds
  obtain ⟨key, named⟩ := Option.isSome_iff_exists.mp some
  exact ⟨key, key, keyed.trans named, named, by rw [recipient]⟩

/-- Only one message stands under a joined text. -/
theorem eq_of_sharesKey (indexed : mailbox.Indexed) (stored : message ∈ mailbox.messagesById) (listed : other ∈ mailbox.messagesById)
    (one : SharesKey message input) (two : SharesKey other input) : message = other := by
  obtain ⟨key, own, keyed, named, same⟩ := one
  obtain ⟨key', own', keyed', named', same'⟩ := two
  cases named.symm.trans named'
  have first := existingId_of_mem indexed stored keyed
  have second := existingId_of_mem indexed listed keyed'
  unfold idempotencyIndexKey at first second
  rw [same] at first
  rw [same', first] at second
  exact Keyed.eq_of_key stored listed (congrArg Prod.snd (Option.some.inj second))

theorem existingId_none (indexed : mailbox.Indexed) :
    mailbox.existingId input = none ↔ ∀ message ∈ mailbox.messagesById, ¬SharesKey message input := by
  constructor
  · rintro none message stored ⟨key, own, keyed, named, same⟩
    have found := existingId_of_mem indexed stored keyed
    unfold idempotencyIndexKey at found
    rw [existingId, named, Option.bind_some, idempotencyIndexKey, ← same, found] at none
    cases none
  · intro free
    cases found : mailbox.existingId input with
    | none => rfl
    | some existingId =>
      exfalso
      obtain ⟨own, named, entry⟩ := Option.bind_eq_some_iff.mp found
      obtain ⟨pair, located, -⟩ := Option.map_eq_some_iff.mp entry
      obtain ⟨listed, same⟩ := Keyed.find?_eq_some.mp located
      rw [Keyed.mem_def, indexed.index] at listed
      obtain ⟨message, stored, entered⟩ := List.mem_filterMap.mp listed
      obtain ⟨key, keyed, rfl⟩ := AgentMailboxMessage.entry_eq_some.mp entered
      exact free message stored ⟨key, own, keyed, named, same⟩

theorem isSame_ok (same : isSameIdempotentMessage message input = .ok true) :
    message.recipientAgentId = input.recipientAgentId ∧ message.idempotencyKey = input.idempotencyKey ∧
      ∃ text, canonicalJson input.payload = .ok text := by
  unfold isSameIdempotentMessage at same
  split at same
  · next equal =>
    obtain ⟨stored, _, rest⟩ := except_bind_ok.mp same
    obtain ⟨given, text, _⟩ := except_bind_ok.mp rest
    exact ⟨equal.1, equal.2.2.2.1, given, text⟩
  · cases same

theorem existingId_key {existingId : String} (found : mailbox.existingId input = some existingId) : input.idempotencyKey.isSome = true := by
  obtain ⟨own, named, -⟩ := Option.bind_eq_some_iff.mp found
  rw [named]
  rfl

/-- A message returned for a key is the one the recipient has under it. -/
theorem holds_of_retry {existingId : String} {mailbox' : AgentMailbox} (found : mailbox.existingId input = some existingId)
    (done : mailbox.enqueue hash input = .ok (message, mailbox')) :
    message ∈ mailbox.messagesById ∧ Holds message input ∧ input.payload.isFinite = true := by
  obtain ⟨-, required, same⟩ := enqueue_retry found done
  obtain ⟨recipient, key, text⟩ := isSame_ok same
  exact ⟨(requireMessage_ok.mp required).1, ⟨recipient, key, existingId_key found⟩, (canonicalJson_ok _).mp text⟩

theorem material_ne_empty (checked : assertEnqueueInput input = .ok ()) : (mailbox.inputMaterial input).length ≠ 0 := by
  unfold inputMaterial
  cases named : input.idempotencyKey with
  | none =>
    have positive : 0 < mailbox.nextSequence.repr.length := Nat.length_repr_pos
    exact Nat.ne_of_gt positive
  | some key =>
    intro none
    have given := (assertEnqueueInput_ok.mp checked).2.1
    rw [named, Option.getD_some, String.length_eq_zero_iff] at *
    rw [none] at given
    exact absurd given (by decide)

theorem messageIdOf_unnamed (unnamed : input.messageId = none) (checked : assertEnqueueInput input = .ok ()) :
    mailbox.messageIdOf hash input = .ok (mailbox.derivedId hash input.recipientAgentId (mailbox.inputMaterial input)) := by
  unfold messageIdOf
  rw [unnamed]
  exact if_neg (material_ne_empty checked)

/-- A new message is accepted just when its derived identity is free. -/
theorem accept_ok (unnamed : input.messageId = none) (checked : assertEnqueueInput input = .ok ()) :
    (∃ result, mailbox.accept hash input = .ok result) ↔
      ∀ message ∈ mailbox.messagesById, message.id ≠ mailbox.derivedId hash input.recipientAgentId (mailbox.inputMaterial input) := by
  unfold accept
  rw [messageIdOf_unnamed unnamed checked, ← Keyed.find?_eq_none]
  simp only [bind, Except.bind]
  split
  · next taken =>
    have present := Option.isSome_iff_ne_none.mp taken
    constructor
    · rintro ⟨_, done⟩
      cases done
    · exact fun free => absurd free present
  · next free => exact ⟨fun _ => Option.not_isSome_iff_eq_none.mp free, fun _ => ⟨_, rfl⟩⟩

theorem enqueue_of_new (none : mailbox.existingId input = none) (checked : assertEnqueueInput input = .ok ()) :
    mailbox.enqueue hash input = mailbox.accept hash input := by
  unfold enqueue
  rw [checked, none]
  rfl

/-- The retry of a message whose payload has a canonical text is answered. -/
theorem retries_of_same (unnamed : input.messageId = none) (holds : Holds message input) (same : SameContent message input)
    (finite : input.payload.isFinite = true) : Retries message input where
  key := ⟨holds.2.1 ▸ holds.2.2, holds.2.1.symm⟩
  recipient := holds.1.symm
  sender := same.1.symm
  kind := same.2.1.symm
  payload := by
    rcases same.2.2 with equal | texts
    · obtain ⟨text, done⟩ := (canonicalJson_ok input.payload).mpr finite
      exact ⟨text, equal ▸ done, done⟩
    · exact texts
  id messageId named := by
    rw [unnamed] at named
    cases named

/-- An input without an explicit id gets its message, or meets its own key with other content, exactly when it
meets no message by accident. -/
theorem enqueue_unless_key_used_iff (injective : Function.Injective hash) (loaded : restore snapshot = .ok start)
    (reached : Reached start (perform hash) (fun _ _ => True) mailbox) (unnamed : input.messageId = none)
    (checked : assertEnqueueInput input = .ok ()) :
    ((∃ result, mailbox.enqueue hash input = .ok result) ∨ mailbox.KeyUsed input) ↔ Unambiguous hash mailbox input := by
  have indexed : mailbox.Indexed := reached.invariant (restore_ok loaded).1 fun _ call _ indexed _ => indexed.afterCall hash call
  constructor
  · intro either
    by_cases held : ∃ message ∈ mailbox.messagesById, Holds message input
    · obtain ⟨message, stored, holds⟩ := held
      refine ⟨fun other listed same content => ?_, fun free => absurd holds (free message stored)⟩
      have equal := eq_of_sharesKey indexed stored listed (sharesKey_of_holds holds) (sharesKey_of_holds same)
      subst equal
      rcases either with ⟨⟨returned, mailbox'⟩, done⟩ | ⟨used, present, same, differs⟩
      · cases found : mailbox.existingId input with
        | none => exact absurd (sharesKey_of_holds holds) ((existingId_none indexed).mp found message stored)
        | some existingId => exact (holds_of_retry found done).2.2
      · have equal := eq_of_sharesKey indexed stored present (sharesKey_of_holds holds) (sharesKey_of_holds same)
        subst equal
        exact absurd content differs
    · refine ⟨fun message stored holds => absurd ⟨message, stored, holds⟩ held, fun _ => ?_⟩
      rcases either with ⟨⟨returned, mailbox'⟩, done⟩ | ⟨used, present, holds, -⟩
      · cases found : mailbox.existingId input with
        | none =>
          rw [enqueue_of_new found checked] at done
          have free := (accept_ok unnamed checked).mp ⟨_, done⟩
          exact fun message stored => ⟨(existingId_none indexed).mp found message stored,
            fun occupies => free message stored ((occupies_iff injective).mp occupies)⟩
        | some existingId =>
          obtain ⟨stored, holds, -⟩ := holds_of_retry found done
          exact absurd ⟨returned, stored, holds⟩ held
      · exact absurd ⟨used, present, holds⟩ held
  · intro unambiguous
    by_cases held : ∃ message ∈ mailbox.messagesById, Holds message input
    · obtain ⟨message, stored, holds⟩ := held
      by_cases same : SameContent message input
      · have retries := retries_of_same unnamed holds same (unambiguous.finite message stored holds same)
        exact .inl ⟨_, enqueue_of_retries indexed stored retries checked⟩
      · exact .inr ⟨message, stored, holds, same⟩
    · have apart := unambiguous.apart fun message stored holds => held ⟨message, stored, holds⟩
      have fresh : mailbox.existingId input = none := (existingId_none indexed).mpr fun message stored => (apart message stored).1
      rw [enqueue_of_new fresh checked]
      exact .inl ((accept_ok unnamed checked).mpr fun message stored taken => (apart message stored).2 ((occupies_iff injective).mpr taken))

def keyedMessage : EnqueueAgentMessageInput where
  recipientAgentId := "agent-1"
  kind := .input
  payload := .string "keyed"
  createdAt := "t1"
  idempotencyKey := some "2"

def unkeyedMessage : EnqueueAgentMessageInput where
  recipientAgentId := "agent-1"
  kind := .input
  payload := .string "unkeyed"
  createdAt := "t2"

theorem enqueue_unless_key_used_iff_keyed :
    let mailbox := (empty "run-1").perform id (.enqueue keyedMessage)
    ((∃ result, mailbox.enqueue id unkeyedMessage = .ok result) ∨ mailbox.KeyUsed unkeyedMessage) ↔
      Unambiguous id mailbox unkeyedMessage := by
  have loaded : restore ⟨"run-1", 1, []⟩ = .ok (empty "run-1") := rfl
  exact enqueue_unless_key_used_iff Function.injective_id loaded (.step (MailboxCall.enqueue keyedMessage) .start trivial) rfl rfl

/-- A message under the key "2" takes the identity of the second message without a key. -/
theorem keyed_message_blocks_unkeyed :
    ¬∀ (hash : String → String) (mailbox : AgentMailbox) (input : EnqueueAgentMessageInput), Function.Injective hash →
      Reached (empty "run-1") (perform hash) (fun _ _ => True) mailbox → input.messageId = none → assertEnqueueInput input = .ok () →
        (∃ result, mailbox.enqueue hash input = .ok result) ∨ mailbox.KeyUsed input := by
  intro always
  have either := always id ((empty "run-1").perform id (.enqueue keyedMessage)) unkeyedMessage Function.injective_id
    (.step (MailboxCall.enqueue keyedMessage) .start trivial) rfl rfl
  rcases either with ⟨result, done⟩ | ⟨message, _, holds, _⟩
  · have refused : (((empty "run-1").perform id (.enqueue keyedMessage)).enqueue id unkeyedMessage).isOk = false := by decide +kernel
    rw [done] at refused
    cases refused
  · exact absurd holds.2.2 (by decide)

end Inputs

end AgentMailbox

end OttiliCoder.Agents
