import Mathlib.Data.List.Induction
import OttiliCoder.Proofs.Sound

/-! The agents' mailbox: what agents send and receive over a whole history, and what the
store keeps of it. -/

namespace OttiliCoder
open Relational Transaction

/-! One call. -/

def AgentMessageRow.handOver (message : AgentMessageRow) (now : IsoTimestamp) : AgentMessageRow :=
  { message with status := .delivered, deliveredAt := some now }

theorem handOver_key {now : IsoTimestamp} (message : AgentMessageRow) :
    key .agentMessages (message.handOver now) = key .agentMessages message := rfl

/-- The message as its sender wrote it. -/
def AgentMessageRow.asSent (message : AgentMessageRow) : AgentMessageRow :=
  { message with status := .pending, deliveredAt := none }

def newMessage (input : SendAgentMessageInput) (uuid : String) (now : IsoTimestamp) : AgentMessageRow where
  id := createId .agentMessage (input.lease.runId ++ ":" ++ uuid)
  runId := input.lease.runId
  fromAgentId := input.fromAgentId
  toAgentId := input.toAgentId
  taskId := input.taskId
  kind := input.kind
  body := input.body
  status := .pending
  leaseGeneration := input.lease.generation
  createdAt := now

def inbox (s : Store) (agentId : AgentId) : List AgentMessageRow :=
  (s .agentMessages).rows.filter fun message => message.toAgentId == agentId

def waiting (s : Store) (agentId : AgentId) : List AgentMessageRow :=
  (inbox s agentId).filter fun message => message.status == .pending

/-- The event says that the message was delivered. -/
def RunEventRow.announces (event : RunEventRow) (id : AgentMessageId) : Bool :=
  event.type == .agentMessageDelivered && JsonObject.text? event.payload "messageId" == some id

def announcements (s : Store) (id : AgentMessageId) : List RunEventRow :=
  (s .runEvents).rows.filter fun event => event.announces id

section Calls
variable {s s' : Store} {clock : Date} {uuid : String} {u : Unit}

theorem announcements_of_journaled {row : RunEventRow} {id : AgentMessageId} (journaled : Journaled s s' row) :
    announcements s' id = announcements s id ++ [row].filter fun event => event.announces id := by
  rw [announcements, journaled.events, Keyed.insert_rows journaled.fresh, List.filter_append]
  rfl

theorem announcements_of_same {id : AgentMessageId} (same : s' .runEvents = s .runEvents) :
    announcements s' id = announcements s id := by
  rw [announcements, same]
  rfl

structure Sends (s s' : Store) (message : AgentMessageRow) : Prop where
  recipient : ∃ agent, (s .agents).find? message.toAgentId = some agent ∧ agent.runId = message.runId
  fresh : (s .agentMessages).find? message.id = none
  messages : s' .agentMessages = (s .agentMessages).insert message

theorem sendAgentMessage_sends {input : SendAgentMessageInput} {message : AgentMessageRow}
    (returned : sendAgentMessage input uuid clock s = .ok message s') :
    message = newMessage input uuid clock.toISOString ∧ Sends s s' message := by
  simp only [sendAgentMessage, transaction_ok, bind_ok, assertLeaseInternal_ok, mustAgentOfLease_ok, given_ok,
    insert_ok, must_ok, pure_ok] at returned
  obtain ⟨_, _, ⟨-, rfl⟩, _, _, ⟨agent, found, mine, -, rfl⟩, _, middle, sender, _, _, ⟨admitted, rfl⟩, event, s₁,
    appended, found', same⟩ := returned
  subst same
  have messages := appended_other (t := .agentMessages) appended (by simp) (by simp)
  rw [messages, Db.set_same, Keyed.find?_insert admitted.fresh, if_pos rfl] at found'
  cases found'
  rcases sender with ⟨-, rfl⟩ | ⟨_, -, _, _, ⟨_, -, -, -, rfl⟩, -, rfl⟩
  · exact ⟨rfl, ⟨agent, found, mine⟩, admitted.fresh, by rw [messages, Db.set_same]⟩
  · exact ⟨rfl, ⟨agent, found, mine⟩, admitted.fresh, by rw [messages, Db.set_same]⟩

/-! Draining an inbox. -/

/-- One turn of the loop that drains an inbox. -/
def deliverOne (input : ReceiveAgentMessagesInput) (now : IsoTimestamp) (message : AgentMessageRow) : StoreM PUnit := do
  updateRow .agentMessages message.id fun row => { row with status := .delivered, deliveredAt := some now }
  let _ ← appendEventInternal input.lease.runId .agentMessageDelivered
    [("messageId", .string message.id), ("toAgentId", .string input.agentId)] now (some input.lease.generation)

/-- The messages of the batch are handed over, each with its announcement. -/
structure Delivers (s s' : Store) (batch : List AgentMessageRow) (now : IsoTimestamp) : Prop where
  messages : s' .agentMessages =
    (s .agentMessages).update (fun row => batch.any fun message => row.id == message.id) (·.handOver now) handOver_key
  announced : ∀ id, (announcements s' id).length = (announcements s id).length + (batch.map (·.id)).count id

theorem deliverOne_delivers {input : ReceiveAgentMessagesInput} {now : IsoTimestamp} {message : AgentMessageRow}
    (returned : deliverOne input now message s = .ok u s') : Delivers s s' [message] now := by
  simp only [deliverOne, bind_ok, update_ok, pure_ok] at returned
  obtain ⟨_, middle, rfl, event, _, appended, -, rfl⟩ := returned
  obtain ⟨row, journaled, -, type, payload⟩ := appended_journaled appended
  refine ⟨?_, fun id => ?_⟩
  · rw [appended_other appended (by simp) (by simp), Db.set_same]
    simp only [List.any_cons, List.any_nil, Bool.or_false]
    rfl
  · rw [announcements_of_journaled journaled, List.length_append, announcements_of_same (Db.set_other _ _ (by simp))]
    congr 1
    by_cases same : message.id = id
    · simp [RunEventRow.announces, type, payload, JsonObject.text?, JsonObject.get?, Json.asString, same]
    · simp [RunEventRow.announces, type, payload, JsonObject.text?, JsonObject.get?, Json.asString, same]

theorem deliverAll_delivers {input : ReceiveAgentMessagesInput} {now : IsoTimestamp} {batch : List AgentMessageRow}
    (looped : batch.forM (deliverOne input now) s = .ok u s') : Delivers s s' batch now := by
  induction batch generalizing s with
  | nil =>
    obtain ⟨-, rfl⟩ := pure_ok.mp looped
    exact ⟨by simp only [List.any_nil, Keyed.update_none], fun id => by simp⟩
  | cons message rest ih =>
    obtain ⟨_, middle, first, others⟩ := bind_ok.mp looped
    have one := deliverOne_delivers first
    have later := ih others
    refine ⟨?_, fun id => ?_⟩
    · have joined := @Keyed.update_update _ _ (key .agentMessages) (s .agentMessages)
        (fun id => [message].any fun other => id == other.id) (fun id => rest.any fun other => id == other.id)
        (·.handOver now) handOver_key fun _ => rfl
      rw [later.messages, one.messages, joined]
      simp only [List.any_cons, List.any_nil, Bool.or_false]
    · rw [later.announced, one.announced]
      simp only [List.map_cons, List.map_nil, List.count_cons, List.count_nil]
      omega

theorem receiveAgentMessages_delivers {input : ReceiveAgentMessagesInput} {messages : List AgentMessageRow}
    (returned : receiveAgentMessages input clock s = .ok messages s') :
    ∃ batch, messages = batch.map (·.handOver clock.toISOString) ∧ Delivers s s' batch clock.toISOString ∧
      batch = limitRows (input.limit.getD 32)
        (((s .agentMessages).rows.filter fun row => row.toAgentId == input.agentId &&
          row.runId == input.lease.runId && row.status == .pending).insertionSort
            fun row other => row.createdAt ≤ other.createdAt) := by
  simp only [receiveAgentMessages, transaction_ok, bind_ok, assertLeaseInternal_ok, select_ok, pure_ok] at returned
  obtain ⟨_, _, ⟨-, rfl⟩, _, _, ⟨rfl, rfl⟩, _, _, looped, rfl, rfl⟩ := returned
  exact ⟨_, rfl, deliverAll_delivers looped, rfl⟩

end Calls

/-! What one call does to an inbox. -/

/-- Every message is of the Run of its recipient. -/
def MessagesHome (s : Store) : Prop := ∀ message ∈ s .agentMessages,
  ∃ agent, (s .agents).find? message.toAgentId = some agent ∧ agent.runId = message.runId

/-- The messages are stored in the order of their timestamps. -/
def InOrder (s : Store) : Prop := (s .agentMessages).rows.Pairwise fun message later => message.createdAt ≤ later.createdAt

section Inbox
variable {s s' : Store} {agentId : AgentId} {message : AgentMessageRow} {batch : List AgentMessageRow} {now : IsoTimestamp}

theorem mem_inbox : message ∈ inbox s agentId ↔ message ∈ s .agentMessages ∧ message.toAgentId = agentId := by
  simp [inbox, Keyed.mem_def]

theorem mem_waiting : message ∈ waiting s agentId ↔ message ∈ inbox s agentId ∧ message.status = .pending := by
  simp [waiting]

theorem inbox_of_same (same : s' .agentMessages = s .agentMessages) : inbox s' agentId = inbox s agentId := by
  rw [inbox, same]
  rfl

theorem inbox_nodup : ((inbox s agentId).map (·.id)).Nodup :=
  (s .agentMessages).unique.sublist (List.filter_sublist.map _)

theorem Sends.inbox (sends : Sends s s' message) :
    inbox s' agentId = inbox s agentId ++ [message].filter fun message => message.toAgentId == agentId := by
  rw [OttiliCoder.inbox, sends.messages, Keyed.insert_rows sends.fresh, List.filter_append]
  rfl

/-- A message of the store is in a batch of stored messages when its id is. -/
theorem any_id (stored : ∀ other ∈ batch, other ∈ s .agentMessages) (member : message ∈ s .agentMessages) :
    (batch.any fun other => message.id == other.id) = true ↔ message ∈ batch := by
  rw [List.any_eq_true]
  constructor
  · rintro ⟨other, inside, same⟩
    rwa [Keyed.eq_of_key member (stored other inside) (eq_of_beq same)]
  · exact fun inside => ⟨message, inside, beq_self_eq_true _⟩

open Classical in
theorem Delivers.inbox (delivers : Delivers s s' batch now) (stored : ∀ other ∈ batch, other ∈ s .agentMessages) :
    inbox s' agentId =
      (inbox s agentId).map fun message => if message ∈ batch then message.handOver now else message := by
  rw [OttiliCoder.inbox, delivers.messages, Keyed.update, List.filter_map, OttiliCoder.inbox]
  have recipients : (fun message : AgentMessageRow => message.toAgentId == agentId) ∘
      (fun message => if (batch.any fun other => message.id == other.id) = true then message.handOver now else message) =
        fun message => message.toAgentId == agentId := by
    funext message
    simp only [Function.comp_apply]
    split <;> rfl
  rw [recipients]
  refine List.map_congr_left fun message member => ?_
  have inside : message ∈ s .agentMessages := (List.mem_filter.mp member).1
  simp only [any_id stored inside]

/-- A drain of another inbox leaves this one alone. -/
theorem Delivers.inbox_other (delivers : Delivers s s' batch now) {other : AgentId}
    (mine : ∀ message ∈ batch, message ∈ waiting s other) (apart : agentId ≠ other) :
    OttiliCoder.inbox s' agentId = OttiliCoder.inbox s agentId := by
  have stored : ∀ message ∈ batch, message ∈ s .agentMessages := by
    intro message inside
    exact (mem_inbox.mp (mem_waiting.mp (mine message inside)).1).1
  rw [delivers.inbox stored]
  conv_rhs => rw [← List.map_id (OttiliCoder.inbox s agentId)]
  refine List.map_congr_left fun message member => ?_
  refine if_neg fun inside => apart ?_
  rw [← (mem_inbox.mp member).2, (mem_inbox.mp (mem_waiting.mp (mine message inside)).1).2]

/-- What a drain selects is the start of the queue. -/
theorem selected_waiting (home : MessagesHome s) (order : InOrder s) (agentId : AgentId) (runId : RunId) (limit : Int) :
    ∃ count, limitRows limit (((s .agentMessages).rows.filter fun row => row.toAgentId == agentId &&
      row.runId == runId && row.status == .pending).insertionSort fun row other => row.createdAt ≤ other.createdAt) =
        (waiting s agentId).take count := by
  have sorted : ((s .agentMessages).rows.filter fun row => row.toAgentId == agentId &&
      row.runId == runId && row.status == .pending).insertionSort (fun row other => row.createdAt ≤ other.createdAt) =
        (waiting s agentId).filter fun row => row.runId == runId := by
    rw [List.Pairwise.insertionSort_eq (order.sublist List.filter_sublist), waiting, inbox, List.filter_filter,
      List.filter_filter]
    refine List.filter_congr fun row _ => ?_
    cases row.toAgentId == agentId <;> cases row.runId == runId <;> cases row.status == .pending <;> rfl
  rw [sorted]
  have all_or_none : (waiting s agentId).filter (fun row => row.runId == runId) = waiting s agentId ∨
      (waiting s agentId).filter (fun row => row.runId == runId) = [] := by
    by_cases known : ∃ agent, (s .agents).find? agentId = some agent ∧ agent.runId = runId
    · obtain ⟨agent, found, mine⟩ := known
      refine .inl (List.filter_eq_self.mpr fun row member => ?_)
      obtain ⟨stored, recipient⟩ := mem_inbox.mp (mem_waiting.mp member).1
      obtain ⟨other, found', homed⟩ := home row stored
      rw [recipient, found] at found'
      cases found'
      exact beq_iff_eq.mpr (homed.symm.trans mine)
    · refine .inr (List.filter_eq_nil_iff.mpr fun row member same => known ?_)
      obtain ⟨stored, recipient⟩ := mem_inbox.mp (mem_waiting.mp member).1
      obtain ⟨agent, found, homed⟩ := home row stored
      exact ⟨agent, recipient ▸ found, homed.trans (eq_of_beq same)⟩
  unfold limitRows
  split
  · rcases all_or_none with all | none
    · exact ⟨(waiting s agentId).length, by rw [all, List.take_length]⟩
    · exact ⟨0, by rw [none, List.take_zero]⟩
  · rcases all_or_none with all | none
    · exact ⟨limit.toNat, by rw [all]⟩
    · exact ⟨0, by rw [none, List.take_nil, List.take_zero]⟩

end Inbox

/-! The queue of one agent over a history. -/

/-- The clock readings of a call, in the order it takes them. -/
def Call.readings : Call → List Date
  | .createRun _ _ _ clock | .transitionRun _ clock | .setGoalStatus _ clock | .pause _ _ clock | .resume _ _ clock
  | .cancel _ _ clock | .recordSteeringInput _ clock | .proposeCompletion _ clock | .acquireLease _ clock
  | .renewLease _ _ clock | .appendFencedEvent _ clock | .acquireResourceLocks _ clock | .claimTask _ clock
  | .addTaskEvidence _ clock | .createTask _ _ clock | .transitionTask _ clock | .recoverGraphWork _ clock
  | .markAgentActive _ clock | .spawnAgent _ _ clock | .transitionAgent _ clock | .setAgentWorktree _ clock
  | .sendAgentMessage _ _ clock | .receiveAgentMessages _ clock | .startSessionEpoch _ clock | .endSessionEpoch _ clock
  | .addRequirement _ _ clock | .addEvidence _ _ clock | .recordValidation _ _ clock | .requestApproval _ _ clock
  | .resolveApproval _ clock | .recordProblem _ _ clock | .createMilestone _ _ clock | .recordDecision _ _ clock
  | .recordGitChange _ _ clock | .recordCost _ _ clock | .setRecoveryState _ clock | .createContextSnapshot _ _ clock
  | .recordUsage _ _ clock | .recordUsageFenced _ _ _ clock | .recordToolIntent _ _ clock | .completeToolCall _ clock
  | .reconcileInterruptedToolCalls _ clock | .recoverClaimedWork _ clock | .createCheckpoint _ _ clock
  | .recordCheckpointRestore _ clock | .scheduleWake _ _ clock | .wakeDueRuns clock | .claimContinuation _ clock
  | .settleContinuation _ clock => [clock]
  | .executeCommand _ clock ensured recorded => [clock, ensured, recorded]
  | .setRequirementStatus _ clock updated => [clock, updated]
  | .addArtifact _ _ clock checked | .addMemoryEntry _ _ clock checked => [clock, checked]
  | .releaseResourceLocks _ _ _ => []

/-- The result of a computation that returns. -/
def resultOf {α : Type} (m : StoreM α) (s : Store) : Option α :=
  match m s with
  | .ok a _ => some a
  | .error _ _ => none

/-- The message a call sends to the agent. -/
def Call.sends (agentId : AgentId) (s : Store) : Call → List AgentMessageRow
  | .sendAgentMessage input uuid clock =>
    (resultOf (OttiliCoder.sendAgentMessage input uuid clock) s).toList.filter fun message => message.toAgentId == agentId
  | _ => []

/-- The messages the agent gets from a call. -/
def Call.receipts (agentId : AgentId) (s : Store) : Call → List AgentMessageRow
  | .receiveAgentMessages input clock =>
    if input.agentId = agentId then (resultOf (OttiliCoder.receiveAgentMessages input clock) s).getD [] else []
  | _ => []

/-- Every message sent to the agent, in the order of sending. -/
def sent (history : List Call) (agentId : AgentId) : List AgentMessageRow :=
  observed Call.perform (Call.sends agentId) Store.empty history

/-- Everything the agent has received, in the order of receiving. -/
def received (history : List Call) (agentId : AgentId) : List AgentMessageRow :=
  observed Call.perform (Call.receipts agentId) Store.empty history

/-- The inbox holds what was sent: first what the agent has received, then what is waiting. -/
structure Queue (s : Store) (agentId : AgentId) (sent received : List AgentMessageRow) : Prop where
  rows : inbox s agentId = received ++ waiting s agentId
  done : ∀ message ∈ received, message.status = .delivered
  sent : (inbox s agentId).map (·.asSent) = sent

section Queues
variable {s s' : Store} {agentId : AgentId} {message : AgentMessageRow} {batch sent got : List AgentMessageRow}
  {now : IsoTimestamp}

theorem Queue.of_same (queue : Queue s agentId sent got) (same : inbox s' agentId = inbox s agentId) :
    Queue s' agentId sent got := by
  have waits : waiting s' agentId = waiting s agentId := by rw [waiting, same, waiting]
  exact ⟨by rw [same, waits, queue.rows], queue.done, by rw [same, queue.sent]⟩

theorem Queue.sends (queue : Queue s agentId sent got) (sends : Sends s s' message) (new : message.asSent = message) :
    Queue s' agentId (sent ++ [message].filter fun message => message.toAgentId == agentId) got := by
  have pending : message.status = .pending := by rw [← new]; rfl
  by_cases mine : message.toAgentId = agentId
  · have rows : inbox s' agentId = inbox s agentId ++ [message] := by rw [sends.inbox]; simp [mine]
    have waits : waiting s' agentId = waiting s agentId ++ [message] := by
      rw [waiting, rows, List.filter_append, waiting]
      simp [pending]
    refine ⟨?_, queue.done, ?_⟩
    · rw [rows, waits, queue.rows, List.append_assoc]
    · rw [rows, List.map_append, queue.sent]
      simp [mine, new]
  · have rows : inbox s' agentId = inbox s agentId := by rw [sends.inbox]; simp [mine]
    have same : [message].filter (fun message => message.toAgentId == agentId) = [] := by simp [mine]
    rw [same, List.append_nil]
    exact queue.of_same rows

theorem Queue.delivers (queue : Queue s agentId sent got) {count : Nat}
    (delivers : Delivers s s' ((waiting s agentId).take count) now) :
    Queue s' agentId sent (got ++ ((waiting s agentId).take count).map (·.handOver now)) := by
  classical
  have stored : ∀ other ∈ (waiting s agentId).take count, other ∈ s .agentMessages := by
    intro other inside
    exact (mem_inbox.mp (mem_waiting.mp (List.mem_of_mem_take inside)).1).1
  have split : inbox s agentId = got ++ (waiting s agentId).take count ++ (waiting s agentId).drop count := by
    rw [List.append_assoc, List.take_append_drop, queue.rows]
  have distinct : (inbox s agentId).Nodup := inbox_nodup.of_map
  rw [split, List.nodup_append, List.nodup_append] at distinct
  have before : ∀ other ∈ got, other ∉ (waiting s agentId).take count :=
    fun other member inside => distinct.1.2.2 other member other inside rfl
  have behind : ∀ other ∈ (waiting s agentId).drop count, other ∉ (waiting s agentId).take count :=
    fun other member inside => distinct.2.2 other (List.mem_append_right _ inside) other member rfl
  have rows : inbox s' agentId =
      got ++ ((waiting s agentId).take count).map (·.handOver now) ++ (waiting s agentId).drop count := by
    rw [delivers.inbox stored, split, List.map_append, List.map_append]
    congr 1
    · congr 1
      · conv_rhs => rw [← List.map_id got]
        exact List.map_congr_left fun other member => if_neg (before other member)
      · exact List.map_congr_left fun other member => if_pos member
    · conv_rhs => rw [← List.map_id ((waiting s agentId).drop count)]
      exact List.map_congr_left fun other member => if_neg (behind other member)
  have waits : waiting s' agentId = (waiting s agentId).drop count := by
    rw [waiting, rows, List.filter_append, List.filter_append]
    have none : got.filter (fun message => message.status == .pending) = [] :=
      List.filter_eq_nil_iff.mpr fun other member => by simp [queue.done other member]
    have taken : (((waiting s agentId).take count).map (·.handOver now)).filter (fun message => message.status == .pending) =
        [] := by
      refine List.filter_eq_nil_iff.mpr fun other member => ?_
      obtain ⟨old, -, rfl⟩ := List.mem_map.mp member
      simp [AgentMessageRow.handOver]
    have left : ((waiting s agentId).drop count).filter (fun message => message.status == .pending) =
        (waiting s agentId).drop count :=
      List.filter_eq_self.mpr fun other member => by simp [(mem_waiting.mp (List.mem_of_mem_drop member)).2]
    rw [none, taken, left, List.nil_append, List.nil_append]
  refine ⟨by rw [rows, waits], ?_, ?_⟩
  · intro other member
    rcases List.mem_append.mp member with older | newer
    · exact queue.done other older
    · obtain ⟨old, -, rfl⟩ := List.mem_map.mp newer
      rfl
  · rw [delivers.inbox stored, List.map_map, ← queue.sent]
    refine List.map_congr_left fun other _ => ?_
    simp only [Function.comp_apply]
    split <;> rfl

theorem resultOf_ok {α : Type} {m : StoreM α} {a : α} (returned : m s = .ok a s') : resultOf m s = some a := by
  simp [resultOf, returned]

theorem resultOf_throws {α : Type} {m : StoreM α} (thrown : Throws m s) : resultOf m s = none := by
  obtain ⟨e, s', failed⟩ := thrown
  simp [resultOf, failed]

end Queues

/-! What one call does to the mailbox. -/

/-- An executor's own event can be of any type, that of a delivery too. -/
def Call.forgesDelivery : Call → Bool
  | .appendFencedEvent input _ => input.type == .agentMessageDelivered
  | _ => false

/-- A call sends one message, hands a batch over, or leaves the mailbox alone. -/
inductive Mail (s : Store) (call : Call) : Prop
  | silent (same : (call.perform s) .agentMessages = s .agentMessages) (sends : ∀ agentId, call.sends agentId s = [])
      (receipts : ∀ agentId, call.receipts agentId s = [])
      (announced : call.forgesDelivery = false → ∀ id, announcements (call.perform s) id = announcements s id)
  | sends {message : AgentMessageRow} (sends : Sends s (call.perform s) message) (new : message.asSent = message)
      (mail : ∀ agentId, call.sends agentId s = [message].filter fun message => message.toAgentId == agentId)
      (receipts : ∀ agentId, call.receipts agentId s = [])
      (announced : ∀ id, announcements (call.perform s) id = announcements s id)
      (now : call.readings.map Date.toISOString = [message.createdAt])
  | delivers {input : ReceiveAgentMessagesInput} {batch : List AgentMessageRow} {now : IsoTimestamp}
      (delivers : Delivers s (call.perform s) batch now) (sends : ∀ agentId, call.sends agentId s = [])
      (receipts : ∀ agentId, call.receipts agentId s = if input.agentId = agentId then batch.map (·.handOver now) else [])
      (chosen : batch = limitRows (input.limit.getD 32)
        (((s .agentMessages).rows.filter fun row => row.toAgentId == input.agentId &&
          row.runId == input.lease.runId && row.status == .pending).insertionSort
            fun row other => row.createdAt ≤ other.createdAt))

section Steps
variable {s s' : Store} {agentId : AgentId}

theorem Moves.announcements {touched : RunId → Prop} {kinds : Kind → Prop} (moves : Moves touched kinds s s')
    (silent : ∀ k, kinds k → k.eventType ≠ some .agentMessageDelivered) (id : AgentMessageId) :
    announcements s' id = announcements s id := by
  let Same (other : Store) : Prop := OttiliCoder.announcements other id = OttiliCoder.announcements s id
  have step : ∀ k s s', kinds k → Effect k s s' → Same s → Same s' := by
    intro k s₁ s₂ can effect same
    rcases effect.journal_step with kept | ⟨row, journaled, type⟩
    · exact (announcements_of_same kept).trans same
    · have other : row.type ≠ .agentMessageDelivered := fun delivered => silent k can (delivered ▸ type)
      have quiet : [row].filter (fun event => event.announces id) = [] := by simp [RunEventRow.announces, other]
      change OttiliCoder.announcements s₂ id = _
      rw [announcements_of_journaled journaled, quiet, List.append_nil]
      exact same
  exact moves.keeps step rfl

theorem Call.announcements_same {call : Call} (silent : call.journals .agentMessageDelivered = false)
    (id : AgentMessageId) : announcements (call.perform s) id = announcements s id := by
  refine (Call.moves s call).announcements (fun k can delivered => ?_) id
  have none := List.any_eq_false.mp silent k can
  simp [delivered] at none

theorem Call.mail (s : Store) (call : Call) : Mail s call := by
  cases call with
  | sendAgentMessage input uuid clock =>
    have atomic : Atomic (OttiliCoder.sendAgentMessage input uuid clock) := .transaction _
    have done : (Call.sendAgentMessage input uuid clock).perform s =
        after (OttiliCoder.sendAgentMessage input uuid clock) s := after_map _
    have announced : ∀ id, announcements ((Call.sendAgentMessage input uuid clock).perform s) id = announcements s id :=
      Call.announcements_same rfl
    rcases atomic.cases (s := s) with ⟨message, returned⟩ | ⟨thrown, same⟩
    · rw [← done] at returned
      obtain ⟨new, sends⟩ := sendAgentMessage_sends returned
      refine .sends sends (by rw [new]; rfl) (fun agentId => ?_) (fun _ => rfl) announced (by rw [new]; rfl)
      simp only [Call.sends, resultOf_ok returned, Option.toList_some]
    · refine .silent (by rw [done, same]) (fun agentId => ?_) (fun _ => rfl) fun _ => announced
      simp only [Call.sends, resultOf_throws thrown, Option.toList_none, List.filter_nil]
  | receiveAgentMessages input clock =>
    have atomic : Atomic (OttiliCoder.receiveAgentMessages input clock) := .transaction _
    have done : (Call.receiveAgentMessages input clock).perform s =
        after (OttiliCoder.receiveAgentMessages input clock) s := after_map _
    rcases atomic.cases (s := s) with ⟨messages, returned⟩ | ⟨thrown, same⟩
    · rw [← done] at returned
      obtain ⟨batch, rfl, delivers, chosen⟩ := receiveAgentMessages_delivers returned
      refine .delivers delivers (fun _ => rfl) (fun agentId => ?_) chosen
      simp only [Call.receipts, resultOf_ok returned, Option.getD_some]
    · refine .silent (by rw [done, same]) (fun _ => rfl) (fun agentId => ?_) fun _ id => by rw [done, same]
      simp only [Call.receipts, resultOf_throws thrown, Option.getD_none, ite_self]
  | appendFencedEvent input clock =>
    refine .silent (Call.frame _ (Call.appendFencedEvent_writes rfl rfl)) (fun _ => rfl) (fun _ => rfl) fun honest id => ?_
    refine Call.announcements_same ?_ id
    simp only [Call.journals, Call.kinds]
    split
    · simp only [List.any_cons, List.any_nil, Kind.eventType, Bool.or_false]
      exact honest
    · simp only [List.any_cons, List.any_nil, Kind.eventType, Bool.or_false]
      exact honest
  | _ => exact .silent (Call.frame _ rfl) (fun _ => rfl) (fun _ => rfl) fun _ => Call.announcements_same rfl

theorem Call.agent_kept (call : Call) {id : AgentId} {agent : AgentRow} (found : (s .agents).find? id = some agent) :
    ∃ agent', ((call.perform s) .agents).find? id = some agent' ∧ agent'.runId = agent.runId := by
  let Kept (s : Store) : Prop := ∃ agent', (s .agents).find? id = some agent' ∧ agent'.runId = agent.runId
  have step : ∀ k s s', k ∈ call.kinds → Effect k s s' → Kept s → Kept s' := by
    rintro k s s' _ effect ⟨middle, there, same⟩
    obtain ⟨last, found', kept⟩ := (effect.agents id).later there
    exact ⟨last, found', kept.run.trans same⟩
  exact (Call.moves s call).keeps step ⟨agent, found, rfl⟩

theorem Call.messages_home (call : Call) (home : MessagesHome s) : MessagesHome (call.perform s) := by
  have kept : ∀ message ∈ s .agentMessages, ∃ agent, ((call.perform s) .agents).find? message.toAgentId = some agent ∧
      agent.runId = message.runId := by
    intro message member
    obtain ⟨agent, found, homed⟩ := home message member
    obtain ⟨agent', found', same⟩ := call.agent_kept found
    exact ⟨agent', found', same.trans homed⟩
  intro message member
  cases call.mail s with
  | silent same => exact kept message (same ▸ member)
  | sends sends =>
    rw [sends.messages, Keyed.mem_insert sends.fresh] at member
    rcases member with older | rfl
    · exact kept message older
    · obtain ⟨agent, found, homed⟩ := sends.recipient
      obtain ⟨agent', found', same⟩ := call.agent_kept found
      exact ⟨agent', found', same.trans homed⟩
  | delivers delivers =>
    rw [delivers.messages] at member
    obtain ⟨old, inside, rfl⟩ := Keyed.mem_update.mp member
    split
    · exact kept old inside
    · exact kept old inside

theorem messagesHome_reached (reached : Reachable s) : MessagesHome s :=
  reached.invariant (fun _ member => absurd member Keyed.not_mem_empty) fun _ call _ home _ => call.messages_home home

/-- The stored timestamps are readings of the history, in its order. -/
theorem createdAt_sublist (history : List Call) :
    (((storeAfter history) .agentMessages).rows.map (·.createdAt)).Sublist
      (history.flatMap fun call => call.readings.map Date.toISOString) := by
  induction history using List.reverseRecOn with
  | nil => exact .refl _
  | append_singleton before call ih =>
    rw [storeAfter_concat, List.flatMap_append, List.flatMap_singleton]
    cases call.mail (storeAfter before) with
    | silent same =>
      rw [same]
      exact ih.trans (List.sublist_append_left _ _)
    | sends sends _ _ _ _ now =>
      rw [sends.messages, Keyed.insert_rows sends.fresh, List.map_append, now]
      exact ih.append (.refl _)
    | delivers delivers =>
      have same : ((call.perform (storeAfter before)) .agentMessages).rows.map (·.createdAt) =
          ((storeAfter before) .agentMessages).rows.map (·.createdAt) := by
        rw [delivers.messages, Keyed.update, List.map_map]
        refine List.map_congr_left fun message _ => ?_
        simp only [Function.comp_apply]
        split <;> rfl
      rw [same]
      exact ih.trans (List.sublist_append_left _ _)

/-- Every clock reading is followed only by readings in this order. -/
def Readings (order : Date → Date → Prop) (history : List Call) : Prop :=
  (history.flatMap Call.readings).Pairwise order

instance (order : Date → Date → Prop) [DecidableRel order] (history : List Call) : Decidable (Readings order history) :=
  inferInstanceAs (Decidable (List.Pairwise _ _))

theorem inOrder_after {history : List Call}
    (ordered : Readings (fun earlier later => earlier.toISOString ≤ later.toISOString) history) :
    InOrder (storeAfter history) := by
  have texts : (history.flatMap fun call => call.readings.map Date.toISOString).Pairwise (· ≤ ·) := by
    rw [← List.map_flatMap, List.pairwise_map]
    exact ordered
  exact List.pairwise_map.mp (texts.sublist (createdAt_sublist history))

theorem sent_concat (history : List Call) (call : Call) (agentId : AgentId) :
    sent (history ++ [call]) agentId = sent history agentId ++ call.sends agentId (storeAfter history) :=
  observed_concat history call _

theorem received_concat (history : List Call) (call : Call) (agentId : AgentId) :
    received (history ++ [call]) agentId = received history agentId ++ call.receipts agentId (storeAfter history) :=
  observed_concat history call _

/-- One call moves a queue along by what it sends and what it hands over. -/
theorem Call.queue {sent got : List AgentMessageRow} (call : Call) (home : MessagesHome s) (order : InOrder s)
    (queue : Queue s agentId sent got) :
    Queue (call.perform s) agentId (sent ++ call.sends agentId s) (got ++ call.receipts agentId s) := by
  cases call.mail s with
  | silent same sends receipts =>
    rw [sends, receipts, List.append_nil, List.append_nil]
    exact queue.of_same (inbox_of_same same)
  | sends sends new mail receipts =>
    rw [mail, receipts, List.append_nil]
    exact queue.sends sends new
  | @delivers input batch now delivers sends receipts chosen =>
    obtain ⟨count, start⟩ := selected_waiting home order input.agentId input.lease.runId (input.limit.getD 32)
    rw [start] at chosen
    subst chosen
    rw [sends, receipts, List.append_nil]
    split
    next mine =>
      subst mine
      exact queue.delivers delivers
    next other =>
      rw [List.append_nil]
      exact queue.of_same (delivers.inbox_other (fun message => List.mem_of_mem_take) (Ne.symm other))

theorem queue_after (history : List Call)
    (ordered : Readings (fun earlier later => earlier.toISOString ≤ later.toISOString) history) (agentId : AgentId) :
    Queue (storeAfter history) agentId (sent history agentId) (received history agentId) := by
  induction history using List.reverseRecOn with
  | nil => exact ⟨rfl, fun _ none => absurd none List.not_mem_nil, rfl⟩
  | append_singleton before call ih =>
    have earlier : Readings (fun earlier later => earlier.toISOString ≤ later.toISOString) before :=
      List.Pairwise.sublist (by rw [List.flatMap_append]; exact List.sublist_append_left _ _) ordered
    rw [storeAfter_concat, sent_concat, received_concat]
    exact call.queue (messagesHome_reached (reachable_storeAfter before)) (inOrder_after earlier) (ih earlier)

end Steps

/-! Announcements. -/

/-- How many times the message has been handed over, as its row says. -/
def handed (s : Store) (id : AgentMessageId) : Nat :=
  ((s .agentMessages).find? id).elim 0 fun message => if message.status = .delivered then 1 else 0

/-- Every message is announced as often as it is handed over. -/
def Announced (s : Store) : Prop := ∀ id, (announcements s id).length = handed s id

section Announcements
variable {s : Store}

theorem Call.announced (call : Call) (honest : call.forgesDelivery = false) (home : MessagesHome s) (order : InOrder s)
    (announced : Announced s) : Announced (call.perform s) := by
  intro id
  cases call.mail s with
  | silent same _ _ quiet => rw [quiet honest, announced id, handed, handed, same]
  | @sends message sends new _ _ quiet =>
    rw [quiet, announced id, handed, handed, sends.messages, Keyed.find?_insert sends.fresh]
    by_cases same : message.id = id
    · have pending : message.status = .pending := by rw [← new]; rfl
      subst same
      simp [sends.fresh, pending]
    · rw [if_neg same]
  | @delivers input batch now delivers _ _ chosen =>
    obtain ⟨count, start⟩ := selected_waiting home order input.agentId input.lease.runId (input.limit.getD 32)
    rw [start] at chosen
    have stored : ∀ message ∈ batch, message ∈ s .agentMessages ∧ message.status = .pending := by
      intro message inside
      obtain ⟨member, pending⟩ := mem_waiting.mp (List.mem_of_mem_take (chosen ▸ inside))
      exact ⟨(mem_inbox.mp member).1, pending⟩
    have distinct : (batch.map (·.id)).Nodup := by
      rw [chosen]
      exact inbox_nodup.sublist (((List.take_sublist _ _).trans List.filter_sublist).map _)
    rw [delivers.announced, announced id, handed, handed, delivers.messages, Keyed.find?_update]
    by_cases inside : id ∈ batch.map (·.id)
    · obtain ⟨message, member, rfl⟩ := List.mem_map.mp inside
      obtain ⟨row, pending⟩ := stored message member
      rw [Keyed.find?_key row, List.count_eq_one_of_mem distinct inside]
      have chosen : (batch.any fun other => message.id == other.id) = true :=
        List.any_eq_true.mpr ⟨message, member, beq_self_eq_true _⟩
      simp only [Option.map_some, Option.elim_some, chosen, pending, AgentMessageRow.handOver, reduceCtorEq, if_true,
        if_false]
    · rw [List.count_eq_zero.mpr inside, Nat.add_zero]
      cases found : (s .agentMessages).find? id with
      | none => rfl
      | some message =>
        obtain rfl := (Keyed.find?_eq_some.mp found).2
        have spared : (batch.any fun other => message.id == other.id) = false :=
          List.any_eq_false.mpr fun other member same => inside (List.mem_map.mpr ⟨other, member, (eq_of_beq same).symm⟩)
        simp only [Option.map_some, Option.elim_some, spared, Bool.false_eq_true, if_false]

end Announcements

/-! What agents can rely on. -/

/-- The message is pending for its recipient, and nobody has received it. -/
def Undelivered (history : List Call) (message : AgentMessageRow) : Prop :=
  (∃ row ∈ inbox (storeAfter history) message.toAgentId, row.status = .pending ∧ row.asSent = message) ∧
    ∀ agentId, message.id ∉ (received history agentId).map (·.id)

/-- The recipient has received the message once, and nobody else has. -/
def DeliveredOnce (history : List Call) (message : AgentMessageRow) : Prop :=
  ((received history message.toAgentId).map (·.id)).count message.id = 1 ∧
    ∀ agentId, agentId ≠ message.toAgentId → message.id ∉ (received history agentId).map (·.id)

structure DurableMailbox (history : List Call) (agentId : AgentId) : Prop where
  distinct : ((received history agentId).map (·.id)).Nodup
  inOrder : (received history agentId).map (·.asSent) <+: sent history agentId
  settled : ∀ message ∈ sent history agentId, message.toAgentId = agentId ∧
    (Undelivered history message ∨ DeliveredOnce history message)
  announced : (∀ call ∈ history, call.forgesDelivery = false) → ∀ message ∈ received history agentId,
    (announcements (storeAfter history) message.id).length = 1

section Mailbox
variable {history : List Call} {agentId : AgentId}

theorem Queue.received_stored {s : Store} {sent got : List AgentMessageRow} (queue : Queue s agentId sent got)
    {message : AgentMessageRow} (member : message ∈ got) :
    message ∈ s .agentMessages ∧ message.toAgentId = agentId ∧ message.status = .delivered := by
  have inside : message ∈ inbox s agentId := by
    rw [queue.rows]
    exact List.mem_append_left _ member
  obtain ⟨stored, mine⟩ := mem_inbox.mp inside
  exact ⟨stored, mine, queue.done message member⟩

theorem announced_after (history : List Call)
    (ordered : Readings (fun earlier later => earlier.toISOString ≤ later.toISOString) history)
    (honest : ∀ call ∈ history, call.forgesDelivery = false) : Announced (storeAfter history) := by
  induction history using List.reverseRecOn with
  | nil => exact fun _ => rfl
  | append_singleton before call ih =>
    have earlier : Readings (fun earlier later => earlier.toISOString ≤ later.toISOString) before :=
      List.Pairwise.sublist (by rw [List.flatMap_append]; exact List.sublist_append_left _ _) ordered
    rw [storeAfter_concat]
    exact call.announced (honest call (by simp)) (messagesHome_reached (reachable_storeAfter before))
      (inOrder_after earlier) (ih earlier fun other member => honest other (by simp [member]))

/-- Over every history whose clock never reads an earlier timestamp, an agent receives a
prefix of what was sent to it, each message once, in order, and announced once. -/
theorem mailbox_in_order (ordered : Readings (fun earlier later => earlier.toISOString ≤ later.toISOString) history) :
    DurableMailbox history agentId := by
  have queues : ∀ other, Queue (storeAfter history) other (sent history other) (received history other) :=
    queue_after history ordered
  have distinct : ∀ other, ((received history other).map (·.id)).Nodup := by
    intro other
    have inboxed : ((inbox (storeAfter history) other).map (·.id)).Nodup := inbox_nodup
    refine inboxed.sublist (List.Sublist.map _ ?_)
    rw [(queues other).rows]
    exact List.sublist_append_left _ _
  refine ⟨distinct agentId, ?_, fun message member => ?_, fun honest message member => ?_⟩
  · rw [← (queues agentId).sent, (queues agentId).rows, List.map_append]
    exact List.prefix_append _ _
  · rw [← (queues agentId).sent] at member
    obtain ⟨row, inside, rfl⟩ := List.mem_map.mp member
    obtain ⟨stored, rfl⟩ := mem_inbox.mp inside
    have elsewhere : ∀ other, row.id ∈ (received history other).map (·.id) →
        other = row.toAgentId ∧ row.status = .delivered := by
      intro other delivered
      obtain ⟨copy, got, same⟩ := List.mem_map.mp delivered
      obtain ⟨there, mine, done⟩ := (queues other).received_stored got
      obtain rfl := Keyed.eq_of_key there stored same
      exact ⟨mine.symm, done⟩
    refine ⟨rfl, ?_⟩
    rw [(queues row.toAgentId).rows] at inside
    rcases List.mem_append.mp inside with got | pending
    · refine .inr ⟨?_, fun other apart delivered => apart (elsewhere other delivered).1⟩
      exact List.count_eq_one_of_mem (distinct _) (List.mem_map.mpr ⟨row, got, rfl⟩)
    · obtain ⟨mine, waits⟩ := mem_waiting.mp pending
      refine .inl ⟨⟨row, mine, waits, rfl⟩, fun other delivered => ?_⟩
      have done := (elsewhere other delivered).2
      rw [waits] at done
      cases done
  · obtain ⟨stored, -, done⟩ := (queues agentId).received_stored member
    rw [announced_after history ordered honest, handed, Keyed.find?_key stored, Option.elim_some, if_pos done]

end Mailbox

/-- The coordinator of a Run gets two messages and reads them one at a time, at these readings. -/
def readMail (taken sending renewed later reading : Date) : List Call :=
  let message : SendAgentMessageInput :=
    { body := [], kind := .status, lease := sampleLease "first" 1, toAgentId := sampleAgentId }
  let drain : ReceiveAgentMessagesInput := { agentId := sampleAgentId, lease := sampleLease "first" 1, limit := some 1 }
  [sampleRun, .acquireLease { executorId := "first", runId := sampleRunId, ttlMs := 500 } taken,
    .sendAgentMessage message "one" sending, takeSample "first" renewed, .sendAgentMessage message "two" later,
    .receiveAgentMessages drain reading]

theorem mailbox_of_two : (received (readMail .epoch .epoch .epoch .epoch .epoch) sampleAgentId).length = 1 ∧
    DurableMailbox (readMail .epoch .epoch .epoch .epoch .epoch) sampleAgentId :=
  ⟨by decide +kernel, mailbox_in_order (by decide +kernel)⟩

/-- The last second of the year 9999 and the seconds after it. -/
def lastSecond (ms : Nat) (bound : ms ≤ 2000 := by decide) : Date :=
  ⟨253402300799000 + ms, by simp only [maxDateMs]; omega⟩

/-- The first timestamps of the year 10000 are sorted before those of 9999. -/
theorem year_10000_overtakes :
    Readings (fun earlier later => earlier.ms ≤ later.ms)
        (readMail (lastSecond 0) (lastSecond 0) (lastSecond 1000) (lastSecond 1000) (lastSecond 1000)) ∧
      ¬ (received (readMail (lastSecond 0) (lastSecond 0) (lastSecond 1000) (lastSecond 1000) (lastSecond 1000))
          sampleAgentId).map (·.asSent) <+:
        sent (readMail (lastSecond 0) (lastSecond 0) (lastSecond 1000) (lastSecond 1000) (lastSecond 1000))
          sampleAgentId := by
  refine ⟨by decide +kernel, fun ordered => ?_⟩
  have ids := ordered.map (·.id)
  revert ids
  decide +kernel

end OttiliCoder
