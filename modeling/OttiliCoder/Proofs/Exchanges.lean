import OttiliCoder.Proofs.Engine
import OttiliCoder.Runtime.Context
import OttiliCoder.Runtime.Encodings

/-! Tool results and the calls they answer. No message of a turn announces a tool call, so
a request is well formed only as long as it carries no tool result. -/

namespace OttiliCoder.Exchanges
open Host Transaction StableSort AgentTurnEngine

/-! What a well-formed exchange is. -/

/-- Before each tool result, an assistant message announces the call it answers. -/
def Announced (messages : List RuntimeMessage) : Prop :=
  ∀ before message after, messages = before ++ message :: after → message.role = .tool →
    ∃ earlier ∈ before, earlier.role = .assistant ∧ earlier.toolCallId = message.toolCallId

/-- The turn before one with a `tool_result` is the assistant's, with the `tool_use` of its id. -/
def AnthropicLinked (messages : List AnthropicMessage) : Prop :=
  ∀ before message after, messages = before ++ message :: after →
    ∀ content toolUseId, .toolResult content toolUseId ∈ message.content →
      ∃ previous, before.getLast? = some previous ∧ previous.role = .assistant ∧
        ∃ name input, .toolUse toolUseId name input ∈ previous.content

/-- `called` holds of the ids of tool calls and the names of their functions. -/
def GeminiLinked (called : String → String → Prop) (messages : List RuntimeMessage) : Prop :=
  ∀ turn ∈ toGeminiContents messages, ∀ name output, .functionResponse name output ∈ turn.parts →
    ∃ message ∈ messages, message.role = .tool ∧ message.content = output ∧
      ∃ toolCallId, message.toolCallId = some toolCallId ∧ called toolCallId name

structure WellFormed (called : String → String → Prop) (messages : List RuntimeMessage) : Prop where
  announced : Announced messages
  anthropic : AnthropicLinked (toAnthropicMessages messages)
  gemini : GeminiLinked called messages

/-- The calls a turn knows of: those of the log, and those of its responses. -/
def Called (s : Store) (runId : RunId) (exchanges : Nat → Exchange) (toolCallId name : String) : Prop :=
  (∃ event ∈ listEvents s runId, event.type = .toolCallStarted ∧
    JsonObject.text? event.payload "toolCallId" = some toolCallId ∧ JsonObject.text? event.payload "name" = some name) ∨
  ∃ n response, (exchanges n).response.outcome = .ok response ∧
    ∃ call ∈ response.calls, call.id = toolCallId ∧ call.name = name

def hasToolResult (messages : List RuntimeMessage) : Bool := messages.any fun message => message.role == .tool

/-! The blocks of an encoding are those of its messages. -/

section Blocks
variable {Turn Block : Type} {add : List Turn → RuntimeMessage → List Turn} {blocks : Turn → List Block}
  {encode : RuntimeMessage → Block}

/-- A message is added to the last turn or as a turn of its own. -/
def Adds (add : List Turn → RuntimeMessage → List Turn) (blocks : Turn → List Block) (encode : RuntimeMessage → Block) : Prop :=
  ∀ turns message, ∀ turn ∈ add turns message, ∀ block ∈ blocks turn,
    block = encode message ∨ ∃ earlier ∈ turns, block ∈ blocks earlier

theorem foldl_blocks (adds : Adds add blocks encode) (messages : List RuntimeMessage) (start : List Turn) :
    ∀ turn ∈ messages.foldl add start, ∀ block ∈ blocks turn,
      (∃ message ∈ messages, block = encode message) ∨ ∃ earlier ∈ start, block ∈ blocks earlier := by
  induction messages generalizing start with
  | nil => exact fun turn member block inside => .inr ⟨turn, member, inside⟩
  | cons message messages ih =>
    intro turn member block inside
    obtain ⟨other, later, same⟩ | ⟨middle, added, inside⟩ := ih _ turn member block inside
    · exact .inl ⟨other, List.mem_cons_of_mem _ later, same⟩
    · obtain here | there := adds start message middle added block inside
      · exact .inl ⟨message, List.mem_cons_self, here⟩
      · exact .inr there

end Blocks

theorem addAnthropicMessage_adds : Adds addAnthropicMessage AnthropicMessage.content anthropicBlock := by
  intro turns message turn member block inside
  unfold addAnthropicMessage at member
  split at member
  · exact .inr ⟨turn, member, inside⟩
  simp only at member
  split at member
  · next previous last =>
    have present := List.mem_of_getLast? last
    split at member
    all_goals obtain kept | joined := List.mem_append.mp member
    · exact .inr ⟨turn, List.dropLast_subset _ kept, inside⟩
    · obtain rfl := List.mem_singleton.mp joined
      obtain old | new := List.mem_append.mp inside
      · exact .inr ⟨previous, present, old⟩
      · exact .inl (List.mem_singleton.mp new)
    · exact .inr ⟨turn, kept, inside⟩
    · obtain rfl := List.mem_singleton.mp joined
      exact .inl (List.mem_singleton.mp inside)
  · obtain rfl := List.mem_singleton.mp member
    exact .inl (List.mem_singleton.mp inside)

theorem addGeminiContent_adds : Adds addGeminiContent GeminiContent.parts geminiPart := by
  intro turns message turn member part inside
  unfold addGeminiContent at member
  split at member
  · exact .inr ⟨turn, member, inside⟩
  simp only at member
  split at member
  · next previous last =>
    have present := List.mem_of_getLast? last
    split at member
    all_goals obtain kept | joined := List.mem_append.mp member
    · exact .inr ⟨turn, List.dropLast_subset _ kept, inside⟩
    · obtain rfl := List.mem_singleton.mp joined
      obtain old | new := List.mem_append.mp inside
      · exact .inr ⟨previous, present, old⟩
      · exact .inl (List.mem_singleton.mp new)
    · exact .inr ⟨turn, kept, inside⟩
    · obtain rfl := List.mem_singleton.mp joined
      exact .inl (List.mem_singleton.mp inside)
  · obtain rfl := List.mem_singleton.mp member
    exact .inl (List.mem_singleton.mp inside)

section Messages
variable {messages : List RuntimeMessage}

/-- A block is a message's, or the opening text. -/
theorem anthropic_block {turn : AnthropicMessage} {block : AnthropicBlock} (member : turn ∈ toAnthropicMessages messages)
    (inside : block ∈ turn.content) :
    (∃ message ∈ messages, block = anthropicBlock message) ∨ ∃ text, block = .text text := by
  have encoded : turn ∈ messages.foldl addAnthropicMessage [] ∨ ∃ text, turn.content = [.text text] := by
    unfold toAnthropicMessages at member
    simp only at member
    split at member
    · obtain rfl | later := List.mem_cons.mp member
      · exact .inr ⟨_, rfl⟩
      · exact .inl later
    · exact .inl member
  obtain own | ⟨text, opening⟩ := encoded
  · obtain found | ⟨_, nothing, _⟩ := foldl_blocks addAnthropicMessage_adds messages [] turn own block inside
    · exact .inl found
    · cases nothing
  · rw [opening] at inside
    exact .inr ⟨text, List.mem_singleton.mp inside⟩

theorem anthropicBlock_result {message : RuntimeMessage} {content : JsString} {toolUseId : String}
    (result : AnthropicBlock.toolResult content toolUseId = anthropicBlock message) : message.role = .tool := by
  unfold anthropicBlock at result
  split at result
  · assumption
  · cases result

theorem geminiPart_response {message : RuntimeMessage} {name : String} {output : JsString}
    (response : GeminiPart.functionResponse name output = geminiPart message) : message.role = .tool := by
  unfold geminiPart at response
  split at response
  · assumption
  · cases response

/-- A request without tool results is well formed, whatever was called. -/
theorem wellFormed_plain (called : String → String → Prop) (plain : hasToolResult messages = false) :
    WellFormed called messages := by
  have none : ∀ message ∈ messages, message.role ≠ .tool := by simpa [hasToolResult] using plain
  constructor
  · intro before message after split result
    exact absurd result (none message (by simp [split]))
  · intro before turn after split content toolUseId inside
    have present : turn ∈ toAnthropicMessages messages := by
      rw [split]
      exact List.mem_append_right _ List.mem_cons_self
    obtain ⟨message, member, result⟩ | ⟨text, other⟩ := anthropic_block present inside
    · exact absurd (anthropicBlock_result result) (none message member)
    · cases other
  · intro turn member name output inside
    obtain ⟨message, own, response⟩ | ⟨_, nothing, _⟩ := foldl_blocks addGeminiContent_adds messages [] turn member _ inside
    · exact absurd (geminiPart_response response) (none message own)
    · cases nothing

/-! What the messages of a turn are like. -/

/-- No message announces a call, and every tool result has a call id. -/
structure Unannounced (messages : List RuntimeMessage) : Prop where
  silent : ∀ message ∈ messages, message.role = .assistant → message.toolCallId = none
  numbered : ∀ message ∈ messages, message.role = .tool → message.toolCallId ≠ none

theorem Unannounced.append {others : List RuntimeMessage} (first : Unannounced messages) (second : Unannounced others) :
    Unannounced (messages ++ others) := by
  constructor
  · intro message member
    exact (List.mem_append.mp member).elim (first.silent message) (second.silent message)
  · intro message member
    exact (List.mem_append.mp member).elim (first.numbered message) (second.numbered message)

theorem Unannounced.subset {others : List RuntimeMessage} (all : Unannounced messages) (part : others ⊆ messages) :
    Unannounced others :=
  ⟨fun message member => all.silent message (part member), fun message member => all.numbered message (part member)⟩

/-- Such messages are well formed exactly when they carry no tool result. -/
theorem Unannounced.wellFormed_iff (unannounced : Unannounced messages) (called : String → String → Prop) :
    WellFormed called messages ↔ hasToolResult messages = false := by
  constructor
  · intro formed
    apply Bool.eq_false_iff.mpr
    intro some
    obtain ⟨message, member, role⟩ := List.any_eq_true.mp some
    have result : message.role = .tool := by simpa using role
    obtain ⟨before, after, split⟩ := List.append_of_mem member
    obtain ⟨earlier, first, assistant, same⟩ := formed.announced before message after split result
    rw [unannounced.silent earlier (by simp [split, first]) assistant] at same
    exact unannounced.numbered message member result same.symm
  · exact wellFormed_plain called

end Messages

/-! The transcript. -/

theorem eventMessage_unannounced {event : RunEvent} {message : RuntimeMessage} (shown : eventMessage event = some message) :
    (message.role = .assistant → message.toolCallId = none) ∧ (message.role = .tool → message.toolCallId ≠ none) := by
  unfold eventMessage at shown
  split at shown
  all_goals first
    | cases shown
    | (obtain ⟨text, _, rfl⟩ := Option.map_eq_some_iff.mp shown
       simp)

theorem retainMessages_eq (messages characters : Nat) (history : List RuntimeMessage) :
    ∃ kept, retainMessages messages characters history = history.take kept ∧
      ∀ n ≤ history.length, n ≤ kept ↔ n ≤ messages ∧ ((history.take n).map fun message => message.content.length).sum ≤ characters := by
  induction history generalizing messages characters with
  | nil => exact ⟨0, by simp [retainMessages], by simp⟩
  | cons message history ih =>
    cases messages with
    | zero =>
      refine ⟨0, by simp [retainMessages], fun n bound => ?_⟩
      constructor
      · intro none
        obtain rfl := Nat.le_zero.mp none
        simp
      · exact fun both => both.1
    | succ messages =>
      by_cases long : characters < message.content.length
      · refine ⟨0, by simp [retainMessages, long], fun n bound => ?_⟩
        cases n with
        | zero => simp
        | succ n =>
          simp only [List.take_succ_cons, List.map_cons, List.sum_cons]
          omega
      · obtain ⟨kept, retained, bounds⟩ := ih messages (characters - message.content.length)
        refine ⟨kept + 1, by simp [retainMessages, long, retained], fun n bound => ?_⟩
        cases n with
        | zero => simp
        | succ n =>
          have here := bounds n (by simpa using bound)
          simp only [List.take_succ_cons, List.map_cons, List.sum_cons]
          omega

/-- A message is kept when it and all that follows are within the bounds. -/
theorem mem_trimMessages {history : List RuntimeMessage} {maximumMessages maximumCharacters : Nat} {message : RuntimeMessage} :
    message ∈ trimMessages history maximumMessages maximumCharacters ↔
      ∃ before after, history = before ++ message :: after ∧ after.length + 1 ≤ maximumMessages ∧
        ((message :: after).map fun message => message.content.length).sum ≤ maximumCharacters := by
  obtain ⟨kept, retained, bounds⟩ := retainMessages_eq maximumMessages maximumCharacters history.reverse
  have reversed : ∀ before after, history = before ++ message :: after →
      (after.reverse ++ [message]) <+: history.reverse := by
    intro before after split
    exact ⟨before.reverse, by simp [split]⟩
  have bound : ∀ before after, history = before ++ message :: after →
      (after.length + 1 ≤ kept ↔ after.length + 1 ≤ maximumMessages ∧
        ((message :: after).map fun message => message.content.length).sum ≤ maximumCharacters) := by
    intro before after split
    have start : history.reverse.take (after.length + 1) = after.reverse ++ [message] := by
      have length : after.length + 1 = (after.reverse ++ [message]).length := by simp
      rw [length]
      exact (List.prefix_iff_eq_take.mp (reversed before after split)).symm
    have sum : ((after.reverse ++ [message]).map fun message => message.content.length).sum =
        ((message :: after).map fun message => message.content.length).sum := by
      simp [Nat.add_comm]
    have limits := bounds (after.length + 1) (by simp [split])
    rwa [start, sum] at limits
  unfold trimMessages
  rw [List.mem_reverse, retained]
  constructor
  · intro member
    obtain ⟨later, earlier, split⟩ := List.append_of_mem member
    obtain ⟨rest, whole⟩ : ∃ rest, history.reverse = later ++ message :: rest := by
      obtain ⟨rest, whole⟩ := List.take_prefix kept history.reverse
      rw [split, List.append_assoc] at whole
      exact ⟨earlier ++ rest, whole.symm⟩
    have parted : history = rest.reverse ++ message :: later.reverse := by
      rw [← List.reverse_reverse history, whole]
      simp
    refine ⟨_, _, parted, (bound _ _ parted).mp ?_⟩
    have length := congrArg List.length split
    simp only [List.length_take, List.length_append, List.length_cons] at length
    rw [List.length_reverse]
    omega
  · rintro ⟨before, after, split, limits⟩
    have inside : (after.reverse ++ [message]) <+: history.reverse.take kept := by
      apply List.prefix_take_iff.mpr
      refine ⟨reversed before after split, ?_⟩
      simpa using (bound before after split).mpr limits
    exact inside.subset (by simp)

theorem transcript_unannounced (options : RunContextCompilerOptions) (s : Store) (runId : RunId) :
    Unannounced (transcript options s runId) := by
  have shown : ∀ message ∈ transcript options s runId, ∃ event, eventMessage event = some message := by
    intro message member
    obtain ⟨before, after, split, _⟩ := mem_trimMessages.mp member
    have listed : message ∈ (listEvents s runId).filterMap eventMessage := by
      rw [split]
      exact List.mem_append_right _ List.mem_cons_self
    obtain ⟨event, _, same⟩ := List.mem_filterMap.mp listed
    exact ⟨event, same⟩
  constructor
  · intro message member
    obtain ⟨event, same⟩ := shown message member
    exact (eventMessage_unannounced same).1
  · intro message member
    obtain ⟨event, same⟩ := shown message member
    exact (eventMessage_unannounced same).2

/-- An event the transcript shows as a tool result, late enough in the log to be kept. -/
def KeepsToolResult (options : RunContextCompilerOptions) (s : Store) (runId : RunId) : Prop :=
  ∃ before after message, (listEvents s runId).filterMap eventMessage = before ++ message :: after ∧ message.role = .tool ∧
    after.length + 1 ≤ options.maxTranscriptMessages.getD 48 ∧
    ((message :: after).map fun message => message.content.length).sum ≤ options.maxTranscriptCharacters.getD 48000

theorem hasToolResult_transcript (options : RunContextCompilerOptions) (s : Store) (runId : RunId) :
    hasToolResult (transcript options s runId) = true ↔ KeepsToolResult options s runId := by
  unfold hasToolResult KeepsToolResult
  rw [List.any_eq_true]
  constructor
  · rintro ⟨message, member, role⟩
    obtain ⟨before, after, split, limits⟩ := mem_trimMessages.mp member
    exact ⟨before, after, message, split, by simpa using role, limits⟩
  · rintro ⟨before, after, message, split, role, limits⟩
    exact ⟨message, mem_trimMessages.mpr ⟨before, after, split, limits⟩, by simp [role]⟩

/-- The context opens with the briefing, the prompt and the plan; the transcript follows. -/
theorem compile_messages {collation : Collation} {options : RunContextCompilerOptions} {s : Store} {request : RunContextRequest}
    {workspace : Option WorkspaceView} {context : CompiledContext}
    (compiled : compile collation options s request workspace = .ok context) :
    Unannounced context.messages ∧
      hasToolResult context.messages = hasToolResult (transcript options s request.run.id) := by
  unfold compile at compiled
  cases planned : contextPlan collation options s request workspace with
  | error message =>
    rw [planned] at compiled
    cases compiled
  | ok plan =>
    rw [planned] at compiled
    cases compiled
    constructor
    · apply Unannounced.append _ (transcript_unannounced options s request.run.id)
      constructor <;> simp
    · rfl

/-! The requests of a turn. -/

section Requests
variable {tools : List ProviderTool} {maxToolCalls : Nat} {model : String} {exchanges : Nat → Exchange}
  {progress : TurnProgress} {world : TurnWorld}

theorem receive_unannounced (unannounced : Unannounced progress.messages) (response : ProviderTurnResponse) :
    Unannounced (receive progress response).messages := by
  unfold receive
  cases response.text with
  | none => exact unannounced
  | some text =>
    apply unannounced.append
    constructor <;> simp

/-- Once calls are answered, there are tool results, and still nothing announces them. -/
theorem answered_messages {calls : List ToolCall} {progress' : TurnProgress} {world' : TurnWorld}
    (answered : AgentTurnEngine.Answered calls progress progress' world') (unannounced : Unannounced progress.messages) (some : calls ≠ []) :
    Unannounced progress'.messages ∧ hasToolResult progress'.messages = true := by
  obtain ⟨results, length, messages⟩ := answered.messages
  have tool : ∀ message ∈ List.zipWith toolMessage calls results, message.role = .tool ∧ message.toolCallId ≠ none := by
    intro message member
    rw [← List.map_uncurry_zip_eq_zipWith] at member
    obtain ⟨⟨call, result⟩, _, rfl⟩ := List.mem_map.mp member
    exact ⟨rfl, Option.some_ne_none _⟩
  rw [messages]
  constructor
  · apply unannounced.append
    constructor
    · intro message member assistant
      rw [(tool message member).1] at assistant
      cases assistant
    · exact fun message member _ => (tool message member).2
  · obtain ⟨call, calls, rfl⟩ := List.exists_cons_of_ne_nil some
    obtain ⟨result, results, rfl⟩ := List.exists_cons_of_length_eq_add_one length
    simp [hasToolResult, toolMessage]

/-- A round that does not go on asks once. -/
theorem loop_asks_once (rounds : Nat) (running : world.aborted = none) (room : progress.toolCount ≤ maxToolCalls)
    (stops : continues tools maxToolCalls (exchanges 0) progress.toolCount = false) :
    (after (loop tools maxToolCalls model (rounds + 1) exchanges progress) world).requests =
      world.requests ++ [requestOf tools model progress] := by
  cases roundEnd tools maxToolCalls (exchanges 0) progress.toolCount with
  | unanswered error failed => rw [after_error (loop_unanswered running failed)]; rfl
  | aborted response reason answered stopped => rw [after_error (loop_aborted running answered stopped)]; rfl
  | done response answered going last => rw [after_ok (loop_done running answered going last)]; rfl
  | stopped response answered going more stops =>
    obtain ⟨error, world', same, failed⟩ := loop_stopped running room answered going more stops
    rw [after_error (failed rounds), same.1]
    rfl
  | onward response answered going more fits settled => simp [continues, answered, going, more, fits, settled] at stops

/-- A round that goes on hands the tool results to the next one. -/
theorem loop_goes_on (running : world.aborted = none) (room : progress.toolCount ≤ maxToolCalls)
    (unannounced : Unannounced progress.messages)
    (goes : continues tools maxToolCalls (exchanges 0) progress.toolCount = true) :
    ∃ progress' world', world'.aborted = none ∧ progress'.toolCount ≤ maxToolCalls ∧ Unannounced progress'.messages ∧
      hasToolResult progress'.messages = true ∧ world'.requests = world.requests ++ [requestOf tools model progress] ∧
      ∀ rounds, loop tools maxToolCalls model (rounds + 1) exchanges progress world =
        loop tools maxToolCalls model rounds (fun later => exchanges (later + 1)) progress' world' := by
  cases roundEnd tools maxToolCalls (exchanges 0) progress.toolCount with
  | unanswered error failed => simp [continues, failed] at goes
  | aborted response reason answered stopped => simp [continues, stopped] at goes
  | done response answered going last => simp [continues, answered, last] at goes
  | stopped response answered going more stops =>
    rw [continues_stopped answered stops] at goes
    cases goes
  | onward response answered going more fits settled =>
    obtain ⟨progress', world', done, same, next⟩ := loop_onward running room answered going more fits settled
    have counted := done.toolCount
    rw [receive_toolCount] at counted
    obtain ⟨still, results⟩ := answered_messages done (receive_unannounced unannounced response) more
    exact ⟨progress', world', done.running, by omega, still, results, same.1, next⟩

/-- After the first request, every one carries tool results that nothing announces; there is
a second one exactly when the first response lets the turn go on. -/
theorem loop_requests (rounds : Nat) (running : world.aborted = none) (room : progress.toolCount ≤ maxToolCalls)
    (unannounced : Unannounced progress.messages) :
    ∃ later, (after (loop tools maxToolCalls model (rounds + 1) exchanges progress) world).requests =
        world.requests ++ requestOf tools model progress :: later ∧
      (∀ sent ∈ later, Unannounced sent.messages ∧ hasToolResult sent.messages = true) ∧
      (later = [] ↔ continues tools maxToolCalls (exchanges 0) progress.toolCount = false ∨ rounds = 0) := by
  induction rounds generalizing exchanges progress world with
  | zero =>
    refine ⟨[], ?_, by simp, by simp⟩
    cases goes : continues tools maxToolCalls (exchanges 0) progress.toolCount with
    | false => exact loop_asks_once 0 running room goes
    | true =>
      obtain ⟨progress', world', _, _, _, _, asked, next⟩ := loop_goes_on running room unannounced goes
      unfold after
      rw [next]
      exact asked
  | succ rounds ih =>
    cases goes : continues tools maxToolCalls (exchanges 0) progress.toolCount with
    | false => exact ⟨[], loop_asks_once (rounds + 1) running room goes, by simp, by simp⟩
    | true =>
      obtain ⟨progress', world', running', room', still, results, asked, next⟩ := loop_goes_on running room unannounced goes
      obtain ⟨later, sent, all, _⟩ := ih running' room' still
      refine ⟨requestOf tools model progress' :: later, ?_, ?_, by simp⟩
      · have moved : after (loop tools maxToolCalls model (rounds + 1 + 1) exchanges progress) world =
            after (loop tools maxToolCalls model (rounds + 1) (fun later => exchanges (later + 1)) progress') world' := by
          unfold after
          rw [next]
        rw [moved, sent, asked]
        simp
      · intro request member
        obtain rfl | other := List.mem_cons.mp member
        · exact ⟨still, results⟩
        · exact all request other

end Requests

/-! A turn, from the context it is given. -/

/-- The world at the start of the engine's run. -/
def startWorld (s : Store) (signal : Option TurnError) : TurnWorld := { store := s, aborted := signal }

/-- The requests of a turn over a compiled context. -/
def requestsOf (s : Store) (signal : Option TurnError) (tools : List ProviderTool) (exchanges : Nat → Exchange)
    (maxToolCalls : Option Nat) (model : String) (context : CompiledContext) : List ProviderTurnRequest :=
  (after (AgentTurnEngine.run tools exchanges { maxToolCalls := maxToolCalls, messages := context.messages, model := model })
    (startWorld s signal)).requests

section Turn
variable {collation : Collation} {options : RunContextCompilerOptions} {s : Store} {request : RunContextRequest}
  {workspace : Option WorkspaceView} {context : CompiledContext}

theorem requestsOf_stopped (reason : TurnError) (tools : List ProviderTool) (exchanges : Nat → Exchange)
    (maxToolCalls : Option Nat) (model : String) (context : CompiledContext) :
    requestsOf s (some reason) tools exchanges maxToolCalls model context = [] := by
  unfold requestsOf AgentTurnEngine.run
  simp only
  rw [loop, after_error (bind_failed (throwIfAborted_stopped rfl))]
  rfl

theorem requestsOf_running (compiled : compile collation options s request workspace = .ok context) (tools : List ProviderTool)
    (exchanges : Nat → Exchange) (maxToolCalls : Option Nat) (model : String) :
    ∃ later, requestsOf s none tools exchanges maxToolCalls model context =
        { messages := context.messages, model := model, tools := tools } :: later ∧
      (∀ sent ∈ later, Unannounced sent.messages ∧ hasToolResult sent.messages = true) ∧
      (later = [] ↔ continues tools (maxToolCalls.getD 32) (exchanges 0) 0 = false) := by
  have unannounced : Unannounced ({ messages := context.messages } : TurnProgress).messages := (compile_messages compiled).1
  have running : (startWorld s none).aborted = none := rfl
  obtain ⟨later, sent, all, once⟩ :=
    loop_requests (maxToolCalls.getD 32) running (Nat.zero_le (maxToolCalls.getD 32)) unannounced
  refine ⟨later, sent, all, once.trans ?_⟩
  constructor
  · rintro (stops | none)
    · exact stops
    · -- without room for a single call, a response with calls stops the turn
      apply Bool.eq_false_iff.mpr
      intro on
      unfold continues at on
      cases answered : (exchanges 0).response.outcome with
      | error error => simp [answered] at on
      | ok response =>
        simp only [answered, none, Bool.and_eq_true, decide_eq_true_eq] at on
        obtain ⟨_, ⟨some, few⟩, _⟩ := on
        have calls : response.calls = [] := List.eq_nil_of_length_eq_zero (by omega)
        simp [calls] at some
  · exact .inl

/-- A turn's requests are all well formed exactly when it makes none, or when its transcript keeps
no tool result and its first response leads to no second request. -/
theorem exchanges_wellFormed_iff (compiled : compile collation options s request workspace = .ok context)
    (signal : Option TurnError) (tools : List ProviderTool) (exchanges : Nat → Exchange) (maxToolCalls : Option Nat)
    (model : String) :
    (∀ sent ∈ requestsOf s signal tools exchanges maxToolCalls model context,
        WellFormed (Called s request.run.id exchanges) sent.messages) ↔
      signal.isSome = true ∨ (¬ KeepsToolResult options s request.run.id ∧
        continues tools (maxToolCalls.getD 32) (exchanges 0) 0 = false) := by
  cases signal with
  | some reason =>
    rw [requestsOf_stopped]
    simp
  | none =>
    obtain ⟨later, sent, all, once⟩ := requestsOf_running compiled tools exchanges maxToolCalls model
    obtain ⟨unannounced, same⟩ := compile_messages compiled
    rw [sent, List.forall_mem_cons, ← once, ← hasToolResult_transcript, ← same, Bool.not_eq_true,
      unannounced.wellFormed_iff]
    simp only [Option.isSome_none, Bool.false_eq_true, false_or]
    apply and_congr_right
    intro _
    constructor
    · intro formed
      apply List.eq_nil_iff_forall_not_mem.mpr
      intro request member
      obtain ⟨still, results⟩ := all request member
      have plain := (still.wellFormed_iff _).mp (formed request member)
      rw [results] at plain
      cases plain
    · rintro rfl
      simp

end Turn

/-! A Run whose model reads a file. -/

def readCall : ToolCall := { id := "tool-call-1", name := "read_file", input := [("path", .string "README.md")] }

/-- The model calls a tool, gets its result, and is done. -/
def readingExchanges : Nat → Exchange
  | 0 => {
    response := { aborted := none, outcome := .ok { toolCalls := some [readCall] } }
    tools := fun _ => { aborted := none, outcome := .ok { output := "# Ottili" } } }
  | _ => {
    response := { aborted := none, outcome := .ok { text := some "Done." } }
    tools := fun _ => { aborted := none, outcome := .error .unknown } }

def sampleTools : List ProviderTool := [{ name := "read_file", description := "Read a file." }]

theorem sample_compiles : ∃ request context, sampleRequest (storeAfter [sampleRun]) sampleRunId = some request ∧
    compile (.byWeight String.length) {} (storeAfter [sampleRun]) request none = .ok context := by
  have compiles : ((sampleRequest (storeAfter [sampleRun]) sampleRunId).map fun request =>
      (compile (.byWeight String.length) {} (storeAfter [sampleRun]) request none).toBool) = some true := by decide +kernel
  obtain ⟨request, found, success⟩ := Option.map_eq_some_iff.mp compiles
  cases compiled : compile (.byWeight String.length) {} (storeAfter [sampleRun]) request none with
  | error message =>
    rw [compiled] at success
    cases success
  | ok context => exact ⟨request, context, found, compiled⟩

theorem exchanges_wellFormed_iff_reading : ∃ request context,
    compile (.byWeight String.length) {} (storeAfter [sampleRun]) request none = .ok context ∧
    ((∀ sent ∈ requestsOf (storeAfter [sampleRun]) none sampleTools readingExchanges none "model" context,
        WellFormed (Called (storeAfter [sampleRun]) request.run.id readingExchanges) sent.messages) ↔
      (none : Option TurnError).isSome = true ∨ (¬ KeepsToolResult {} (storeAfter [sampleRun]) request.run.id ∧
        continues sampleTools ((none : Option Nat).getD 32) (readingExchanges 0) 0 = false)) := by
  obtain ⟨request, context, _, compiled⟩ := sample_compiles
  exact ⟨request, context, compiled, exchanges_wellFormed_iff compiled none sampleTools readingExchanges none "model"⟩

/-- The second request carries the result of a call that no message of it announces. -/
theorem reading_not_announced : ∃ request context,
    compile (.byWeight String.length) {} (storeAfter [sampleRun]) request none = .ok context ∧
    ∃ sent ∈ requestsOf (storeAfter [sampleRun]) none sampleTools readingExchanges none "model" context,
      ¬ WellFormed (Called (storeAfter [sampleRun]) request.run.id readingExchanges) sent.messages := by
  obtain ⟨request, context, _, compiled⟩ := sample_compiles
  obtain ⟨later, sent, all, once⟩ := requestsOf_running compiled sampleTools readingExchanges none "model"
  have goes : continues sampleTools ((none : Option Nat).getD 32) (readingExchanges 0) 0 = true := by decide
  obtain ⟨second, more, rfl⟩ := List.exists_cons_of_ne_nil fun empty => by
    rw [once.mp empty] at goes
    cases goes
  obtain ⟨still, results⟩ := all second List.mem_cons_self
  refine ⟨request, context, compiled, second, by simp [sent], fun formed => ?_⟩
  rw [(still.wellFormed_iff _).mp formed] at results
  cases results

end OttiliCoder.Exchanges
