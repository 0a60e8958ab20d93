import OttiliCoder.Library.Turns
import OttiliCoder.Runtime.Encodings

/-! What providers are sent of a conversation: turns that alternate, with every message in
its place. -/

namespace OttiliCoder
open Host Turns

def spoken (messages : List RuntimeMessage) : List RuntimeMessage := messages.filter fun message => message.role ≠ .system

/-! Anthropic. -/

def anthropicForm : Form AnthropicMessage AnthropicRole AnthropicBlock where
  role := (·.role)
  entries := (·.content)
  opened role block := { content := [block], role := role }
  extended turn block := { turn with content := turn.content ++ [block] }
  role_opened _ _ := rfl
  entries_opened _ _ := rfl
  role_extended _ _ := rfl
  entries_extended _ _ := rfl

/-- The block holds what the message says, and the call it answers. -/
def AnthropicBlock.Carries (message : RuntimeMessage) : AnthropicBlock → Prop
  | .toolResult content toolUseId => message.role = .tool ∧ message.toolCallId = some toolUseId ∧ content = message.content
  | .text said => (message.role = .tool → message.toolCallId = none) ∧ said = message.content
  | .toolUse .. => False

theorem anthropicBlock_carries (message : RuntimeMessage) : (anthropicBlock message).Carries message := by
  unfold anthropicBlock
  split
  next role id => exact ⟨role, id, rfl⟩
  next plain =>
    refine ⟨fun tool => ?_, rfl⟩
    cases id : message.toolCallId with
    | none => rfl
    | some toolCallId => exact absurd id (plain toolCallId tool)

theorem addAnthropicMessage_eq {result : List AnthropicMessage} {message : RuntimeMessage} (speaks : message.role ≠ .system) :
    addAnthropicMessage result message = add anthropicForm result (anthropicRole message) (anthropicBlock message) := by
  unfold addAnthropicMessage add
  rw [if_neg speaks]
  cases result.getLast? with
  | none => rfl
  | some previous =>
    by_cases same : previous.role = anthropicRole message
    · have joins : anthropicForm.role previous = anthropicRole message := same
      simp only [if_pos same, if_pos joins]
      rw [← same]
      rfl
    · have opens : anthropicForm.role previous ≠ anthropicRole message := same
      simp only [if_neg same, if_neg opens]
      rfl

theorem foldl_anthropic (messages : List RuntimeMessage) (result : List AnthropicMessage) :
    messages.foldl addAnthropicMessage result = (spoken messages).foldl
      (fun result message => add anthropicForm result (anthropicRole message) (anthropicBlock message)) result := by
  induction messages generalizing result with
  | nil => rfl
  | cons message messages ih =>
    by_cases system : message.role = .system
    · rw [List.foldl_cons, ih, addAnthropicMessage, if_pos system, spoken, spoken, List.filter_cons_of_neg (by simp [system])]
    · rw [List.foldl_cons, ih, addAnthropicMessage_eq system, spoken, spoken, List.filter_cons_of_pos (by simp [system]), List.foldl_cons]

/-! Gemini. -/

def geminiForm : Form GeminiContent String GeminiPart where
  role := (·.role)
  entries := (·.parts)
  opened role part := { parts := [part], role := role }
  extended turn part := { turn with parts := turn.parts ++ [part] }
  role_opened _ _ := rfl
  entries_opened _ _ := rfl
  role_extended _ _ := rfl
  entries_extended _ _ := rfl

/-- A tool message without a call is a response all the same, of no call in particular. -/
def GeminiPart.Carries (message : RuntimeMessage) : GeminiPart → Prop
  | .functionResponse name output => message.role = .tool ∧ name = message.toolCallId.getD "tool" ∧ output = message.content
  | .text said => message.role ≠ .tool ∧ said = message.content

theorem geminiPart_carries (message : RuntimeMessage) : (geminiPart message).Carries message := by
  unfold geminiPart
  split
  next tool => exact ⟨tool, rfl, rfl⟩
  next plain => exact ⟨plain, rfl⟩

theorem addGeminiContent_eq {contents : List GeminiContent} {message : RuntimeMessage} (speaks : message.role ≠ .system) :
    addGeminiContent contents message = add geminiForm contents (geminiRole message) (geminiPart message) := by
  unfold addGeminiContent add
  rw [if_neg speaks]
  cases contents.getLast? with
  | none => rfl
  | some previous =>
    by_cases same : previous.role = geminiRole message
    · have joins : geminiForm.role previous = geminiRole message := same
      simp only [if_pos same, if_pos joins]
      rfl
    · have opens : geminiForm.role previous ≠ geminiRole message := same
      simp only [if_neg same, if_neg opens]
      rfl

theorem foldl_gemini (messages : List RuntimeMessage) (contents : List GeminiContent) :
    messages.foldl addGeminiContent contents = (spoken messages).foldl
      (fun contents message => add geminiForm contents (geminiRole message) (geminiPart message)) contents := by
  induction messages generalizing contents with
  | nil => rfl
  | cons message messages ih =>
    by_cases system : message.role = .system
    · rw [List.foldl_cons, ih, addGeminiContent, if_pos system, spoken, spoken, List.filter_cons_of_neg (by simp [system])]
    · rw [List.foldl_cons, ih, addGeminiContent_eq system, spoken, spoken, List.filter_cons_of_pos (by simp [system]), List.foldl_cons]

/-! Both. -/

/-- The turns hold the messages in their order: each in a turn of its role, as an entry that carries it. -/
def Holds {Turn Role Entry : Type} (form : Form Turn Role Entry) (roleOf : RuntimeMessage → Role) (carries : RuntimeMessage → Entry → Prop)
    (messages : List RuntimeMessage) (turns : List Turn) : Prop :=
  List.Forall₂ (fun message held => held.1 = roleOf message ∧ carries message held.2) messages (held form turns)

theorem Holds.of_map {Turn Role Entry : Type} {form : Form Turn Role Entry} {roleOf : RuntimeMessage → Role}
    {carries : RuntimeMessage → Entry → Prop} {entryOf : RuntimeMessage → Entry} {messages : List RuntimeMessage} {turns : List Turn}
    (carried : ∀ message, carries message (entryOf message))
    (all : held form turns = messages.map fun message => (roleOf message, entryOf message)) :
    Holds form roleOf carries messages turns := by
  unfold Holds
  rw [all, List.forall₂_map_right_iff, List.forall₂_same]
  intro message _
  exact ⟨rfl, carried message⟩

theorem anthropic_conversation (messages : List RuntimeMessage) :
    Alternates anthropicForm (messages.foldl addAnthropicMessage []) ∧
      held anthropicForm (messages.foldl addAnthropicMessage []) =
        (spoken messages).map fun message => (anthropicRole message, anthropicBlock message) := by
  rw [foldl_anthropic]
  exact foldl_add _ _ _ Alternates.nil

theorem gemini_conversation (messages : List RuntimeMessage) :
    Alternates geminiForm (toGeminiContents messages) ∧
      held geminiForm (toGeminiContents messages) =
        (spoken messages).map fun message => (geminiRole message, geminiPart message) := by
  unfold toGeminiContents
  rw [foldl_gemini]
  exact foldl_add _ _ _ Alternates.nil

theorem anthropicRole_assistant {message : RuntimeMessage} : anthropicRole message = .assistant ↔ message.role = .assistant := by
  unfold anthropicRole
  split
  next assistant => exact iff_of_true rfl assistant
  next other => exact iff_of_false (by decide) other

/-- The role the conversation would open with is that of the first message that is not a system's. -/
theorem anthropic_opens (messages : List RuntimeMessage) :
    (messages.foldl addAnthropicMessage []).head?.map (·.role) = (spoken messages).head?.map fun message => anthropicRole message := by
  obtain ⟨alternates, all⟩ := anthropic_conversation messages
  have opens := alternates.opens
  rw [all, List.head?_map, Option.map_map] at opens
  exact opens

def openingTurn : AnthropicMessage where
  content := [.text (units "Continue the durable Run.")]
  role := .user

/-- A filler turn opens the conversation exactly where an assistant spoke first. -/
theorem toAnthropicMessages_eq (messages : List RuntimeMessage) :
    toAnthropicMessages messages = if (spoken messages).head?.map (·.role) = some .assistant
      then openingTurn :: messages.foldl addAnthropicMessage [] else messages.foldl addAnthropicMessage [] := by
  have opens := anthropic_opens messages
  unfold toAnthropicMessages
  cases result : messages.foldl addAnthropicMessage [] with
  | nil =>
    cases first : (spoken messages).head? with
    | none => rfl
    | some message => simp [result, first] at opens
  | cons first rest =>
    cases spoke : (spoken messages).head? with
    | none => simp [result, spoke] at opens
    | some message =>
      have same : first.role = anthropicRole message := by simpa [result, spoke] using opens
      simp only [List.head?_cons, Option.any_some, beq_iff_eq, Option.map_some, Option.some.injEq, same, anthropicRole_assistant]
      rfl

/-- The filler turn is followed by an assistant's. -/
theorem alternates_opened {first : AnthropicMessage} {rest : List AnthropicMessage} (assistant : first.role = .assistant)
    (alternates : Alternates anthropicForm (first :: rest)) : Alternates anthropicForm (openingTurn :: first :: rest) := by
  refine ⟨.cons_cons ?_ alternates.alternate, fun turn listed => ?_⟩
  · change AnthropicRole.user ≠ first.role
    rw [assistant]
    decide
  · rcases List.mem_cons.mp listed with rfl | listed
    · exact List.cons_ne_nil _ _
    · exact alternates.filled turn listed

theorem toAnthropicMessages_turns (messages : List RuntimeMessage) :
    Alternates anthropicForm (toAnthropicMessages messages) ∧ ∀ first ∈ (toAnthropicMessages messages).head?, first.role = .user := by
  obtain ⟨alternates, -⟩ := anthropic_conversation messages
  have opens := anthropic_opens messages
  rw [toAnthropicMessages_eq]
  split
  next assistant =>
    refine ⟨?_, fun first head => ?_⟩
    · cases result : messages.foldl addAnthropicMessage [] with
      | nil =>
        obtain ⟨message, spoke, -⟩ := Option.map_eq_some_iff.mp assistant
        simp [result, spoke] at opens
      | cons first rest =>
        rw [result] at alternates opens
        obtain ⟨message, spoke, role⟩ := Option.map_eq_some_iff.mp assistant
        have same : first.role = anthropicRole message := by simpa [spoke] using opens
        exact alternates_opened (same.trans (anthropicRole_assistant.mpr role)) alternates
    · obtain rfl : openingTurn = first := by simpa using head
      rfl
  next other =>
    refine ⟨alternates, fun first head => ?_⟩
    rw [Option.mem_def] at head
    rw [head] at opens
    obtain ⟨message, spoke, same⟩ := Option.map_eq_some_iff.mp opens.symm
    cases role : first.role with
    | user => rfl
    | assistant => exact absurd (by rw [spoke, Option.map_some, anthropicRole_assistant.mp (same.trans role)]) other

/-- Both providers are sent turns that alternate and are not empty, and that hold every message but a system's. -/
theorem conversations_alternate (messages : List RuntimeMessage) :
    (Alternates anthropicForm (toAnthropicMessages messages) ∧
      (∀ first ∈ (toAnthropicMessages messages).head?, first.role = .user) ∧
      ∃ conversation, Holds anthropicForm anthropicRole (fun message block => block.Carries message) (spoken messages) conversation ∧
        toAnthropicMessages messages =
          if (spoken messages).head?.map (·.role) = some .assistant then openingTurn :: conversation else conversation) ∧
      Alternates geminiForm (toGeminiContents messages) ∧
      Holds geminiForm geminiRole (fun message part => part.Carries message) (spoken messages) (toGeminiContents messages) := by
  obtain ⟨alternate, user⟩ := toAnthropicMessages_turns messages
  obtain ⟨-, entries⟩ := anthropic_conversation messages
  obtain ⟨alternates, all⟩ := gemini_conversation messages
  exact ⟨⟨alternate, user, _, Holds.of_map anthropicBlock_carries entries, toAnthropicMessages_eq messages⟩,
    alternates, Holds.of_map geminiPart_carries all⟩

end OttiliCoder
