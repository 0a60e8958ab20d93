import OttiliCoder.Runtime.Provider

/-! The messages of a request as the Anthropic and Gemini providers send them. -/

namespace OttiliCoder
open Host

/-! Anthropic: turns alternate, and tool results are user content. -/

/-- A content block; `toolUse` comes in responses. -/
inductive AnthropicBlock where
  | text (text : JsString)
  | toolResult (content : JsString) (toolUseId : String)
  | toolUse (id name : String) (input : JsonObject)

inductive AnthropicRole where
  | assistant | user
deriving DecidableEq

structure AnthropicMessage where
  content : List AnthropicBlock
  role : AnthropicRole

def anthropicRole (message : RuntimeMessage) : AnthropicRole :=
  if message.role = .assistant then .assistant else .user

def anthropicBlock (message : RuntimeMessage) : AnthropicBlock :=
  match message.role, message.toolCallId with
  | .tool, some toolCallId => .toolResult message.content toolCallId
  | _, _ => .text message.content

/-- A message of the role of the last one joins it. -/
def addAnthropicMessage (result : List AnthropicMessage) (message : RuntimeMessage) : List AnthropicMessage :=
  if message.role = .system then result
  else
    let role := anthropicRole message
    let block := anthropicBlock message
    match result.getLast? with
    | some previous =>
      if previous.role = role then result.dropLast ++ [{ content := previous.content ++ [block], role := role }]
      else result ++ [{ content := [block], role := role }]
    | none => [{ content := [block], role := role }]

/-- A conversation must open with a user turn. -/
def toAnthropicMessages (messages : List RuntimeMessage) : List AnthropicMessage :=
  let result := messages.foldl addAnthropicMessage []
  if result.head?.any fun first => first.role == .assistant then
    { content := [.text (units "Continue the durable Run.")], role := .user } :: result
  else result

/-! Gemini. -/

inductive GeminiPart where
  | text (text : JsString)
  | functionResponse (name : String) (output : JsString)

structure GeminiContent where
  role : String
  parts : List GeminiPart

def geminiRole (message : RuntimeMessage) : String := if message.role = .assistant then "model" else "user"

def geminiPart (message : RuntimeMessage) : GeminiPart :=
  match message.role with
  | .tool => .functionResponse (message.toolCallId.getD "tool") message.content
  | _ => .text message.content

def addGeminiContent (contents : List GeminiContent) (message : RuntimeMessage) : List GeminiContent :=
  if message.role = .system then contents
  else
    let role := geminiRole message
    let part := geminiPart message
    match contents.getLast? with
    | some previous =>
      if previous.role = role then contents.dropLast ++ [{ previous with parts := previous.parts ++ [part] }]
      else contents ++ [{ parts := [part], role := role }]
    | none => [{ parts := [part], role := role }]

def toGeminiContents (messages : List RuntimeMessage) : List GeminiContent := messages.foldl addGeminiContent []

/-- The ids Gemini leaves out are made from the names and places of the calls. -/
def geminiToolCalls (calls : List (String × JsonObject)) : List ToolCall :=
  calls.mapIdx fun place (name, input) => { id := name ++ "-" ++ toString (place + 1), input := input, name := name }

end OttiliCoder
