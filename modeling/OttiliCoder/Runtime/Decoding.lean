import OttiliCoder.Library.JsonProperties
import OttiliCoder.Runtime.Provider

/-! What the provider adapters make of the body of a successful response. The body is used as if it
had the documented shape, so that a use it does not bear throws a TypeError. -/

namespace OttiliCoder
open Host

/-- What the decoding of a response throws. -/
inductive DecodingError where
  | providerFailure (kind : ProviderFailureKind) (message : JsString)
  | typeError

abbrev Decoding := Except DecodingError

def malformed (message : JsString) : DecodingError := .providerFailure .malformedOutput message

/-- The result of a use of a value that may not bear it. -/
def used {α : Type} (result : Option α) : Decoding α :=
  match result with
  | some value => return value
  | none => throw .typeError

/-! A response as it is passed on: the adapters do not look at every value they return. -/

structure DecodedCall where
  id : JsonValue
  input : JsonValue
  name : JsonValue

structure DecodedUsage where
  inputTokens : Option JsonValue
  outputTokens : Option JsonValue
  cachedTokens : Option JsonValue

structure DecodedResponse where
  text : Option JsonValue
  toolCalls : Option (List DecodedCall)
  usage : Option DecodedUsage

/-- `{ ...(calls.length === 0 ? {} : { toolCalls: calls }) }`. -/
def someCalls (calls : List DecodedCall) : Option (List DecodedCall) := if calls.isEmpty then none else some calls

/-- `{ ...(text.length === 0 ? {} : { text }) }`. -/
def someText (text : JsString) : Option JsonValue := if text.isEmpty then none else some (.string text)

/-- A name is there and its length is not zero. -/
def requireName (failure : DecodingError) : Option JsonValue → Decoding JsonValue
  | none => throw failure
  | some name => do
    let empty ← used name.isEmpty
    if empty then throw failure else return name

/-- An input is an object; the failure names the tool. -/
def requireInput (before after : String) (name : JsonValue) (input : Option JsonValue) : Decoding JsonValue :=
  match input with
  | some (.object members) => return .object members
  | _ => do
    let text ← used name.spelled
    throw (malformed (units before ++ text ++ units after))

/-- The calls among the items; `read` is given the number of calls made so far. -/
def collectCalls (read : Nat → JsonValue → Decoding (Option DecodedCall)) (made : Nat) :
    List JsonValue → Decoding (List DecodedCall)
  | [] => return []
  | item :: items => do
    match ← read made item with
    | none => collectCalls read made items
    | some call => do
      let calls ← collectCalls read (made + 1) items
      return call :: calls

attribute [grind =] collectCalls

/-- `call.id ?? ...`, by the position of the call. -/
def callId (made : Nat) (id : Option JsonValue) : JsonValue :=
  (nonNull id).getD (.string (units "tool-call-" ++ digitUnits (digitsOf (made + 1))))

/-- The figures of a usage that is there. -/
def readUsage (figures : JsonValue → DecodedUsage) : Option JsonValue → Decoding (Option DecodedUsage)
  | none => return none
  | some .null => throw .typeError
  | some usage => return some (figures usage)

/-! OpenAI-compatible. -/

def isOpenAiTurnPayload (payload : JsonValue) : Bool :=
  (payload.get? (units "choices")).isSome || (payload.get? (units "usage")).isSome

/-- `JSON.parse(call.function?.arguments ?? "{}")`. -/
def parseArguments (function : Option JsonValue) : Option JsonValue :=
  ((nonNull (optionalProperty "arguments" function)).getD (.string (units "\x7b\x7d"))).spelled.bind parseJson

def requireArguments (name : JsonValue) : Option JsonValue → Decoding JsonValue
  | none => do
    let text ← used name.spelled
    throw (malformed (units "Tool '" ++ text ++ units "' has invalid JSON arguments."))
  | some input => requireInput "Tool '" "' arguments must be an object." name (some input)

def parseToolCall (made : Nat) (call : JsonValue) : Decoding (Option DecodedCall) := do
  let function ← used (call.property "function")
  let name ← requireName (malformed (units "Provider tool call has no function name.")) (optionalProperty "name" function)
  let input ← requireArguments name (parseArguments function)
  return some { id := callId made (call.get? (units "id")), input, name }

def parseToolCalls (calls : Option JsonValue) : Decoding (List DecodedCall) := do
  let calls ← used (itemsOf calls)
  collectCalls parseToolCall 0 calls

def openAiUsage (usage : JsonValue) : DecodedUsage where
  inputTokens := usage.get? (units "prompt_tokens")
  outputTokens := usage.get? (units "completion_tokens")
  cachedTokens := optionalProperty "cached_tokens" (usage.get? (units "prompt_tokens_details"))

/-- `payload.choices?.[0]?.message`. -/
def firstMessage (payload : JsonValue) : Option JsonValue :=
  optionalProperty "message" ((payload.get? (units "choices")).bind JsonValue.first)

def decodeOpenAi (payload : JsonValue) : Decoding DecodedResponse :=
  if !isOpenAiTurnPayload payload then throw (malformed (units "Provider response has no choices array."))
  else
    match firstMessage payload with
    | none => throw (malformed (units "Provider response has no message."))
    | some message => do
      let calls ← used (message.property "tool_calls")
      let toolCalls ← parseToolCalls calls
      let text := nonNull (message.get? (units "content"))
      if text.isNone && toolCalls.isEmpty then
        throw (malformed (units "Provider response has neither text nor tool calls."))
      else do
        let usage ← readUsage openAiUsage (payload.get? (units "usage"))
        return { text, toolCalls := someCalls toolCalls, usage }

/-! Anthropic. -/

def isToolUse (block : JsonValue) : Bool := (block.get? (units "type")).any (JsonValue.isText "tool_use")

/-- What a block adds to the text. -/
def blockText (block : JsonValue) : Option JsString := do
  let type ← block.property "type"
  if type.any (JsonValue.isText "text") then joinedText (block.get? (units "text")) else return []

def readToolUse (made : Nat) (block : JsonValue) : Decoding (Option DecodedCall) :=
  if !isToolUse block then return none
  else do
    let name ← requireName (malformed (units "Anthropic tool_use block has no name.")) (block.get? (units "name"))
    let input ← requireInput "Anthropic tool '" "' input must be an object." name (block.get? (units "input"))
    return some { id := callId made (block.get? (units "id")), input, name }

def anthropicUsage (usage : JsonValue) : DecodedUsage where
  inputTokens := usage.get? (units "input_tokens")
  outputTokens := usage.get? (units "output_tokens")
  cachedTokens := usage.get? (units "cache_read_input_tokens")

/-- `typeof payload === "object"`. -/
def isPayload (payload : JsonValue) : Bool := payload.isObject || payload.isArray

def decodeAnthropic (payload : JsonValue) : Decoding DecodedResponse :=
  if !isPayload payload then throw (malformed (units "Anthropic response is not an object."))
  else do
    let blocks ← used (itemsOf (nonNull (payload.get? (units "content"))))
    let texts ← used (blocks.mapM blockText)
    let text := texts.flatten
    let toolCalls ← collectCalls readToolUse 0 blocks
    if text.isEmpty && toolCalls.isEmpty then
      throw (malformed (units "Anthropic response has neither text nor tool use."))
    else if (payload.get? (units "stop_reason")).any (JsonValue.isText "max_tokens") && toolCalls.isEmpty then
      throw (.providerFailure .contextOverflow (units "Anthropic stopped at max_tokens before completing the turn."))
    else do
      let usage ← readUsage anthropicUsage (payload.get? (units "usage"))
      return { text := someText text, toolCalls := someCalls toolCalls, usage }

/-! Gemini. -/

def partText (part : JsonValue) : Option JsString := do
  let text ← part.property "text"
  joinedText text

def readFunctionCall (made : Nat) (part : JsonValue) : Decoding (Option DecodedCall) :=
  match part.get? (units "functionCall") with
  | none => return none
  | some call => do
    let named ← used (call.property "name")
    let name ← requireName (malformed (units "Gemini functionCall has no name.")) named
    let input ← requireInput "Gemini tool '" "' args must be an object." name
      (some ((nonNull (call.get? (units "args"))).getD (.object [])))
    let text ← used name.spelled
    return some { id := .string (text ++ unit '-' :: digitUnits (digitsOf (made + 1))), input, name }

def geminiUsage (usage : JsonValue) : DecodedUsage where
  inputTokens := usage.get? (units "promptTokenCount")
  outputTokens := usage.get? (units "candidatesTokenCount")
  cachedTokens := usage.get? (units "cachedContentTokenCount")

def decodeGemini (payload : JsonValue) : Decoding DecodedResponse := do
  let candidates ← used (payload.property "candidates")
  match candidates.bind JsonValue.first with
  | none => throw (malformed (units "Gemini response has no candidates."))
  | some candidate => do
    let content ← used (candidate.property "content")
    let parts ← used (itemsOf (nonNull (optionalProperty "parts" content)))
    let texts ← used (parts.mapM partText)
    let text := trim texts.flatten
    let toolCalls ← collectCalls readFunctionCall 0 parts
    let finishReason := candidate.get? (units "finishReason")
    if finishReason.any (JsonValue.isText "MAX_TOKENS") && toolCalls.isEmpty then
      throw (.providerFailure .contextOverflow (units "Gemini stopped at the output token limit."))
    else if text.isEmpty && toolCalls.isEmpty then do
      let reason ← used ((nonNull finishReason).getD (.string (units "unknown"))).spelled
      throw (malformed (units "Gemini returned no usable content (finishReason=" ++ reason ++ units ")."))
    else do
      let usage ← readUsage geminiUsage (payload.get? (units "usageMetadata"))
      return { text := someText text, toolCalls := someCalls toolCalls, usage }

end OttiliCoder
