import OttiliCoder.Core.Policies
import OttiliCoder.Core.Stringify
import OttiliCoder.Store.Internal

/-! What a turn and its provider say to each other. The content of a message is UTF-16: a
transcript is cut by its length. -/

namespace OttiliCoder
open Host

inductive ProviderFailureKind where
  | authentication | connectionTimeout | contextOverflow | firstByteTimeout | invalidRequest | malformedOutput
  | modelUnavailable | network | rateLimited | server | streamInactive
deriving DecidableEq

def ProviderFailureKind.retryable (kind : ProviderFailureKind) : Bool :=
  !List.contains [ProviderFailureKind.authentication, .contextOverflow, .invalidRequest, .malformedOutput] kind

/-- What a turn can throw. -/
inductive TurnError where
  | providerFailure (kind : ProviderFailureKind) (message : String) (retryAfterMs : Option Number := none)
  | approvalRequired (approvalId : ApprovalId)
  | aborted (message : String)
  | store (error : StoreError)
  | error (message : String)
  | unknown

inductive MessageRole where
  | assistant | system | tool | user
deriving DecidableEq

structure RuntimeMessage where
  role : MessageRole
  content : JsString
  toolCallId : Option String := none
deriving DecidableEq

structure ToolCall where
  id : String
  name : String
  input : JsonObject

structure TurnUsage where
  inputTokens : Option Number := none
  outputTokens : Option Number := none
  cachedTokens : Option Number := none
  costUsd : Option Number := none
deriving DecidableEq

structure ProviderTool where
  name : String
  description : String
deriving DecidableEq

structure ProviderTurnRequest where
  messages : List RuntimeMessage
  model : String
  tools : List ProviderTool

structure ProviderTurnResponse where
  text : Option String := none
  toolCalls : Option (List ToolCall) := none
  usage : Option TurnUsage := none

/-- `response.toolCalls ?? []`. -/
def ProviderTurnResponse.calls (response : ProviderTurnResponse) : List ToolCall := response.toolCalls.getD []

structure ToolArtifact where
  name : String
  uri : String
deriving DecidableEq

structure ToolResult where
  artifacts : Option (List ToolArtifact) := none
  output : String
deriving DecidableEq

end OttiliCoder
