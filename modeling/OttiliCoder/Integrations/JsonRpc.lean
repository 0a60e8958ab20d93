import OttiliCoder.Integrations.Mcp
import OttiliCoder.Library.JsNumber
import OttiliCoder.Library.JsonProperties

/-! JSON-RPC messages. Both integrations read them with the same function. -/

namespace OttiliCoder.JsonRpc
open Host Mcp

inductive JsonRpcId where
  | number (literal : NumberLiteral)
  | string (value : JsString)

inductive JsonRpcMessage where
  | request (id : JsonRpcId) (method : JsString) (params : Option JsonValue)
  | notification (method : JsString) (params : Option JsonValue)
  | success (id : JsonRpcId) (result : JsonValue)
  | error (id : JsonRpcId) (code : NumberLiteral) (message : JsString) (data : Option JsonValue)

/-- An id as a `Map` compares it: numbers by their value. -/
inductive MapKey where
  | number (value : ℚ)
  | string (value : JsString)
deriving DecidableEq

def JsonRpcId.key : JsonRpcId → MapKey
  | .number literal => .number (JsNumber.ofLiteral literal).toRat
  | .string value => .string value

def mcpProtocolError (message : String) : McpFailure := ⟨"MCP_PROTOCOL", message, false⟩

mutual
/-- Only a number can fail: one that is too large was read as an infinity. -/
def isJsonValue : JsonValue → Bool
  | .number literal => (JsNumber.ofLiteral literal).isFinite
  | .array items => areJsonValues items
  | .object members => areJsonMembers members
  | _ => true

def areJsonValues : List JsonValue → Bool
  | [] => true
  | item :: items => isJsonValue item && areJsonValues items

/-- `Object.values(value).every(isJsonValue)`: a member that a later one replaces is none of the values. -/
def areJsonMembers : List (JsString × JsonValue) → Bool
  | [] => true
  | (name, value) :: members => (members.any (fun member => member.1 == name) || isJsonValue value) && areJsonMembers members
end

def jsonRpcId : Option JsonValue → Option JsonRpcId
  | some (.string value) => some (.string value)
  | some (.number literal) => if (JsNumber.ofLiteral literal).isFinite = true then some (.number literal) else none
  | _ => none

/-- A value that may be missing, and is a JSON value otherwise. -/
def missingOrJson (value : Option JsonValue) : Bool := value.all isJsonValue

/-- What has a method is a request, or a notification where it has no id. -/
def parseCall (value : JsonValue) (method : JsString) : Except McpFailure JsonRpcMessage :=
  let params := value.get? (units "params")
  if missingOrJson params = false then .error (mcpProtocolError "JSON-RPC request parameters must be JSON values.")
  else
    match value.get? (units "id"), jsonRpcId (value.get? (units "id")) with
    | none, _ => .ok (.notification method params)
    | some _, none => .error (mcpProtocolError "JSON-RPC request id must be a string or finite number.")
    | some _, some id => .ok (.request id method params)

def parseErrorResponse (id : JsonRpcId) (error : JsonValue) : Except McpFailure JsonRpcMessage :=
  match error.get? (units "code"), error.get? (units "message") with
  | some (.number code), some (.string message) =>
    let data := error.get? (units "data")
    if missingOrJson data = false then .error (mcpProtocolError "JSON-RPC error data must be a JSON value.")
    else .ok (.error id code message data)
  | _, _ => .error (mcpProtocolError "JSON-RPC error response is malformed.")

def parseResponse (value : JsonValue) : Except McpFailure JsonRpcMessage :=
  match jsonRpcId (value.get? (units "id")) with
  | none => .error (mcpProtocolError "JSON-RPC response id must be a string or finite number.")
  | some id =>
    match value.get? (units "result"), value.get? (units "error") with
    | some result, none =>
      if isJsonValue result = false then .error (mcpProtocolError "JSON-RPC result must be a JSON value.") else .ok (.success id result)
    | none, some error => parseErrorResponse id error
    | _, _ => .error (mcpProtocolError "JSON-RPC responses must contain exactly one of result or error.")

/-- The value comes from `JSON.parse`, so what it has are its own properties. -/
def parseJsonRpcMessage (value : JsonValue) : Except McpFailure JsonRpcMessage :=
  if (value.get? (units "jsonrpc")).any (JsonValue.isText "2.0") = false then
    .error (mcpProtocolError "Expected a JSON-RPC 2.0 object.")
  else
    match value.get? (units "method") with
    | some (.string method) => parseCall value method
    | _ => parseResponse value

/-! Messages as they are written. -/

namespace JsonRpcId

def value : JsonRpcId → JsonValue
  | .number literal => .number literal
  | .string value => .string value

end JsonRpcId

namespace JsonRpcMessage

def errorMembers (code : NumberLiteral) (message : JsString) (data : Option JsonValue) : List (JsString × JsonValue) :=
  [(units "code", .number code), (units "message", .string message)] ++ data.toList.map fun value => (units "data", value)

/-- The properties of the object that is the message; they may stand in any order. -/
def Properties : JsonRpcMessage → List (JsString × JsonValue) → Prop
  | request id method params, members =>
    members.Perm ([(units "jsonrpc", .string (units "2.0")), (units "id", id.value), (units "method", .string method)] ++
      params.toList.map fun value => (units "params", value))
  | notification method params, members =>
    members.Perm ([(units "jsonrpc", .string (units "2.0")), (units "method", .string method)] ++
      params.toList.map fun value => (units "params", value))
  | success id result, members =>
    members.Perm [(units "jsonrpc", .string (units "2.0")), (units "id", id.value), (units "result", result)]
  | error id code message data, members => ∃ inner, inner.Perm (errorMembers code message data) ∧
    members.Perm [(units "jsonrpc", .string (units "2.0")), (units "id", id.value), (units "error", .object inner)]

/-- What the types of a message promise: its numbers are finite. -/
def Valid : JsonRpcMessage → Prop
  | request id _ params => (jsonRpcId (some id.value)).isSome = true ∧ missingOrJson params = true
  | notification _ params => missingOrJson params = true
  | success id result => (jsonRpcId (some id.value)).isSome = true ∧ isJsonValue result = true
  | error id _ _ data => (jsonRpcId (some id.value)).isSome = true ∧ missingOrJson data = true

/-- The object is the message. -/
def IsValue (message : JsonRpcMessage) (value : JsonValue) : Prop := ∃ members, value = .object members ∧ message.Properties members

/-- The id of a response. -/
def responseTo : JsonRpcMessage → Option JsonRpcId
  | success id _ => some id
  | error id _ _ _ => some id
  | _ => none

end JsonRpcMessage

end OttiliCoder.JsonRpc
