import OttiliCoder.Integrations.JsonRpc

/-! A JSON-RPC message is read back from the object that it is written as. -/

namespace OttiliCoder.JsonRpc
open Host Mcp

theorem jsonRpcId_value {id : JsonRpcId} (valid : (jsonRpcId (some id.value)).isSome = true) : jsonRpcId (some id.value) = some id := by
  cases id with
  | string text => rfl
  | number literal =>
    unfold JsonRpcId.value jsonRpcId at valid ⊢
    dsimp only at valid ⊢
    split at valid
    · next finite => rw [if_pos finite]
    · cases valid

/-- The property that every message has. -/
theorem parseJsonRpcMessage_version {value : JsonValue} (version : value.get? (units "jsonrpc") = some (.string (units "2.0"))) :
    parseJsonRpcMessage value =
      match value.get? (units "method") with
      | some (.string method) => parseCall value method
      | _ => parseResponse value := by
  have two : (value.get? (units "jsonrpc")).any (JsonValue.isText "2.0") = true := by
    rw [version]
    rfl
  unfold parseJsonRpcMessage
  rw [two]
  rfl

section Properties
variable {members : List (JsString × JsonValue)}

theorem parse_request {id : JsonRpcId} {method : JsString} {params : Option JsonValue}
    (properties : JsonRpcMessage.Properties (.request id method params) members) (valid : JsonRpcMessage.Valid (.request id method params)) :
    parseJsonRpcMessage (.object members) = .ok (.request id method params) := by
  obtain ⟨named, json⟩ := valid
  have held := get?_perm properties (by
    cases params
    · change [units "jsonrpc", units "id", units "method"].Nodup
      decide
    · change [units "jsonrpc", units "id", units "method", units "params"].Nodup
      decide)
  have version : (JsonValue.object members).get? (units "jsonrpc") = some (.string (units "2.0")) := (held _).trans (by cases params <;> rfl)
  have called : (JsonValue.object members).get? (units "method") = some (.string method) := (held _).trans (by cases params <;> rfl)
  have identified : (JsonValue.object members).get? (units "id") = some id.value := (held _).trans (by cases params <;> rfl)
  have given : (JsonValue.object members).get? (units "params") = params := (held _).trans (by cases params <;> rfl)
  rw [parseJsonRpcMessage_version version, called]
  dsimp only
  unfold parseCall
  rw [given, identified, jsonRpcId_value named]
  dsimp only
  rw [json]
  rfl

theorem parse_notification {method : JsString} {params : Option JsonValue}
    (properties : JsonRpcMessage.Properties (.notification method params) members)
    (valid : JsonRpcMessage.Valid (.notification method params)) :
    parseJsonRpcMessage (.object members) = .ok (.notification method params) := by
  have held := get?_perm properties (by
    cases params
    · change [units "jsonrpc", units "method"].Nodup
      decide
    · change [units "jsonrpc", units "method", units "params"].Nodup
      decide)
  have version : (JsonValue.object members).get? (units "jsonrpc") = some (.string (units "2.0")) := (held _).trans (by cases params <;> rfl)
  have called : (JsonValue.object members).get? (units "method") = some (.string method) := (held _).trans (by cases params <;> rfl)
  have nameless : (JsonValue.object members).get? (units "id") = none := (held _).trans (by cases params <;> rfl)
  have given : (JsonValue.object members).get? (units "params") = params := (held _).trans (by cases params <;> rfl)
  have json : missingOrJson params = true := valid
  rw [parseJsonRpcMessage_version version, called]
  dsimp only
  unfold parseCall
  rw [given, nameless]
  dsimp only
  rw [json]
  rfl

theorem parse_success {id : JsonRpcId} {result : JsonValue}
    (properties : JsonRpcMessage.Properties (.success id result) members) (valid : JsonRpcMessage.Valid (.success id result)) :
    parseJsonRpcMessage (.object members) = .ok (.success id result) := by
  obtain ⟨named, json⟩ := valid
  have held := get?_perm properties (by
    change [units "jsonrpc", units "id", units "result"].Nodup
    decide)
  have version : (JsonValue.object members).get? (units "jsonrpc") = some (.string (units "2.0")) := (held _).trans rfl
  have uncalled : (JsonValue.object members).get? (units "method") = none := (held _).trans rfl
  have identified : (JsonValue.object members).get? (units "id") = some id.value := (held _).trans rfl
  have given : (JsonValue.object members).get? (units "result") = some result := (held _).trans rfl
  have fine : (JsonValue.object members).get? (units "error") = none := (held _).trans rfl
  rw [parseJsonRpcMessage_version version, uncalled]
  dsimp only
  unfold parseResponse
  rw [given, fine, identified, jsonRpcId_value named]
  dsimp only
  rw [json]
  rfl

theorem parseErrorResponse_members {id : JsonRpcId} {code : NumberLiteral} {text : JsString} {data : Option JsonValue}
    (properties : members.Perm (JsonRpcMessage.errorMembers code text data)) (json : missingOrJson data = true) :
    parseErrorResponse id (.object members) = .ok (.error id code text data) := by
  have held := get?_perm properties (by
    cases data
    · change [units "code", units "message"].Nodup
      decide
    · change [units "code", units "message", units "data"].Nodup
      decide)
  have coded : (JsonValue.object members).get? (units "code") = some (.number code) := (held _).trans (by cases data <;> rfl)
  have texted : (JsonValue.object members).get? (units "message") = some (.string text) := (held _).trans (by cases data <;> rfl)
  have given : (JsonValue.object members).get? (units "data") = data := (held _).trans (by cases data <;> rfl)
  unfold parseErrorResponse
  rw [coded, texted, given]
  dsimp only
  rw [json]
  rfl

theorem parse_error {id : JsonRpcId} {code : NumberLiteral} {text : JsString} {data : Option JsonValue}
    (properties : JsonRpcMessage.Properties (.error id code text data) members)
    (valid : JsonRpcMessage.Valid (.error id code text data)) :
    parseJsonRpcMessage (.object members) = .ok (.error id code text data) := by
  obtain ⟨named, json⟩ := valid
  obtain ⟨inner, inside, properties⟩ := properties
  have held := get?_perm properties (by
    change [units "jsonrpc", units "id", units "error"].Nodup
    decide)
  have version : (JsonValue.object members).get? (units "jsonrpc") = some (.string (units "2.0")) := (held _).trans rfl
  have uncalled : (JsonValue.object members).get? (units "method") = none := (held _).trans rfl
  have identified : (JsonValue.object members).get? (units "id") = some id.value := (held _).trans rfl
  have resultless : (JsonValue.object members).get? (units "result") = none := (held _).trans rfl
  have failed : (JsonValue.object members).get? (units "error") = some (.object inner) := (held _).trans rfl
  rw [parseJsonRpcMessage_version version, uncalled]
  dsimp only
  unfold parseResponse
  rw [resultless, failed, identified, jsonRpcId_value named]
  exact parseErrorResponse_members inside json

end Properties

/-- A message is read from its object, however the properties are ordered. -/
theorem parseJsonRpcMessage_value {message : JsonRpcMessage} {value : JsonValue} (isValue : message.IsValue value)
    (valid : message.Valid) : parseJsonRpcMessage value = .ok message := by
  obtain ⟨members, rfl, properties⟩ := isValue
  cases message with
  | request id method params => exact parse_request properties valid
  | notification method params => exact parse_notification properties valid
  | success id result => exact parse_success properties valid
  | error id code text data => exact parse_error properties valid

end OttiliCoder.JsonRpc
