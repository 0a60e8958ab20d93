import OttiliCoder.Core.Policies
import OttiliCoder.Integrations.Mcp
import OttiliCoder.Library.CodePoints

/-! The tools of the connected MCP servers, as one registry of a run. -/

namespace OttiliCoder.Mcp
open Host Relational

structure McpToolDescriptor where
  name : String
  description : Option String := none
  inputSchema : Option JsonObject := none
  annotations : Option JsonObject := none

/-- The value of a field, if it has the right type when it is there. -/
def optionalOf {α : Type} (read : Json → Option α) (record : JsonObject) (key message : String) : Except String (Option α) :=
  match JsonObject.get? record key with
  | none => .ok none
  | some value =>
    match read value with
    | some value => .ok (some value)
    | none => .error message

def parseMcpTool (value : Json) : Except String McpToolDescriptor :=
  let unnamed := "MCP tools/list returned a tool without a valid name."
  match value.asObject with
  | none => .error unnamed
  | some record =>
    match JsonObject.text? record "name" with
    | none => .error unnamed
    | some name =>
      if isBlank name then .error unnamed
      else do
        let description ← optionalOf Json.asString record "description" ("MCP tool " ++ name ++ " has a non-string description.")
        let inputSchema ← optionalOf Json.asObject record "inputSchema" ("MCP tool " ++ name ++ " has an invalid input schema.")
        let annotations ← optionalOf Json.asObject record "annotations" ("MCP tool " ++ name ++ " has invalid annotations.")
        return { name, description, inputSchema, annotations }

/-- What a server answers to `tools/list`, or what the request throws. -/
abbrev ListAnswer := Except String Json

def listTools (answer : ListAnswer) : Except String (List McpToolDescriptor) := do
  let result ← answer
  match result.asObject with
  | none => .error "MCP tools/list returned a non-object result."
  | some result =>
    match (JsonObject.get? result "tools").bind Json.asArray with
    | none => .error "MCP tools/list result must contain a tools array."
    | some tools => tools.mapM parseMcpTool

structure McpToolSafetyMetadata where
  sideEffectClass : Option ToolSideEffectClass := none
  idempotency : Option ToolIdempotency := none
  recovery : Option ToolRecoveryStrategy := none
  supportsBackground : Option Bool := none
  resourceScopes : Option (List ResourceScope) := none
  permissions : Option ToolPermissionPolicy := none

/-- The definition of the policies; it cannot be executed. -/
structure McpToolPolicy where
  idempotency : ToolIdempotency
  name : String
  permissions : ToolPermissionPolicy
  recovery : ToolRecoveryStrategy
  resourceScopes : List ResourceScope
  sideEffectClass : ToolSideEffectClass
  supportsBackground : Bool
  description : Option String
  inputSchema : Option JsonObject

def mcpToolName (serverId : ServerId) (toolName : String) : String := "mcp." ++ serverId ++ "." ++ toolName

def toMcpToolDefinition (serverId : ServerId) (tool : McpToolDescriptor) (metadata : McpToolSafetyMetadata) :
    Except String McpToolPolicy :=
  if isBlank serverId || isBlank tool.name then .error "MCP server and tool names must not be empty."
  else .ok {
    idempotency := metadata.idempotency.getD .conditional
    name := mcpToolName serverId tool.name
    permissions := metadata.permissions.getD { required := [.external, .network], requiresApproval := true }
    recovery := metadata.recovery.getD .reconcile
    resourceScopes := metadata.resourceScopes.getD [{ access := .write, identifier := "mcp:" ++ serverId, kind := .service }]
    sideEffectClass := metadata.sideEffectClass.getD .external
    supportsBackground := metadata.supportsBackground.getD false
    description := tool.description
    inputSchema := tool.inputSchema }

/-- The call of `callMcpTool` that a definition's `execute` stands for. -/
structure McpToolCall where
  serverId : ServerId
  toolName : String
  maxOutputBytes : Nat
deriving DecidableEq

structure RuntimeToolDefinition where
  description : String
  execute : McpToolCall
  idempotency : ToolIdempotency
  name : String
  permissions : ToolPermissionPolicy
  recovery : ToolRecoveryStrategy
  resourceScopes : List String
  sideEffect : ToolSideEffectClass
  supportsBackground : Bool
deriving DecidableEq

/-- The input schema is not handed on. -/
def toRuntimeToolDefinition (definition : McpToolPolicy) (execute : McpToolCall) : RuntimeToolDefinition where
  description := definition.description.getD ("MCP tool " ++ definition.name ++ ".")
  execute := execute
  idempotency := definition.idempotency
  name := definition.name
  permissions := definition.permissions
  recovery := definition.recovery
  resourceScopes := definition.resourceScopes.map fun scope => scope.kind.text ++ ":" ++ scope.identifier
  sideEffect := definition.sideEffectClass
  supportsBackground := definition.supportsBackground

abbrev ToolRegistry := Keyed RuntimeToolDefinition.name

def register (registry : ToolRegistry) (definition : RuntimeToolDefinition) : Except String ToolRegistry :=
  if (registry.find? definition.name).isSome then .error ("Tool '" ++ definition.name ++ "' is already registered.")
  else .ok (registry.insert definition)

structure McpToolsOptions where
  /-- Safety metadata of some servers. -/
  safety : ServerId → Option McpToolSafetyMetadata := fun _ => none
  maxOutputBytes : Nat := 64 * 1024

section Tools
variable (options : McpToolsOptions)

def registerTool (serverId : ServerId) (registry : ToolRegistry) (tool : McpToolDescriptor) : Except String ToolRegistry := do
  let policyDefinition ← toMcpToolDefinition serverId tool ((options.safety serverId).getD {})
  register registry (toRuntimeToolDefinition policyDefinition
    { serverId, toolName := tool.name, maxOutputBytes := options.maxOutputBytes })

/-- One server's turn. A server that stops answering is not fatal to the rest of the tool surface; it contributes none. -/
def registerServer (answers : ServerId → ListAnswer) (registry : ToolRegistry) (serverId : ServerId) : Except String ToolRegistry :=
  match listTools (answers serverId) with
  | .error _ => .ok registry
  | .ok tools => tools.foldlM (registerTool options serverId) registry

/-- Registers the tools of each connected server as it answers. -/
def createMcpTools (connectedServerIds : List ServerId) (answers : ServerId → ListAnswer) : Except String ToolRegistry :=
  connectedServerIds.foldlM (registerServer options answers) .empty

end Tools

end OttiliCoder.Mcp
