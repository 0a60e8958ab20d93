import Mathlib.Algebra.Order.Ring.Unbundled.Rat
import OttiliCoder.Core.Values

/-! Shared budgets and resource scopes. -/

namespace OttiliCoder

structure BudgetUsage where
  inputTokens : Number
  outputTokens : Number
  cachedTokens : Number
  costUsd : Number
  wallTimeMs : Number
  toolCalls : Number
  childAgents : Number
deriving DecidableEq

structure BudgetDelta where
  inputTokens : Option Number := none
  outputTokens : Option Number := none
  cachedTokens : Option Number := none
  costUsd : Option Number := none
  wallTimeMs : Option Number := none
  toolCalls : Option Number := none
  childAgents : Option Number := none
deriving DecidableEq

structure BudgetReservation extends BudgetDelta where
  totalTokens : Option Number := none
deriving DecidableEq

structure RunBudget where
  maxInputTokens : Option Number := none
  maxOutputTokens : Option Number := none
  maxTotalTokens : Option Number := none
  maxCachedTokens : Option Number := none
  maxCostUsd : Option Number := none
  maxWallTimeMs : Option Number := none
  maxToolCalls : Option Number := none
  maxChildAgents : Option Number := none
  recoveryReserve : Option BudgetReservation := none
  validationReserve : Option BudgetReservation := none
deriving DecidableEq

def emptyBudgetUsage : BudgetUsage := ⟨0, 0, 0, 0, 0, 0, 0⟩

inductive BudgetLimitKind where
  | inputTokens | outputTokens | totalTokens | cachedTokens | costUsd | wallTimeMs | toolCalls
  | childAgents | reservedCapacity
deriving DecidableEq

/-- The message of an `InvariantViolationError`. -/
abbrev InvariantMessage := String

def BudgetUsage.entries (usage : BudgetUsage) : List (String × Option Number) :=
  [("inputTokens", some usage.inputTokens), ("outputTokens", some usage.outputTokens),
    ("cachedTokens", some usage.cachedTokens), ("costUsd", some usage.costUsd),
    ("wallTimeMs", some usage.wallTimeMs), ("toolCalls", some usage.toolCalls),
    ("childAgents", some usage.childAgents)]

def BudgetDelta.entries (delta : BudgetDelta) : List (String × Option Number) :=
  [("inputTokens", delta.inputTokens), ("outputTokens", delta.outputTokens),
    ("cachedTokens", delta.cachedTokens), ("costUsd", delta.costUsd),
    ("wallTimeMs", delta.wallTimeMs), ("toolCalls", delta.toolCalls), ("childAgents", delta.childAgents)]

def RunBudget.ceilings (budget : RunBudget) : List (String × Option Number) :=
  [("maxInputTokens", budget.maxInputTokens), ("maxOutputTokens", budget.maxOutputTokens),
    ("maxTotalTokens", budget.maxTotalTokens), ("maxCachedTokens", budget.maxCachedTokens),
    ("maxCostUsd", budget.maxCostUsd), ("maxWallTimeMs", budget.maxWallTimeMs),
    ("maxToolCalls", budget.maxToolCalls), ("maxChildAgents", budget.maxChildAgents)]

/-- Refuses the first entry that is given and not a finite non-negative number. -/
def assertEntries (label : String → String) (entries : List (String × Option Number)) :
    Except InvariantMessage Unit :=
  entries.forM fun (key, value) =>
    match value with
    | some value =>
      if !value.isFinite || value.below 0 then
        throw (label key ++ " must be a finite non-negative number")
      else pure ()
    | none => pure ()

def assertUsage (usage : BudgetUsage) (label : String) : Except InvariantMessage Unit :=
  assertEntries (fun key => label ++ "." ++ key) usage.entries

def assertPartialUsage (usage : BudgetDelta) (label : String) : Except InvariantMessage Unit :=
  assertEntries (fun key => label ++ "." ++ key) usage.entries

def assertBudget (budget : RunBudget) : Except InvariantMessage Unit := do
  assertEntries id budget.ceilings
  if let some recovery := budget.recoveryReserve then
    assertPartialUsage recovery.toBudgetDelta "reserve.recovery"
  if let some validation := budget.validationReserve then
    assertPartialUsage validation.toBudgetDelta "reserve.validation"

namespace Number

def plus : Number → Number → Number
  | .finite left, .finite right => .finite (left + right)
  | _, _ => .notFinite

def minus : Number → Number → Number
  | .finite left, .finite right => .finite (left - right)
  | _, _ => .notFinite

/-- `value ?? 0` of a stored number: one that is not finite was stored as null. -/
def orZero : Option Number → Number
  | some (.finite value) => .finite value
  | some .notFinite => 0
  | none => 0

end Number

/-- Adds usage after rejecting negative and non-finite data. -/
def addBudgetUsage (usage : BudgetUsage) (delta : BudgetDelta) : Except InvariantMessage BudgetUsage := do
  assertUsage usage "usage"
  assertPartialUsage delta "delta"
  return {
    inputTokens := usage.inputTokens.plus (.orZero delta.inputTokens)
    outputTokens := usage.outputTokens.plus (.orZero delta.outputTokens)
    cachedTokens := usage.cachedTokens.plus (.orZero delta.cachedTokens)
    costUsd := usage.costUsd.plus (.orZero delta.costUsd)
    wallTimeMs := usage.wallTimeMs.plus (.orZero delta.wallTimeMs)
    toolCalls := usage.toolCalls.plus (.orZero delta.toolCalls)
    childAgents := usage.childAgents.plus (.orZero delta.childAgents) }

/-- What the two reserves hold back together. -/
def sumReservations (left right : Option BudgetReservation) (field : BudgetReservation → Option Number) :
    Number :=
  (Number.orZero (left.bind field)).plus (.orZero (right.bind field))

/-- The limits one metric exhausts: its own, or the capacity kept in reserve. -/
def assessMetric (maximum : Option Number) (used protectedCapacity : Number) (directLimit : BudgetLimitKind) :
    List BudgetLimitKind :=
  match maximum with
  | none => []
  | some maximum =>
    let directRemaining := maximum.minus used
    if directRemaining.atMost 0 then [directLimit]
    else if (directRemaining.minus protectedCapacity).atMost 0 then [.reservedCapacity]
    else []

/-- The limits that stop general work, none when it may continue. -/
def evaluateBudget (budget : RunBudget) (usage : BudgetUsage) :
    Except InvariantMessage (List BudgetLimitKind) := do
  assertBudget budget
  assertUsage usage "usage"
  let reserve := sumReservations budget.recoveryReserve budget.validationReserve
  return assessMetric budget.maxInputTokens usage.inputTokens (reserve (·.inputTokens)) .inputTokens ++
    assessMetric budget.maxOutputTokens usage.outputTokens (reserve (·.outputTokens)) .outputTokens ++
    assessMetric budget.maxCachedTokens usage.cachedTokens 0 .cachedTokens ++
    assessMetric budget.maxCostUsd usage.costUsd (reserve (·.costUsd)) .costUsd ++
    assessMetric budget.maxWallTimeMs usage.wallTimeMs (reserve (·.wallTimeMs)) .wallTimeMs ++
    assessMetric budget.maxToolCalls usage.toolCalls (reserve (·.toolCalls)) .toolCalls ++
    assessMetric budget.maxTotalTokens (usage.inputTokens.plus usage.outputTokens)
      (((reserve (·.inputTokens)).plus (reserve (·.outputTokens))).plus (reserve (·.totalTokens))) .totalTokens ++
    assessMetric budget.maxChildAgents usage.childAgents 0 .childAgents

/-! Budgets phase by phase. -/

inductive BudgetPhase where
  | general | recovery | validation
deriving DecidableEq

structure BudgetAssessment where
  allowed : Bool
  phase : BudgetPhase
  exhausted : List BudgetLimitKind
  remaining : BudgetReservation
deriving DecidableEq

/-- General work keeps both reserves, recovery and validation each the other's. -/
def reserveForOtherPhases (budget : RunBudget) : BudgetPhase → BudgetReservation
  | .general =>
    let sum := sumReservations budget.recoveryReserve budget.validationReserve
    { inputTokens := some (sum (·.inputTokens))
      outputTokens := some (sum (·.outputTokens))
      totalTokens := some (sum (·.totalTokens))
      cachedTokens := some (sum (·.cachedTokens))
      costUsd := some (sum (·.costUsd))
      wallTimeMs := some (sum (·.wallTimeMs))
      toolCalls := some (sum (·.toolCalls))
      childAgents := some (sum (·.childAgents)) }
  | .recovery => budget.validationReserve.getD {}
  | .validation => budget.recoveryReserve.getD {}

/-- What a metric has left of its maximum, where it has one: `Math.max(0, available)`. -/
def remainingMetric (maximum : Option Number) (used protectedCapacity : Number) : Option Number :=
  maximum.map fun maximum =>
    match (maximum.minus used).minus protectedCapacity with
    | .finite available => .finite (max 0 available)
    | .notFinite => .notFinite

/-- `evaluateBudget` with its phase: what is exhausted and what remains, metric by metric. -/
def evaluateBudgetIn (budget : RunBudget) (usage : BudgetUsage) (phase : BudgetPhase) :
    Except InvariantMessage BudgetAssessment := do
  assertBudget budget
  assertUsage usage "usage"
  let reserve := reserveForOtherPhases budget phase
  let totalUsed := usage.inputTokens.plus usage.outputTokens
  let totalReserve := ((Number.orZero reserve.inputTokens).plus (.orZero reserve.outputTokens)).plus
    (.orZero reserve.totalTokens)
  let exhausted :=
    assessMetric budget.maxInputTokens usage.inputTokens (.orZero reserve.inputTokens) .inputTokens ++
    assessMetric budget.maxOutputTokens usage.outputTokens (.orZero reserve.outputTokens) .outputTokens ++
    assessMetric budget.maxCachedTokens usage.cachedTokens 0 .cachedTokens ++
    assessMetric budget.maxCostUsd usage.costUsd (.orZero reserve.costUsd) .costUsd ++
    assessMetric budget.maxWallTimeMs usage.wallTimeMs (.orZero reserve.wallTimeMs) .wallTimeMs ++
    assessMetric budget.maxToolCalls usage.toolCalls (.orZero reserve.toolCalls) .toolCalls ++
    assessMetric budget.maxTotalTokens totalUsed totalReserve .totalTokens ++
    assessMetric budget.maxChildAgents usage.childAgents 0 .childAgents
  return {
    allowed := exhausted.isEmpty
    phase := phase
    exhausted := exhausted
    remaining :=
      { inputTokens := remainingMetric budget.maxInputTokens usage.inputTokens (.orZero reserve.inputTokens)
        outputTokens := remainingMetric budget.maxOutputTokens usage.outputTokens (.orZero reserve.outputTokens)
        cachedTokens := remainingMetric budget.maxCachedTokens usage.cachedTokens 0
        costUsd := remainingMetric budget.maxCostUsd usage.costUsd (.orZero reserve.costUsd)
        wallTimeMs := remainingMetric budget.maxWallTimeMs usage.wallTimeMs (.orZero reserve.wallTimeMs)
        toolCalls := remainingMetric budget.maxToolCalls usage.toolCalls (.orZero reserve.toolCalls)
        totalTokens := remainingMetric budget.maxTotalTokens totalUsed totalReserve
        childAgents := remainingMetric budget.maxChildAgents usage.childAgents 0 } }

/-! Permissions. -/

inductive PermissionMode where
  | safe | standard | autonomous | unrestricted | custom
deriving DecidableEq

inductive PermissionAction where
  | read | write | execute | network | external | destructive | approve
deriving DecidableEq

inductive PermissionEffect where
  | allow | prompt | deny
deriving DecidableEq

/-- A rule with no action applies to every action. -/
structure PermissionRule where
  action : Option PermissionAction
  effect : PermissionEffect
  toolName : Option String := none
  resourcePattern : Option String := none
  reason : Option String := none
deriving DecidableEq

structure PermissionPolicy where
  mode : PermissionMode
  rules : List PermissionRule := []
deriving DecidableEq

structure SandboxPolicy where
  writableRoots : List String
  readOnlyRoots : List String
  networkEnabled : Bool
  allowedDestinations : List String
  processEnabled : Bool
  allowedCommands : Option (List String) := none
  permissions : PermissionPolicy
deriving DecidableEq

def defaultPermissions : PermissionPolicy := { mode := .standard }

def defaultSandbox : SandboxPolicy where
  writableRoots := []
  readOnlyRoots := []
  networkEnabled := false
  allowedDestinations := []
  processEnabled := true
  permissions := defaultPermissions

inductive ToolSideEffectClass where
  | none | workspace | external | destructive
deriving DecidableEq

inductive ToolIdempotency where
  | safe | conditional | unsafeRetry
deriving DecidableEq

inductive ToolRecoveryStrategy where
  | retry | reconcile | manual
deriving DecidableEq

/-! Resource scopes. -/

inductive ResourceKind where
  | file | repository | git | database | service | deployment | process | custom
deriving DecidableEq

def ResourceKind.text : ResourceKind → String
  | .file => "file" | .repository => "repository" | .git => "git" | .database => "database"
  | .service => "service" | .deployment => "deployment" | .process => "process" | .custom => "custom"

inductive ResourceAccessMode where
  | read | write
deriving DecidableEq

structure ResourceScope where
  kind : ResourceKind
  identifier : String
  access : ResourceAccessMode
deriving DecidableEq

def isLineTerminator (c : Char) : Bool := c == '\n' || c == '\r' || c.toNat == 0x2028 || c.toNat == 0x2029

/-- `.*` followed by `rest`, matched against a whole value. -/
def matchStar (rest : List Char → Bool) : List Char → Bool
  | [] => rest []
  | c :: value => rest (c :: value) || (!isLineTerminator c && matchStar rest value)

def matchWildcard : List Char → List Char → Bool
  | [], value => value.isEmpty
  | p :: pattern, value =>
    if p == '*' then matchStar (matchWildcard pattern) value
    else match value with
      | [] => false
      | c :: value => p == c && matchWildcard pattern value

def wildcardMatches (pattern value : String) : Bool := matchWildcard pattern.toList value.toList

def stripTrailingSlash (value : String) : String :=
  if value.endsWith "/" then String.ofList value.toList.dropLast else value

def resourceIdentifiersOverlap (kind : ResourceKind) (left right : String) : Bool :=
  if left == right || wildcardMatches left right || wildcardMatches right left then true
  else if kind != .file then false
  else
    let normalizedLeft := stripTrailingSlash left
    let normalizedRight := stripTrailingSlash right
    normalizedLeft.startsWith (normalizedRight ++ "/") || normalizedRight.startsWith (normalizedLeft ++ "/")

/-- Whether a scheduler must serialize two scope requests. -/
def resourceScopesConflict (left right : ResourceScope) : Bool :=
  if left.kind != right.kind || (left.access == .read && right.access == .read) then false
  else resourceIdentifiersOverlap left.kind left.identifier right.identifier

/-! Permission decisions. -/

structure PermissionEvaluationInput where
  action : PermissionAction
  toolName : Option String := none
  resourceScope : Option ResourceScope := none
  runPolicy : PermissionPolicy
  rolePolicy : Option PermissionPolicy := none
  toolPolicy : Option PermissionPolicy := none
  sandbox : Option SandboxPolicy := none
  requiresApproval : Bool := false
deriving DecidableEq

structure PermissionEvaluation where
  action : PermissionAction
  decision : PermissionEffect
  reasons : List String
deriving DecidableEq

def permissionRank : PermissionEffect → Nat
  | .allow => 2 | .prompt => 1 | .deny => 0

def PermissionEffect.text : PermissionEffect → String
  | .allow => "allow" | .prompt => "prompt" | .deny => "deny"

/-- The effect of lower rank. -/
def strictest (current effect : PermissionEffect) : PermissionEffect :=
  if permissionRank effect < permissionRank current then effect else current

def ruleMatches (rule : PermissionRule) (input : PermissionEvaluationInput) : Bool :=
  rule.action.all (· == input.action) && (rule.toolName.isNone || rule.toolName == input.toolName) &&
    match rule.resourcePattern with
    | none => true
    | some pattern => input.resourceScope.any fun scope => wildcardMatches pattern scope.identifier

/-- The effect where no rule matches; a custom policy then denies. -/
def defaultPermissionEffect : PermissionMode → PermissionAction → PermissionEffect
  | .safe, .read => .allow
  | .safe, .write | .safe, .execute => .prompt
  | .safe, _ => .deny
  | .standard, .read => .allow
  | .standard, .destructive => .deny
  | .standard, _ => .prompt
  | .autonomous, .destructive | .autonomous, .approve => .deny
  | .autonomous, .external => .prompt
  | .autonomous, _ => .allow
  | .unrestricted, _ => .allow
  | .custom, _ => .deny

def evaluatePolicy (policy : PermissionPolicy) (input : PermissionEvaluationInput) : PermissionEffect :=
  let effects := (policy.rules.filter fun rule => ruleMatches rule input).map (·.effect)
  if policy.mode = .custom then
    if effects.isEmpty then .deny else effects.foldl strictest .allow
  else effects.foldl strictest (defaultPermissionEffect policy.mode input.action)

def evaluateSandboxConstraint (sandbox : SandboxPolicy) (input : PermissionEvaluationInput) : Option PermissionEffect :=
  if input.action = .network ∧ sandbox.networkEnabled = false then some .deny
  else if input.action = .execute ∧ sandbox.processEnabled = false then some .deny
  else if input.action ≠ .write then none
  else match input.resourceScope.filter fun scope => scope.kind == .file with
    | none => none
    | some scope =>
      if sandbox.readOnlyRoots.any fun root => resourceIdentifiersOverlap .file root scope.identifier then some .deny
      else if sandbox.writableRoots.isEmpty ||
          !sandbox.writableRoots.any fun root => resourceIdentifiersOverlap .file root scope.identifier then some .deny
      else none

/-- What run, role, tool and sandbox say, each by its source. -/
def permissionEvaluations (input : PermissionEvaluationInput) : List (String × PermissionEffect) :=
  [("run", evaluatePolicy input.runPolicy input)] ++
    (input.rolePolicy.map fun policy => ("role", evaluatePolicy policy input)).toList ++
    (input.toolPolicy.map fun policy => ("tool", evaluatePolicy policy input)).toList ++
    (match input.sandbox with
      | none => []
      | some sandbox => ("sandbox-policy", evaluatePolicy sandbox.permissions input) ::
          ((evaluateSandboxConstraint sandbox input).map fun effect => ("sandbox-capability", effect)).toList) ++
    if input.requiresApproval then [("approval", .prompt)] else []

/-- The intersection of the policies: the strictest effect, with the sources that decided it. -/
def evaluatePermission (input : PermissionEvaluationInput) : PermissionEvaluation :=
  let evaluations := permissionEvaluations input
  let decision := (evaluations.map (·.2)).foldl strictest .allow
  { action := input.action
    decision := decision
    reasons := (evaluations.filter fun evaluation => evaluation.2 == decision).map fun evaluation =>
      evaluation.1 ++ ":" ++ evaluation.2.text }

/-! Tools. -/

structure ToolPermissionPolicy where
  required : List PermissionAction
  requiresApproval : Bool := false
deriving DecidableEq

/-- What a tool's permissions are decided from. -/
structure ToolDefinition where
  sideEffectClass : ToolSideEffectClass
  permissions : ToolPermissionPolicy
deriving DecidableEq

/-- The declared actions, or the one its side effects stand for. -/
def permissionActionsForTool (tool : ToolDefinition) : List PermissionAction :=
  if tool.permissions.required.isEmpty then
    match tool.sideEffectClass with
    | .none => [.read]
    | .workspace => [.write]
    | .external => [.external]
    | .destructive => [.destructive]
  else tool.permissions.required

/-- The request for one action of a tool; only the tool says whether it needs an approval. -/
def toolRequest (tool : ToolDefinition) (input : PermissionEvaluationInput) (action : PermissionAction) :
    PermissionEvaluationInput :=
  { input with action := action, requiresApproval := tool.permissions.requiresApproval }

def evaluateToolPermissions (tool : ToolDefinition) (input : PermissionEvaluationInput) : List PermissionEvaluation :=
  (permissionActionsForTool tool).map fun action => evaluatePermission (toolRequest tool input action)

end OttiliCoder
