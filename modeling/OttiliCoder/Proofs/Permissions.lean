import Mathlib.Data.Set.Basic
import Mathlib.Order.Bounds.Basic
import Mathlib.Order.MinMax
import Mathlib.Logic.Relation
import OttiliCoder.Proofs.Containment

/-! Permissions compose as an intersection: the decision is the least effect of the layers that speak,
and a layer or a rule more never raises it. -/

namespace OttiliCoder.Permissions
open Containment

/-! Effects by their rank. -/

theorem permissionRank_injective : Function.Injective permissionRank := by
  intro effect other same
  cases effect <;> cases other <;> first | rfl | cases same

/-- Deny below prompt below allow. -/
instance : LinearOrder PermissionEffect := .lift' permissionRank permissionRank_injective

theorem deny_le (effect : PermissionEffect) : .deny ≤ effect := Nat.zero_le _

theorem le_allow (effect : PermissionEffect) : effect ≤ .allow := by
  cases effect <;> decide

theorem strictest_eq (current effect : PermissionEffect) : strictest current effect = min current effect := by
  cases current <;> cases effect <;> rfl

theorem foldl_isLeast (current : PermissionEffect) (effects : List PermissionEffect) :
    IsLeast {effect | effect = current ∨ effect ∈ effects} (effects.foldl strictest current) := by
  induction effects generalizing current with
  | nil => simp
  | cons next effects ih =>
    obtain ⟨member, least⟩ := ih (strictest current next)
    rw [List.foldl_cons]
    refine ⟨?_, ?_⟩
    · obtain same | later := member
      · obtain first | second := min_choice current next
        · exact .inl (same.trans ((strictest_eq current next).trans first))
        · exact .inr (List.mem_cons.mpr (.inl (same.trans ((strictest_eq current next).trans second))))
      · exact .inr (List.mem_cons_of_mem _ later)
    · have below : effects.foldl strictest (strictest current next) ≤ min current next :=
        least (.inl (strictest_eq current next).symm)
      rintro effect (rfl | listed)
      · exact below.trans (min_le_left _ _)
      obtain rfl | later := List.mem_cons.mp listed
      · exact below.trans (min_le_right _ _)
      · exact least (.inr later)

/-! Policies. -/

/-- A rule that applies to the request, with its effect. -/
def Applies (policy : PermissionPolicy) (input : PermissionEvaluationInput) (effect : PermissionEffect) : Prop :=
  ∃ rule ∈ policy.rules, ruleMatches rule input = true ∧ rule.effect = effect

theorem mem_effects {policy : PermissionPolicy} {input : PermissionEvaluationInput} {effect : PermissionEffect} :
    effect ∈ (policy.rules.filter fun rule => ruleMatches rule input).map (·.effect) ↔ Applies policy input effect := by
  simp only [List.mem_map, List.mem_filter, Applies, and_assoc]

/-- The default of a mode is one more rule, but for custom policies. -/
theorem evaluatePolicy_isLeast {policy : PermissionPolicy} (input : PermissionEvaluationInput)
    (moded : policy.mode ≠ .custom) :
    IsLeast {effect | effect = defaultPermissionEffect policy.mode input.action ∨ Applies policy input effect}
      (evaluatePolicy policy input) := by
  rw [evaluatePolicy, if_neg moded]
  simp only [← mem_effects]
  exact foldl_isLeast _ _

theorem evaluatePolicy_deny {policy : PermissionPolicy} {input : PermissionEvaluationInput}
    (denied : Applies policy input .deny) : evaluatePolicy policy input = .deny := by
  have listed := mem_effects.mpr denied
  rw [evaluatePolicy]
  split
  · rw [if_neg (by simpa using List.ne_nil_of_mem listed)]
    exact foldl_strictest.mpr (.inr listed)
  · exact foldl_strictest.mpr (.inr listed)

/-- One rule more, at any place. -/
def AddsRule (policy longer : PermissionPolicy) : Prop :=
  ∃ before rule after, policy.rules = before ++ after ∧ longer = { policy with rules := before ++ rule :: after }

theorem AddsRule.evaluatePolicy_le {policy longer : PermissionPolicy} (adds : AddsRule policy longer)
    (moded : policy.mode ≠ .custom) (input : PermissionEvaluationInput) :
    evaluatePolicy longer input ≤ evaluatePolicy policy input := by
  obtain ⟨before, rule, after, rules, rfl⟩ := adds
  have moded' : ({ policy with rules := before ++ rule :: after } : PermissionPolicy).mode ≠ .custom := moded
  apply (evaluatePolicy_isLeast input moded').2
  obtain default | ⟨other, listed, applies⟩ := (evaluatePolicy_isLeast input moded).1
  · exact .inl default
  · refine .inr ⟨other, ?_, applies⟩
    rw [rules] at listed
    grind

/-! Layers. -/

/-- The layers that speak on a request, with what they say. -/
inductive LayerEffect (input : PermissionEvaluationInput) : PermissionEffect → Prop
  | run : LayerEffect input (evaluatePolicy input.runPolicy input)
  | role {policy : PermissionPolicy} (given : input.rolePolicy = some policy) :
      LayerEffect input (evaluatePolicy policy input)
  | tool {policy : PermissionPolicy} (given : input.toolPolicy = some policy) :
      LayerEffect input (evaluatePolicy policy input)
  | sandboxPolicy {sandbox : SandboxPolicy} (given : input.sandbox = some sandbox) :
      LayerEffect input (evaluatePolicy sandbox.permissions input)
  | sandboxCapability {sandbox : SandboxPolicy} {effect : PermissionEffect} (given : input.sandbox = some sandbox)
      (constrained : evaluateSandboxConstraint sandbox input = some effect) : LayerEffect input effect
  | approval (required : input.requiresApproval = true) : LayerEffect input .prompt

theorem mem_evaluations {input : PermissionEvaluationInput} {effect : PermissionEffect} :
    effect ∈ (permissionEvaluations input).map (·.2) ↔ LayerEffect input effect := by
  have layer : ∀ (source : String) (policy : Option PermissionPolicy),
      effect ∈ (policy.map fun policy => (source, evaluatePolicy policy input)).toList.map (·.2) ↔
        ∃ given, policy = some given ∧ effect = evaluatePolicy given input := by
    intro source policy
    cases policy <;> simp
  simp only [permissionEvaluations, List.map_append, List.mem_append, layer]
  constructor
  · rintro ((((spoken | ⟨policy, given, rfl⟩) | ⟨policy, given, rfl⟩) | spoken) | spoken)
    · rw [List.map_singleton, List.mem_singleton] at spoken
      exact spoken ▸ .run
    · exact .role given
    · exact .tool given
    · cases given : input.sandbox with
      | none => simp [given] at spoken
      | some sandbox =>
        rw [given, List.map_cons, List.mem_cons] at spoken
        obtain rfl | constrained := spoken
        · exact .sandboxPolicy given
        · apply LayerEffect.sandboxCapability given
          simpa using constrained
    · split at spoken
      · next required =>
        rw [List.map_singleton, List.mem_singleton] at spoken
        exact spoken ▸ .approval required
      · cases spoken
  · intro spoken
    cases spoken with
    | run => exact .inl (.inl (.inl (.inl (by simp))))
    | role given => exact .inl (.inl (.inl (.inr ⟨_, given, rfl⟩)))
    | tool given => exact .inl (.inl (.inr ⟨_, given, rfl⟩))
    | sandboxPolicy given => exact .inl (.inr (by simp [given]))
    | sandboxCapability given constrained => exact .inl (.inr (by simp [given, constrained]))
    | approval required => exact .inr (by simp [required])

theorem decision_isLeast (input : PermissionEvaluationInput) :
    IsLeast {effect | LayerEffect input effect} (evaluatePermission input).decision := by
  have least := foldl_isLeast .allow ((permissionEvaluations input).map (·.2))
  simp only [mem_evaluations] at least
  refine ⟨?_, fun effect spoken => least.2 (.inr spoken)⟩
  obtain allowed | spoken := least.1
  · -- the seed is no layer, but then the Run allows as well
    have lower : (evaluatePermission input).decision ≤ evaluatePolicy input.runPolicy input := least.2 (.inr .run)
    have same : evaluatePolicy input.runPolicy input = (evaluatePermission input).decision :=
      le_antisymm ((le_allow _).trans_eq allowed.symm) lower
    have spoken : LayerEffect input (evaluatePermission input).decision := same ▸ .run
    exact spoken
  · exact spoken

/-- A request with layers that say no less strict things is decided no less strictly. -/
theorem decision_le {input stricter : PermissionEvaluationInput}
    (covered : ∀ effect, LayerEffect input effect → ∃ lower, LayerEffect stricter lower ∧ lower ≤ effect) :
    (evaluatePermission stricter).decision ≤ (evaluatePermission input).decision := by
  obtain ⟨lower, spoken, below⟩ := covered _ (decision_isLeast input).1
  exact ((decision_isLeast stricter).2 spoken).trans below

/-- A policy that was there is there, and no less strict on the request. -/
def Kept (input : PermissionEvaluationInput) (slot narrower : Option PermissionPolicy) : Prop :=
  ∀ policy, slot = some policy → ∃ other, narrower = some other ∧ evaluatePolicy other input ≤ evaluatePolicy policy input

section Kept
variable {input stricter : PermissionEvaluationInput} {policy longer : PermissionPolicy} {slot narrower : Option PermissionPolicy}

theorem Kept.refl : Kept input slot slot := fun policy given => ⟨policy, given, le_refl _⟩

theorem Kept.absent (absent : slot = none) : Kept input slot narrower := by
  intro policy given
  cases absent.symm.trans given

theorem Kept.rule (given : slot = some policy) (moded : policy.mode ≠ .custom) (adds : AddsRule policy longer) :
    Kept input slot (some longer) := by
  intro other same
  obtain rfl : policy = other := Option.some.inj (given.symm.trans same)
  exact ⟨longer, rfl, adds.evaluatePolicy_le moded input⟩

/-- Every layer of a request is kept, and nothing else is asked. -/
structure Within (stricter input : PermissionEvaluationInput) : Prop where
  policies : ∀ policy, evaluatePolicy policy stricter = evaluatePolicy policy input
  constraints : ∀ sandbox, evaluateSandboxConstraint sandbox stricter = evaluateSandboxConstraint sandbox input
  run : Kept input (some input.runPolicy) (some stricter.runPolicy)
  role : Kept input input.rolePolicy stricter.rolePolicy
  tool : Kept input input.toolPolicy stricter.toolPolicy
  sandboxPolicy : Kept input (input.sandbox.map (·.permissions)) (stricter.sandbox.map (·.permissions))
  capability : ∀ effect, input.sandbox.bind (evaluateSandboxConstraint · input) = some effect →
    stricter.sandbox.bind (evaluateSandboxConstraint · input) = some effect
  approval : input.requiresApproval = true → stricter.requiresApproval = true

/-- A request with layers no less strict is decided no less strictly. -/
theorem Within.decision_le (within : Within stricter input) :
    (evaluatePermission stricter).decision ≤ (evaluatePermission input).decision := by
  obtain ⟨spoken, -⟩ := decision_isLeast input
  have least := (decision_isLeast stricter).2
  suffices covered : ∃ lower, LayerEffect stricter lower ∧ lower ≤ (evaluatePermission input).decision by
    obtain ⟨lower, speaks, below⟩ := covered
    exact (least speaks).trans below
  generalize (evaluatePermission input).decision = effect at spoken
  cases spoken with
  | run =>
    obtain ⟨other, same, below⟩ := within.run _ rfl
    cases same
    exact ⟨_, .run, (within.policies _).trans_le below⟩
  | role given =>
    obtain ⟨other, kept, below⟩ := within.role _ given
    exact ⟨_, .role kept, (within.policies _).trans_le below⟩
  | tool given =>
    obtain ⟨other, kept, below⟩ := within.tool _ given
    exact ⟨_, .tool kept, (within.policies _).trans_le below⟩
  | sandboxPolicy given =>
    obtain ⟨other, kept, below⟩ := within.sandboxPolicy _ (congrArg (Option.map (·.permissions)) given)
    obtain ⟨sandbox, there, rfl⟩ := Option.map_eq_some_iff.mp kept
    exact ⟨_, .sandboxPolicy there, (within.policies _).trans_le below⟩
  | sandboxCapability given constrained =>
    obtain ⟨sandbox, there, kept⟩ := Option.bind_eq_some_iff.mp (within.capability effect (by rw [given]; exact constrained))
    exact ⟨_, .sandboxCapability there ((within.constraints sandbox).trans kept), le_refl _⟩
  | approval required => exact ⟨_, .approval (within.approval required), le_refl _⟩

end Kept

/-- A layer or a rule more: the ways a request's permissions are narrowed. -/
inductive Narrows : PermissionEvaluationInput → PermissionEvaluationInput → Prop
  | role {input : PermissionEvaluationInput} (absent : input.rolePolicy = none) (policy : PermissionPolicy) :
      Narrows input { input with rolePolicy := some policy }
  | tool {input : PermissionEvaluationInput} (absent : input.toolPolicy = none) (policy : PermissionPolicy) :
      Narrows input { input with toolPolicy := some policy }
  | sandbox {input : PermissionEvaluationInput} (absent : input.sandbox = none) (sandbox : SandboxPolicy) :
      Narrows input { input with sandbox := some sandbox }
  | approval {input : PermissionEvaluationInput} : Narrows input { input with requiresApproval := true }
  | runRule {input : PermissionEvaluationInput} {longer : PermissionPolicy} (moded : input.runPolicy.mode ≠ .custom)
      (adds : AddsRule input.runPolicy longer) : Narrows input { input with runPolicy := longer }
  | roleRule {input : PermissionEvaluationInput} {policy longer : PermissionPolicy}
      (given : input.rolePolicy = some policy) (moded : policy.mode ≠ .custom) (adds : AddsRule policy longer) :
      Narrows input { input with rolePolicy := some longer }
  | toolRule {input : PermissionEvaluationInput} {policy longer : PermissionPolicy}
      (given : input.toolPolicy = some policy) (moded : policy.mode ≠ .custom) (adds : AddsRule policy longer) :
      Narrows input { input with toolPolicy := some longer }
  | sandboxRule {input : PermissionEvaluationInput} {sandbox : SandboxPolicy} {longer : PermissionPolicy}
      (given : input.sandbox = some sandbox) (moded : sandbox.permissions.mode ≠ .custom)
      (adds : AddsRule sandbox.permissions longer) :
      Narrows input { input with sandbox := some { sandbox with permissions := longer } }

theorem Narrows.within {input stricter : PermissionEvaluationInput} (narrows : Narrows input stricter) :
    Within stricter input := by
  have policies : ∀ policy, evaluatePolicy policy stricter = evaluatePolicy policy input := by
    cases narrows <;> exact fun _ => rfl
  have constraints : ∀ sandbox, evaluateSandboxConstraint sandbox stricter = evaluateSandboxConstraint sandbox input := by
    cases narrows <;> exact fun _ => rfl
  cases narrows with
  | role absent => exact ⟨policies, constraints, .refl, .absent absent, .refl, .refl, fun _ => id, id⟩
  | tool absent => exact ⟨policies, constraints, .refl, .refl, .absent absent, .refl, fun _ => id, id⟩
  | sandbox absent =>
    refine ⟨policies, constraints, .refl, .refl, .refl, .absent (congrArg _ absent), ?_, id⟩
    intro effect spoken
    rw [absent] at spoken
    cases spoken
  | approval => exact ⟨policies, constraints, .refl, .refl, .refl, .refl, fun _ => id, fun _ => rfl⟩
  | runRule moded adds => exact ⟨policies, constraints, .rule rfl moded adds, .refl, .refl, .refl, fun _ => id, id⟩
  | roleRule given moded adds =>
    exact ⟨policies, constraints, .refl, .rule given moded adds, .refl, .refl, fun _ => id, id⟩
  | toolRule given moded adds =>
    exact ⟨policies, constraints, .refl, .refl, .rule given moded adds, .refl, fun _ => id, id⟩
  | sandboxRule given moded adds =>
    refine ⟨policies, constraints, .refl, .refl, .refl, .rule (congrArg _ given) moded adds, ?_, id⟩
    intro effect spoken
    rw [given] at spoken
    exact spoken

/-- However many layers and rules are added. -/
theorem narrowed_decision_le {input stricter : PermissionEvaluationInput}
    (narrowed : Relation.ReflTransGen Narrows input stricter) :
    (evaluatePermission stricter).decision ≤ (evaluatePermission input).decision := by
  induction narrowed with
  | refl => exact le_refl _
  | tail _ narrows ih => exact narrows.within.decision_le.trans ih

/-- The policies a request is decided by. -/
def Consulted (input : PermissionEvaluationInput) (policy : PermissionPolicy) : Prop :=
  policy = input.runPolicy ∨ input.rolePolicy = some policy ∨ input.toolPolicy = some policy ∨
    ∃ sandbox, input.sandbox = some sandbox ∧ policy = sandbox.permissions

theorem Consulted.speaks {input : PermissionEvaluationInput} {policy : PermissionPolicy} (consulted : Consulted input policy) :
    LayerEffect input (evaluatePolicy policy input) := by
  obtain rfl | given | given | ⟨sandbox, given, rfl⟩ := consulted
  · exact .run
  · exact .role given
  · exact .tool given
  · exact .sandboxPolicy given

theorem Consulted.denies {input : PermissionEvaluationInput} {policy : PermissionPolicy} (consulted : Consulted input policy)
    (denied : Applies policy input .deny) : (evaluatePermission input).decision = .deny := by
  have spoken := consulted.speaks
  rw [evaluatePolicy_deny denied] at spoken
  exact le_antisymm ((decision_isLeast input).2 spoken) (deny_le _)

/-! Tools. -/

theorem permissionActionsForTool_ne_nil (tool : ToolDefinition) : permissionActionsForTool tool ≠ [] := by
  unfold permissionActionsForTool
  split
  · cases tool.sideEffectClass <;> simp
  · next declared => simpa using declared

theorem required_listed {tool : ToolDefinition} {action : PermissionAction} (required : action ∈ tool.permissions.required) :
    action ∈ permissionActionsForTool tool := by
  rw [permissionActionsForTool, if_neg (by simpa using List.ne_nil_of_mem required)]
  exact required

/-- A tool is allowed when all of its evaluations are. -/
def ToolAllowed (tool : ToolDefinition) (input : PermissionEvaluationInput) : Prop :=
  ∀ evaluation ∈ evaluateToolPermissions tool input, evaluation.decision = .allow

theorem toolAllowed_iff {tool : ToolDefinition} {input : PermissionEvaluationInput} : ToolAllowed tool input ↔
    ∀ action ∈ permissionActionsForTool tool, (evaluatePermission (toolRequest tool input action)).decision = .allow := by
  simp only [ToolAllowed, evaluateToolPermissions, List.forall_mem_map]

/-- Permissions compose as an intersection. -/
theorem permissions_intersect (input : PermissionEvaluationInput) :
    IsLeast {effect | LayerEffect input effect} (evaluatePermission input).decision ∧
      (∀ stricter, Relation.ReflTransGen Narrows input stricter →
        (evaluatePermission stricter).decision ≤ (evaluatePermission input).decision) ∧
      (∀ policy, Consulted input policy → ∀ rule ∈ policy.rules, ruleMatches rule input = true → rule.effect = .deny →
        (evaluatePermission input).decision = .deny) ∧
      ∀ tool, ToolAllowed tool input → permissionActionsForTool tool ≠ [] ∧
        (∀ action ∈ tool.permissions.required, action ∈ permissionActionsForTool tool) ∧
        ∀ action ∈ permissionActionsForTool tool,
          (evaluatePermission (toolRequest tool input action)).decision = .allow := by
  refine ⟨decision_isLeast input, fun _ => narrowed_decision_le, ?_, ?_⟩
  · intro policy consulted rule listed applies denies
    exact consulted.denies ⟨rule, listed, applies, denies⟩
  · intro tool allowed
    exact ⟨permissionActionsForTool_ne_nil tool, fun _ => required_listed, toolAllowed_iff.mp allowed⟩

/-- A Run that may do anything reads a file, for a role that keeps some files to itself. -/
def readRequest (rolePolicy : Option PermissionPolicy) : PermissionEvaluationInput where
  action := .read
  resourceScope := some { kind := .file, identifier := "keys/main", access := .read }
  runPolicy := { mode := .unrestricted }
  rolePolicy := rolePolicy

def keepKeys : PermissionRule := { action := none, effect := .deny, resourcePattern := some "keys/*" }

theorem permissions_intersect_sample :
    (evaluatePermission (readRequest (some { mode := .standard }))).decision ≤
        (evaluatePermission (readRequest none)).decision ∧
      (evaluatePermission (readRequest (some { mode := .standard, rules := [keepKeys] }))).decision = .deny ∧
      (evaluatePermission (readRequest none)).decision = .allow := by
  have role := (permissions_intersect (readRequest none)).2.1 _ (.single (.role rfl { mode := .standard }))
  have denied := (permissions_intersect (readRequest (some { mode := .standard, rules := [keepKeys] }))).2.2.1 _
    (.inr (.inl rfl)) keepKeys List.mem_cons_self (by decide +kernel) rfl
  have allowed := (permissions_intersect (readRequest none)).2.2.2 { sideEffectClass := .none, permissions := { required := [] } }
    (fun evaluation listed => by rw [List.mem_singleton.mp listed]; decide +kernel)
  exact ⟨role, denied, allowed.2.2 .read List.mem_cons_self⟩

end OttiliCoder.Permissions
