import Mathlib.Algebra.Order.Ring.Rat
import Mathlib.Data.Rat.Cast.Order
import Mathlib.Tactic.Linarith
import OttiliCoder.Library.Results
import OttiliCoder.Core.Policies

/-! Budgets as exact amounts: what valid usage is, what adding to it gives, and when
the tool-call limit is reached. -/

namespace OttiliCoder
open Results

/-- What usage counts. -/
inductive Metric where
  | inputTokens | outputTokens | cachedTokens | costUsd | wallTimeMs | toolCalls | childAgents
deriving DecidableEq

def BudgetUsage.get (usage : BudgetUsage) : Metric → Number
  | .inputTokens => usage.inputTokens
  | .outputTokens => usage.outputTokens
  | .cachedTokens => usage.cachedTokens
  | .costUsd => usage.costUsd
  | .wallTimeMs => usage.wallTimeMs
  | .toolCalls => usage.toolCalls
  | .childAgents => usage.childAgents

def BudgetDelta.get (delta : BudgetDelta) : Metric → Option Number
  | .inputTokens => delta.inputTokens
  | .outputTokens => delta.outputTokens
  | .cachedTokens => delta.cachedTokens
  | .costUsd => delta.costUsd
  | .wallTimeMs => delta.wallTimeMs
  | .toolCalls => delta.toolCalls
  | .childAgents => delta.childAgents

namespace Number

/-- A finite, non-negative number. -/
def IsAmount (number : Number) : Prop := ∃ value, number = .finite value ∧ 0 ≤ value

def amount : Number → ℚ
  | .finite value => value
  | .notFinite => 0

theorem isAmount_iff {number : Number} : number.IsAmount ↔ (!number.isFinite || number.below 0) = false := by
  cases number <;> simp [IsAmount, isFinite, below]

theorem IsAmount.eq {number : Number} (valid : number.IsAmount) : number = .finite number.amount := by
  obtain ⟨value, rfl, -⟩ := valid
  rfl

theorem IsAmount.nonneg {number : Number} (valid : number.IsAmount) : 0 ≤ number.amount := by
  obtain ⟨value, rfl, nonneg⟩ := valid
  exact nonneg

theorem IsAmount.plus {left right : Number} (first : left.IsAmount) (second : right.IsAmount) :
    (left.plus right).IsAmount ∧ (left.plus right).amount = left.amount + right.amount := by
  obtain ⟨value, rfl, nonneg⟩ := first
  obtain ⟨other, rfl, larger⟩ := second
  exact ⟨⟨value + other, rfl, add_nonneg nonneg larger⟩, rfl⟩

theorem orZero_amount {value : Option Number} (valid : ∀ number, value = some number → number.IsAmount) :
    (orZero value).IsAmount := by
  cases value with
  | none => exact ⟨0, rfl, le_refl 0⟩
  | some number =>
    obtain ⟨value, rfl, nonneg⟩ := valid number rfl
    exact ⟨value, rfl, nonneg⟩

end Number

/-- Every total is an amount. -/
def BudgetUsage.Valid (usage : BudgetUsage) : Prop := ∀ metric, (usage.get metric).IsAmount

/-- Every amount that is given is one. -/
def BudgetDelta.Valid (delta : BudgetDelta) : Prop :=
  ∀ metric number, delta.get metric = some number → number.IsAmount

def BudgetUsage.amounts (usage : BudgetUsage) (metric : Metric) : ℚ := (usage.get metric).amount

def BudgetDelta.amounts (delta : BudgetDelta) (metric : Metric) : ℚ := (Number.orZero (delta.get metric)).amount

def BudgetUsage.plus (usage : BudgetUsage) (delta : BudgetDelta) : BudgetUsage where
  inputTokens := usage.inputTokens.plus (.orZero delta.inputTokens)
  outputTokens := usage.outputTokens.plus (.orZero delta.outputTokens)
  cachedTokens := usage.cachedTokens.plus (.orZero delta.cachedTokens)
  costUsd := usage.costUsd.plus (.orZero delta.costUsd)
  wallTimeMs := usage.wallTimeMs.plus (.orZero delta.wallTimeMs)
  toolCalls := usage.toolCalls.plus (.orZero delta.toolCalls)
  childAgents := usage.childAgents.plus (.orZero delta.childAgents)

section Checks
variable {usage usage' : BudgetUsage} {delta : BudgetDelta} {label : String}

theorem assertEntries_ok {name : String → String} {entries : List (String × Option Number)} {u : Unit} :
    assertEntries name entries = .ok u ↔
      ∀ entry ∈ entries, ∀ number, entry.2 = some number → number.IsAmount := by
  induction entries with
  | nil => exact ⟨fun _ _ member => absurd member List.not_mem_nil, fun _ => rfl⟩
  | cons entry rest ih =>
    obtain ⟨key, value⟩ := entry
    rw [List.forall_mem_cons, ← ih]
    cases value with
    | none =>
      have stepped : assertEntries name ((key, none) :: rest) = assertEntries name rest := rfl
      simp [stepped]
    | some number =>
      have stepped : assertEntries name ((key, some number) :: rest) =
          (if !number.isFinite || number.below 0 then throw (name key ++ " must be a finite non-negative number") else pure ()) >>=
            fun _ => assertEntries name rest := rfl
      rw [stepped, except_bind_ok]
      simp only [Option.some.injEq, forall_eq', Number.isAmount_iff]
      by_cases bad : (!number.isFinite || number.below 0) = true
      · rw [if_pos bad]
        simp [bad]
      · rw [if_neg bad]
        simp [bad]

theorem assertUsage_ok {u : Unit} : assertUsage usage label = .ok u ↔ usage.Valid := by
  simp only [assertUsage, assertEntries_ok, BudgetUsage.entries, List.forall_mem_cons, Option.some.injEq, forall_eq']
  constructor
  · rintro ⟨first, second, third, fourth, fifth, sixth, seventh, -⟩ metric
    cases metric <;> assumption
  · intro valid
    exact ⟨valid .inputTokens, valid .outputTokens, valid .cachedTokens, valid .costUsd, valid .wallTimeMs,
      valid .toolCalls, valid .childAgents, by simp⟩

theorem assertPartialUsage_ok {u : Unit} : assertPartialUsage delta label = .ok u ↔ delta.Valid := by
  simp only [assertPartialUsage, assertEntries_ok, BudgetDelta.entries, List.forall_mem_cons]
  constructor
  · rintro ⟨first, second, third, fourth, fifth, sixth, seventh, -⟩ metric
    cases metric <;> assumption
  · intro valid
    exact ⟨valid .inputTokens, valid .outputTokens, valid .cachedTokens, valid .costUsd, valid .wallTimeMs,
      valid .toolCalls, valid .childAgents, by simp⟩

/-- Usage is added exactly when the usage and the addition are valid. -/
theorem addBudgetUsage_ok :
    addBudgetUsage usage delta = .ok usage' ↔ usage.Valid ∧ delta.Valid ∧ usage' = usage.plus delta := by
  simp only [addBudgetUsage, except_bind_ok, assertUsage_ok, assertPartialUsage_ok]
  constructor
  · rintro ⟨_, valid, _, given, added⟩
    cases added
    exact ⟨valid, given, rfl⟩
  · rintro ⟨valid, given, rfl⟩
    exact ⟨(), valid, (), given, rfl⟩

theorem BudgetUsage.plus_get (metric : Metric) :
    (usage.plus delta).get metric = (usage.get metric).plus (.orZero (delta.get metric)) := by
  cases metric <;> rfl

theorem BudgetUsage.Valid.plus (valid : usage.Valid) (given : delta.Valid) : (usage.plus delta).Valid := by
  intro metric
  rw [BudgetUsage.plus_get]
  exact ((valid metric).plus (Number.orZero_amount (given metric))).1

theorem BudgetUsage.Valid.amounts_plus (valid : usage.Valid) (given : delta.Valid) :
    (usage.plus delta).amounts = usage.amounts + delta.amounts := by
  funext metric
  rw [BudgetUsage.amounts, BudgetUsage.plus_get]
  exact ((valid metric).plus (Number.orZero_amount (given metric))).2

theorem emptyBudgetUsage_valid : emptyBudgetUsage.Valid := by
  intro metric
  cases metric <;> exact ⟨0, rfl, le_refl 0⟩

theorem emptyBudgetUsage_amounts : emptyBudgetUsage.amounts = 0 := by
  funext metric
  cases metric <;> rfl

end Checks

/-! Limits. -/

section Limits
variable {budget : RunBudget} {usage : BudgetUsage} {limits : List BudgetLimitKind}

/-- The limits that usage exhausts. -/
def exhaustedLimits (budget : RunBudget) (usage : BudgetUsage) : List BudgetLimitKind :=
  let reserve := sumReservations budget.recoveryReserve budget.validationReserve
  assessMetric budget.maxInputTokens usage.inputTokens (reserve (·.inputTokens)) .inputTokens ++
    assessMetric budget.maxOutputTokens usage.outputTokens (reserve (·.outputTokens)) .outputTokens ++
    assessMetric budget.maxCachedTokens usage.cachedTokens 0 .cachedTokens ++
    assessMetric budget.maxCostUsd usage.costUsd (reserve (·.costUsd)) .costUsd ++
    assessMetric budget.maxWallTimeMs usage.wallTimeMs (reserve (·.wallTimeMs)) .wallTimeMs ++
    assessMetric budget.maxToolCalls usage.toolCalls (reserve (·.toolCalls)) .toolCalls ++
    assessMetric budget.maxTotalTokens (usage.inputTokens.plus usage.outputTokens)
      (((reserve (·.inputTokens)).plus (reserve (·.outputTokens))).plus (reserve (·.totalTokens))) .totalTokens ++
    assessMetric budget.maxChildAgents usage.childAgents 0 .childAgents

theorem evaluateBudget_ok :
    evaluateBudget budget usage = .ok limits ↔
      assertBudget budget = .ok () ∧ usage.Valid ∧ limits = exhaustedLimits budget usage := by
  simp only [evaluateBudget, except_bind_ok, assertUsage_ok]
  constructor
  · rintro ⟨_, asserted, _, valid, assessed⟩
    cases assessed
    exact ⟨asserted, valid, rfl⟩
  · rintro ⟨asserted, valid, rfl⟩
    exact ⟨(), asserted, (), valid, rfl⟩

/-- A budget that limits tool calls alone and keeps nothing in reserve. -/
def toolCallBudget (limit : ℕ) : RunBudget := { maxToolCalls := some (.finite limit) }

theorem toolCallBudget_asserted (limit : ℕ) : assertBudget (toolCallBudget limit) = .ok () := by
  have ceilings : assertEntries id (toolCallBudget limit).ceilings = .ok () := by
    rw [assertEntries_ok]
    intro entry member number given
    simp only [toolCallBudget, RunBudget.ceilings, List.mem_cons, List.not_mem_nil, or_false] at member
    rcases member with rfl | rfl | rfl | rfl | rfl | rfl | rfl | rfl <;> cases given
    exact ⟨limit, rfl, Nat.cast_nonneg limit⟩
  rw [assertBudget, ceilings]
  rfl

/-- Tool calls up to the limit exhaust it; the last call of the budget does too. -/
theorem toolCallBudget_limits (valid : usage.Valid) (limit : ℕ) :
    exhaustedLimits (toolCallBudget limit) usage = [] ↔ usage.amounts .toolCalls < limit := by
  obtain ⟨value, stored, -⟩ := valid .toolCalls
  have counted : usage.toolCalls = .finite value := stored
  have amount : usage.amounts .toolCalls = value := by rw [BudgetUsage.amounts, stored]; rfl
  have assessed : exhaustedLimits (toolCallBudget limit) usage =
      assessMetric (some (.finite limit)) (.finite value) (.finite 0) .toolCalls := by
    have none : (0 : Number).plus 0 = .finite 0 := by
      change Number.finite (((0 : ℕ) : ℚ) + ((0 : ℕ) : ℚ)) = .finite 0
      simp
    simp [exhaustedLimits, toolCallBudget, assessMetric, sumReservations, Number.orZero, none, counted]
  rw [assessed, amount]
  simp only [assessMetric, Number.minus, Number.atMost, sub_zero]
  by_cases below : value < limit
  · have positive : ¬ ((limit : ℚ) - value ≤ 0) := by linarith
    simp [positive, below]
  · have spent : (limit : ℚ) - value ≤ 0 := by linarith
    simp [spent, below]

end Limits

end OttiliCoder
