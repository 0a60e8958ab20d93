import Mathlib.Tactic.Ring
import OttiliCoder.Proofs.Budget

/-! Budgets in their three phases: what each phase keeps in reserve for the others, and which budgets
really protect what they set aside. -/

namespace OttiliCoder.BudgetPhases
open Results

/-- What a budget may limit: one metric of the usage, or input and output together. -/
inductive Ceiling where
  | of (metric : Metric)
  | totalTokens
deriving DecidableEq

def maximum (budget : RunBudget) : Ceiling → Option Number
  | .of .inputTokens => budget.maxInputTokens
  | .of .outputTokens => budget.maxOutputTokens
  | .of .cachedTokens => budget.maxCachedTokens
  | .of .costUsd => budget.maxCostUsd
  | .of .wallTimeMs => budget.maxWallTimeMs
  | .of .toolCalls => budget.maxToolCalls
  | .of .childAgents => budget.maxChildAgents
  | .totalTokens => budget.maxTotalTokens

def used (usage : BudgetUsage) : Ceiling → ℚ
  | .of metric => usage.amounts metric
  | .totalTokens => usage.amounts .inputTokens + usage.amounts .outputTokens

/-- What a reservation sets aside of a ceiling. -/
def held (reservation : BudgetReservation) : Ceiling → ℚ
  | .of metric => reservation.toBudgetDelta.amounts metric
  | .totalTokens => (Number.orZero reservation.totalTokens).amount

def recoveryHeld (budget : RunBudget) : Ceiling → ℚ := held (budget.recoveryReserve.getD {})

def validationHeld (budget : RunBudget) : Ceiling → ℚ := held (budget.validationReserve.getD {})

/-- Tokens of all kinds that a reservation sets aside of the total. -/
def heldTokens (reserve : Ceiling → ℚ) : ℚ :=
  reserve (.of .inputTokens) + reserve (.of .outputTokens) + reserve .totalTokens

/-- What a phase keeps of a ceiling for the others: nothing of the cached tokens and the child agents. -/
def kept (budget : RunBudget) (phase : BudgetPhase) : Ceiling → ℚ
  | .of .cachedTokens | .of .childAgents => 0
  | .of metric => held (reserveForOtherPhases budget phase) (.of metric)
  | .totalTokens => heldTokens (held (reserveForOtherPhases budget phase))

theorem orZero_finite (stored : Option Number) : Number.orZero stored = .finite (Number.orZero stored).amount := by
  rcases stored with _ | _ | _ <;> rfl

theorem held_general (budget : RunBudget) (ceiling : Ceiling) :
    held (reserveForOtherPhases budget .general) ceiling = recoveryHeld budget ceiling + validationHeld budget ceiling := by
  have sum : ∀ (left right : Option BudgetReservation) (field : BudgetReservation → Option Number), field {} = none →
      (Number.orZero (some (sumReservations left right field))).amount =
        (Number.orZero (field (left.getD {}))).amount + (Number.orZero (field (right.getD {}))).amount := by
    intro left right field empty
    have read : ∀ reserve : Option BudgetReservation, ∃ value : ℚ,
        Number.orZero (reserve.bind field) = .finite value ∧ (Number.orZero (field (reserve.getD {}))).amount = value := by
      intro reserve
      cases reserve with
      | none => exact ⟨_, orZero_finite _, by rw [Option.getD_none, empty]; rfl⟩
      | some reservation => exact ⟨_, orZero_finite _, rfl⟩
    obtain ⟨first, leftRead, leftAmount⟩ := read left
    obtain ⟨second, rightRead, rightAmount⟩ := read right
    rw [leftAmount, rightAmount, sumReservations, leftRead, rightRead]
    rfl
  rcases ceiling with metric | _
  · cases metric <;> exact sum _ _ _ rfl
  · exact sum _ _ _ rfl

theorem held_recovery (budget : RunBudget) : held (reserveForOtherPhases budget .recovery) = validationHeld budget := rfl

theorem held_validation (budget : RunBudget) : held (reserveForOtherPhases budget .validation) = recoveryHeld budget := rfl

/-! Accepted budgets. -/

/-- Every maximum and every reserve that is checked is an amount. -/
structure Accepted (budget : RunBudget) : Prop where
  maxima : ∀ ceiling number, maximum budget ceiling = some number → number.IsAmount
  recovery : ∀ reserve, budget.recoveryReserve = some reserve → reserve.toBudgetDelta.Valid
  validation : ∀ reserve, budget.validationReserve = some reserve → reserve.toBudgetDelta.Valid

theorem assertBudget_ok {budget : RunBudget} {u : Unit} : assertBudget budget = .ok u ↔ Accepted budget := by
  have ceilings : assertEntries id budget.ceilings = .ok () ↔
      ∀ ceiling number, maximum budget ceiling = some number → number.IsAmount := by
    rw [assertEntries_ok]
    simp only [RunBudget.ceilings, List.forall_mem_cons]
    constructor
    · rintro ⟨input, output, total, cached, cost, wall, calls, children, -⟩ ceiling
      rcases ceiling with metric | _
      · cases metric <;> assumption
      · exact total
    · intro maxima
      exact ⟨maxima (.of .inputTokens), maxima (.of .outputTokens), maxima .totalTokens, maxima (.of .cachedTokens),
        maxima (.of .costUsd), maxima (.of .wallTimeMs), maxima (.of .toolCalls), maxima (.of .childAgents), by simp⟩
  have checked : assertBudget budget = .ok u ↔ assertEntries id budget.ceilings = .ok () ∧
      (∀ reserve, budget.recoveryReserve = some reserve → reserve.toBudgetDelta.Valid) ∧
      ∀ reserve, budget.validationReserve = some reserve → reserve.toBudgetDelta.Valid := by
    have entered : (∃ middle, assertEntries id budget.ceilings = .ok middle) ↔ assertEntries id budget.ceilings = .ok () :=
      ⟨fun entered => entered.choose_spec, fun entered => ⟨(), entered⟩⟩
    unfold assertBudget
    rw [except_bind_ok, ← entered]
    cases budget.recoveryReserve with
    | none => cases budget.validationReserve <;> simp [pure, Except.pure, assertPartialUsage_ok]
    | some recovery =>
      cases budget.validationReserve <;> simp [except_bind_ok, pure, Except.pure, assertPartialUsage_ok]
  rw [checked, ceilings]
  exact ⟨fun checked => ⟨checked.1, checked.2.1, checked.2.2⟩,
    fun accepted => ⟨accepted.maxima, accepted.recovery, accepted.validation⟩⟩

theorem amounts_nonneg {reserve : Option BudgetReservation}
    (valid : ∀ given, reserve = some given → given.toBudgetDelta.Valid) (metric : Metric) :
    0 ≤ held (reserve.getD {}) (.of metric) := by
  cases reserve with
  | none => cases metric <;> exact le_refl _
  | some given => exact (Number.orZero_amount (valid given rfl metric)).nonneg

theorem Accepted.recoveryHeld_nonneg {budget : RunBudget} (accepted : Accepted budget) (metric : Metric) :
    0 ≤ recoveryHeld budget (.of metric) := amounts_nonneg accepted.recovery metric

theorem Accepted.validationHeld_nonneg {budget : RunBudget} (accepted : Accepted budget) (metric : Metric) :
    0 ≤ validationHeld budget (.of metric) := amounts_nonneg accepted.validation metric

/-- What stops a Run is what is exhausted in the general phase. -/
theorem evaluateBudget_general (budget : RunBudget) (usage : BudgetUsage) :
    evaluateBudget budget usage = (evaluateBudgetIn budget usage .general).map (·.exhausted) := by
  have read : ∀ left right field, Number.orZero (some (sumReservations left right field)) = sumReservations left right field := by
    intro left right field
    rw [sumReservations, orZero_finite (left.bind field), orZero_finite (right.bind field)]
    rfl
  unfold evaluateBudget evaluateBudgetIn
  simp only [reserveForOtherPhases, read]
  cases assertBudget budget with
  | error _ => rfl
  | ok _ =>
    cases assertUsage usage "usage" with
    | error _ => rfl
    | ok _ => rfl

/-! One assessment. -/

/-- Usage leaves something of a ceiling, and something beside what the phase keeps. -/
def Fits (budget : RunBudget) (usage : BudgetUsage) (phase : BudgetPhase) (ceiling : Ceiling) : Prop :=
  ∀ limit, maximum budget ceiling = some limit →
    used usage ceiling < limit.amount ∧ used usage ceiling + kept budget phase ceiling < limit.amount

theorem assessMetric_nil {maximum : Option Number} {spent keeps : Number} {spentAmount keepsAmount : ℚ} {limit : BudgetLimitKind}
    (valid : ∀ number, maximum = some number → number.IsAmount) (spends : spent = .finite spentAmount)
    (keeping : keeps = .finite keepsAmount) : assessMetric maximum spent keeps limit = [] ↔
      ∀ number, maximum = some number → spentAmount < number.amount ∧ spentAmount + keepsAmount < number.amount := by
  subst spends keeping
  cases maximum with
  | none => simp [assessMetric]
  | some number =>
    obtain ⟨value, rfl, -⟩ := valid number rfl
    simp only [assessMetric, Number.minus, Number.atMost, decide_eq_true_eq, Option.some.injEq, forall_eq', Number.amount]
    by_cases direct : value - spentAmount ≤ 0
    · rw [if_pos direct]
      have spent : ¬spentAmount < value := by linarith
      simp [spent]
    · rw [if_neg direct]
      by_cases available : value - spentAmount - keepsAmount ≤ 0
      · rw [if_pos available]
        have reserved : ¬spentAmount + keepsAmount < value := by linarith
        simp [reserved]
      · rw [if_neg available]
        have under : spentAmount < value := by linarith
        have beside : spentAmount + keepsAmount < value := by linarith
        simp [under, beside]

section Assessment
variable {budget : RunBudget} {usage : BudgetUsage} {phase : BudgetPhase}

/-- What remains of a ceiling beside what the phase keeps. -/
def remains (budget : RunBudget) (usage : BudgetUsage) (phase : BudgetPhase) (ceiling : Ceiling) : Option Number :=
  remainingMetric (maximum budget ceiling) (.finite (used usage ceiling)) (.finite (kept budget phase ceiling))

/-- What remains of a metric, in an assessment. -/
def remainingOf (remaining : BudgetReservation) : Ceiling → Option Number
  | .of metric => remaining.toBudgetDelta.get metric
  | .totalTokens => remaining.totalTokens

/-- Work is let on in a phase. -/
def Allowed (budget : RunBudget) (usage : BudgetUsage) (phase : BudgetPhase) : Prop :=
  ∃ assessment, evaluateBudgetIn budget usage phase = .ok assessment ∧ assessment.allowed = true

theorem zero_finite : (0 : Number) = .finite 0 := by
  change Number.finite ((0 : ℕ) : ℚ) = .finite 0
  rw [Nat.cast_zero]

/-- What the hand-written calls assess. -/
structure Reads (budget : RunBudget) (usage : BudgetUsage) (phase : BudgetPhase) (ceiling : Ceiling) (spent keeps : Number) :
    Prop where
  spends : spent = .finite (used usage ceiling)
  keeping : keeps = .finite (kept budget phase ceiling)

theorem Reads.nil {ceiling : Ceiling} {spent keeps : Number} (reads : Reads budget usage phase ceiling spent keeps)
    (accepted : Accepted budget) (limit : BudgetLimitKind) :
    assessMetric (maximum budget ceiling) spent keeps limit = [] ↔ Fits budget usage phase ceiling :=
  assessMetric_nil (accepted.maxima ceiling) reads.spends reads.keeping

theorem Reads.remaining {ceiling : Ceiling} {spent keeps : Number} (reads : Reads budget usage phase ceiling spent keeps) :
    remainingMetric (maximum budget ceiling) spent keeps = remains budget usage phase ceiling := by
  rw [reads.spends, reads.keeping, remains]

theorem evaluateBudgetIn_eq (phase : BudgetPhase) (accepted : Accepted budget) (valid : usage.Valid) :
    ∃ assessment, evaluateBudgetIn budget usage phase = .ok assessment ∧
      (assessment.allowed = true ↔ ∀ ceiling, Fits budget usage phase ceiling) ∧
      ∀ ceiling, remainingOf assessment.remaining ceiling = remains budget usage phase ceiling := by
  have spent : ∀ metric, usage.get metric = .finite (usage.amounts metric) := fun metric => (valid metric).eq
  have input : Reads budget usage phase (.of .inputTokens) _ _ := ⟨spent .inputTokens, orZero_finite _⟩
  have output : Reads budget usage phase (.of .outputTokens) _ _ := ⟨spent .outputTokens, orZero_finite _⟩
  have cached : Reads budget usage phase (.of .cachedTokens) _ _ := ⟨spent .cachedTokens, zero_finite⟩
  have cost : Reads budget usage phase (.of .costUsd) _ _ := ⟨spent .costUsd, orZero_finite _⟩
  have wall : Reads budget usage phase (.of .wallTimeMs) _ _ := ⟨spent .wallTimeMs, orZero_finite _⟩
  have calls : Reads budget usage phase (.of .toolCalls) _ _ := ⟨spent .toolCalls, orZero_finite _⟩
  have children : Reads budget usage phase (.of .childAgents) _ _ := ⟨spent .childAgents, zero_finite⟩
  have total : Reads budget usage phase .totalTokens (usage.inputTokens.plus usage.outputTokens)
      (((Number.orZero (reserveForOtherPhases budget phase).inputTokens).plus
        (.orZero (reserveForOtherPhases budget phase).outputTokens)).plus
        (.orZero (reserveForOtherPhases budget phase).totalTokens)) := by
    refine ⟨?_, ?_⟩
    · rw [show usage.inputTokens = _ from spent .inputTokens, show usage.outputTokens = _ from spent .outputTokens]
      rfl
    · rw [orZero_finite (reserveForOtherPhases budget phase).inputTokens,
        orZero_finite (reserveForOtherPhases budget phase).outputTokens,
        orZero_finite (reserveForOtherPhases budget phase).totalTokens]
      rfl
  have asserted : assertBudget budget = .ok () := assertBudget_ok.mpr accepted
  have counted : assertUsage usage "usage" = .ok () := assertUsage_ok.mpr valid
  refine ⟨_, by rw [evaluateBudgetIn, asserted, counted]; rfl, ?_, ?_⟩
  · simp only [List.isEmpty_iff, List.append_eq_nil_iff]
    constructor
    · rintro ⟨⟨⟨⟨⟨⟨⟨fitsInput, fitsOutput⟩, fitsCached⟩, fitsCost⟩, fitsWall⟩, fitsCalls⟩, fitsTotal⟩, fitsChildren⟩ ceiling
      rcases ceiling with metric | _
      · cases metric with
        | inputTokens => exact (input.nil accepted _).mp fitsInput
        | outputTokens => exact (output.nil accepted _).mp fitsOutput
        | cachedTokens => exact (cached.nil accepted _).mp fitsCached
        | costUsd => exact (cost.nil accepted _).mp fitsCost
        | wallTimeMs => exact (wall.nil accepted _).mp fitsWall
        | toolCalls => exact (calls.nil accepted _).mp fitsCalls
        | childAgents => exact (children.nil accepted _).mp fitsChildren
      · exact (total.nil accepted _).mp fitsTotal
    · intro fits
      exact ⟨⟨⟨⟨⟨⟨⟨(input.nil accepted _).mpr (fits _), (output.nil accepted _).mpr (fits _)⟩,
        (cached.nil accepted _).mpr (fits _)⟩, (cost.nil accepted _).mpr (fits _)⟩, (wall.nil accepted _).mpr (fits _)⟩,
        (calls.nil accepted _).mpr (fits _)⟩, (total.nil accepted _).mpr (fits _)⟩, (children.nil accepted _).mpr (fits _)⟩
  · intro ceiling
    rcases ceiling with metric | _
    · cases metric with
      | inputTokens => exact input.remaining
      | outputTokens => exact output.remaining
      | cachedTokens => exact cached.remaining
      | costUsd => exact cost.remaining
      | wallTimeMs => exact wall.remaining
      | toolCalls => exact calls.remaining
      | childAgents => exact children.remaining
    · exact total.remaining

theorem allowed_iff (accepted : Accepted budget) (valid : usage.Valid) :
    Allowed budget usage phase ↔ ∀ ceiling, Fits budget usage phase ceiling := by
  obtain ⟨assessment, assessed, allowed, -⟩ := evaluateBudgetIn_eq phase accepted valid
  constructor
  · rintro ⟨other, same, let_on⟩
    cases assessed.symm.trans same
    exact allowed.mp let_on
  · exact fun fits => ⟨assessment, assessed, allowed.mpr fits⟩

end Assessment

/-! What is set aside, and what is kept of it. -/

/-- Both reserves of a ceiling. -/
def reserved (budget : RunBudget) (ceiling : Ceiling) : ℚ := recoveryHeld budget ceiling + validationHeld budget ceiling

section Kept
variable {budget : RunBudget}

theorem kept_general {metric : Metric} (cached : metric ≠ .cachedTokens) (children : metric ≠ .childAgents) :
    kept budget .general (.of metric) = reserved budget (.of metric) := by
  have general := held_general budget (.of metric)
  cases metric <;> first | exact general | contradiction

theorem kept_general_total : kept budget .general .totalTokens =
    heldTokens (recoveryHeld budget) + heldTokens (validationHeld budget) := by
  rw [kept, heldTokens, held_general, held_general, held_general, heldTokens, heldTokens]
  ring

theorem Accepted.reserved_nonneg (accepted : Accepted budget) (metric : Metric) : 0 ≤ reserved budget (.of metric) :=
  add_nonneg (accepted.recoveryHeld_nonneg metric) (accepted.validationHeld_nonneg metric)

/-- General work keeps at least what the others keep, but for the total. -/
theorem Accepted.kept_le (accepted : Accepted budget) (phase : BudgetPhase) (metric : Metric) :
    kept budget phase (.of metric) ≤ kept budget .general (.of metric) := by
  have recovery := accepted.recoveryHeld_nonneg metric
  have validation := accepted.validationHeld_nonneg metric
  have general := held_general budget (.of metric)
  have below : held (reserveForOtherPhases budget phase) (.of metric) ≤
      held (reserveForOtherPhases budget .general) (.of metric) := by
    cases phase with
    | general => exact le_refl _
    | recovery =>
      rw [general, held_recovery]
      linarith
    | validation =>
      rw [general, held_validation]
      linarith
  cases metric <;> first | exact below | exact le_refl _

/-- The total is kept with at least its own reserves, since those of input and output are amounts. -/
theorem Accepted.reserved_le (accepted : Accepted budget) {ceiling : Ceiling} (cached : ceiling ≠ .of .cachedTokens)
    (children : ceiling ≠ .of .childAgents) : reserved budget ceiling ≤ kept budget .general ceiling := by
  rcases ceiling with metric | _
  · rw [kept_general (fun same => cached (congrArg _ same)) fun same => children (congrArg _ same)]
  · have input := accepted.reserved_nonneg .inputTokens
    have output := accepted.reserved_nonneg .outputTokens
    rw [kept_general_total, heldTokens, heldTokens]
    unfold reserved at *
    linarith

end Kept

section Usage
variable {usage more : BudgetUsage}

theorem used_nonneg (valid : usage.Valid) (ceiling : Ceiling) : 0 ≤ used usage ceiling := by
  rcases ceiling with metric | _
  · exact (valid metric).nonneg
  · exact add_nonneg (valid .inputTokens).nonneg (valid .outputTokens).nonneg

theorem used_mono (larger : ∀ metric, usage.amounts metric ≤ more.amounts metric) (ceiling : Ceiling) :
    used usage ceiling ≤ used more ceiling := by
  rcases ceiling with metric | _
  · exact larger metric
  · exact add_le_add (larger .inputTokens) (larger .outputTokens)

theorem Fits.mono {budget : RunBudget} {phase : BudgetPhase} {ceiling : Ceiling} (fits : Fits budget more phase ceiling)
    (larger : ∀ metric, usage.amounts metric ≤ more.amounts metric) : Fits budget usage phase ceiling := by
  intro limit given
  obtain ⟨direct, beside⟩ := fits limit given
  have below := used_mono larger ceiling
  exact ⟨by linarith, by linarith⟩

/-- Only tokens are spent. -/
def spendTokens (input output : ℚ) : BudgetUsage :=
  { emptyBudgetUsage with inputTokens := .finite input, outputTokens := .finite output }

theorem spendTokens_valid {input output : ℚ} (inputs : 0 ≤ input) (outputs : 0 ≤ output) : (spendTokens input output).Valid := by
  intro metric
  cases metric with
  | inputTokens => exact ⟨input, rfl, inputs⟩
  | outputTokens => exact ⟨output, rfl, outputs⟩
  | cachedTokens => exact emptyBudgetUsage_valid .cachedTokens
  | costUsd => exact emptyBudgetUsage_valid .costUsd
  | wallTimeMs => exact emptyBudgetUsage_valid .wallTimeMs
  | toolCalls => exact emptyBudgetUsage_valid .toolCalls
  | childAgents => exact emptyBudgetUsage_valid .childAgents

end Usage

/-! The laws. -/

/-- What a budget promises: general work leaves the other phases possible, more usage never allows more, and
general work keeps both reserves of every ceiling. -/
structure ProtectsReserves (budget : RunBudget) : Prop where
  phases : ∀ usage, usage.Valid → Allowed budget usage .general → ∀ phase, Allowed budget usage phase
  antitone : ∀ phase usage more, usage.Valid → more.Valid → (∀ metric, usage.amounts metric ≤ more.amounts metric) →
    Allowed budget more phase → Allowed budget usage phase
  refused : ∀ usage, usage.Valid → ∀ ceiling limit, maximum budget ceiling = some limit →
    limit.amount ≤ used usage ceiling + reserved budget ceiling → ¬Allowed budget usage .general
  remaining : ∀ usage assessment, usage.Valid → evaluateBudgetIn budget usage .general = .ok assessment →
    ∀ ceiling limit left, maximum budget ceiling = some limit → remainingOf assessment.remaining ceiling = some left →
      left.amount ≤ max 0 (limit.amount - used usage ceiling - reserved budget ceiling)

/-- Nothing is set aside of what no phase keeps. -/
def NothingUnread (budget : RunBudget) : Prop :=
  ∀ metric, metric = .cachedTokens ∨ metric = .childAgents → ∀ limit, maximum budget (.of metric) = some limit →
    limit.amount = 0 ∨ reserved budget (.of metric) = 0

/-- A phase whose own reserve of tokens is below zero, so that general work keeps less than the phase does: it is
reached by general work when nothing is exhausted from the start and the tokens that are left for input and
output suffice. -/
structure Starves (budget : RunBudget) (own other : Ceiling → ℚ) (limit : Number) : Prop where
  total : maximum budget .totalTokens = some limit
  below : heldTokens own < 0
  above : 0 < heldTokens other
  opened : ∀ ceiling limit, maximum budget ceiling = some limit →
    0 < limit.amount ∧ kept budget .general ceiling < limit.amount
  reached : ∀ input output, maximum budget (.of .inputTokens) = some input → maximum budget (.of .outputTokens) = some output →
    limit.amount - heldTokens other <
      (input.amount - reserved budget (.of .inputTokens)) + (output.amount - reserved budget (.of .outputTokens))

/-- The budgets that keep what they promise. -/
structure Guarded (budget : RunBudget) : Prop where
  unread : NothingUnread budget
  recovery : ∀ limit, ¬Starves budget (recoveryHeld budget) (validationHeld budget) limit
  validation : ∀ limit, ¬Starves budget (validationHeld budget) (recoveryHeld budget) limit

/-- An amount fits two rooms together when it fits the rooms taken together. -/
theorem parted {first second : Option ℚ} {amount : ℚ} (nonneg : 0 ≤ amount) (one : ∀ room, first = some room → 0 < room)
    (two : ∀ room, second = some room → 0 < room)
    (fits : ∀ room other, first = some room → second = some other → amount < room + other) :
    ∃ left right, 0 ≤ left ∧ 0 ≤ right ∧ left + right = amount ∧ (∀ room, first = some room → left < room) ∧
      ∀ room, second = some room → right < room := by
  cases first with
  | none => exact ⟨amount, 0, nonneg, le_refl 0, add_zero amount, by simp, two⟩
  | some room =>
    cases second with
    | none => exact ⟨0, amount, le_refl 0, nonneg, zero_add amount, one, by simp⟩
    | some other =>
      have roomy := one room rfl
      have otherRoomy := two other rfl
      have together := fits room other rfl rfl
      simp only [Option.some.injEq, forall_eq']
      by_cases alone : amount < room
      · exact ⟨amount, 0, nonneg, le_refl 0, add_zero amount, alone, otherRoomy⟩
      · have low := le_max_left 0 (amount - other)
        have high := le_max_right 0 (amount - other)
        have under : max 0 (amount - other) < room := max_lt roomy (by linarith)
        refine ⟨(room + max 0 (amount - other)) / 2, amount - (room + max 0 (amount - other)) / 2, ?_, ?_, ?_, ?_, ?_⟩ <;>
          linarith

section Laws
variable {budget : RunBudget} {usage : BudgetUsage}

theorem Accepted.remaining_eq (accepted : Accepted budget) {ceiling : Ceiling} {limit left : Number}
    (given : maximum budget ceiling = some limit) (remaining : remains budget usage .general ceiling = some left) :
    left.amount = max 0 (limit.amount - used usage ceiling - kept budget .general ceiling) := by
  obtain ⟨value, rfl, -⟩ := accepted.maxima ceiling limit given
  rw [remains, given] at remaining
  cases remaining
  rfl

/-- Where a phase keeps less of the total than general work and still does not fit, it is starved. -/
theorem starves_of {own other : Ceiling → ℚ} {phase : BudgetPhase} (valid : usage.Valid)
    (general : kept budget .general .totalTokens = heldTokens own + heldTokens other)
    (keeps : kept budget phase .totalTokens = heldTokens other) (fits : ∀ ceiling, Fits budget usage .general ceiling) :
    Fits budget usage phase .totalTokens ∨ ∃ limit, Starves budget own other limit := by
  by_contra neither
  rw [not_or] at neither
  obtain ⟨starved, unharmed⟩ := neither
  apply starved
  intro limit given
  obtain ⟨direct, beside⟩ := fits .totalTokens limit given
  refine ⟨direct, ?_⟩
  rw [keeps]
  rw [general] at beside
  by_contra over_limit
  have nonneg := used_nonneg valid .totalTokens
  refine unharmed ⟨limit, given, by linarith, by linarith, ?_, ?_⟩
  · intro ceiling limit given
    have spent := used_nonneg valid ceiling
    obtain ⟨direct, beside⟩ := fits ceiling limit given
    exact ⟨by linarith, by linarith⟩
  · intro input output inputGiven outputGiven
    have inputFits := (fits (.of .inputTokens) input inputGiven).2
    have outputFits := (fits (.of .outputTokens) output outputGiven).2
    rw [kept_general (by decide) (by decide)] at inputFits outputFits
    have sum : used usage .totalTokens = used usage (.of .inputTokens) + used usage (.of .outputTokens) := rfl
    linarith

theorem phase_allowed {own other : Ceiling → ℚ} {phase : BudgetPhase} (accepted : Accepted budget) (valid : usage.Valid)
    (general : kept budget .general .totalTokens = heldTokens own + heldTokens other)
    (keeps : kept budget phase .totalTokens = heldTokens other) (unharmed : ∀ limit, ¬Starves budget own other limit)
    (allowed : Allowed budget usage .general) : Allowed budget usage phase := by
  have fits := (allowed_iff accepted valid).mp allowed
  apply (allowed_iff accepted valid).mpr
  intro ceiling
  rcases ceiling with metric | _
  · intro limit given
    obtain ⟨direct, beside⟩ := fits (.of metric) limit given
    have less := accepted.kept_le phase metric
    exact ⟨direct, by linarith⟩
  · obtain fitting | ⟨limit, starved⟩ := starves_of valid general keeps fits
    · exact fitting
    · exact absurd starved (unharmed limit)

/-- A starved phase is reached: the tokens can be spent so that general work goes on and the phase does not. -/
theorem Starves.refutes {own other : Ceiling → ℚ} {limit : Number} (phase : BudgetPhase) (accepted : Accepted budget)
    (general : kept budget .general .totalTokens = heldTokens own + heldTokens other)
    (keeps : kept budget phase .totalTokens = heldTokens other) (starved : Starves budget own other limit) :
    ∃ usage, usage.Valid ∧ Allowed budget usage .general ∧ ¬Allowed budget usage phase := by
  have roomy : ∀ metric, metric ≠ .cachedTokens → metric ≠ .childAgents → ∀ room,
      (maximum budget (.of metric)).map (fun limit => limit.amount - reserved budget (.of metric)) = some room → 0 < room := by
    intro metric cached children room given
    obtain ⟨number, limited, rfl⟩ := Option.map_eq_some_iff.mp given
    have opened := (starved.opened (.of metric) number limited).2
    rw [kept_general cached children] at opened
    linarith
  obtain ⟨input, output, inputs, outputs, spent, inputFits, outputFits⟩ :=
    parted (le_max_left 0 (limit.amount - heldTokens other)) (roomy .inputTokens (by decide) (by decide))
      (roomy .outputTokens (by decide) (by decide)) (by
        intro room otherRoom first second
        obtain ⟨inputLimit, inputGiven, rfl⟩ := Option.map_eq_some_iff.mp first
        obtain ⟨outputLimit, outputGiven, rfl⟩ := Option.map_eq_some_iff.mp second
        have inputRoom := roomy .inputTokens (by decide) (by decide) _ first
        have outputRoom := roomy .outputTokens (by decide) (by decide) _ second
        exact max_lt (by linarith) (starved.reached inputLimit outputLimit inputGiven outputGiven))
  have valid := spendTokens_valid inputs outputs
  have none : ∀ metric, metric ≠ .inputTokens → metric ≠ .outputTokens → used (spendTokens input output) (.of metric) = 0 := by
    intro metric
    cases metric <;> first | exact fun apart _ => absurd rfl apart | exact fun _ apart => absurd rfl apart | exact fun _ _ => rfl
  have spends : used (spendTokens input output) .totalTokens = max 0 (limit.amount - heldTokens other) := spent
  refine ⟨spendTokens input output, valid, (allowed_iff accepted valid).mpr ?_, ?_⟩
  · intro ceiling number given
    obtain ⟨direct, beside⟩ := starved.opened ceiling number given
    rcases ceiling with metric | _
    · by_cases first : metric = .inputTokens
      · subst first
        have fits := inputFits _ (congrArg _ given)
        have nonneg := accepted.reserved_nonneg .inputTokens
        have same : used (spendTokens input output) (.of .inputTokens) = input := rfl
        rw [kept_general (by decide) (by decide), same]
        exact ⟨by linarith, by linarith⟩
      by_cases second : metric = .outputTokens
      · subst second
        have fits := outputFits _ (congrArg _ given)
        have nonneg := accepted.reserved_nonneg .outputTokens
        have same : used (spendTokens input output) (.of .outputTokens) = output := rfl
        rw [kept_general (by decide) (by decide), same]
        exact ⟨by linarith, by linarith⟩
      rw [none metric first second]
      exact ⟨direct, by linarith⟩
    · obtain rfl : limit = number := Option.some.inj (starved.total.symm.trans given)
      have below := starved.below
      have above := starved.above
      rw [general] at beside ⊢
      rw [spends]
      exact ⟨max_lt direct (by linarith), by
        obtain ⟨same, -⟩ | ⟨same, -⟩ := max_cases 0 (limit.amount - heldTokens other) <;> rw [same] <;> linarith⟩
  · intro allowed
    have fits := ((allowed_iff accepted valid).mp allowed .totalTokens limit starved.total).2
    have atLeast := le_max_right 0 (limit.amount - heldTokens other)
    rw [spends, keeps] at fits
    linarith

theorem kept_unread (budget : RunBudget) {metric : Metric} (unread : metric = .cachedTokens ∨ metric = .childAgents) :
    kept budget .general (.of metric) = 0 := by
  obtain rfl | rfl := unread <;> rfl

theorem empty_used (metric : Metric) : used emptyBudgetUsage (.of metric) = 0 := congrFun emptyBudgetUsage_amounts metric

theorem ProtectsReserves.unread (accepted : Accepted budget) (protects : ProtectsReserves budget) : NothingUnread budget := by
  intro metric unread limit given
  by_contra neither
  rw [not_or] at neither
  have positive : 0 < limit.amount := lt_of_le_of_ne (accepted.maxima _ _ given).nonneg (Ne.symm neither.1)
  have aside : 0 < reserved budget (.of metric) := lt_of_le_of_ne (accepted.reserved_nonneg metric) (Ne.symm neither.2)
  obtain ⟨assessment, assessed, -, remaining⟩ := evaluateBudgetIn_eq .general accepted emptyBudgetUsage_valid
  have left : remainingOf assessment.remaining (.of metric) = remains budget emptyBudgetUsage .general (.of metric) :=
    remaining (.of metric)
  cases found : remains budget emptyBudgetUsage .general (.of metric) with
  | none =>
    rw [remains, given] at found
    cases found
  | some number =>
    have promised := protects.remaining _ _ emptyBudgetUsage_valid assessed _ _ _ given (left.trans found)
    rw [accepted.remaining_eq given found, kept_unread budget unread, empty_used] at promised
    have under : max 0 (limit.amount - 0 - reserved budget (.of metric)) < limit.amount := max_lt positive (by linarith)
    have all := le_max_right 0 (limit.amount - 0 - 0)
    linarith

/-- What general work keeps covers the reserves, wherever something is set aside at all. -/
theorem NothingUnread.covers (accepted : Accepted budget) (unread : NothingUnread budget) {ceiling : Ceiling} {limit : Number}
    (given : maximum budget ceiling = some limit) :
    (limit.amount = 0 ∧ kept budget .general ceiling = 0) ∨ reserved budget ceiling ≤ kept budget .general ceiling := by
  have read : ∀ metric, metric = .cachedTokens ∨ metric = .childAgents → ceiling = .of metric →
      (limit.amount = 0 ∧ kept budget .general ceiling = 0) ∨ reserved budget ceiling ≤ kept budget .general ceiling := by
    rintro metric listed rfl
    have keeps := kept_unread budget listed
    obtain none | none := unread metric listed limit given
    · exact .inl ⟨none, keeps⟩
    · exact .inr (none.trans keeps.symm).le
  by_cases cached : ceiling = .of .cachedTokens
  · exact read _ (.inl rfl) cached
  by_cases children : ceiling = .of .childAgents
  · exact read _ (.inr rfl) children
  · exact .inr (accepted.reserved_le cached children)

theorem general_recovery : kept budget .general .totalTokens = heldTokens (recoveryHeld budget) + heldTokens (validationHeld budget) :=
  kept_general_total

theorem general_validation : kept budget .general .totalTokens = heldTokens (validationHeld budget) + heldTokens (recoveryHeld budget) :=
  kept_general_total.trans (add_comm _ _)

theorem Guarded.protects (accepted : Accepted budget) (guarded : Guarded budget) : ProtectsReserves budget where
  phases usage valid allowed phase := by
    cases phase with
    | general => exact allowed
    | recovery => exact phase_allowed accepted valid general_recovery rfl guarded.recovery allowed
    | validation => exact phase_allowed accepted valid general_validation rfl guarded.validation allowed
  antitone phase usage more valid moreValid larger allowed := by
    apply (allowed_iff accepted valid).mpr
    intro ceiling
    exact ((allowed_iff accepted moreValid).mp allowed ceiling).mono larger
  refused usage valid ceiling limit given reached allowed := by
    obtain ⟨direct, beside⟩ := (allowed_iff accepted valid).mp allowed ceiling limit given
    have spent := used_nonneg valid ceiling
    obtain ⟨none, -⟩ | covered := guarded.unread.covers accepted given
    · linarith
    · linarith
  remaining usage assessment valid assessed ceiling limit left given found := by
    obtain ⟨other, same, -, remaining⟩ := evaluateBudgetIn_eq .general accepted valid
    cases assessed.symm.trans same
    rw [accepted.remaining_eq given ((remaining ceiling).symm.trans found)]
    have spent := used_nonneg valid ceiling
    obtain ⟨none, unread⟩ | covered := guarded.unread.covers accepted given
    · apply max_le (le_max_left _ _)
      rw [unread, none]
      exact (show (0 : ℚ) - used usage ceiling - 0 ≤ 0 by linarith).trans (le_max_left _ _)
    · exact max_le_max (le_refl 0) (by linarith)

end Laws

/-- A budget of input tokens with a reserve for each phase. -/
def inputBudget : RunBudget where
  maxInputTokens := some 100
  recoveryReserve := some { inputTokens := some 20 }
  validationReserve := some { inputTokens := some 10 }

/-- Half of the cached tokens are set aside. -/
def cachedBudget : RunBudget where
  maxCachedTokens := some 100
  recoveryReserve := some { cachedTokens := some 50 }

/-- A reserve of total tokens below zero, which is not checked. -/
def loweredBudget : RunBudget where
  maxTotalTokens := some 100
  recoveryReserve := some { totalTokens := some (.finite (-50)) }
  validationReserve := some { totalTokens := some 60 }

end OttiliCoder.BudgetPhases
