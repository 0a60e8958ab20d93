import OttiliCoder.Proofs.Started

/-! The tool-call budget of a Run: how many calls it lets start, and which intents the
charge that is made first refuses too early or not at all. -/

namespace OttiliCoder
open Relational Transaction

/-- What a step owes every Run whose budget limits its tool calls and nothing else. -/
structure BudgetStep (s : Store) (call : Call) : Prop where
  bounded : ∀ runId run limit, (s .runs).find? runId = some run → run.budget = toolCallBudget limit →
    started (call.perform s) runId ≤ limit
  accepted : ∀ input uuid clock run limit, call = .recordToolIntent input uuid clock →
    (s .runs).find? input.lease.runId = some run → run.budget = toolCallBudget limit → run.status = .running →
    started s input.lease.runId < limit → Admissible s input uuid clock.toISOString → Starts s input uuid clock
  refused : ∀ input uuid clock run limit, call = .recordToolIntent input uuid clock →
    (s .runs).find? input.lease.runId = some run → run.budget = toolCallBudget limit →
    exhausts input clock.toISOString s = true → usageOf (call.perform s) input.lease.runId = some run.usage

/-- The intent leaves its Run a further tool call, or finds it in a status that no limit
stops and the budget still has room. -/
def WithinBudget (s : Store) (input : ToolIntentInput) (uuid : String) (clock : Date) : Prop :=
  ∀ run limit, (s .runs).find? input.lease.runId = some run → run.budget = toolCallBudget limit →
    CurrentLease s input.lease clock.toISOString →
      run.status = .running ∧ run.usage.amounts .toolCalls + 1 < limit ∨
      run.status ≠ .running ∧ ¬ run.status.isLimited ∧
        (Admissible s input uuid clock.toISOString → started s input.lease.runId + 1 ≤ limit)

section Amounts
variable {usage : BudgetUsage} {delta : BudgetDelta}

theorem BudgetDelta.Valid.nonneg (given : delta.Valid) (metric : Metric) : 0 ≤ delta.amounts metric :=
  (Number.orZero_amount (given metric)).nonneg

theorem oneToolCall_amount : oneToolCall.amounts .toolCalls = 1 := by
  change (((1 : ℕ) : ℚ)) = 1
  exact Nat.cast_one

theorem BudgetUsage.Valid.one_more (valid : usage.Valid) :
    (usage.plus oneToolCall).amounts .toolCalls = usage.amounts .toolCalls + 1 := by
  rw [valid.amounts_plus oneToolCall_valid, Pi.add_apply, oneToolCall_amount]

end Amounts

section Steps
variable {s : Store} {input : ToolIntentInput} {uuid : String} {clock : Date} {run : RunRow} {limit : ℕ}

/-- When an intent is refused for the budget. -/
theorem exhausts_of_budget (sound : Sound s) (found : (s .runs).find? input.lease.runId = some run)
    (valid : run.usage.Valid) (budget : run.budget = toolCallBudget limit) :
    exhausts input clock.toISOString s = true ↔ CurrentLease s input.lease clock.toISOString ∧
      (run.status.isLimited ∨ run.status = .running ∧ ¬ run.usage.amounts .toolCalls + 1 < limit) := by
  have asserted : assertBudget run.budget = .ok () := budget ▸ toolCallBudget_asserted limit
  have spent : exhaustedLimits run.budget (run.usage.plus oneToolCall) ≠ [] ↔ ¬ run.usage.amounts .toolCalls + 1 < limit := by
    rw [budget, ← valid.one_more]
    exact not_congr (toolCallBudget_limits (valid.plus oneToolCall_valid) limit)
  rw [exhausts_iff]
  constructor
  · rintro ⟨current, charged, s', charge, limited⟩
    refine ⟨current, ?_⟩
    obtain ⟨-, ⟨full, running, -⟩ | ⟨-, -, status⟩⟩ := chargeIntent_ok found charge
    · exact .inr ⟨running, spent.mp full⟩
    · exact .inl (status ▸ limited)
  · rintro ⟨current, stopped⟩
    obtain ⟨charged, s', charge, -⟩ : ∃ charged s', chargeIntent input clock.toISOString s = .ok charged s' ∧ Sound s' :=
      chargeIntent_returns sound found valid asserted
    refine ⟨current, charged, s', charge, ?_⟩
    obtain ⟨-, ⟨-, -, status⟩ | ⟨allowed, -, status⟩⟩ := chargeIntent_ok found charge
    · exact .inl status
    · rcases stopped with limited | ⟨running, full⟩
      · exact status ▸ limited
      · exact absurd ⟨spent.mpr full, running⟩ allowed

/-- A refused intent changes the usage. -/
theorem exhausts_charges (exhausted : exhausts input clock.toISOString s = true)
    (found : (s .runs).find? input.lease.runId = some run) :
    usageOf ((Call.recordToolIntent input uuid clock).perform s) input.lease.runId ≠ some run.usage := by
  obtain ⟨current, charged, s', charge, limited⟩ := exhausts_iff.mp exhausted
  obtain ⟨e, refused⟩ := recordToolIntent_exhausted uuid current charge limited
  obtain ⟨usage, stored, valid, -, added⟩ := recordUsageInternal_usage charge
  rw [usageOf, found, Option.map_some, Option.some.injEq] at stored
  subst stored
  rw [Call.perform, Call.run, discard, after_map, after_error refused, added, if_pos rfl]
  intro same
  have more := valid.one_more
  rw [show run.usage.plus oneToolCall = run.usage from Option.some.inj same] at more
  linarith

theorem started_of_starts (starts : Starts s input uuid clock) :
    started ((Call.recordToolIntent input uuid clock).perform s) input.lease.runId = started s input.lease.runId + 1 := by
  obtain ⟨id, s', returned⟩ := starts
  obtain ⟨fresh, rows⟩ := recordToolIntent_rows returned
  rw [Call.perform, Call.run, discard, after_map, after_ok returned, started, rows, Keyed.insert_rows fresh,
    List.countP_append, List.countP_singleton]
  simp [started, newToolCall]

end Steps

theorem charges_of_starts {s : Store} {input : ToolIntentInput} {uuid : String} {clock : Date}
    (starts : Starts s input uuid clock) :
    (Call.recordToolIntent input uuid clock).charges s = [⟨input.lease.runId, none, oneToolCall⟩] := by
  rw [Call.charges, fails_eq_false.mpr starts, Bool.false_and, if_neg Bool.false_ne_true]
  rfl

/-! Every tool call that started was charged. -/

/-- A Run has recorded the usage of every call it started. -/
def Covered (s : Store) : Prop := ∀ runId,
  (∀ usage, usageOf s runId = some usage → (started s runId : ℚ) ≤ usage.amounts .toolCalls) ∧
    (usageOf s runId = none → started s runId = 0)

section Covered
variable {s s' : Store} {call : Call}

private theorem Covered.kept (covered : Covered s) (kept : UsageKept s s')
    (same : ∀ runId, started s' runId = started s runId) : Covered s' := by
  intro runId
  rw [same]
  rcases kept runId with usage | ⟨absent, new⟩
  · rw [usage]
    exact covered runId
  · refine ⟨fun usage stored => ?_, fun impossible => ?_⟩
    · obtain rfl := Option.some.inj (new.symm.trans stored)
      rw [(covered runId).2 absent, emptyBudgetUsage_amounts]
      exact le_refl _
    · rw [new] at impossible
      cases impossible

/-- A charge covers one more call of its Run when it charges one. -/
private theorem Covered.charged {charge : Charge} (covered : Covered s) (charges : Charges s s' charge)
    (counted : ∀ runId, started s' runId = started s runId ∨
      runId = charge.runId ∧ charge.delta = oneToolCall ∧ started s' runId = started s runId + 1) : Covered s' := by
  obtain ⟨⟨usage, stored, valid, given, added⟩, -, -⟩ := charges
  intro runId
  rw [added]
  by_cases mine : runId = charge.runId
  · rw [if_pos mine]
    refine ⟨fun total same => ?_, fun impossible => by cases impossible⟩
    obtain rfl := Option.some.inj same
    have before := (covered charge.runId).1 usage stored
    rw [valid.amounts_plus given, Pi.add_apply]
    have grows := given.nonneg .toolCalls
    rcases counted runId with same | ⟨-, one, more⟩
    · rw [same, mine]
      linarith
    · rw [more, mine, one, oneToolCall_amount]
      push_cast
      linarith
  · rw [if_neg mine]
    rcases counted runId with same | ⟨impossible, -⟩
    · rw [same]
      exact covered runId
    · exact absurd impossible mine

theorem Covered.perform (covered : Covered s) (call : Call) : Covered (call.perform s) := by
  have counted := fun runId => (Call.recording s call).started runId
  cases Call.charging s call with
  | free none usage _ =>
    refine covered.kept usage fun runId => ?_
    rcases counted runId with same | ⟨input, uuid, clock, rfl, starts, -⟩
    · exact same
    · rw [charges_of_starts starts] at none
      cases none
  | @charged charge one charges =>
    refine covered.charged charges fun runId => ?_
    rcases counted runId with same | ⟨input, uuid, clock, rfl, starts, rfl, more⟩
    · exact .inl same
    · rw [charges_of_starts starts, List.cons.injEq] at one
      obtain ⟨rfl, -⟩ := one
      exact .inr ⟨rfl, rfl, more⟩
  | repeated one given taken same =>
    rw [same]
    exact covered

theorem covered_storeAfter (history : List Call) : Covered (storeAfter history) := by
  induction history using List.reverseRecOn with
  | nil => exact fun runId => ⟨fun usage stored => (by cases stored), fun _ => rfl⟩
  | append_singleton history call ih =>
    rw [storeAfter_concat]
    exact ih.perform call

end Covered

/-! Histories. -/

section Runs
variable {s : Store} {call : Call}

theorem Moves.run_found {touched : RunId → Prop} {kinds : Kind → Prop} {s' : Store} {runId : RunId}
    (moves : Moves touched kinds s s') (found : ∃ run, (s .runs).find? runId = some run) :
    ∃ run, (s' .runs).find? runId = some run := by
  induction moves with
  | refl => exact found
  | tail _ last ih =>
    obtain ⟨⟨k, -, effect⟩, -⟩ := last
    obtain ⟨run, stored⟩ := ih
    obtain ⟨run', later, -⟩ := effect.runs_found stored
    exact ⟨run', later⟩

/-- A Run keeps the budget it was created with. -/
theorem Call.budget_kept {runId : RunId} {run' : RunRow} (found' : ((call.perform s) .runs).find? runId = some run') :
    (s .runs).find? runId = none ∨ ∃ run, (s .runs).find? runId = some run ∧ run'.budget = run.budget := by
  have moves := Call.moves s call
  generalize call.perform s = last at moves found'
  induction moves generalizing run' with
  | refl => exact .inr ⟨run', found', rfl⟩
  | tail earlier last ih =>
    obtain ⟨⟨k, -, effect⟩, -⟩ := last
    rcases (effect.runs runId).earlier found' with ⟨absent, -⟩ | ⟨middle, found, kept⟩
    · refine .inl (Option.eq_none_iff_forall_ne_some.mpr fun run stored => ?_)
      obtain ⟨later, still⟩ := Moves.run_found earlier ⟨run, stored⟩
      rw [absent] at still
      cases still
    · rcases ih found with absent | ⟨run, stored, same⟩
      · exact .inl absent
      · exact .inr ⟨run, stored, kept.budget.trans same⟩

/-- No Run with a tool-call budget has started more calls than it allows. -/
def Bounded (s : Store) : Prop := ∀ runId run limit, (s .runs).find? runId = some run →
  run.budget = toolCallBudget limit → started s runId ≤ limit

theorem Bounded.perform (bounded : Bounded s) (sound : Sound s) (covered : Covered s)
    (valid : ∀ runId usage, usageOf s runId = some usage → usage.Valid)
    (within : ∀ input uuid clock, call = .recordToolIntent input uuid clock → WithinBudget s input uuid clock) :
    Bounded (call.perform s) := by
  intro runId run' limit found' budget
  rcases Call.budget_kept found' with absent | ⟨run, found, same⟩
  · have none : started s runId = 0 := (covered runId).2 (by rw [usageOf, absent, Option.map_none])
    rcases (Call.recording s call).started runId with same | ⟨input, uuid, clock, rfl, ⟨id, s', returned⟩, rfl, -⟩
    · omega
    · obtain ⟨run, found⟩ := sound.leased (recordToolIntent_ok.mp returned).2.1
      rw [absent] at found
      cases found
  · have before := bounded runId run limit found (same ▸ budget)
    rcases (Call.recording s call).started runId with same | ⟨input, uuid, clock, rfl, starts, rfl, more⟩
    · omega
    · have stored : usageOf s input.lease.runId = some run.usage := by rw [usageOf, found, Option.map_some]
      obtain ⟨admissible, -, -⟩ := (recordToolIntent_succeeds_iff sound found (valid _ _ stored)).mp starts
      rcases within input uuid clock rfl run limit found (same ▸ budget) admissible.current with ⟨-, room⟩ | ⟨-, -, room⟩
      · have charged := (covered input.lease.runId).1 run.usage stored
        have fits : ((started s input.lease.runId + 1 : ℕ) : ℚ) ≤ limit := by
          push_cast
          linarith
        rw [more]
        exact_mod_cast fits
      · rw [more]
        exact room admissible

/-- A history whose intents all stay within the budget never starts more calls than it allows. -/
theorem bounded_storeAfter {history : List Call}
    (within : ∀ before input uuid clock rest, history = before ++ .recordToolIntent input uuid clock :: rest →
      WithinBudget (storeAfter before) input uuid clock) : Bounded (storeAfter history) := by
  induction history using List.reverseRecOn with
  | nil => exact fun runId run limit found => (by cases found)
  | append_singleton history call ih =>
    rw [storeAfter_concat]
    have earlier : Bounded (storeAfter history) := by
      refine ih fun before input uuid clock rest split => ?_
      exact within before input uuid clock (rest ++ [call]) (by rw [split, List.append_assoc]; rfl)
    refine earlier.perform (reachable_storeAfter history).sound (covered_storeAfter history)
      (fun runId usage stored => ((accounted_storeAfter history).usage runId usage stored).1) ?_
    rintro input uuid clock rfl
    exact within history input uuid clock [] rfl

/-- In a history every step is exact for tool-call budgets (no more than the limit ever start,
a running Run with room accepts the next intent, and a refusal charges nothing) exactly when
every intent stays within the budget. -/
theorem tool_call_budget_exact_iff (history : List Call) :
    (∀ before call rest, history = before ++ call :: rest → BudgetStep (storeAfter before) call) ↔
      ∀ before input uuid clock rest, history = before ++ .recordToolIntent input uuid clock :: rest →
        WithinBudget (storeAfter before) input uuid clock := by
  constructor
  · intro exact_steps before input uuid clock rest split run limit found budget current
    have step := exact_steps before _ rest split
    have sound := (reachable_storeAfter before).sound
    have stored : usageOf (storeAfter before) input.lease.runId = some run.usage := by
      rw [usageOf, found, Option.map_some]
    obtain ⟨valid, -⟩ := (accounted_storeAfter before).usage _ _ stored
    have spared : ¬ exhausts input clock.toISOString (storeAfter before) = true := fun exhausted =>
      exhausts_charges exhausted found (step.refused input uuid clock run limit rfl found budget exhausted)
    rw [exhausts_of_budget sound found valid budget] at spared
    have opened : ¬ run.status.isLimited := fun limited => spared ⟨current, .inl limited⟩
    by_cases running : run.status = .running
    · refine .inl ⟨running, ?_⟩
      by_contra full
      exact spared ⟨current, .inr ⟨running, full⟩⟩
    · refine .inr ⟨running, opened, fun admissible => ?_⟩
      have starts : Starts (storeAfter before) input uuid clock :=
        (intent_starts_iff found).mpr ⟨admissible, opened, fun impossible => absurd impossible running⟩
      rw [← started_of_starts starts]
      exact step.bounded input.lease.runId run limit found budget
  · intro within before call rest split
    have sound := (reachable_storeAfter before).sound
    have usable : ∀ runId usage, usageOf (storeAfter before) runId = some usage → usage.Valid :=
      fun runId usage stored => ((accounted_storeAfter before).usage runId usage stored).1
    have now : ∀ input uuid clock, call = .recordToolIntent input uuid clock →
        WithinBudget (storeAfter before) input uuid clock := by
      rintro input uuid clock rfl
      exact within before input uuid clock rest split
    have earlier : Bounded (storeAfter before) := by
      refine bounded_storeAfter fun first input uuid clock later cut => ?_
      refine within first input uuid clock (later ++ call :: rest) ?_
      rw [split, cut, List.append_assoc]
      rfl
    have spared : ∀ input uuid clock run limit, call = .recordToolIntent input uuid clock →
        ((storeAfter before) .runs).find? input.lease.runId = some run → run.budget = toolCallBudget limit →
        ¬ exhausts input clock.toISOString (storeAfter before) = true := by
      intro input uuid clock run limit intent found budget exhausted
      have stored : usageOf (storeAfter before) input.lease.runId = some run.usage := by
        rw [usageOf, found, Option.map_some]
      obtain ⟨current, stopped⟩ := (exhausts_of_budget sound found (usable _ _ stored) budget).mp exhausted
      rcases now input uuid clock intent run limit found budget current with ⟨running, room⟩ | ⟨other, opened, -⟩
      · rcases stopped with limited | ⟨-, full⟩
        · rcases limited with budgetLimited | usageLimited
          · rw [running] at budgetLimited
            cases budgetLimited
          · rw [running] at usageLimited
            cases usageLimited
        · exact full room
      · rcases stopped with limited | ⟨running, -⟩
        · exact opened limited
        · exact other running
    refine ⟨fun runId run limit found budget => ?_, ?_, ?_⟩
    · have after := earlier.perform sound (covered_storeAfter before) usable now
      obtain ⟨run', found', kept⟩ : ∃ run', ((call.perform (storeAfter before)) .runs).find? runId = some run' ∧
          run'.budget = run.budget := by
        obtain ⟨run', found'⟩ := Moves.run_found (Call.moves (storeAfter before) call) ⟨run, found⟩
        rcases Call.budget_kept found' with absent | ⟨other, stored, same⟩
        · rw [absent] at found
          cases found
        · obtain rfl := Option.some.inj (found.symm.trans stored)
          exact ⟨run', found', same⟩
      exact after runId run' limit found' (kept.trans budget)
    · intro input uuid clock run limit intent found budget running below admissible
      refine (intent_starts_iff found).mpr ⟨admissible, fun limited => ?_, fun _ => ?_⟩
      · rcases limited with limited | limited <;> cases running.symm.trans limited
      · have stored : usageOf (storeAfter before) input.lease.runId = some run.usage := by
          rw [usageOf, found, Option.map_some]
        have valid := usable _ _ stored
        rw [budget, toolCallBudget_limits (valid.plus oneToolCall_valid), valid.one_more]
        rcases now input uuid clock intent run limit found budget admissible.current with ⟨-, room⟩ | ⟨other, -⟩
        · exact room
        · exact absurd running other
    · intro input uuid clock run limit intent found budget exhausted
      exact absurd exhausted (spared input uuid clock run limit intent found budget)

end Runs

/-- A Run that may call one tool. -/
def oneCallRun : Call :=
  .createRun { prompt := "Ship it.", workspaceUri := "file:///work", budget := toolCallBudget 1 } "seed" "v1" .epoch

theorem budget_of_one_allows_no_tool_call :
    ¬ ∀ (history before : List Call) (call : Call) (rest : List Call), history = before ++ call :: rest →
      BudgetStep (storeAfter before) call := by
  intro always
  let history : List Call := [oneCallRun, takeSample "first" .epoch]
  have within := (tool_call_budget_exact_iff (history ++ [.recordToolIntent sampleIntent "t1" .epoch])).mp
    (always _) history sampleIntent "t1" .epoch [] rfl
  have facts : (((storeAfter history) .runs).find? sampleRunId).map (fun run => (run.status, run.budget, run.usage)) =
      some (.running, toolCallBudget 1, emptyBudgetUsage) := by decide +kernel
  obtain ⟨run, found, same⟩ := Option.map_eq_some_iff.mp facts
  obtain ⟨status, budget, usage⟩ : run.status = .running ∧ run.budget = toolCallBudget 1 ∧ run.usage = emptyBudgetUsage := by
    simpa using same
  rcases within run 1 found budget (by decide +kernel) with ⟨-, room⟩ | ⟨other, -⟩
  · rw [usage, emptyBudgetUsage_amounts] at room
    norm_num at room
  · exact other status

end OttiliCoder
