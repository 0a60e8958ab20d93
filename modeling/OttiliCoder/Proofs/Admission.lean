import OttiliCoder.Proofs.Sound
import OttiliCoder.Proofs.Usage

/-! When a tool intent goes through: what it asks of its arguments, of its Run's status
and of the budget. -/

namespace OttiliCoder
open Relational Transaction

/-- What an intent asks for apart from the status of its Run and its budget. -/
structure Admissible (s : Store) (input : ToolIntentInput) (uuid : String) (now : IsoTimestamp) : Prop where
  current : CurrentLease s input.lease now
  asserted : ∀ run, (s .runs).find? input.lease.runId = some run → assertBudget run.budget = .ok ()
  approved : ∀ approvalId, input.approvalId = some approvalId → ∃ approval, (s .approvals).find? approvalId = some approval ∧
    approval.runId = input.lease.runId ∧ approval.status = .approved
  fresh : (s .toolCalls).find? (toolCallId input uuid) = none
  agent : s.hasOptional .agents input.agentId = true
  task : s.hasOptional .tasks input.taskId = true

/-- What an intent charges. -/
def oneToolCall : BudgetDelta := { toolCalls := some 1 }

theorem oneToolCall_valid : oneToolCall.Valid := by
  intro metric number given
  cases metric <;> cases given
  exact ⟨((1 : ℕ) : ℚ), rfl, Nat.cast_nonneg 1⟩

def statusOf (s : Store) (runId : RunId) : Option RunStatus := ((s .runs).find? runId).map (·.status)

section Charge
variable {s s' : Store} {input : ToolIntentInput} {now : IsoTimestamp} {run : RunRow} {charged : Run}

theorem transitionRun_status {runId : RunId} {target : RunStatus} {reason : Option String}
    (moved : transitionRunInternal runId target now reason s = .ok () s') :
    ∃ run, (s' .runs).find? runId = some run ∧ run.status = target := by
  obtain ⟨run, event, found, -, appended⟩ := transitionRunInternal_ok.mp moved
  have step : RowStep (RunKept .ensured) (fun _ => False) _ _ := appended_runs appended runId
  have written : ∃ row, ((withRunStatus s runId target now reason) .runs).find? runId = some row ∧ row.status = target := by
    rw [withRunStatus, Db.set_same, Keyed.find?_update, found]
    exact ⟨_, rfl, by simp [(Keyed.find?_eq_some.mp found).2]⟩
  obtain ⟨row, there, status⟩ := written
  obtain ⟨run', stored, kept⟩ := step.later there
  have same : run'.status = row.status := by simpa using kept.status
  exact ⟨run', stored, same.trans status⟩

theorem statusOf_eq_some {runId : RunId} {status : RunStatus} :
    statusOf s runId = some status ↔ ∃ run, (s .runs).find? runId = some run ∧ run.status = status := by
  simp [statusOf, Option.map_eq_some_iff]

/-- An event leaves every status. -/
theorem appended_status {runId id : RunId} {type : RunEventType} {payload : JsonObject} {leaseGeneration : Option Nat}
    {event : RunEvent} {status : RunStatus} (appended : appendEventInternal runId type payload now leaseGeneration s = .ok event s')
    (before : statusOf s id = some status) : statusOf s' id = some status := by
  obtain ⟨run, found, same⟩ := statusOf_eq_some.mp before
  obtain ⟨run', found', kept⟩ := (Effect.event appended).runs_found found
  have unmoved : run'.status = run.status := by simpa using kept.status
  exact statusOf_eq_some.mpr ⟨run', found', unmoved.trans same⟩

/-- An intent's charge goes through when the stored budget is valid. It stops a running Run
whose budget it exhausts, and leaves every other status. -/
theorem chargeIntent_ok (found : (s .runs).find? input.lease.runId = some run) :
    chargeIntent input now s = .ok charged s' →
      assertBudget run.budget = .ok () ∧
        ((exhaustedLimits run.budget (run.usage.plus oneToolCall) ≠ [] ∧ run.status = .running ∧
            charged.status = .budgetLimited) ∨
          (¬ (exhaustedLimits run.budget (run.usage.plus oneToolCall) ≠ [] ∧ run.status = .running) ∧
            s' = withUsage s input.lease.runId (run.usage.plus oneToolCall) now ∧ charged.status = run.status)) := by
  intro charge
  obtain ⟨row, usage, exhausted, stored, added, assessed, limited, known⟩ := recordUsageInternal_ok.mp charge
  obtain rfl := Option.some.inj (found.symm.trans stored)
  obtain ⟨-, -, rfl⟩ := addBudgetUsage_ok.mp added
  obtain ⟨asserted, -, rfl⟩ := evaluateBudget_ok.mp assessed
  refine ⟨asserted, ?_⟩
  obtain ⟨last, there, rfl, -⟩ := mustRun_ok.mp known
  rcases limited with ⟨⟨spent, running⟩, moved⟩ | ⟨allowed, rfl⟩
  · obtain ⟨other, stored', status⟩ := transitionRun_status moved
    obtain rfl := Option.some.inj (there.symm.trans stored')
    exact .inl ⟨spent, running, status⟩
  · refine .inr ⟨allowed, rfl, ?_⟩
    rw [withUsage, Db.set_same, Keyed.find?_update, found] at there
    cases there
    simp [(Keyed.find?_eq_some.mp found).2]

theorem withUsage_found {runId : RunId} {usage : BudgetUsage} (found : (s .runs).find? runId = some run) :
    ((withUsage s runId usage now) .runs).find? runId = some { run with usage := usage, updatedAt := now } := by
  rw [withUsage, Db.set_same, Keyed.find?_update, found]
  simp [(Keyed.find?_eq_some.mp found).2]

theorem withUsage_sound {runId : RunId} {usage : BudgetUsage} (sound : Sound s) : Sound (withUsage s runId usage now) := by
  have counted : Effect .counters s (withUsage s runId usage now) := by
    unfold withUsage
    exact .counters fun _ => ⟨rfl, rfl, rfl, rfl⟩
  exact counted.sound sound

theorem chargeIntent_returns (sound : Sound s) (found : (s .runs).find? input.lease.runId = some run)
    (valid : run.usage.Valid) (asserted : assertBudget run.budget = .ok ()) :
    ∃ charged s', chargeIntent input now s = .ok charged s' ∧ Sound s' := by
  have added : addBudgetUsage run.usage oneToolCall = .ok (run.usage.plus oneToolCall) :=
    addBudgetUsage_ok.mpr ⟨valid, oneToolCall_valid, rfl⟩
  have assessed : evaluateBudget run.budget (run.usage.plus oneToolCall) =
      .ok (exhaustedLimits run.budget (run.usage.plus oneToolCall)) :=
    evaluateBudget_ok.mpr ⟨asserted, valid.plus oneToolCall_valid, rfl⟩
  have there : ((withUsage s input.lease.runId (run.usage.plus oneToolCall) now) .runs).find? input.lease.runId = _ :=
    withUsage_found found
  by_cases limited : exhaustedLimits run.budget (run.usage.plus oneToolCall) ≠ [] ∧ run.status = .running
  · have edge : canTransitionRun run.status .budgetLimited = true := by
      rw [limited.2]
      rfl
    obtain ⟨_, s', moved, sound'⟩ := transitionRun_returns (withUsage_sound sound) there edge none
    obtain ⟨last, stored, -⟩ := transitionRun_status moved
    exact ⟨last.toRun, s', recordUsageInternal_ok.mpr ⟨run, _, _, found, added, assessed, .inl ⟨limited, moved⟩,
      mustRun_ok.mpr ⟨last, stored, rfl, rfl⟩⟩, sound'⟩
  · exact ⟨_, _, recordUsageInternal_ok.mpr ⟨run, _, _, found, added, assessed, .inr ⟨limited, rfl⟩,
      mustRun_ok.mpr ⟨_, there, rfl, rfl⟩⟩, withUsage_sound sound⟩

end Charge

section Admission
variable {s s' : Store} {input : ToolIntentInput} {uuid : String} {clock : Date} {now : IsoTimestamp} {run : RunRow}

/-- Consuming an approved approval of the leased Run goes through, and leaves the other tables. -/
theorem authorize_returns (sound : Sound s) (found : (s .runs).find? input.lease.runId = some run)
    (approved : ∀ approvalId, input.approvalId = some approvalId → ∃ approval,
      (s .approvals).find? approvalId = some approval ∧ approval.runId = input.lease.runId ∧ approval.status = .approved) :
    ∃ s', given input.approvalId (fun approvalId => consumeApproval approvalId input.lease now) s = .ok () s' ∧
      Sound s' ∧ ∃ run', (s' .runs).find? input.lease.runId = some run' := by
  cases carried : input.approvalId with
  | none => exact ⟨s, given_ok.mpr (.inl ⟨rfl, rfl⟩), sound, run, found⟩
  | some approvalId =>
    obtain ⟨approval, stored, mine, status⟩ := approved approvalId carried
    have kept : Sound (withConsumed s approvalId now) := (Effect.ledger (t := .approvals) rfl).sound sound
    have there : ((withConsumed s approvalId now) .runs).find? input.lease.runId = some run := by
      rwa [withConsumed, Db.set_other _ _ (by simp)]
    have journals : Returns (appendEventInternal input.lease.runId .approvalResolved
        [("approvalId", .string approvalId), ("status", .string "consumed"), ("reason", .string "tool_call_authorized")]
        now (some input.lease.generation)) (withConsumed s approvalId now) fun _ s' => Sound s' :=
      appendEvent_returns kept there _ _ _
    obtain ⟨event, s', journaled, sound'⟩ := journals
    obtain ⟨run', later, -⟩ := (Effect.event journaled).runs_found there
    exact ⟨s', given_ok.mpr (.inr ⟨approvalId, rfl, consumeApproval_ok.mpr
      ⟨approval, event, stored, mine, status, journaled⟩⟩), sound', run', later⟩

theorem authorize_other {t : Table} (approvals : t ≠ .approvals) (runs : t ≠ .runs) (events : t ≠ .runEvents)
    (authorized : given input.approvalId (fun approvalId => consumeApproval approvalId input.lease now) s = .ok () s') :
    s' t = s t := by
  rcases given_ok.mp authorized with ⟨-, rfl⟩ | ⟨approvalId, -, consumed⟩
  · rfl
  · obtain ⟨approval, event, -, -, -, journaled⟩ := consumeApproval_ok.mp consumed
    rw [appended_other journaled runs events, withConsumed, Db.set_other _ _ approvals]

theorem hasOptional_congr {t : Table} {k : Option (Key t)} (same : s' t = s t) : s'.hasOptional t k = s.hasOptional t k := by
  unfold Store.hasOptional Store.has
  rw [same]

/-- An intent on a known Run with valid usage is recorded exactly when its arguments are
admissible, its Run is not limited, and it does not exhaust the budget of a running Run. -/
theorem recordToolIntent_succeeds_iff (sound : Sound s) (found : (s .runs).find? input.lease.runId = some run)
    (valid : run.usage.Valid) :
    (∃ id s', recordToolIntent input uuid clock s = .ok id s') ↔
      Admissible s input uuid clock.toISOString ∧ ¬ run.status.isLimited ∧
        (run.status = .running → exhaustedLimits run.budget (run.usage.plus oneToolCall) = []) := by
  constructor
  · rintro ⟨id, s', returned⟩
    obtain ⟨-, current, charged, middle, authorized, steps⟩ := recordToolIntent_ok.mp returned
    obtain ⟨asserted, ⟨-, -, status⟩ | ⟨allowed, rfl, status⟩⟩ := chargeIntent_ok found steps.charge
    · exact absurd (.inl status) steps.opened
    have same : ∀ {t : Table}, t ≠ .approvals → t ≠ .runs → t ≠ .runEvents → authorized t = s t :=
      fun approvals runs events => (authorize_other approvals runs events steps.authorize).trans
        (Db.set_other _ _ runs)
    have present := steps.admitted.present
    simp only [schema, references, newToolCall, Bool.and_eq_true] at present
    refine ⟨⟨current, ?_, ?_, ?_, ?_, ?_⟩, status ▸ steps.opened, fun running => ?_⟩
    · intro other stored
      exact Option.some.inj (found.symm.trans stored) ▸ asserted
    · intro approvalId carried
      rcases given_ok.mp steps.authorize with ⟨absent, -⟩ | ⟨other, given, consumed⟩
      · rw [absent] at carried
        cases carried
      · obtain rfl := Option.some.inj (given.symm.trans carried)
        obtain ⟨approval, event, stored, mine, approved, -⟩ := consumeApproval_ok.mp consumed
        rw [withUsage, Db.set_other _ _ (by simp)] at stored
        exact ⟨approval, stored, mine, approved⟩
    · have fresh := steps.admitted.fresh
      rwa [same (by simp) (by simp) (by simp)] at fresh
    · exact (hasOptional_congr (same (by simp) (by simp) (by simp))).symm.trans present.1.2
    · exact (hasOptional_congr (same (by simp) (by simp) (by simp))).symm.trans present.2
    · by_contra spent
      exact allowed ⟨spent, running⟩
  · rintro ⟨admissible, opened, unspent⟩
    obtain ⟨charged, middle, charge, kept⟩ : ∃ charged middle,
        chargeIntent input clock.toISOString s = .ok charged middle ∧ Sound middle :=
      chargeIntent_returns sound found valid (admissible.asserted run found)
    obtain ⟨-, ⟨spent, running, -⟩ | ⟨-, rfl, status⟩⟩ := chargeIntent_ok found charge
    · exact absurd (unspent running) spent
    have apart : ∀ {t : Table}, t ≠ .runs →
        (withUsage s input.lease.runId (run.usage.plus oneToolCall) clock.toISOString) t = s t :=
      fun runs => Db.set_other _ _ runs
    obtain ⟨authorized, authorize, consumed, later, stored⟩ :=
      authorize_returns kept (withUsage_found found) fun approvalId carried => by
        rw [apart (by simp)]
        exact admissible.approved approvalId carried
    have same : ∀ {t : Table}, t ≠ .approvals → t ≠ .runs → t ≠ .runEvents → authorized t = s t :=
      fun approvals runs events => (authorize_other approvals runs events authorize).trans (apart runs)
    have admitted : schema.Admits authorized .toolCalls (newToolCall input uuid clock.toISOString) := by
      refine ⟨?_, by simp [schema, clash], ?_⟩
      · rw [same (by simp) (by simp) (by simp)]
        exact admissible.fresh
      · have known : authorized.has .runs input.lease.runId = true := by
          rw [Store.has, stored]
          rfl
        have agent := (hasOptional_congr (same (by simp) (by simp) (by simp))).trans admissible.agent
        have task := (hasOptional_congr (same (by simp) (by simp) (by simp))).trans admissible.task
        simp only [schema, references, newToolCall, known, agent, task, Bool.and_self]
    let recorded := authorized.set .toolCalls ((authorized .toolCalls).insert (newToolCall input uuid clock.toISOString))
    have sound' : Sound recorded := (Effect.ledger (t := .toolCalls) rfl).sound consumed
    have there : (recorded .runs).find? input.lease.runId = some later := by
      change ((authorized.set .toolCalls _) .runs).find? _ = _
      rwa [Db.set_other _ _ (by simp)]
    have journals : Returns (appendEventInternal input.lease.runId .toolCallStarted
        [("name", .string input.definition.name), ("toolCallId", .string (toolCallId input uuid))] clock.toISOString
        (some input.lease.generation)) recorded fun _ s' => Sound s' := appendEvent_returns sound' there _ _ _
    obtain ⟨event, last, journaled, -⟩ := journals
    exact ⟨_, last, recordToolIntent_ok.mpr ⟨rfl, admissible.current, charged, _, authorized, charge, status ▸ opened,
      authorize, admitted, event, journaled⟩⟩

end Admission

end OttiliCoder
