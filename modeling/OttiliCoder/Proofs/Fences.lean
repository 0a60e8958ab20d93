import OttiliCoder.Proofs.Problems

/-! Which calls a lease they breach does not stop. -/

namespace OttiliCoder
open Relational Transaction

/-- The charge of one tool call stops the Run, or finds it stopped by its limits. -/
def Exhausts (run : RunRow) : Prop :=
  assertBudget run.budget = .ok () ∧
    (run.status.isLimited ∨
      run.status = .running ∧ exhaustedLimits run.budget (run.usage.plus oneToolCall) ≠ [])

/-- What a call asks for that is not its lease, where that is all it asks for: the lease is not
read, or not compared with the Run of every row the call writes. -/
def Unfenced (s : Store) : Call → Prop
  | .setGoalStatus input _ => GoalMovable s input
  | .recordProblem input uuid clock => ProblemAdmitted s input uuid clock.toISOString
  | .addEvidence input uuid clock => EvidenceAdmitted s input uuid clock.toISOString
  | .setRequirementStatus input clock _ => RequirementSettable s input clock.toISOString
  | .createContextSnapshot input uuid clock => SnapshotAdmitted s input uuid clock.toISOString
  | .completeToolCall input clock => CurrentLease s input.lease clock.toISOString
  | .recordToolIntent input _ clock => CurrentLease s input.lease clock.toISOString ∧
      ∃ run, (s .runs).find? input.lease.runId = some run ∧ Exhausts run
  | _ => False

section Intent
variable {s : Store} {input : ToolIntentInput} {uuid : String} {clock : Date} {run : RunRow}

theorem intent_throws_of_foreign {approvalId : ApprovalId} {runId : RunId} (named : input.approvalId = some approvalId)
    (home : rowRun s .approvals approvalId = some runId) (other : runId ≠ input.lease.runId) :
    Throws (recordToolIntent input uuid clock) s := by
  apply throws_iff.mpr
  intro id s' returned
  obtain ⟨-, -, charged, middle, authorized, steps⟩ := recordToolIntent_ok.mp returned
  have authorize := steps.authorize
  rw [named] at authorize
  obtain ⟨approval, event, found, mine, -⟩ := consumeApproval_ok.mp authorize
  rw [charged_other steps.charge (by simp) (by simp)] at found
  obtain ⟨row, stored, direct⟩ := rowRun_eq_some.mp home
  cases found.symm.trans stored
  exact other ((Option.some.inj direct).symm.trans mine)

theorem intent_refuses_of_stale (stale : ¬ CurrentLease s input.lease clock.toISOString) :
    Refuses (recordToolIntent input uuid clock) s := by
  cases outcome : recordToolIntent input uuid clock s with
  | ok id s' => exact absurd (recordToolIntent_ok.mp outcome).2.1 stale
  | error e s' =>
    refine ⟨⟨e, s', outcome⟩, (after_error outcome).trans ?_⟩
    rcases recordToolIntent_error outcome with same | ⟨current, -⟩
    · exact same
    · exact absurd current stale

/-- The charge that refuses an intent is kept. -/
theorem intent_after_limited {charged : Store} {limited : Run} (current : CurrentLease s input.lease clock.toISOString)
    (charge : chargeIntent input clock.toISOString s = .ok limited charged) (stopped : limited.status.isLimited) :
    after (recordToolIntent input uuid clock) s = charged := by
  have committed : (transaction do
      assertLeaseInternal input.lease clock.toISOString
      let budgeted ← recordUsageInternal input.lease.runId { toolCalls := some 1 } clock.toISOString
      if budgeted.status = .budgetLimited ∨ budgeted.status = .usageLimited then return true
      else do
        given input.approvalId fun approvalId => consumeApproval approvalId input.lease clock.toISOString
        insertInto .toolCalls (newToolCall input uuid clock.toISOString)
        let _ ← appendEventInternal input.lease.runId .toolCallStarted
          [("name", .string input.definition.name), ("toolCallId", .string (toolCallId input uuid))] clock.toISOString
          (some input.lease.generation)
        return false) s = .ok true charged := by
    refine transaction_ok.mpr (bind_ok.mpr ⟨(), s, assertLeaseInternal_ok.mpr ⟨current, rfl⟩, ?_⟩)
    exact bind_ok.mpr ⟨limited, charged, charge, ite_ok.mpr (.inl ⟨stopped, rfl⟩)⟩
  cases outcome : recordToolIntent input uuid clock s with
  | ok id s' =>
    obtain ⟨-, -, run, _, _, steps⟩ := recordToolIntent_ok.mp outcome
    cases charge.symm.trans steps.charge
    exact absurd stopped steps.opened
  | error e s' =>
    rw [after_error outcome]
    unfold recordToolIntent at outcome
    rw [bind_apply] at outcome
    split at outcome
    next exhausted middle returned =>
      cases returned.symm.trans committed
      rw [bind_apply] at outcome
      cases outcome
      rfl
    next other middle thrown => cases thrown.symm.trans committed

theorem usage_plus_ne {usage : BudgetUsage} (valid : usage.Valid) : usage.plus oneToolCall ≠ usage := by
  intro same
  have amounts := congrFun (valid.amounts_plus oneToolCall_valid) .toolCalls
  rw [same, Pi.add_apply] at amounts
  have one : oneToolCall.amounts .toolCalls = 1 := rfl
  rw [one] at amounts
  linarith

/-- An intent on an approval of another Run is refused, except where its charge exhausts the budget. -/
theorem intent_refuses_iff {approvalId : ApprovalId} {runId : RunId} (sound : Sound s)
    (valid : ∀ run, (s .runs).find? input.lease.runId = some run → run.usage.Valid)
    (current : CurrentLease s input.lease clock.toISOString) (named : input.approvalId = some approvalId)
    (home : rowRun s .approvals approvalId = some runId) (other : runId ≠ input.lease.runId) :
    Refuses (recordToolIntent input uuid clock) s ↔
      ¬ ∃ run, (s .runs).find? input.lease.runId = some run ∧ Exhausts run := by
  have thrown : Throws (recordToolIntent input uuid clock) s := intent_throws_of_foreign named home other
  constructor
  · rintro refused ⟨run, found, asserted, exhausted⟩
    obtain ⟨limited, charged, charge, -⟩ : ∃ limited charged,
        chargeIntent input clock.toISOString s = .ok limited charged ∧ Sound charged :=
      chargeIntent_returns sound found (valid run found) asserted
    have facts := (chargeIntent_ok found charge).2
    have stopped : limited.status.isLimited := by
      rcases facts with ⟨-, -, status⟩ | ⟨allowed, -, status⟩
      · exact .inl status
      · rw [status]
        exact exhausted.resolve_right fun ⟨running, spent⟩ => allowed ⟨spent, running⟩
    have same : charged = s := (intent_after_limited current charge stopped).symm.trans refused.2
    obtain ⟨row, usage, exhausted', stored, added, assessed, moved, known⟩ := recordUsageInternal_ok.mp charge
    obtain ⟨last, there, lastSame, -⟩ := mustRun_ok.mp known
    rw [same] at there
    cases found.symm.trans there
    rcases facts with ⟨-, running, status⟩ | ⟨-, left, -⟩
    · rw [lastSame] at status
      exact absurd (running.symm.trans status) (by simp)
    · have kept : ((withUsage s input.lease.runId (run.usage.plus oneToolCall) clock.toISOString) .runs).find?
          input.lease.runId = some { run with usage := run.usage.plus oneToolCall, updatedAt := clock.toISOString } :=
        withUsage_found found
      rw [← left, same, found, Option.some.injEq] at kept
      exact usage_plus_ne (valid run found) (congrArg (fun row : RunRow => row.usage) kept).symm
  · intro spared
    obtain ⟨e, s', failed⟩ := thrown
    refine ⟨⟨e, s', failed⟩, (after_error failed).trans ?_⟩
    rcases recordToolIntent_error failed with same | ⟨-, limited, charge, stopped⟩
    · exact same
    · obtain ⟨run, found⟩ := sound.leased current
      obtain ⟨asserted, facts⟩ := chargeIntent_ok found charge
      refine absurd ⟨run, found, asserted, ?_⟩ spared
      rcases facts with ⟨spent, running, -⟩ | ⟨-, -, status⟩
      · exact .inr ⟨running, spent⟩
      · exact .inl (status ▸ stopped)

end Intent

/-! Every call. -/

section Calls
variable {s : Store} {call : Call}

/-- Apart from intents, a call that does not check its lease is stopped by what else it asks for. -/
theorem unfenced_iff (sound : Sound s) (home : ProblemsHome s) (checks : call.checksLease = false)
    (plain : ∀ input uuid clock, call ≠ .recordToolIntent input uuid clock) :
    Atomic call.run ∧ (Succeeds call.run s ↔ Unfenced s call) := by
  cases call with
  | setGoalStatus input clock =>
    exact ⟨(Atomic.transaction _).map _, succeeds_discard.trans (setGoalStatus_succeeds sound)⟩
  | recordProblem input uuid clock =>
    exact ⟨(Atomic.transaction _).map _, succeeds_discard.trans (recordProblem_succeeds sound home)⟩
  | addEvidence input uuid clock =>
    exact ⟨(Atomic.transaction _).map _, succeeds_discard.trans addEvidence_succeeds⟩
  | setRequirementStatus input clock updated => exact ⟨.transaction _, setRequirementStatus_succeeds⟩
  | createContextSnapshot input uuid clock =>
    have atomic : Atomic (OttiliCoder.createContextSnapshot input uuid clock) :=
      (ReadOnly.require _ _).atomic_bind fun _ => .transaction _
    exact ⟨atomic.map _, succeeds_discard.trans createContextSnapshot_succeeds⟩
  | completeToolCall input clock => exact ⟨.transaction _, completeToolCall_succeeds sound⟩
  | recordToolIntent input uuid clock => exact absurd rfl (plain input uuid clock)
  | _ => cases checks

private theorem fenced_iff (sound : Sound s) (home : ProblemsHome s)
    (valid : ∀ runId run, (s .runs).find? runId = some run → run.usage.Valid) :
    Fenced s call ↔ ¬ (Breaches s call ∧ Unfenced s call) := by
  by_cases checks : call.checksLease = true
  · have spared : ¬ Unfenced s call := by
      cases call <;> first | exact id | cases checks
    exact iff_of_true (Call.refuses checks) fun both => spared both.2
  · rw [Bool.not_eq_true] at checks
    rw [not_and]
    apply forall_congr'
    intro breaches
    by_cases plain : ∀ input uuid clock, call ≠ .recordToolIntent input uuid clock
    · obtain ⟨atomic, succeeds⟩ := unfenced_iff sound home checks plain
      rw [refuses_iff atomic, succeeds]
    · simp only [not_forall, not_not] at plain
      obtain ⟨input, uuid, clock, rfl⟩ := plain
      have same : Refuses (Call.recordToolIntent input uuid clock).run s ↔ Refuses (recordToolIntent input uuid clock) s :=
        refuses_discard
      rw [same]
      obtain ⟨lease, moment, given, breach⟩ := breaches
      cases given
      by_cases current : CurrentLease s input.lease clock.toISOString
      · obtain ⟨runId, member, other⟩ := breach.resolve_left fun stale => stale current
        have foreign : ∃ approvalId, input.approvalId = some approvalId ∧ rowRun s .approvals approvalId = some runId := by
          rcases List.mem_cons.mp member with rfl | approvals
          · exact absurd rfl other
          · exact Option.bind_eq_some_iff.mp (Option.mem_toList.mp approvals)
        obtain ⟨approvalId, named, there⟩ := foreign
        rw [intent_refuses_iff sound (fun run found => valid _ run found) current named there other]
        exact not_congr (and_iff_right current).symm
      · exact iff_of_true (intent_refuses_of_stale current) fun unfenced => current unfenced.1

end Calls

theorem usage_valid (history : List Call) (runId : RunId) (run : RunRow)
    (found : ((storeAfter history) .runs).find? runId = some run) : run.usage.Valid := by
  have stored : usageOf (storeAfter history) runId = some run.usage := by
    rw [usageOf, found, Option.map_some]
  exact ((accounted_storeAfter history).usage _ _ stored).1

/-- After every history, a call that breaches its lease throws and changes nothing, unless it
is one of the seven that do not check the lease against all they write. -/
theorem leases_fence_iff (history : List Call) (call : Call) :
    Fenced (storeAfter history) call ↔ ¬ (Breaches (storeAfter history) call ∧ Unfenced (storeAfter history) call) :=
  fenced_iff (reachable_storeAfter history).sound (problemsHome_reached (reachable_storeAfter history)) (usage_valid history)

def sampleGoalId : GoalId := createId .goal "seed"

/-- A stranger that holds no lease pauses the goal. -/
def strangersGoal : SetGoalStatusInput where
  expectedGoalVersion := "v1"
  lease := some (sampleLease "stranger" 1)
  goalId := sampleGoalId
  target := .paused

theorem stale_lease_moves_goal : ¬ ∀ (history : List Call) (call : Call), Fenced (storeAfter history) call := by
  intro always
  have unleased : ¬ CurrentLease (storeAfter [sampleRun]) (sampleLease "stranger" 1) Date.epoch.toISOString := by
    decide +kernel
  have refused := always [sampleRun] (.setGoalStatus strangersGoal .epoch) ⟨_, _, rfl, .inl unleased⟩
  have succeeds : Succeeds (setGoalStatus strangersGoal .epoch) (storeAfter [sampleRun]) :=
    fails_eq_false.mp (by decide +kernel)
  exact (refuses_iff (.transaction _)).mp (refuses_discard.mp refused) succeeds

end OttiliCoder
