import OttiliCoder.Proofs.Steps

/-! The effects of the operations on usage, tool calls, checkpoints and continuations. -/

namespace OttiliCoder
open Relational Transaction

variable {touched : RunId → Prop} {s : Store} {clock : Date} {uuid : String}

/-! Usage and tool calls. -/

theorem recordUsage_moves {runId : RunId} {delta : BudgetDelta} (mine : touched runId) :
    Within (Moves touched (· ∈ [.counters, .transition .budgetLimited])) (recordUsage runId delta clock) s := by
  unfold recordUsage
  exact Yields.within (yields_recordUsage mine)

theorem recordUsageFenced_moves {lease : FencedLease} {delta : BudgetDelta} {entry : Option UsageEntry}
    (mine : touched lease.runId) :
    Within (Moves touched (· ∈ [.ledger .usageEntries, .counters, .transition .budgetLimited]))
      (recordUsageFenced lease delta entry clock) s := by
  unfold recordUsageFenced
  refine Yields.within ?_
  refine .read readOnly_assertLeaseInternal fun _ _ => ?_
  split
  next => exact yields_recordUsage mine
  next entry =>
    refine .read readOnly_findRow fun existing _ => ?_
    refine .ite (fun _ => readOnly_mustRun.plain) fun _ => ?_
    exact .seq (yields_insert rfl (.run mine)).plain fun _ s₁ _ => yields_recordUsage mine

private theorem yields_consumeApproval {kinds : Kind → Prop} {approvalId : ApprovalId} {lease : FencedLease}
    {now : IsoTimestamp} (mine : touched lease.runId)
    [Allows kinds (.ledger .approvals)] [Allows kinds (.journal .approvalResolved)] :
    Yields (Moves touched kinds) (consumeApproval approvalId lease now) s fun _ _ => True := by
  unfold consumeApproval
  refine .read readOnly_mustApproval fun approval got => ?_
  obtain ⟨found, -⟩ := mustApproval_ok.mp got
  refine .read (.require _ _) fun _ allowed => ?_
  obtain ⟨⟨same, -⟩, -⟩ := require_ok.mp allowed
  have owned : Owned touched s (.through .approvals approvalId) := (owned_iff found rfl).mpr (same ▸ mine)
  refine .seq (yields_update rfl (fun _ => by rfl) fun row member chosen => ?_) fun _ s₁ _ => ?_
  · simp only [Bool.and_eq_true, beq_iff_eq] at chosen
    exact .run (owned.member member chosen.1 rfl)
  exact .seq (yields_journal rfl mine) fun _ _ _ => .pure trivial

theorem recordToolIntent_moves {input : ToolIntentInput} (mine : touched input.lease.runId) :
    Within (Moves touched (· ∈ [.ledger .approvals, .ledger .toolCalls, .journal .approvalResolved, .journal .toolCallStarted, .counters, .transition .budgetLimited]))
      (recordToolIntent input uuid clock) s := by
  unfold recordToolIntent
  refine .bind (Yields.within ?_) fun exhausted s₁ _ => ?_
  · refine .read readOnly_assertLeaseInternal fun _ _ => ?_
    refine .seq (yields_recordUsage mine) fun budgeted s₁ _ => ?_
    refine .ite (fun _ => .pure trivial) fun _ => ?_
    refine .seq (.given (fun _ => trivial) fun approvalId _ => yields_consumeApproval mine) fun _ s₂ _ => ?_
    refine .seq (yields_insert rfl (.run mine)).plain fun _ s₃ _ => ?_
    exact .seq (yields_journal rfl mine) fun _ _ _ => .pure trivial
  · exact .read (.require _ _) fun _ _ => (ReadOnly.pure _).within

theorem completeToolCall_moves {input : CompleteToolCallInput} (mine : touched input.lease.runId) :
    Within (Moves touched (· ∈ [.ledger .toolCalls, .journal .toolCallFinished])) (completeToolCall input clock) s := by
  unfold completeToolCall
  refine Yields.within ?_
  refine .read readOnly_assertLeaseInternal fun _ _ => ?_
  refine .seq (yields_update rfl (fun _ => by rfl) fun row _ chosen => ?_) fun _ s₁ _ => ?_
  · simp only [Bool.and_eq_true, beq_iff_eq] at chosen
    exact .run (chosen.1.2 ▸ mine)
  exact .seq (yields_journal rfl mine) fun _ _ _ => .pure trivial

private theorem yields_markUnknown {kinds : Kind → Prop} {runId : RunId} {calls : List ToolCallRow}
    {now : IsoTimestamp} {leaseGeneration : Option Nat} (mine : touched runId)
    (inside : ∀ call ∈ calls, Owned touched s (.through .toolCalls call.id))
    [Allows kinds (.ledger .toolCalls)] [Allows kinds (.journal .recoveryRequired)] :
    Yields (Moves touched kinds) (markUnknown runId calls now leaseGeneration) s fun _ _ => True := by
  unfold markUnknown
  refine .seq (.forM trivial fun call member s₁ moved _ => ?_) fun _ s₁ _ => ?_
  · refine yields_update rfl (fun _ => by rfl) fun row stored same => .run ?_
    exact (moved.owned (inside call member)).member stored (eq_of_beq same) rfl
  refine .seq (.onlyIf (fun _ => trivial) fun _ => ?_) fun _ _ _ => .pure trivial
  exact .seq (yields_journal rfl mine) fun _ _ _ => .pure trivial

theorem reconcileInterruptedToolCalls_moves {runId : RunId} (mine : touched runId) :
    Within (Moves touched (· ∈ [.ledger .toolCalls, .journal .recoveryRequired])) (reconcileInterruptedToolCalls runId clock) s := by
  unfold reconcileInterruptedToolCalls
  refine Yields.within ?_
  refine .read readOnly_selectRows fun calls selected => ?_
  obtain ⟨rfl, -⟩ := select_ok.mp selected
  refine yields_markUnknown mine fun call member => ?_
  obtain ⟨member, chosen⟩ := List.mem_filter.mp member
  simp only [Bool.and_eq_true, beq_iff_eq] at chosen
  exact .of_member (t := .toolCalls) member fun runId direct => Option.some.inj direct ▸ chosen.1 ▸ mine

theorem recoverClaimedWork_moves {lease : FencedLease} (mine : touched lease.runId) :
    Within (Moves touched (· ∈ [.claimed, .ledger .toolCalls, .journal .recoveryRequired])) (recoverClaimedWork lease clock) s := by
  unfold recoverClaimedWork
  refine Yields.within ?_
  refine .read readOnly_assertLeaseInternal fun _ _ => ?_
  refine .seq (yields_claimActions fun row _ chosen => ?_) fun _ s₁ _ => ?_
  · simp only [Bool.and_eq_true, beq_iff_eq] at chosen
    exact chosen.1.1 ▸ mine
  refine .read readOnly_selectRows fun calls selected => ?_
  obtain ⟨rfl, -⟩ := select_ok.mp selected
  refine yields_markUnknown mine fun call member => ?_
  obtain ⟨member, chosen⟩ := List.mem_filter.mp member
  simp only [Bool.and_eq_true, beq_iff_eq] at chosen
  exact .of_member (t := .toolCalls) member fun runId direct => Option.some.inj direct ▸ chosen.1.1 ▸ mine

/-! Checkpoints. -/

theorem createCheckpoint_moves {input : CreateCheckpointInput} (mine : touched input.runId) :
    Within (Moves touched (· ∈ [.ledger .checkpoints, .journal .checkpointCreated])) (createCheckpoint input uuid clock) s := by
  unfold createCheckpoint
  refine Yields.within ?_
  refine .read readOnly_assertRunLeaseInternal fun _ _ => ?_
  refine .read readOnly_selectRows fun stored _ => ?_
  refine .seq (yields_insert rfl (.run mine)).plain fun _ s₁ _ => ?_
  exact .seq (yields_journal rfl mine) fun _ _ _ => .pure trivial

theorem recordCheckpointRestore_moves {input : RecordCheckpointRestoreInput} (mine : touched input.runId) :
    Within (Moves touched (· ∈ [.journal .checkpointRestored])) (recordCheckpointRestore input clock) s := by
  unfold recordCheckpointRestore
  refine Yields.within ?_
  refine .read readOnly_mustRun fun run _ => ?_
  exact .read (.require _ _) fun _ _ => yields_journal rfl mine

/-! Waiting and continuing. -/

theorem scheduleWake_moves {input : ScheduleWakeInput} (mine : touched input.runId) :
    Within (Moves touched (· ∈ [.ledger .wakeConditions, .transition .waitingExternal])) (scheduleWake input uuid clock) s := by
  unfold scheduleWake
  refine Yields.within ?_
  refine .read (.given fun _ => readOnly_assertRunLeaseInternal) fun _ _ => ?_
  refine .read (.expect _ _) fun wakeAt _ => ?_
  refine .seq (yields_insert rfl (.run mine)).plain fun _ s₁ _ => ?_
  refine .read readOnly_mustRun fun run got => ?_
  have home : touched run.id := mustRun_id got ▸ mine
  exact .seq (.onlyIf (fun _ => trivial) fun _ => yields_transitionRun home) fun _ _ _ => .pure trivial

theorem wakeDueRuns_moves
    (mine : ∀ condition ∈ s .wakeConditions, condition.status = .pending → condition.wakeAt ≤ clock.toISOString →
      touched condition.runId) :
    Within (Moves touched (· ∈ [.ledger .wakeConditions, .transition .running, .ensured])) (wakeDueRuns clock) s := by
  unfold wakeDueRuns
  refine Yields.within ?_
  refine .read readOnly_selectRows fun conditions selected => ?_
  obtain ⟨rfl, -⟩ := select_ok.mp selected
  refine .mapM trivial fun condition member s₁ moved _ => ?_
  obtain ⟨member, due⟩ := List.mem_filter.mp member
  simp only [Bool.and_eq_true, beq_iff_eq, decide_eq_true_eq] at due
  have home : touched condition.runId := mine condition member due.1 due.2
  have owned : Owned touched s (.through .wakeConditions condition.id) :=
    .of_member (t := .wakeConditions) member fun runId direct => Option.some.inj direct ▸ home
  unfold wakeRun
  refine .seq (yields_update rfl (fun _ => by rfl) fun row stored same => ?_) fun _ s₂ _ => ?_
  · exact .run ((moved.owned owned).member stored (eq_of_beq same) rfl)
  refine .read readOnly_mustRun fun run _ => ?_
  refine .seq (.onlyIf (fun _ => trivial) fun _ => yields_transitionRun home) fun _ s₃ _ => ?_
  exact .seq (yields_ensureContinuation home) fun _ _ _ => .pure trivial

theorem claimContinuation_moves {lease : FencedLease} (mine : touched lease.runId)
    (goals : ∀ run goalId, (s .runs).find? lease.runId = some run → run.currentGoalId = some goalId →
      Owned touched s (.through .goals goalId)) :
    Within (Moves touched (· ∈ [.claimed, .goalCounter])) (claimContinuation lease clock) s := by
  unfold claimContinuation
  refine Yields.within ?_
  refine .read readOnly_assertLeaseInternal fun _ _ => ?_
  refine .read readOnly_selectRows fun actions _ => ?_
  split
  next => exact .pure trivial
  next action =>
    refine .read readOnly_mustRun fun run got => ?_
    obtain ⟨row, found, rfl, -⟩ := mustRun_ok.mp got
    refine .read .get fun current same => ?_
    obtain ⟨rfl, -⟩ := get_ok.mp same
    split
    next => exact .pure trivial
    next goal continued =>
      refine .seq (yields_claimActions fun row _ chosen => ?_) fun _ s₁ moved => ?_
      · simp only [Bool.and_eq_true, beq_iff_eq] at chosen
        exact chosen.1 ▸ mine
      refine .seq (yields_countGoals (fun _ => by exact ⟨rfl, rfl⟩) fun other inside same => ?_) fun _ _ _ => .pure trivial
      obtain ⟨-, stored, currently, -, rfl, -⟩ := continuableGoal_some.mp continued
      have owned := goals row _ found currently
      exact (moved.owned owned).member inside (eq_of_beq same) rfl

theorem settleContinuation_moves {input : SettleContinuationInput} (mine : touched input.lease.runId) :
    Within (Moves touched (· ∈ [.settled, .ensured])) (settleContinuation input clock) s := by
  unfold settleContinuation
  refine Yields.within ?_
  refine .read readOnly_assertLeaseInternal fun _ _ => ?_
  refine .seq (yields_settleActions fun row _ chosen => ?_).plain fun _ s₁ _ => ?_
  · simp only [Bool.and_eq_true, beq_iff_eq] at chosen
    exact chosen.1.1.1 ▸ mine
  exact .onlyIf (fun _ => trivial) fun _ => yields_ensureContinuation mine

end OttiliCoder
