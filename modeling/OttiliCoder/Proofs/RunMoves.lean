import OttiliCoder.Proofs.Steps

/-! The effects of the operations on Runs, Goals, leases and locks. -/

namespace OttiliCoder
open Relational Transaction

variable {touched : RunId → Prop} {s : Store} {clock : Date}

theorem createRun_moves {input : CreateRunInput} {seed goalVersion : String} (mine : touched (createId .run seed)) :
    Within (Moves touched (· ∈ [.created, .ledger .missions, .ledger .requirements, .journal .runCreated, .transition .running, .agentStatus .running, .ensured]))
      (createRun input seed goalVersion clock) s := by
  unfold createRun
  refine Yields.within ?_
  refine .seq (yields_insert rfl .nobody).plain fun _ s₁ _ => ?_
  refine .bind (yields_insertRun mine rfl rfl rfl rfl rfl rfl rfl rfl) fun _ s₂ _ coordinator => ?_
  have owned : Owned touched s₂ (.through .agents (createId .agent (seed ++ ":coordinator"))) :=
    (owned_iff coordinator rfl).mpr mine
  refine .seq (.forM trivial fun _ _ s₅ _ _ => (yields_insert rfl (.run mine)).plain) fun _ s₅ inserted => ?_
  refine .seq (yields_journal rfl mine) fun _ s₆ journaled => ?_
  refine .seq (yields_transitionRun mine) fun _ s₇ running => ?_
  refine .seq (yields_transitionAgent (running.owned (journaled.owned (inserted.owned owned)))) fun _ s₈ _ => ?_
  refine .seq (yields_ensureContinuation mine) fun _ s₉ _ => ?_
  refine .read readOnly_mustAgent fun _ _ => ?_
  refine .read readOnly_mustGoal fun _ _ => ?_
  exact .read readOnly_mustRun fun _ _ => .pure trivial

/-! Transitions and commands. -/

theorem transitionRun_moves {input : TransitionRunInput} (mine : touched input.runId) :
    Within (Moves touched (· ∈ [.transition input.target, .ensured])) (transitionRun input clock) s := by
  unfold transitionRun
  refine Yields.within ?_
  refine .read (.given fun _ => readOnly_assertRunLeaseInternal) fun _ _ => ?_
  refine .read readOnly_mustRun fun run got => ?_
  have home : touched run.id := mustRun_id got ▸ mine
  refine .read (.given fun _ => .require _ _) fun _ _ => ?_
  refine .seq (yields_transitionRun home) fun _ s₁ _ => ?_
  refine .seq (.onlyIf (fun _ => trivial) fun _ => yields_ensureContinuation home) fun _ s₂ _ => ?_
  exact readOnly_mustRun.plain

theorem pause_moves {runId : RunId} {expectedRevision : Option Nat} (mine : touched runId) :
    Within (Moves touched (· ∈ [.transition .paused, .ensured])) (pause runId expectedRevision clock) s := by
  unfold pause
  exact @transitionRun_moves touched s clock
    { expectedRevision := expectedRevision, runId := runId, target := ⟨.paused, by decide⟩ } mine

theorem cancel_moves {runId : RunId} {expectedRevision : Option Nat} (mine : touched runId) :
    Within (Moves touched (· ∈ [.transition .cancelled, .ensured])) (cancel runId expectedRevision clock) s := by
  unfold cancel
  exact @transitionRun_moves touched s clock
    { expectedRevision := expectedRevision, runId := runId, target := ⟨.cancelled, by decide⟩ } mine

theorem resume_moves {runId : RunId} {expectedRevision : Option Nat} (mine : touched runId) :
    Within (Moves touched (· ∈ [.transition .running, .transition .queued, .ensured]))
      (resume runId expectedRevision clock) s := by
  unfold resume
  refine .read readOnly_mustRun fun run _ => ?_
  split
  next => exact (transitionRun_moves mine).mono fun s' => Moves.mono fun k => by simp; tauto
  next => exact (transitionRun_moves mine).mono fun s' => Moves.mono fun k => by simp; tauto

theorem setGoalStatus_moves {input : SetGoalStatusInput} (mine : Owned touched s (.through .goals input.goalId)) :
    Within (Moves touched (· ∈ [.goalStatus input.target, .ensured])) (setGoalStatus input clock) s := by
  unfold setGoalStatus
  refine Yields.within ?_
  refine .read readOnly_mustRow fun row got => ?_
  obtain ⟨found, -⟩ := must_ok.mp got
  have same : row.id = input.goalId := (Keyed.find?_eq_some.mp found).2
  have home : touched row.runId := mine.found found rfl
  refine .read (.require _ _) fun _ versioned => ?_
  obtain ⟨version, -⟩ := require_ok.mp versioned
  refine .read (.require _ _) fun _ allowed => ?_
  obtain ⟨edge, -⟩ := require_ok.mp allowed
  refine (yields_goalStatus (fun _ => by exact ⟨rfl, rfl⟩) (by rw [same]; exact found) (fun other member => ?_) edge (.inl rfl) home home).pair
    fun _ s₁ _ _ => ?_
  · simp only [Bool.and_eq_true, beq_iff_eq]
    constructor
    · exact fun picked => Keyed.eq_of_key member (Keyed.find?_eq_some.mp found).1 picked.1
    · rintro rfl
      exact ⟨rfl, version⟩
  refine .seq (.onlyIf (fun _ => trivial) fun _ => yields_ensureContinuation home) fun _ s₂ _ => ?_
  exact readOnly_mustGoal.plain

theorem runCommand_moves {input : ExecuteCommandInput} {run : Run} {now ensuredAt : IsoTimestamp}
    (home : touched run.id) :
    Yields (Moves touched (· ∈ [.transition .paused, .transition .cancelled, .transition .running,
      .transition .queued, .ensured])) (runCommand input run now ensuredAt) s fun _ _ => True := by
  unfold runCommand
  split
  next => exact .seq (yields_transitionRun home) fun _ _ _ => readOnly_mustRun.plain
  next => exact .seq (yields_transitionRun home) fun _ _ _ => readOnly_mustRun.plain
  next =>
    refine .ite (fun _ => .pure trivial) fun _ => ?_
    have allowed : Allows (· ∈ [Kind.transition .paused, .transition .cancelled, .transition .running, .transition .queued, .ensured])
        (.transition (if run.status = .paused ∨ run.status = .waitingExternal then .running else .queued)) := ⟨by split <;> simp⟩
    refine .seq (yields_transitionRun home) fun _ _ _ => ?_
    refine .seq (.onlyIf (fun _ => trivial) fun _ => yields_ensureContinuation home) fun _ _ _ => ?_
    exact readOnly_mustRun.plain

theorem executeCommand_moves {input : ExecuteCommandInput} {ensured recorded : Date} (mine : touched input.runId) :
    Within (Moves touched (· ∈ [.ledger .commandReceipts, .transition .paused, .transition .cancelled,
      .transition .running, .transition .queued, .ensured])) (executeCommand input clock ensured recorded) s := by
  unfold executeCommand
  refine Yields.within ?_
  refine .read readOnly_selectRows fun prior _ => ?_
  split
  next => exact .pure trivial
  next =>
    refine .read readOnly_mustRun fun run got => ?_
    have home : touched run.id := mustRun_id got ▸ mine
    refine .seq ((runCommand_moves home).mono fun _ => Moves.mono fun _ => List.mem_cons_of_mem _) fun result s₁ _ => ?_
    exact .seq (yields_insert rfl (.run home)).plain fun _ _ _ => .pure trivial

theorem recordSteeringInput_moves {input : SteeringInput} (mine : touched input.runId) :
    Within (Moves touched (· ∈ [.journal .steeringReceived])) (recordSteeringInput input clock) s := by
  unfold recordSteeringInput
  exact Yields.within (yields_journal rfl mine)

theorem proposeCompletion_moves {input : ProposeCompletionInput} (mine : touched input.runId) :
    Within (Moves touched (· ∈ [.journal .validationFinished, .transition .completed])) (proposeCompletion input clock) s := by
  unfold proposeCompletion
  refine Yields.within ?_
  refine .read (.given fun _ => readOnly_assertRunLeaseInternal) fun _ _ => ?_
  refine .read readOnly_mustRun fun run got => ?_
  have home : touched run.id := mustRun_id got ▸ mine
  refine .read .get fun _ _ => ?_
  refine .seq (yields_journal rfl home) fun _ s₁ _ => ?_
  refine .seq (.onlyIf (fun _ => trivial) fun _ => ?_) fun _ s₂ _ => readOnly_mustRun.plain
  exact .read (.require _ _) fun _ _ => yields_transitionRun home

/-! Leases, events and locks. -/

theorem acquireLease_moves {input : AcquireLeaseInput} (mine : touched input.runId) :
    Within (Moves touched (· ∈ [.leases, .counters])) (acquireLease input clock) s := by
  unfold acquireLease
  refine .read (.expect _ _) fun expiry _ => ?_
  unfold takeLease
  refine Yields.within ?_
  refine .read readOnly_findRow fun existing _ => ?_
  refine .seq ?_ fun _ s₁ _ => ?_
  · unfold writeLease
    split
    next lease =>
      refine .read (.require _ _) fun _ _ => ?_
      exact yields_updateLeases fun row _ same => by simpa [eq_of_beq same] using mine
    next => exact yields_insertLease mine
  refine .seq (yields_counters (fun _ => by exact ⟨rfl, rfl, rfl, rfl⟩) fun row _ same => by simpa [eq_of_beq same] using mine).plain fun _ s₂ _ => ?_
  exact readOnly_mustLease.plain

theorem renewLease_moves {lease : FencedLease} {ttlMs : Int} (mine : touched lease.runId) :
    Within (Moves touched (· ∈ [.leases])) (renewLease lease ttlMs clock) s := by
  unfold renewLease extendLease
  refine Yields.within ?_
  refine .read readOnly_assertLeaseInternal fun _ _ => ?_
  refine .read (.expect _ _) fun expiry _ => ?_
  refine .seq (yields_updateLeases fun row _ chosen => ?_) fun _ s₁ _ => readOnly_mustLease.plain
  simp only [Bool.and_eq_true, beq_iff_eq] at chosen
  rw [chosen.1.1]
  exact mine

theorem appendFencedEvent_moves {input : AppendFencedEventInput} (mine : touched input.lease.runId) :
    Within (Moves touched (· ∈ [.event input.type])) (appendFencedEvent input clock) s := by
  unfold appendFencedEvent
  refine Yields.within ?_
  exact .read readOnly_assertLeaseInternal fun _ _ => yields_event mine

theorem appendFencedEvent_moves_of_plain {input : AppendFencedEventInput} (mine : touched input.lease.runId)
    (plain : input.type.isStatus = false) :
    Within (Moves touched (· ∈ [.journal input.type])) (appendFencedEvent input clock) s := by
  unfold appendFencedEvent
  refine Yields.within ?_
  exact .read readOnly_assertLeaseInternal fun _ _ => yields_journal plain mine

theorem acquireResourceLocks_moves {input : AcquireResourceLocksInput} :
    Within (Moves touched (· ∈ [.ledger .resourceLocks])) (acquireResourceLocks input clock) s := by
  unfold acquireResourceLocks
  refine .read (.expect _ _) fun expiry _ => ?_
  unfold lockScopes
  refine Yields.within ?_
  refine .seq (.given (fun _ => trivial) fun lease _ => ?_) fun _ s₁ _ => ?_
  · refine .read readOnly_assertLeaseInternal fun _ _ => ?_
    refine .read (.require _ _) fun _ _ => ?_
    exact yields_delete rfl fun _ _ _ => .nobody
  refine .seq (yields_delete rfl fun _ _ _ => .nobody) fun _ s₂ _ => ?_
  refine .read readOnly_selectRows fun existing _ => ?_
  refine .read (.forM fun _ => .require _ _) fun _ _ => ?_
  refine Yields.mapM trivial fun _ _ s₃ _ _ => ?_
  exact .seq (yields_insert rfl .nobody).plain fun _ _ _ => .pure trivial

theorem releaseResourceLocks_moves {executorId : String} {runId : RunId} {leaseGeneration : Nat} :
    Within (Moves touched (· ∈ [.ledger .resourceLocks])) (releaseResourceLocks executorId runId leaseGeneration) s :=
  Moves.one (by simp) (.ledger rfl) (.delete fun _ _ _ => .nobody)

end OttiliCoder
