import OttiliCoder.Proofs.Frames
import OttiliCoder.Proofs.Steps

/-! The effects of the operations on the ledger of a Run. -/

namespace OttiliCoder
open Relational Transaction

variable {touched : RunId → Prop} {s : Store} {clock : Date} {uuid : String}

/-! Requirements, evidence and validations. -/

theorem addRequirement_moves {input : AddRequirementInput} (mine : touched input.runId) :
    Within (Moves touched (· ∈ [.ledger .requirements])) (addRequirement input uuid clock) s := by
  unfold addRequirement
  refine Yields.within ?_
  refine .read (.given fun _ => readOnly_assertLeaseOfRun) fun _ _ => ?_
  refine .read readOnly_findRow fun existing _ => ?_
  refine .seq (.onlyIf (fun _ => trivial) fun _ => .plain (yields_insert rfl (.run mine))) fun _ s₁ _ => ?_
  exact .read .get fun _ _ => (ReadOnly.expect _ _).plain

theorem addEvidence_moves {input : AddEvidenceInput} (mine : touched input.runId)
    (requirement : Owned touched s (.through .requirements input.requirementId)) :
    Within (Moves touched (· ∈ [.ledger .evidence, .ledger .taskEvidence, .ledger .evidenceArtifacts, .ledger .requirements])) (addEvidence input uuid clock) s := by
  unfold addEvidence
  refine Yields.within ?_
  refine .read (.given fun _ => readOnly_assertLeaseOfRun) fun _ _ => ?_
  refine .bind (yields_insert rfl (.either mine requirement)) fun _ s₁ _ inserted => ?_
  obtain ⟨admitted, rfl⟩ := inserted
  have owned : Owned touched _ _ := .inserted admitted.fresh fun runId direct =>
    Option.some.inj direct ▸ mine
  refine .seq (.given (fun _ => trivial) fun taskId _ => ?_) fun _ s₂ linked => ?_
  · refine .read readOnly_mustTask fun task got => ?_
    refine .read (.require _ _) fun _ same => ?_
    have home : touched task.runId := (require_ok.mp same).1 ▸ mine
    exact yields_insertOrIgnore rfl ((mustTask_owned got).mpr home)
  refine .seq (.forM trivial fun artifactId _ s₃ moved _ => ?_) fun _ s₃ _ => ?_
  · refine .read readOnly_mustRow fun artifact _ => ?_
    refine .read (.require _ _) fun _ _ => ?_
    exact yields_insertOrIgnore rfl (moved.owned (linked.owned owned))
  refine .seq (yields_update rfl (fun _ => by rfl) fun row _ chosen => ?_) fun _ s₄ _ => .pure trivial
  simp only [Bool.and_eq_true, beq_iff_eq] at chosen
  exact .run (chosen.2 ▸ mine)

theorem setRequirementStatus_moves {input : SetRequirementStatusInput} {updated : Date} (mine : touched input.runId) :
    Within (Moves touched (· ∈ [.ledger .requirements])) (setRequirementStatus input clock updated) s := by
  unfold setRequirementStatus
  refine Yields.within ?_
  refine .read (.given fun _ => readOnly_assertLeaseOfRun) fun _ _ => ?_
  refine .read (.onlyIf (readOnly_selectRows.bind fun _ => .require _ _)) fun _ _ => ?_
  refine yields_update rfl (fun _ => by rfl) fun row _ chosen => ?_
  simp only [Bool.and_eq_true, beq_iff_eq] at chosen
  exact .run (chosen.2 ▸ mine)

theorem recordValidation_moves {input : RecordValidationInput} (mine : touched input.runId) :
    Within (Moves touched (· ∈ [.ledger .validations, .journal .validationFinished])) (recordValidation input uuid clock) s := by
  unfold recordValidation
  refine Yields.within ?_
  refine .read (.given fun _ => readOnly_assertRunLeaseInternal) fun _ _ => ?_
  refine .seq (yields_insert rfl (.run mine)).plain fun _ s₁ _ => ?_
  refine .read (.given fun _ => readOnly_mustTask.bind fun _ => .require _ _) fun _ _ => ?_
  exact .seq (yields_journal rfl mine) fun _ _ _ => .pure trivial

/-! Approvals and problems. -/

theorem requestApproval_moves {input : RequestApprovalInput} (mine : touched input.runId) :
    Within (Moves touched (· ∈ [.ledger .approvals, .journal .approvalRequested])) (requestApproval input uuid clock) s := by
  unfold requestApproval
  refine Yields.within ?_
  refine .read (.given fun _ => readOnly_assertRunLeaseInternal) fun _ _ => ?_
  refine .seq (yields_insert rfl (.run mine)).plain fun _ s₁ _ => ?_
  exact .seq (yields_journal rfl mine) fun _ s₂ _ => readOnly_mustApproval.plain

theorem resolveApproval_moves {input : ResolveApprovalInput}
    (mine : Owned touched s (.through .approvals input.approvalId)) :
    Within (Moves touched (· ∈ [.ledger .approvals, .journal .approvalResolved, .transition .running, .ensured]))
      (resolveApproval input clock) s := by
  unfold resolveApproval
  refine Yields.within ?_
  refine .read readOnly_mustApproval fun approval got => ?_
  obtain ⟨found, -⟩ := mustApproval_ok.mp got
  have home : touched approval.runId := mine.found found rfl
  refine .read (.require _ _) fun _ _ => ?_
  refine .seq (yields_update rfl (fun _ => by rfl) fun row member chosen => ?_) fun _ s₁ _ => ?_
  · simp only [Bool.and_eq_true, beq_iff_eq] at chosen
    exact .run (mine.member member chosen.1 rfl)
  refine .seq (yields_journal rfl home) fun _ s₂ _ => ?_
  refine .read readOnly_selectRows fun pending _ => ?_
  refine .read readOnly_mustRun fun run _ => ?_
  refine .seq (.onlyIf (fun _ => trivial) fun _ => ?_) fun _ s₃ _ => readOnly_mustApproval.plain
  exact .seq (yields_transitionRun home) fun _ _ _ => yields_ensureContinuation home

private theorem yields_openProblem {input : RecordProblemInput} {kinds : Kind → Prop} {stored : List ProblemRow}
    {now : IsoTimestamp} (mine : touched input.runId)
    (inside : ∀ row ∈ stored, row ∈ s .problems ∧ row.runId = input.runId)
    [Allows kinds (.ledger .problems)] :
    Yields (Moves touched kinds) (openProblem input stored now) s fun _ s' =>
      Owned touched s' (.through .problems (problemId stored input.runId input.fingerprint)) := by
  unfold openProblem
  refine .onlyIf (fun present => ?_) fun _ => ?_
  · cases stored with
    | nil => simp at present
    | cons row rest =>
      obtain ⟨member, same⟩ := inside row (by simp)
      exact .of_member (t := .problems) member fun runId direct => Option.some.inj direct ▸ same ▸ mine
  · refine (yields_insert rfl (.run mine)).weaken fun _ s' _ inserted => ?_
    obtain ⟨admitted, rfl⟩ := inserted
    exact .inserted admitted.fresh fun runId direct => Option.some.inj direct ▸ mine

theorem recordProblem_moves {input : RecordProblemInput} (mine : touched input.runId)
    (goals : ∀ run goalId, (s .runs).find? input.runId = some run → run.currentGoalId = some goalId →
      Owned touched s (.through .goals goalId)) :
    Within (Moves touched (· ∈ [.ledger .problems, .ledger .problemObservations, .ledger .taskProblems, .goalStatus .blocked, .transition .blocked]))
      (recordProblem input uuid clock) s := by
  unfold recordProblem
  refine Yields.within ?_
  refine .read readOnly_selectRows fun stored selected => ?_
  obtain ⟨rfl, -⟩ := select_ok.mp selected
  refine .bind (yields_openProblem mine fun row member => ?_) fun _ s₁ opened owned => ?_
  · obtain ⟨member, chosen⟩ := List.mem_filter.mp member
    simp only [Bool.and_eq_true, beq_iff_eq] at chosen
    exact ⟨member, chosen.1⟩
  refine .seq (yields_insert rfl owned).plain fun _ s₂ observed => ?_
  refine .seq (.given (fun _ => trivial) fun taskId _ => ?_) fun _ s₃ linked => ?_
  · refine .read readOnly_mustTask fun task got => ?_
    refine .read (.require _ _) fun _ same => ?_
    have home : touched task.runId := (require_ok.mp same).1 ▸ mine
    exact yields_insertOrIgnore rfl ((mustTask_owned got).mpr home)
  refine .read readOnly_selectRows fun observations _ => ?_
  refine .seq (yields_update rfl (fun _ => by rfl) fun row member same => ?_) fun _ s₄ updated => ?_
  · exact .run ((linked.owned (observed.owned owned)).member member (eq_of_beq same) rfl)
  refine .seq (.onlyIf (fun _ => trivial) fun _ => yields_blockRun mine fun run goalId found current => ?_)
    fun _ s₅ _ => readOnly_mustRow.plain
  have moved := IsTrans.trans _ _ _ opened (IsTrans.trans _ _ _ observed (IsTrans.trans _ _ _ linked updated))
  obtain ⟨first, stored, same⟩ := moved.currentGoal (by simp) found
  exact moved.owned (goals first goalId stored (same.trans current))

/-! Records of an executor. -/

theorem createMilestone_moves {input : CreateMilestoneInput} (mine : touched input.runId) :
    Within (Moves touched (· ∈ [.ledger .milestones, .ledger .milestoneTasks])) (createMilestone input uuid clock) s := by
  unfold createMilestone
  refine Yields.within ?_
  refine .read readOnly_assertRunLeaseInternal fun _ _ => ?_
  refine .read (.forM fun _ => readOnly_mustTask.bind fun _ => .require _ _) fun _ _ => ?_
  refine .bind (yields_insert rfl (.run mine)) fun _ s₁ _ inserted => ?_
  obtain ⟨admitted, rfl⟩ := inserted
  have owned : Owned touched _ _ := .inserted admitted.fresh fun runId direct =>
    Option.some.inj direct ▸ mine
  refine .seq (.forM trivial fun taskId _ s₂ moved _ => ?_) fun _ s₂ _ => readOnly_mustRow.plain
  exact .plain (yields_insert rfl (moved.owned owned))

theorem recordDecision_moves {input : RecordDecisionInput} (mine : touched input.runId) :
    Within (Moves touched (· ∈ [.ledger .decisions])) (recordDecision input uuid clock) s := by
  unfold recordDecision
  refine .read readOnly_assertRunLeaseInternal fun _ _ => ?_
  exact .bind (within_insert rfl (.run mine)) fun _ s₁ _ => readOnly_mustRow.within

theorem addArtifact_moves {input : AddArtifactInput} {checked : Date} (mine : touched input.runId) :
    Within (Moves touched (· ∈ [.ledger .artifacts])) (addArtifact input uuid clock checked) s := by
  unfold addArtifact
  refine .read (.require _ _) fun _ _ => ?_
  refine .read readOnly_assertRunLeaseInternal fun _ _ => ?_
  exact .bind (within_insert rfl (.run mine)) fun _ s₁ _ => readOnly_mustRow.within

theorem recordGitChange_moves {input : RecordGitChangeInput} (mine : touched input.runId) :
    Within (Moves touched (· ∈ [.ledger .gitChanges])) (recordGitChange input uuid clock) s := by
  unfold recordGitChange
  refine .read readOnly_assertRunLeaseInternal fun _ _ => ?_
  exact .bind (within_insert rfl (.run mine)) fun _ s₁ _ => readOnly_mustRow.within

theorem recordCost_moves {input : RecordCostInput} (mine : touched input.runId) :
    Within (Moves touched (· ∈ [.ledger .costRecords])) (recordCost input uuid clock) s := by
  unfold recordCost
  refine .read (.require _ _) fun _ _ => ?_
  refine Yields.within ?_
  refine .read (.given fun _ => readOnly_assertRunLeaseInternal) fun _ _ => ?_
  refine .read readOnly_selectRows fun existing _ => ?_
  split
  next => exact readOnly_mustRow.plain
  next => exact .seq (yields_insert rfl (.run mine)).plain fun _ s₁ _ => readOnly_mustRow.plain

theorem setRecoveryState_moves {input : SetRecoveryStateInput} (mine : touched input.runId) :
    Within (Moves touched (· ∈ [.ledger .recoveryStates])) (setRecoveryState input clock) s := by
  unfold setRecoveryState
  refine .read readOnly_assertRunLeaseInternal fun _ _ => ?_
  refine .bind ?_ fun _ s₁ _ => ?_
  · unfold upsertRecoveryState
    refine .read .get fun _ _ => ?_
    split
    next =>
      refine .read (.require _ _) fun _ _ => ?_
      refine Moves.one (by simp) (.ledger rfl) (.update (fun row _ same => ?_) fun _ => rfl)
      exact .run (eq_of_beq same ▸ mine)
    next => exact within_insert rfl (.run mine)
  exact .read readOnly_selectRows fun _ _ => (ReadOnly.expect _ _).within

theorem createContextSnapshot_moves {input : CreateContextSnapshotInput} (mine : touched input.runId)
    (epoch : ∀ id runId, input.sessionEpochId = some id → epochRun s id = some runId → touched runId) :
    Within (Moves touched (· ∈ [.ledger .contextSnapshots, .ledger .sessionEpochs])) (createContextSnapshot input uuid clock) s := by
  unfold createContextSnapshot
  refine .read (.require _ _) fun _ _ => ?_
  refine Yields.within ?_
  refine .read (.given fun _ => readOnly_assertRunLeaseInternal) fun _ _ => ?_
  refine .bind (yields_insert rfl (.run mine)) fun _ s₁ _ inserted => ?_
  obtain ⟨-, rfl⟩ := inserted
  refine .seq (.given (fun _ => trivial) fun id given => ?_) fun _ s₂ _ => readOnly_mustRow.plain
  refine yields_update rfl (fun _ => by rfl) fun row member same => ?_
  have chosen : row.id = id := eq_of_beq same
  refine epoch_owned (fun runId home => epoch row.id runId (chosen ▸ given) ?_) member
  simpa [epochRun] using home

theorem addMemoryEntry_moves {input : AddMemoryEntryInput} {checked : Date} (mine : touched input.runId) :
    Within (Moves touched (· ∈ [.ledger .memoryEntries])) (addMemoryEntry input uuid clock checked) s := by
  unfold addMemoryEntry
  refine .read (.require _ _) fun _ _ => ?_
  refine .read (.given fun _ => readOnly_assertRunLeaseInternal) fun _ _ => ?_
  exact .bind (within_insert rfl (.run mine)) fun _ s₁ _ => readOnly_mustRow.within

end OttiliCoder
