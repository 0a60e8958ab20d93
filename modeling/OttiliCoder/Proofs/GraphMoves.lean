import OttiliCoder.Proofs.Steps

/-! The effects of the operations on the Task Graph and the Agent Graph. -/

namespace OttiliCoder
open Relational Transaction

variable {touched : RunId → Prop} {s : Store} {clock : Date}

/-! Tasks. -/

theorem claimTask_moves {input : ClaimTaskInput} (mine : touched input.lease.runId) :
    Within (Moves touched (· ∈ [.tasks, .journal .taskAssigned, .journal .taskStatusChanged])) (claimTask input clock) s := by
  unfold claimTask
  refine Yields.within ?_
  refine .read readOnly_assertLeaseInternal fun _ _ => ?_
  refine .read readOnly_mustTask fun task got => ?_
  refine .read (.require _ _) fun _ same => ?_
  have home : touched task.runId := (require_ok.mp same).1 ▸ mine
  have owned : Owned touched s (.through .tasks task.id) := by
    rw [mustTask_id got]
    exact (mustTask_owned got).mpr home
  refine .read readOnly_mustAgent fun agent _ => ?_
  refine .read (.require _ _) fun _ _ => ?_
  refine .read (.require _ _) fun _ _ => ?_
  refine .seq (yields_updateTasks (fun _ => by rfl) fun other member chosen => ?_).plain fun _ s₁ _ => ?_
  · simp only [Bool.and_eq_true, beq_iff_eq] at chosen
    exact owned.member member chosen.1.1 rfl
  refine .read readOnly_mustTask fun claimed _ => ?_
  refine .read (.require _ _) fun _ _ => ?_
  refine .seq (yields_journal rfl home) fun _ s₂ _ => ?_
  exact .seq (yields_journal rfl home) fun _ _ _ => .pure trivial

theorem addTaskEvidence_moves {input : AddTaskEvidenceInput} (mine : touched input.lease.runId) :
    Within (Moves touched (· ∈ [.ledger .taskEvidence])) (addTaskEvidence input clock) s := by
  unfold addTaskEvidence
  refine Yields.within ?_
  refine .read readOnly_assertLeaseInternal fun _ _ => ?_
  refine .read readOnly_mustTask fun task got => ?_
  refine .read (.require _ _) fun _ same => ?_
  have home : touched task.runId := (require_ok.mp same).1 ▸ mine
  exact yields_insertOrIgnore rfl ((mustTask_owned got).mpr home)

theorem createTask_moves {input : CreateTaskInput} {uuid : String} (mine : touched input.runId) :
    Within (Moves touched (· ∈ [.tasks, .ledger .taskDependencies, .ledger .taskRequirements, .ledger .taskResourceScopes, .journal .taskStatusChanged])) (createTask input uuid clock) s := by
  unfold createTask
  refine Yields.within ?_
  refine .read (.given fun _ => readOnly_assertLeaseOfRun) fun _ _ => ?_
  refine .bind (yields_insertTask mine) fun _ s₁ _ created => ?_
  obtain ⟨admitted, rfl⟩ := created
  have owned : Owned touched _ _ := .inserted admitted.fresh fun runId direct =>
    Option.some.inj direct ▸ mine
  refine .seq (.forM trivial fun dependency _ s₂ moved _ => ?_) fun _ s₂ linked => ?_
  · exact .plain (yields_insert rfl (moved.owned owned))
  refine .seq (.forM trivial fun requirementId _ s₃ moved _ => ?_) fun _ s₃ required => ?_
  · refine .read readOnly_findRow fun requirement _ => ?_
    refine .read (.require _ _) fun _ _ => ?_
    exact .plain (yields_insert rfl (moved.owned (linked.owned owned)))
  refine .seq (.forM trivial fun scope _ s₄ moved _ => ?_) fun _ s₄ _ => ?_
  · exact .plain (yields_insert rfl (moved.owned (required.owned (linked.owned owned))))
  exact .seq (yields_refreshTaskReadiness mine) fun _ s₅ _ => readOnly_mustTask.plain

theorem transitionTask_moves {input : TransitionTaskInput} (mine : Owned touched s (.through .tasks input.taskId)) :
    Within (Moves touched (· ∈ [.tasks, .journal .taskStatusChanged])) (transitionTask input clock) s := by
  unfold transitionTask
  refine Yields.within ?_
  refine .read (.given fun _ => readOnly_assertLeaseInternal) fun _ _ => ?_
  refine .read readOnly_mustTask fun task got => ?_
  have home : touched task.runId := (mustTask_owned got).mp mine
  refine .read (.given fun _ => .require _ _) fun _ _ => ?_
  refine .read (.require _ _) fun _ _ => ?_
  refine .seq (yields_updateTasks (fun _ => by rfl) fun other member same => ?_).plain fun _ s₁ _ => ?_
  · exact mine.member member ((eq_of_beq same).trans (mustTask_id got)) rfl
  refine .seq (yields_journal rfl home) fun _ s₂ _ => ?_
  exact .seq (yields_refreshTaskReadiness home) fun _ s₃ _ => readOnly_mustTask.plain

theorem recoverGraphWork_moves {lease : FencedLease} (mine : touched lease.runId) :
    Within (Moves touched (· ∈ [.tasks, .journal .taskRecovered, .agentStatus .recovering, .agentStatus .queued, .agentStamp])) (recoverGraphWork lease clock) s := by
  unfold recoverGraphWork
  refine Yields.within ?_
  refine .read readOnly_assertLeaseInternal fun _ _ => ?_
  refine .read readOnly_selectRows fun strandedTasks selected => ?_
  obtain ⟨rfl, -⟩ := select_ok.mp selected
  refine .seq (.forM trivial fun row member s₁ moved _ => ?_) fun _ s₁ _ => ?_
  · obtain ⟨member, chosen⟩ := List.mem_filter.mp member
    simp only [Bool.and_eq_true, beq_iff_eq] at chosen
    have owned : Owned touched s (.through .tasks row.id) := .of_member (t := .tasks) member fun runId direct =>
      Option.some.inj direct ▸ chosen.1.1 ▸ mine
    unfold recoverTask
    refine .seq (yields_updateTasks (fun _ => by rfl) fun other inside same => ?_).plain fun _ s₂ further => ?_
    · exact (moved.owned owned).member inside (eq_of_beq same) rfl
    refine .seq (yields_updateTasks (fun _ => by rfl) fun other inside same => ?_).plain fun _ s₃ _ => ?_
    · exact (further.owned (moved.owned owned)).member inside (eq_of_beq same) rfl
    exact .seq (yields_journal rfl mine) fun _ _ _ => .pure trivial
  refine .read readOnly_selectRows fun strandedAgents selected => ?_
  obtain ⟨rfl, -⟩ := select_ok.mp selected
  refine .seq (.forM trivial fun row member s₂ moved _ => ?_) fun _ s₂ _ => .pure trivial
  obtain ⟨member, chosen⟩ := List.mem_filter.mp member
  simp only [Bool.and_eq_true, beq_iff_eq] at chosen
  have owned : Owned touched s₁ (.through .agents row.id) := .of_member (t := .agents) member fun runId direct =>
    Option.some.inj direct ▸ chosen.1.1 ▸ mine
  unfold recoverAgent
  refine .seq (yields_transitionAgent (moved.owned owned)) fun _ s₃ recovering => ?_
  refine .seq (yields_transitionAgent (recovering.owned (moved.owned owned))) fun _ s₄ queued => ?_
  refine yields_stampAgents (fun _ => by exact ⟨rfl, rfl⟩) fun other inside same => ?_
  exact (queued.owned (recovering.owned (moved.owned owned))).member inside (eq_of_beq same) rfl

/-! Agents. -/

private theorem leased_owned {agentId : AgentId} {lease : FencedLease} {message : String} {agent : Agent}
    (mine : touched lease.runId) (got : mustAgentOfLease agentId lease message s = .ok agent s) :
    Owned touched s (.through .agents agentId) := by
  obtain ⟨row, found, same, -⟩ := mustAgentOfLease_ok.mp got
  exact (owned_iff found rfl).mpr (same ▸ mine)

theorem markAgentActive_moves {input : MarkAgentActiveInput} (mine : touched input.lease.runId) :
    Within (Moves touched (· ∈ [.agentStamp])) (markAgentActive input clock) s := by
  unfold markAgentActive
  refine Yields.within ?_
  refine .read readOnly_assertLeaseInternal fun _ _ => ?_
  refine .read readOnly_mustAgentOfLease fun agent got => ?_
  exact yields_stampAgents (fun _ => by exact ⟨rfl, rfl⟩) fun row member same => (leased_owned mine got).member member (eq_of_beq same) rfl

theorem spawnAgent_moves {input : SpawnAgentInput} {uuid : String} (mine : touched input.runId) :
    Within (Moves touched (· ∈ [.spawned, .ledger .agentEdges, .agentStamp, .event .agentStatusChanged])) (spawnAgent input uuid clock) s := by
  unfold spawnAgent
  refine Yields.within ?_
  refine .read (.given fun _ => readOnly_assertLeaseOfRun) fun _ _ => ?_
  refine .read (.given fun _ => readOnly_mustAgent.bind fun _ => .require _ _) fun _ _ => ?_
  refine .bind (yields_spawn rfl mine) fun _ s₁ _ created => ?_
  obtain ⟨admitted, rfl⟩ := created
  have owned : Owned touched _ _ := .inserted admitted.fresh fun runId direct =>
    Option.some.inj direct ▸ mine
  refine .seq (.given (fun _ => trivial) fun parent _ => (yields_insert rfl owned).plain) fun _ s₂ edged => ?_
  refine .seq (.given (fun _ => trivial) fun lease _ => ?_) fun _ s₃ _ => ?_
  · exact yields_stampAgents (fun _ => by exact ⟨rfl, rfl⟩) fun row member same => (edged.owned owned).member member (eq_of_beq same) rfl
  exact .seq (yields_event mine) fun _ s₄ _ => readOnly_mustAgent.plain

theorem transitionAgent_moves {input : TransitionAgentInput} (mine : Owned touched s (.through .agents input.agentId)) :
    Within (Moves touched (· ∈ [.agentStatus input.target, .agentStamp])) (transitionAgent input clock) s := by
  unfold transitionAgent
  refine Yields.within ?_
  refine .read (.given fun _ => readOnly_assertLeaseInternal.bind fun _ =>
    readOnly_mustAgentOfLease.bind fun _ => .pure _) fun _ _ => ?_
  refine .seq (yields_transitionAgent mine) fun _ s₁ moved => ?_
  refine .seq (.given (fun _ => trivial) fun lease _ => ?_) fun _ _ _ => .pure trivial
  exact yields_stampAgents (fun _ => by exact ⟨rfl, rfl⟩) fun row member same => (moved.owned mine).member member (eq_of_beq same) rfl

theorem setAgentWorktree_moves {input : SetAgentWorktreeInput} (mine : touched input.lease.runId) :
    Within (Moves touched (· ∈ [.agentStamp, .journal .agentWorktreeAssigned])) (setAgentWorktree input clock) s := by
  unfold setAgentWorktree
  refine Yields.within ?_
  refine .read readOnly_assertLeaseInternal fun _ _ => ?_
  refine .read readOnly_mustAgentOfLease fun agent got => ?_
  refine .read (.require _ _) fun _ _ => ?_
  refine .seq (yields_stampAgents (fun _ => by exact ⟨rfl, rfl⟩) fun row member same => ?_) fun _ s₁ _ => ?_
  · exact (leased_owned mine got).member member (eq_of_beq same) rfl
  exact .seq (yields_journal rfl mine) fun _ s₂ _ => readOnly_mustAgent.plain

/-! Messages and session epochs. -/

theorem sendAgentMessage_moves {input : SendAgentMessageInput} {uuid : String} (mine : touched input.lease.runId) :
    Within (Moves touched (· ∈ [.ledger .agentMessages, .journal .agentMessageSent])) (sendAgentMessage input uuid clock) s := by
  unfold sendAgentMessage
  refine Yields.within ?_
  refine .read readOnly_assertLeaseInternal fun _ _ => ?_
  refine .read readOnly_mustAgentOfLease fun _ _ => ?_
  refine .read (.given fun _ => readOnly_mustAgentOfLease.bind fun _ => .pure _) fun _ _ => ?_
  refine .seq (yields_insert rfl (.run mine)).plain fun _ s₁ _ => ?_
  exact .seq (yields_journal rfl mine) fun _ s₂ _ => readOnly_mustRow.plain

theorem mem_limitRows {α : Type} {limit : Int} {rows : List α} {row : α} (member : row ∈ limitRows limit rows) :
    row ∈ rows := by
  unfold limitRows at member
  split at member
  next => exact member
  next => exact List.mem_of_mem_take member

theorem receiveAgentMessages_moves {input : ReceiveAgentMessagesInput} (mine : touched input.lease.runId) :
    Within (Moves touched (· ∈ [.ledger .agentMessages, .journal .agentMessageDelivered])) (receiveAgentMessages input clock) s := by
  unfold receiveAgentMessages
  refine Yields.within ?_
  refine .read readOnly_assertLeaseInternal fun _ _ => ?_
  refine .read readOnly_selectRows fun rows selected => ?_
  obtain ⟨rfl, -⟩ := select_ok.mp selected
  refine .seq (.forM trivial fun message member s₁ moved _ => ?_) fun _ _ _ => .pure trivial
  obtain ⟨inside, chosen⟩ := List.mem_filter.mp ((List.mem_insertionSort _).mp (mem_limitRows member))
  simp only [Bool.and_eq_true, beq_iff_eq] at chosen
  have owned : Owned touched s (.through .agentMessages message.id) :=
    .of_member (t := .agentMessages) inside fun runId direct => Option.some.inj direct ▸ chosen.1.2 ▸ mine
  refine .seq (yields_update rfl (fun _ => by rfl) fun other member same => ?_) fun _ s₂ _ => ?_
  · exact .run ((moved.owned owned).member member (eq_of_beq same) rfl)
  exact .seq (yields_journal rfl mine) fun _ _ _ => .pure trivial

theorem startSessionEpoch_moves {input : StartSessionEpochInput}
    (mine : Owned touched s (.through .agents input.agentId)) :
    Within (Moves touched (· ∈ [.ledger .sessionEpochs])) (startSessionEpoch input clock) s := by
  unfold startSessionEpoch
  refine Yields.within ?_
  refine .read readOnly_mustAgent fun agent got => ?_
  have same : agent.id = input.agentId := mustAgent_id got
  refine .read (.given fun _ => (ReadOnly.require _ _).bind fun _ => readOnly_assertLeaseInternal) fun _ _ => ?_
  refine .read readOnly_selectRows fun epochs _ => ?_
  exact .seq (yields_insert rfl (same ▸ mine)).plain fun _ s₁ _ => readOnly_mustRow.plain

theorem endSessionEpoch_moves {input : EndSessionEpochInput}
    (mine : ∀ runId, epochRun s input.id = some runId → touched runId) :
    Within (Moves touched (· ∈ [.ledger .sessionEpochs])) (endSessionEpoch input clock) s := by
  unfold endSessionEpoch
  refine Yields.within ?_
  refine .read (.given fun _ => ReadOnly.get.bind fun _ => (ReadOnly.require _ _).bind fun _ =>
    readOnly_assertLeaseInternal) fun _ _ => ?_
  refine .seq (yields_update rfl (fun _ => by rfl) fun row member chosen => ?_) fun _ s₁ _ => readOnly_mustRow.plain
  simp only [Bool.and_eq_true, beq_iff_eq] at chosen
  exact epoch_owned (chosen.1 ▸ mine) member

end OttiliCoder
