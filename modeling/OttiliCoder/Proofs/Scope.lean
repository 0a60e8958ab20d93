import OttiliCoder.Proofs.GraphMoves
import OttiliCoder.Proofs.LedgerMoves
import OttiliCoder.Proofs.RunMoves
import OttiliCoder.Proofs.ScheduleMoves

/-! The scope of a call: the Runs whose rows it can write and the kinds of effects
it is made of. -/

namespace OttiliCoder
open Relational Transaction

/-- The Run the row under a key belongs to. -/
def rowRun (s : Store) (t : Table) (k : Key t) : Option RunId := ((s t).find? k).bind fun row => (owner t row).direct

def currentGoalRun (s : Store) (runId : RunId) : Option RunId :=
  ((s .runs).find? runId).bind fun run => run.currentGoalId.bind (rowRun s .goals)

def dueRuns (s : Store) (now : IsoTimestamp) : List RunId :=
  ((s .wakeConditions).rows.filter fun row => row.status == .pending && row.wakeAt ≤ now).map (·.runId)

namespace Call

/-- The Runs whose rows a call can write. -/
def concerns (s : Store) : Call → List RunId
  | createRun _ seed _ _ => [createId .run seed]
  | transitionRun input _ => [input.runId]
  | setGoalStatus input _ => (rowRun s .goals input.goalId).toList
  | pause runId _ _ | resume runId _ _ | cancel runId _ _ => [runId]
  | executeCommand input _ _ _ => [input.runId]
  | recordSteeringInput input _ => [input.runId]
  | proposeCompletion input _ => [input.runId]
  | acquireLease input _ => [input.runId]
  | renewLease lease _ _ => [lease.runId]
  | appendFencedEvent input _ => [input.lease.runId]
  | acquireResourceLocks _ _ | releaseResourceLocks _ _ _ => []
  | claimTask input _ => [input.lease.runId]
  | addTaskEvidence input _ => [input.lease.runId]
  | createTask input _ _ => [input.runId]
  | transitionTask input _ => (rowRun s .tasks input.taskId).toList
  | recoverGraphWork lease _ => [lease.runId]
  | markAgentActive input _ => [input.lease.runId]
  | spawnAgent input _ _ => [input.runId]
  | transitionAgent input _ => (rowRun s .agents input.agentId).toList
  | setAgentWorktree input _ => [input.lease.runId]
  | sendAgentMessage input _ _ => [input.lease.runId]
  | receiveAgentMessages input _ => [input.lease.runId]
  | startSessionEpoch input _ => (rowRun s .agents input.agentId).toList
  | endSessionEpoch input _ => (epochRun s input.id).toList
  | addRequirement input _ _ => [input.runId]
  | addEvidence input _ _ => input.runId :: (rowRun s .requirements input.requirementId).toList
  | setRequirementStatus input _ _ => [input.runId]
  | recordValidation input _ _ => [input.runId]
  | requestApproval input _ _ => [input.runId]
  | resolveApproval input _ => (rowRun s .approvals input.approvalId).toList
  | recordProblem input _ _ => input.runId :: (currentGoalRun s input.runId).toList
  | createMilestone input _ _ => [input.runId]
  | recordDecision input _ _ => [input.runId]
  | addArtifact input _ _ _ => [input.runId]
  | recordGitChange input _ _ => [input.runId]
  | recordCost input _ _ => [input.runId]
  | setRecoveryState input _ => [input.runId]
  | createContextSnapshot input _ _ => input.runId :: (input.sessionEpochId.bind (epochRun s)).toList
  | addMemoryEntry input _ _ _ => [input.runId]
  | recordUsage runId _ _ => [runId]
  | recordUsageFenced lease _ _ _ => [lease.runId]
  | recordToolIntent input _ _ => [input.lease.runId]
  | completeToolCall input _ => [input.lease.runId]
  | reconcileInterruptedToolCalls runId _ => [runId]
  | recoverClaimedWork lease _ => [lease.runId]
  | createCheckpoint input _ _ => [input.runId]
  | recordCheckpointRestore input _ => [input.runId]
  | scheduleWake input _ _ => [input.runId]
  | wakeDueRuns clock => dueRuns s clock.toISOString
  | claimContinuation lease _ => lease.runId :: (currentGoalRun s lease.runId).toList
  | settleContinuation input _ => [input.lease.runId]

def kinds : Call → List Kind
  | createRun _ _ _ _ =>
    [.created, .ledger .missions, .ledger .requirements, .journal .runCreated, .transition .running,
      .agentStatus .running, .ensured]
  | transitionRun input _ => [.transition input.target, .ensured]
  | setGoalStatus input _ => [.goalStatus input.target, .ensured]
  | pause _ _ _ => [.transition .paused, .ensured]
  | resume _ _ _ => [.transition .running, .transition .queued, .ensured]
  | cancel _ _ _ => [.transition .cancelled, .ensured]
  | executeCommand _ _ _ _ =>
    [.ledger .commandReceipts, .transition .paused, .transition .cancelled, .transition .running,
      .transition .queued, .ensured]
  | recordSteeringInput _ _ => [.journal .steeringReceived]
  | proposeCompletion _ _ => [.journal .validationFinished, .transition .completed]
  | acquireLease _ _ => [.leases, .counters]
  | renewLease _ _ _ => [.leases]
  | appendFencedEvent input _ => if input.type.isStatus then [.event input.type] else [.journal input.type]
  | acquireResourceLocks _ _ | releaseResourceLocks _ _ _ => [.ledger .resourceLocks]
  | claimTask _ _ => [.tasks, .journal .taskAssigned, .journal .taskStatusChanged]
  | addTaskEvidence _ _ => [.ledger .taskEvidence]
  | createTask _ _ _ =>
    [.tasks, .ledger .taskDependencies, .ledger .taskRequirements, .ledger .taskResourceScopes,
      .journal .taskStatusChanged]
  | transitionTask _ _ => [.tasks, .journal .taskStatusChanged]
  | recoverGraphWork _ _ =>
    [.tasks, .journal .taskRecovered, .agentStatus .recovering, .agentStatus .queued, .agentStamp]
  | markAgentActive _ _ => [.agentStamp]
  | spawnAgent _ _ _ => [.spawned, .ledger .agentEdges, .agentStamp, .event .agentStatusChanged]
  | transitionAgent input _ => [.agentStatus input.target, .agentStamp]
  | setAgentWorktree _ _ => [.agentStamp, .journal .agentWorktreeAssigned]
  | sendAgentMessage _ _ _ => [.ledger .agentMessages, .journal .agentMessageSent]
  | receiveAgentMessages _ _ => [.ledger .agentMessages, .journal .agentMessageDelivered]
  | startSessionEpoch _ _ | endSessionEpoch _ _ => [.ledger .sessionEpochs]
  | addRequirement _ _ _ | setRequirementStatus _ _ _ => [.ledger .requirements]
  | addEvidence _ _ _ =>
    [.ledger .evidence, .ledger .taskEvidence, .ledger .evidenceArtifacts, .ledger .requirements]
  | recordValidation _ _ _ => [.ledger .validations, .journal .validationFinished]
  | requestApproval _ _ _ => [.ledger .approvals, .journal .approvalRequested]
  | resolveApproval _ _ => [.ledger .approvals, .journal .approvalResolved, .transition .running, .ensured]
  | recordProblem _ _ _ =>
    [.ledger .problems, .ledger .problemObservations, .ledger .taskProblems, .goalStatus .blocked,
      .transition .blocked]
  | createMilestone _ _ _ => [.ledger .milestones, .ledger .milestoneTasks]
  | recordDecision _ _ _ => [.ledger .decisions]
  | addArtifact _ _ _ _ => [.ledger .artifacts]
  | recordGitChange _ _ _ => [.ledger .gitChanges]
  | recordCost _ _ _ => [.ledger .costRecords]
  | setRecoveryState _ _ => [.ledger .recoveryStates]
  | createContextSnapshot _ _ _ => [.ledger .contextSnapshots, .ledger .sessionEpochs]
  | addMemoryEntry _ _ _ _ => [.ledger .memoryEntries]
  | recordUsage _ _ _ => [.counters, .transition .budgetLimited]
  | recordUsageFenced _ _ _ _ => [.ledger .usageEntries, .counters, .transition .budgetLimited]
  | recordToolIntent _ _ _ =>
    [.ledger .approvals, .ledger .toolCalls, .journal .approvalResolved, .journal .toolCallStarted, .counters,
      .transition .budgetLimited]
  | completeToolCall _ _ => [.ledger .toolCalls, .journal .toolCallFinished]
  | reconcileInterruptedToolCalls _ _ => [.ledger .toolCalls, .journal .recoveryRequired]
  | recoverClaimedWork _ _ => [.claimed, .ledger .toolCalls, .journal .recoveryRequired]
  | createCheckpoint _ _ _ => [.ledger .checkpoints, .journal .checkpointCreated]
  | recordCheckpointRestore _ _ => [.journal .checkpointRestored]
  | scheduleWake _ _ _ => [.ledger .wakeConditions, .transition .waitingExternal]
  | wakeDueRuns _ => [.ledger .wakeConditions, .transition .running, .ensured]
  | claimContinuation _ _ => [.claimed, .goalCounter]
  | settleContinuation _ _ => [.settled, .ensured]

end Call

section Scope
variable {s : Store} {call : Call} {touched : RunId → Prop}

theorem rowRun_owned {t : Table} {k : Key t} (mine : ∀ runId ∈ (rowRun s t k).toList, touched runId) :
    Owned touched s (.through t k) :=
  .through fun row runId found direct => mine runId (by simp [rowRun, found, direct])

private theorem currentGoal_owned {runId : RunId}
    (mine : ∀ other ∈ (currentGoalRun s runId).toList, touched other) (run : RunRow) (goalId : GoalId)
    (found : (s .runs).find? runId = some run) (current : run.currentGoalId = some goalId) :
    Owned touched s (.through .goals goalId) :=
  rowRun_owned fun other member => mine other (by simpa [currentGoalRun, found, current] using member)

/-- A call is made of the effects of its kinds, reported under the Runs it concerns. -/
theorem Call.moves (s : Store) (call : Call) :
    Moves (· ∈ call.concerns s) (· ∈ call.kinds) s (call.perform s) := by
  cases call with
  | createRun _ _ _ _ => exact (createRun_moves (by simp [concerns])).map _
  | transitionRun _ _ => exact (transitionRun_moves (by simp [concerns])).map _
  | setGoalStatus _ _ => exact (setGoalStatus_moves (rowRun_owned fun _ => id)).map _
  | pause _ _ _ => exact (pause_moves (by simp [concerns])).map _
  | resume _ _ _ => exact (resume_moves (by simp [concerns])).map _
  | cancel _ _ _ => exact (cancel_moves (by simp [concerns])).map _
  | executeCommand _ _ _ _ => exact (executeCommand_moves (by simp [concerns])).map _
  | recordSteeringInput _ _ => exact (recordSteeringInput_moves (by simp [concerns])).map _
  | proposeCompletion _ _ => exact (proposeCompletion_moves (by simp [concerns])).map _
  | acquireLease _ _ => exact (acquireLease_moves (by simp [concerns])).map _
  | renewLease _ _ _ => exact (renewLease_moves (by simp [concerns])).map _
  | appendFencedEvent input _ =>
    by_cases status : input.type.isStatus
    · simp only [kinds, status, if_true]
      exact (appendFencedEvent_moves (by simp [concerns])).map _
    · simp only [kinds, status]
      exact (appendFencedEvent_moves_of_plain (by simp [concerns]) (by simpa using status)).map _
  | acquireResourceLocks _ _ => exact acquireResourceLocks_moves.map _
  | releaseResourceLocks _ _ _ => exact releaseResourceLocks_moves
  | claimTask _ _ => exact (claimTask_moves (by simp [concerns])).map _
  | addTaskEvidence _ _ => exact addTaskEvidence_moves (by simp [concerns])
  | createTask _ _ _ => exact (createTask_moves (by simp [concerns])).map _
  | transitionTask _ _ => exact (transitionTask_moves (rowRun_owned fun _ => id)).map _
  | recoverGraphWork _ _ => exact (recoverGraphWork_moves (by simp [concerns])).map _
  | markAgentActive _ _ => exact markAgentActive_moves (by simp [concerns])
  | spawnAgent _ _ _ => exact (spawnAgent_moves (by simp [concerns])).map _
  | transitionAgent _ _ => exact (transitionAgent_moves (rowRun_owned fun _ => id)).map _
  | setAgentWorktree _ _ => exact (setAgentWorktree_moves (by simp [concerns])).map _
  | sendAgentMessage _ _ _ => exact (sendAgentMessage_moves (by simp [concerns])).map _
  | receiveAgentMessages _ _ => exact (receiveAgentMessages_moves (by simp [concerns])).map _
  | startSessionEpoch _ _ => exact (startSessionEpoch_moves (rowRun_owned fun _ => id)).map _
  | endSessionEpoch _ _ => exact (endSessionEpoch_moves fun _ home => by simp [concerns, home]).map _
  | addRequirement _ _ _ => exact (addRequirement_moves (by simp [concerns])).map _
  | addEvidence _ _ _ =>
    exact (addEvidence_moves (by simp) (rowRun_owned fun _ => List.mem_cons_of_mem _)).map _
  | setRequirementStatus _ _ _ => exact setRequirementStatus_moves (by simp [concerns])
  | recordValidation _ _ _ => exact (recordValidation_moves (by simp [concerns])).map _
  | requestApproval _ _ _ => exact (requestApproval_moves (by simp [concerns])).map _
  | resolveApproval _ _ => exact (resolveApproval_moves (rowRun_owned fun _ => id)).map _
  | recordProblem _ _ _ =>
    exact (recordProblem_moves (by simp) (currentGoal_owned fun _ => List.mem_cons_of_mem _)).map _
  | createMilestone _ _ _ => exact (createMilestone_moves (by simp [concerns])).map _
  | recordDecision _ _ _ => exact (recordDecision_moves (by simp [concerns])).map _
  | addArtifact _ _ _ _ => exact (addArtifact_moves (by simp [concerns])).map _
  | recordGitChange _ _ _ => exact (recordGitChange_moves (by simp [concerns])).map _
  | recordCost _ _ _ => exact (recordCost_moves (by simp [concerns])).map _
  | setRecoveryState _ _ => exact (setRecoveryState_moves (by simp [concerns])).map _
  | createContextSnapshot _ _ _ =>
    exact (createContextSnapshot_moves (by simp [concerns]) fun _ _ named home => by simp [concerns, named, home]).map _
  | addMemoryEntry _ _ _ _ => exact (addMemoryEntry_moves (by simp [concerns])).map _
  | recordUsage _ _ _ => exact (recordUsage_moves (by simp [concerns])).map _
  | recordUsageFenced _ _ _ _ => exact (recordUsageFenced_moves (by simp [concerns])).map _
  | recordToolIntent _ _ _ => exact (recordToolIntent_moves (by simp [concerns])).map _
  | completeToolCall _ _ => exact completeToolCall_moves (by simp [concerns])
  | reconcileInterruptedToolCalls _ _ => exact (reconcileInterruptedToolCalls_moves (by simp [concerns])).map _
  | recoverClaimedWork _ _ => exact (recoverClaimedWork_moves (by simp [concerns])).map _
  | createCheckpoint _ _ _ => exact (createCheckpoint_moves (by simp [concerns])).map _
  | recordCheckpointRestore _ _ => exact (recordCheckpointRestore_moves (by simp [concerns])).map _
  | scheduleWake _ _ _ => exact (scheduleWake_moves (by simp [concerns])).map _
  | wakeDueRuns clock =>
    refine (wakeDueRuns_moves fun condition member pending due => ?_).map _
    exact List.mem_map.mpr ⟨condition, List.mem_filter.mpr ⟨member, by simp [pending, due]⟩, rfl⟩
  | claimContinuation _ _ =>
    exact (claimContinuation_moves (by simp) (currentGoal_owned fun _ => List.mem_cons_of_mem _)).map _
  | settleContinuation _ _ => exact settleContinuation_moves (by simp [concerns])

/-- The tables a call can write. -/
def Call.writes (call : Call) (t : Table) : Bool := call.kinds.any (·.writes t)

theorem Call.frame (call : Call) {t : Table} (apart : call.writes t = false) : (call.perform s) t = s t :=
  (Call.moves s call).frame fun k can => by
    have none := List.any_eq_false.mp apart k can
    simpa using none

/-- An executor's own event goes to the journal, whatever its type. -/
theorem Call.appendFencedEvent_writes {input : AppendFencedEventInput} {clock : Date} {t : Table}
    (runs : (t == .runs) = false) (events : (t == .runEvents) = false) :
    (Call.appendFencedEvent input clock).writes t = false := by
  simp only [writes, kinds]
  split <;> simp [Kind.writes, runs, events]

end Scope

end OttiliCoder
