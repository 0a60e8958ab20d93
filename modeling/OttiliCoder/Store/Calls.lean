import OttiliCoder.Library.Reached
import OttiliCoder.Store.Graph
import OttiliCoder.Store.Leases
import OttiliCoder.Store.Ledger
import OttiliCoder.Store.Schedule

/-! The control plane as a system: any daemon, operator or executor performs any
store operation, with any arguments, UUIDs and clock readings. An operation is
atomic; one that throws, or whose process dies, is rolled back as far as its
transaction goes. -/

namespace OttiliCoder
open Transaction

inductive Call where
  | createRun (input : CreateRunInput) (seed goalVersion : String) (clock : Date)
  | transitionRun (input : TransitionRunInput) (clock : Date)
  | setGoalStatus (input : SetGoalStatusInput) (clock : Date)
  | pause (runId : RunId) (expectedRevision : Option Nat) (clock : Date)
  | resume (runId : RunId) (expectedRevision : Option Nat) (clock : Date)
  | cancel (runId : RunId) (expectedRevision : Option Nat) (clock : Date)
  | executeCommand (input : ExecuteCommandInput) (clock ensured recorded : Date)
  | recordSteeringInput (input : SteeringInput) (clock : Date)
  | proposeCompletion (input : ProposeCompletionInput) (clock : Date)
  | acquireLease (input : AcquireLeaseInput) (clock : Date)
  | renewLease (lease : FencedLease) (ttlMs : Int) (clock : Date)
  | appendFencedEvent (input : AppendFencedEventInput) (clock : Date)
  | acquireResourceLocks (input : AcquireResourceLocksInput) (clock : Date)
  | releaseResourceLocks (executorId : String) (runId : RunId) (leaseGeneration : Nat)
  | claimTask (input : ClaimTaskInput) (clock : Date)
  | addTaskEvidence (input : AddTaskEvidenceInput) (clock : Date)
  | createTask (input : CreateTaskInput) (uuid : String) (clock : Date)
  | transitionTask (input : TransitionTaskInput) (clock : Date)
  | recoverGraphWork (lease : FencedLease) (clock : Date)
  | markAgentActive (input : MarkAgentActiveInput) (clock : Date)
  | spawnAgent (input : SpawnAgentInput) (uuid : String) (clock : Date)
  | transitionAgent (input : TransitionAgentInput) (clock : Date)
  | setAgentWorktree (input : SetAgentWorktreeInput) (clock : Date)
  | sendAgentMessage (input : SendAgentMessageInput) (uuid : String) (clock : Date)
  | receiveAgentMessages (input : ReceiveAgentMessagesInput) (clock : Date)
  | startSessionEpoch (input : StartSessionEpochInput) (clock : Date)
  | endSessionEpoch (input : EndSessionEpochInput) (clock : Date)
  | addRequirement (input : AddRequirementInput) (uuid : String) (clock : Date)
  | addEvidence (input : AddEvidenceInput) (uuid : String) (clock : Date)
  | setRequirementStatus (input : SetRequirementStatusInput) (clock updated : Date)
  | recordValidation (input : RecordValidationInput) (uuid : String) (clock : Date)
  | requestApproval (input : RequestApprovalInput) (uuid : String) (clock : Date)
  | resolveApproval (input : ResolveApprovalInput) (clock : Date)
  | recordProblem (input : RecordProblemInput) (uuid : String) (clock : Date)
  | createMilestone (input : CreateMilestoneInput) (uuid : String) (clock : Date)
  | recordDecision (input : RecordDecisionInput) (uuid : String) (clock : Date)
  | addArtifact (input : AddArtifactInput) (uuid : String) (clock checked : Date)
  | recordGitChange (input : RecordGitChangeInput) (uuid : String) (clock : Date)
  | recordCost (input : RecordCostInput) (uuid : String) (clock : Date)
  | setRecoveryState (input : SetRecoveryStateInput) (clock : Date)
  | createContextSnapshot (input : CreateContextSnapshotInput) (uuid : String) (clock : Date)
  | addMemoryEntry (input : AddMemoryEntryInput) (uuid : String) (clock checked : Date)
  | recordUsage (runId : RunId) (delta : BudgetDelta) (clock : Date)
  | recordUsageFenced (lease : FencedLease) (delta : BudgetDelta) (entry : Option UsageEntry) (clock : Date)
  | recordToolIntent (input : ToolIntentInput) (uuid : String) (clock : Date)
  | completeToolCall (input : CompleteToolCallInput) (clock : Date)
  | reconcileInterruptedToolCalls (runId : RunId) (clock : Date)
  | recoverClaimedWork (lease : FencedLease) (clock : Date)
  | createCheckpoint (input : CreateCheckpointInput) (uuid : String) (clock : Date)
  | recordCheckpointRestore (input : RecordCheckpointRestoreInput) (clock : Date)
  | scheduleWake (input : ScheduleWakeInput) (uuid : String) (clock : Date)
  | wakeDueRuns (clock : Date)
  | claimContinuation (lease : FencedLease) (clock : Date)
  | settleContinuation (input : SettleContinuationInput) (clock : Date)

def discard {α : Type} (m : StoreM α) : StoreM Unit := (fun _ => ()) <$> m

namespace Call

/-- What a call does, its result dropped. -/
def run : Call → StoreM Unit
  | createRun input seed goalVersion clock => discard (OttiliCoder.createRun input seed goalVersion clock)
  | transitionRun input clock => discard (OttiliCoder.transitionRun input clock)
  | setGoalStatus input clock => discard (OttiliCoder.setGoalStatus input clock)
  | pause runId expectedRevision clock => discard (OttiliCoder.pause runId expectedRevision clock)
  | resume runId expectedRevision clock => discard (OttiliCoder.resume runId expectedRevision clock)
  | cancel runId expectedRevision clock => discard (OttiliCoder.cancel runId expectedRevision clock)
  | executeCommand input clock ensured recorded =>
    discard (OttiliCoder.executeCommand input clock ensured recorded)
  | recordSteeringInput input clock => discard (OttiliCoder.recordSteeringInput input clock)
  | proposeCompletion input clock => discard (OttiliCoder.proposeCompletion input clock)
  | acquireLease input clock => discard (OttiliCoder.acquireLease input clock)
  | renewLease lease ttlMs clock => discard (OttiliCoder.renewLease lease ttlMs clock)
  | appendFencedEvent input clock => discard (OttiliCoder.appendFencedEvent input clock)
  | acquireResourceLocks input clock => discard (OttiliCoder.acquireResourceLocks input clock)
  | releaseResourceLocks executorId runId leaseGeneration =>
    OttiliCoder.releaseResourceLocks executorId runId leaseGeneration
  | claimTask input clock => discard (OttiliCoder.claimTask input clock)
  | addTaskEvidence input clock => OttiliCoder.addTaskEvidence input clock
  | createTask input uuid clock => discard (OttiliCoder.createTask input uuid clock)
  | transitionTask input clock => discard (OttiliCoder.transitionTask input clock)
  | recoverGraphWork lease clock => discard (OttiliCoder.recoverGraphWork lease clock)
  | markAgentActive input clock => OttiliCoder.markAgentActive input clock
  | spawnAgent input uuid clock => discard (OttiliCoder.spawnAgent input uuid clock)
  | transitionAgent input clock => discard (OttiliCoder.transitionAgent input clock)
  | setAgentWorktree input clock => discard (OttiliCoder.setAgentWorktree input clock)
  | sendAgentMessage input uuid clock => discard (OttiliCoder.sendAgentMessage input uuid clock)
  | receiveAgentMessages input clock => discard (OttiliCoder.receiveAgentMessages input clock)
  | startSessionEpoch input clock => discard (OttiliCoder.startSessionEpoch input clock)
  | endSessionEpoch input clock => discard (OttiliCoder.endSessionEpoch input clock)
  | addRequirement input uuid clock => discard (OttiliCoder.addRequirement input uuid clock)
  | addEvidence input uuid clock => discard (OttiliCoder.addEvidence input uuid clock)
  | setRequirementStatus input clock updated => OttiliCoder.setRequirementStatus input clock updated
  | recordValidation input uuid clock => discard (OttiliCoder.recordValidation input uuid clock)
  | requestApproval input uuid clock => discard (OttiliCoder.requestApproval input uuid clock)
  | resolveApproval input clock => discard (OttiliCoder.resolveApproval input clock)
  | recordProblem input uuid clock => discard (OttiliCoder.recordProblem input uuid clock)
  | createMilestone input uuid clock => discard (OttiliCoder.createMilestone input uuid clock)
  | recordDecision input uuid clock => discard (OttiliCoder.recordDecision input uuid clock)
  | addArtifact input uuid clock checked => discard (OttiliCoder.addArtifact input uuid clock checked)
  | recordGitChange input uuid clock => discard (OttiliCoder.recordGitChange input uuid clock)
  | recordCost input uuid clock => discard (OttiliCoder.recordCost input uuid clock)
  | setRecoveryState input clock => discard (OttiliCoder.setRecoveryState input clock)
  | createContextSnapshot input uuid clock => discard (OttiliCoder.createContextSnapshot input uuid clock)
  | addMemoryEntry input uuid clock checked => discard (OttiliCoder.addMemoryEntry input uuid clock checked)
  | recordUsage runId delta clock => discard (OttiliCoder.recordUsage runId delta clock)
  | recordUsageFenced lease delta entry clock => discard (OttiliCoder.recordUsageFenced lease delta entry clock)
  | recordToolIntent input uuid clock => discard (OttiliCoder.recordToolIntent input uuid clock)
  | completeToolCall input clock => OttiliCoder.completeToolCall input clock
  | reconcileInterruptedToolCalls runId clock =>
    discard (OttiliCoder.reconcileInterruptedToolCalls runId clock)
  | recoverClaimedWork lease clock => discard (OttiliCoder.recoverClaimedWork lease clock)
  | createCheckpoint input uuid clock => discard (OttiliCoder.createCheckpoint input uuid clock)
  | recordCheckpointRestore input clock => discard (OttiliCoder.recordCheckpointRestore input clock)
  | scheduleWake input uuid clock => discard (OttiliCoder.scheduleWake input uuid clock)
  | wakeDueRuns clock => discard (OttiliCoder.wakeDueRuns clock)
  | claimContinuation lease clock => discard (OttiliCoder.claimContinuation lease clock)
  | settleContinuation input clock => OttiliCoder.settleContinuation input clock

/-- The store after a call, whether or not it throws. -/
def perform (call : Call) (s : Store) : Store := after call.run s

end Call

/-- The states histories of allowed calls lead to from an empty store. -/
abbrev ReachedBy (allowed : Store → Call → Prop) : Store → Prop :=
  Reached Store.empty Call.perform allowed

abbrev Reachable : Store → Prop := ReachedBy fun _ _ => True

/-- The store a history of calls leaves. -/
def storeAfter (history : List Call) : Store := performAll Call.perform history Store.empty

theorem storeAfter_concat (history : List Call) (call : Call) :
    storeAfter (history ++ [call]) = call.perform (storeAfter history) := performAll_concat history call _

theorem storeAfter_append (before : List Call) (call : Call) (rest : List Call) :
    storeAfter (before ++ call :: rest) = performAll Call.perform rest (call.perform (storeAfter before)) := by
  simp [storeAfter, performAll]

theorem reachable_storeAfter (history : List Call) : Reachable (storeAfter history) :=
  Reached.performAll .start (allAllowed_of_forall fun _ _ => trivial)

/-! A Run to try the store on. -/

def sampleRun : Call := .createRun { prompt := "Ship it.", workspaceUri := "file:///work" } "seed" "v1" .epoch

def sampleRunId : RunId := createId .run "seed"

def sampleAgentId : AgentId := createId .agent "seed:coordinator"

def sampleTaskId : TaskId := createId .task (sampleRunId ++ ":implement")

def sampleLease (executorId : String) (generation : Nat) : FencedLease := ⟨sampleRunId, executorId, generation⟩

/-- The executor takes the Run for a second. -/
def takeSample (executorId : String) (clock : Date) : Call :=
  .acquireLease { executorId := executorId, runId := sampleRunId, ttlMs := 1000 } clock

def oneMinute : Date := ⟨60000, by decide⟩

def sampleIntent : ToolIntentInput where
  definition := { idempotency := .safe, name := "read_file", recovery := .retry, sideEffectClass := .none }
  input := .null
  lease := sampleLease "first" 1

end OttiliCoder
