import OttiliCoder.Store.Graph
import OttiliCoder.Store.Ledger
import OttiliCoder.Validation.Completion

/-! The start of a turn of the RunCoordinator, which agent acts and on which task, and
its end, when a tool has asked for completion. -/

namespace OttiliCoder
open Relational Transaction

/-- The first coordinator of a Run, which its other agents are delegates of. -/
def coordinatorOf (s : Store) (runId : RunId) : Option Agent :=
  (listAgents s runId).find? fun agent => agent.role == .coordinator

def TaskStatus.isUnfinished (status : TaskStatus) : Bool := status != .completed && status != .cancelled

/-- The delegate whose turn it is; the coordinator acts when there is none. -/
def nextDelegate (s : Store) (runId : RunId) (coordinator : Agent) : Option Agent :=
  let agents := listAgents s runId
  let tasks := listTasks s runId
  let pendingRecipients :=
    ((listAgentMessages s runId).filter fun message => message.status == .pending).map (·.toAgentId)
  (agents.filter fun agent => agent.id != coordinator.id &&
      (agent.status == .queued || agent.status == .running || agent.status == .waiting)).find?
    fun agent => pendingRecipients.contains agent.id ||
      tasks.any fun task => task.ownerAgentId == some agent.id && task.status.isUnfinished

/-- `coordinator` is the agent as the turn read it, before recovery moved it. -/
def selectActingAgent (runId : RunId) (coordinator : Agent) (lease : FencedLease) (moved stamped : Date) :
    StoreM Agent := do
  let s ← get
  let selected := (nextDelegate s runId coordinator).getD coordinator
  let active ←
    if selected.status = .running then pure selected
    else transitionAgent { agentId := selected.id, lease := some lease, target := .running } moved
  markAgentActive { agentId := active.id, lease := lease } stamped
  return active

/-- The task the acting agent works on: the one it is running, else the one it was spawned
for, else for the coordinator the next ready one. A lost claim is no task. -/
def claimTaskFor (agent : Agent) (lease : FencedLease) (clock : Date) : StoreM (Option Task) := do
  let s ← get
  let owned := (listTasks s lease.runId { ownerAgentId := some agent.id }).find? fun task => task.status == .running
  if owned.isSome then return owned
  let assigned := (agent.taskId.bind (getTask s)).filter fun task => task.status == .ready
  let candidate :=
    if assigned.isSome then assigned
    else if agent.role = .coordinator then nextReadyTask s lease.runId
    else none
  match candidate with
  | none => return none
  | some task =>
    try
      let claimed ← claimTask { agentId := agent.id, lease := lease, taskId := task.id } clock
      return some claimed
    catch _ => return none

def ValidationRecord.result (validation : ValidationRecord) : DeterministicValidationResult :=
  { id := validation.id, passed := validation.passed, summary := validation.summary }

/-- What the coordinator shows the gate. -/
def completionEvidence (s : Store) (runId : RunId) : CompletionEvidence where
  requirements := listRequirements s runId
  validations := (listValidations s runId).map ValidationRecord.result

/-- The end of a turn that asked for completion; `true` asks for another turn. -/
def concludeTurn (verifier : Option IndependentVerifier) (runId : RunId) (lease : FencedLease) (uuid : String)
    (recorded proposed : Date) : StoreM Bool := do
  let s ← get
  let decision := CompletionGate.evaluate verifier (completionEvidence s runId)
  let verified := decision.verifier.any (·.complete)
  onlyIf (decision.accepted = true ∧ verified = true) do
    let _ ← recordValidation
      { independent := some true
        lease := some lease
        name := "completion-ledger-audit"
        passed := true
        runId := runId
        summary := "A separate deterministic verifier re-audited the durable requirement ledger and validation records." }
      uuid recorded
  let _ ← proposeCompletion
    { accepted := decision.accepted
      independentlyVerified := some verified
      lease := some lease
      reasons := decision.reasons
      runId := runId } proposed
  return !decision.accepted

end OttiliCoder
