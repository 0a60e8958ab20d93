import OttiliCoder.Agents.Graph

/-! Admission of queued agents: an executor's residency takes a slot, a place in the queue does not. -/

namespace OttiliCoder
open StableSort

/-- An executor/session residency consumes a scheduler capacity slot. -/
def residentAgentStatuses : List AgentStatus := [.running, .waiting, .recovering]

def isAgentResident (agent : Agent) : Bool := residentAgentStatuses.contains agent.status

structure AgentCapacityAssessment where
  maximumResidentAgents : Nat
  residentAgentIds : List AgentId
  queuedAgentIds : List AgentId
  availableSlots : Nat
  overCapacity : Bool
deriving DecidableEq

/-- Computes admission capacity without mutating the graph. -/
def assessAgentCapacity (collation : Collation) (agents : List Agent) (maximumResidentAgents : Number) :
    Except GraphError AgentCapacityAssessment :=
  match maximumResidentAgents with
  | .notFinite => .error (.invariantViolation "Maximum resident agents must be a non-negative safe integer")
  | .finite value =>
    if !(Number.finite value).isSafeInteger || (Number.finite value).below 0 then
      .error (.invariantViolation "Maximum resident agents must be a non-negative safe integer")
    else
      let maximum := value.num.toNat
      let residentAgentIds := collation.sortOn id ((agents.filter isAgentResident).map Agent.id)
      let queuedAgentIds := collation.sortOn id ((agents.filter fun agent => agent.status == .queued).map Agent.id)
      .ok {
        maximumResidentAgents := maximum
        residentAgentIds
        queuedAgentIds
        availableSlots := maximum - residentAgentIds.length
        overCapacity := maximum < residentAgentIds.length }

namespace AgentGraph

/-- The agents in the order of their task paths. -/
def byTaskPath (collation : Collation) (graph : AgentGraph) (agents : List Agent) : Except GraphError (List Agent) := do
  let keyed ← agents.mapM fun agent => do
    let path ← graph.taskPath agent.id
    return (path.key, agent)
  return (collation.sortOn (·.1) keyed).map (·.2)

/-- Picks queued agents from active branches for an executor; they start only by a later write. -/
def selectAgentsForAdmission (collation : Collation) (graph : AgentGraph) (maximumResidentAgents : Number) :
    Except GraphError (List Agent) := do
  let capacity ← assessAgentCapacity collation (graph.listAgents collation) maximumResidentAgents
  if capacity.availableSlots = 0 then return []
  else do
    let eligible ← (graph.listAgents collation).filterM fun agent =>
      if agent.status = .queued then graph.hasOpenAncestry agent.id else .ok false
    let sorted ← graph.byTaskPath collation eligible
    return sorted.take capacity.availableSlots

end AgentGraph

end OttiliCoder
