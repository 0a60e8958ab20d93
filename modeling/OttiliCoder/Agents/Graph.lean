import OttiliCoder.Library.StableSort
import OttiliCoder.Store.Internal

/-! The in-memory topology of a Run's agents. Three maps hold it: the agents, the spawn
edge of each child, and the edges of each parent's children. -/

namespace OttiliCoder
open Relational Transaction StableSort

/-- Closing an edge removes it from active scheduling and keeps it for audit. -/
inductive AgentSpawnEdgeState where
  | opened | closed
deriving DecidableEq

structure AgentGraphEdge where
  key : String
  parentAgentId : AgentId
  childAgentId : AgentId
  runId : RunId
  taskId : Option TaskId := none
  state : AgentSpawnEdgeState
  closedAt : Option IsoTimestamp := none
  closeReason : Option String := none
  createdAt : IsoTimestamp
  updatedAt : IsoTimestamp
deriving DecidableEq

structure AgentGraphSnapshot where
  runId : RunId
  agents : List Agent
  edges : List AgentGraphEdge

structure AgentGraph where
  runId : RunId
  agentsById : Keyed Agent.id
  edgesByChild : Keyed AgentGraphEdge.childAgentId
  /-- `edgesByParent.get(parent) ?? []`. -/
  edgesByParent : AgentId → List AgentGraphEdge

inductive GraphError where
  | invariantViolation (message : InvariantMessage)
  | invalidStateTransition (entity source target : String)
deriving DecidableEq

/-- A method of the graph; what it wrote before it throws stays written. -/
abbrev GraphM := EStateM GraphError AgentGraph

def createAgentSpawnEdgeKey (parentAgentId childAgentId : AgentId) : String :=
  "agent-spawn:" ++ parentAgentId ++ ":" ++ childAgentId

/-- States from which a fresh executor can safely continue an agent. -/
def defaultResumableAgentStatuses : List AgentStatus := [.waiting, .suspended, .recovering, .failed, .stopped]

def isResumableAgentStatus (status : AgentStatus) : Bool := defaultResumableAgentStatuses.contains status

namespace AgentGraph

def blank (runId : RunId) : AgentGraph where
  runId := runId
  agentsById := Keyed.empty
  edgesByChild := Keyed.empty
  edgesByParent := fun _ => []

def traversalCycle : GraphError := .invariantViolation "Agent graph traversal encountered a cycle"
def ancestryCycle : GraphError := .invariantViolation "Agent graph ancestry encountered a cycle"
def parentCycle : GraphError := .invariantViolation "Agent graph contains a parent cycle"

section Queries
variable (collation : Collation) (graph : AgentGraph)

def listAgents : List Agent := collation.sortOn Agent.id graph.agentsById.rows

def listEdges : List AgentGraphEdge := collation.sortOn AgentGraphEdge.key graph.edgesByChild.rows

def snapshot : AgentGraphSnapshot where
  runId := graph.runId
  agents := graph.listAgents collation
  edges := graph.listEdges collation

def hasAgent (agentId : AgentId) : Bool := (graph.agentsById.find? agentId).isSome

def getAgent (agentId : AgentId) : Option Agent := graph.agentsById.find? agentId

def requireAgent (agentId : AgentId) : Except GraphError Agent :=
  match graph.agentsById.find? agentId with
  | some agent => .ok agent
  | none => .error (.invariantViolation "Agent is not present in this graph")

def getSpawnEdge (childAgentId : AgentId) : Option AgentGraphEdge := graph.edgesByChild.find? childAgentId

def roots : List Agent := (graph.listAgents collation).filter fun agent => agent.parentAgentId.isNone

/-- The edges of one state; without a state, all of them. -/
def childEdges (parentAgentId : AgentId) (edgeState : Option AgentSpawnEdgeState) : List AgentGraphEdge :=
  (graph.edgesByParent parentAgentId).filter fun edge => edgeState.all fun state => edge.state == state

def children (parentAgentId : AgentId) (edgeState : Option AgentSpawnEdgeState) : Except GraphError (List Agent) := do
  let _ ← graph.requireAgent parentAgentId
  (graph.childEdges parentAgentId edgeState).mapM fun edge => graph.requireAgent edge.childAgentId

def openChildCount (parentAgentId : AgentId) : Nat := (graph.childEdges parentAgentId (some .opened)).length

/-- A path along parents or children meets each agent at most once, so one that is longer
than the number of agents has met a cycle. -/
def bound : Nat := graph.agentsById.rows.length + 1

/-- The depth-first walk below an agent, with the ids visited and the agents found so far. -/
def visit (edgeState : Option AgentSpawnEdgeState) :
    Nat → AgentId → List AgentId × List Agent → Except GraphError (List AgentId × List Agent)
  | 0, _, _ => .error traversalCycle
  | depth + 1, parentId, walked =>
    (graph.childEdges parentId edgeState).foldlM (fun (visited, found) edge =>
      if visited.contains edge.childAgentId then .error traversalCycle
      else do
        let child ← graph.requireAgent edge.childAgentId
        visit edgeState depth child.id (edge.childAgentId :: visited, found ++ [child])) walked

/-- Stable depth-first traversal, ordered by durable child agent id. -/
def descendants (parentAgentId : AgentId) (edgeState : Option AgentSpawnEdgeState) : Except GraphError (List Agent) := do
  let _ ← graph.requireAgent parentAgentId
  let (_, found) ← graph.visit edgeState graph.bound parentAgentId ([parentAgentId], [])
  return found

/-- The climb from an agent to its root; `lineage` begins with the last parent met. -/
def climb : Nat → List AgentId → Agent → List Agent → Except GraphError (List Agent)
  | 0, _, _, _ => .error ancestryCycle
  | steps + 1, visited, current, lineage =>
    match current.parentAgentId with
    | none => .ok lineage
    | some parentId =>
      if visited.contains parentId then .error ancestryCycle
      else do
        let parent ← graph.requireAgent parentId
        climb steps (parentId :: visited) parent (parent :: lineage)

/-- Root-to-parent lineage, excluding the requested agent itself. -/
def ancestors (agentId : AgentId) : Except GraphError (List Agent) := do
  let current ← graph.requireAgent agentId
  graph.climb graph.bound [agentId] current []

structure AgentTaskPath where
  agentIds : List AgentId
  taskIds : List TaskId
  segments : List (AgentId × Option TaskId)
  key : String
deriving DecidableEq

/-- A position-stable task path derived from the durable parent relation. -/
def taskPath (agentId : AgentId) : Except GraphError AgentTaskPath := do
  let above ← graph.ancestors agentId
  let agent ← graph.requireAgent agentId
  let segments := (above ++ [agent]).map fun agent => (agent.id, agent.taskId)
  return {
    agentIds := segments.map (·.1)
    taskIds := segments.filterMap (·.2)
    segments := segments
    key := "/".intercalate (segments.map fun segment => segment.1 ++ ":" ++ segment.2.getD "-") }

/-- The climb that asks every edge on the way whether it is open. -/
def climbOpen : Nat → List AgentId → Agent → Except GraphError Bool
  | 0, _, _ => .error ancestryCycle
  | steps + 1, visited, current =>
    match current.parentAgentId with
    | none => .ok true
    | some parentId =>
      if visited.contains current.id then .error ancestryCycle
      else
        match graph.edgesByChild.find? current.id with
        | none => .ok false
        | some edge =>
          if edge.state != .opened then .ok false
          else do
            let parent ← graph.requireAgent parentId
            climbOpen steps (current.id :: visited) parent

def hasOpenAncestry (agentId : AgentId) : Except GraphError Bool := do
  let current ← graph.requireAgent agentId
  graph.climbOpen graph.bound [] current

structure AgentResumeOptions where
  statuses : Option (List AgentStatus) := none
  includeClosedEdges : Option Bool := none
  limit : Option Number := none

/-- The number of rows a limit lets through; no limit lets all of them through. -/
def normalizeLimit (limit : Option Number) (label : String) : Except GraphError (Option Nat) :=
  match limit with
  | none => .ok none
  | some .notFinite => .error (.invariantViolation (label ++ " must be a non-negative integer"))
  | some (.finite value) =>
    if (Number.finite value).isSafeInteger && !(Number.finite value).below 0 then .ok (some value.num.toNat)
    else .error (.invariantViolation (label ++ " must be a non-negative integer"))

/-- Candidates for recovery after a process restart. Closed branches are left out unless
they are asked for. -/
def resumeCandidates (options : AgentResumeOptions) : Except GraphError (List Agent) := do
  let statuses := options.statuses.getD defaultResumableAgentStatuses
  let limit ← normalizeLimit options.limit "resume candidate limit"
  let includeClosedEdges := options.includeClosedEdges.getD false
  let candidates ← ((graph.listAgents collation).filter fun agent => statuses.contains agent.status).filterM fun agent =>
    if includeClosedEdges then .ok true else graph.hasOpenAncestry agent.id
  let keyed ← candidates.mapM fun agent => do
    let path ← graph.taskPath agent.id
    return (path.key, agent)
  let sorted := (collation.sortOn (·.1) keyed).map (·.2)
  return match limit with
    | none => sorted
    | some limit => sorted.take limit

end Queries

/-! Construction and changes. -/

/-- The agent, read from the graph as it is. -/
def mustAgent (agentId : AgentId) : GraphM Agent := do
  let graph ← get
  match graph.requireAgent agentId with
  | .ok agent => pure agent
  | .error error => throw error

def setAgent (agent : Agent) : GraphM Unit :=
  modify fun graph => { graph with agentsById := graph.agentsById.put agent }

def assertAgentBelongsToRun (agent : Agent) : GraphM Unit := do
  let graph ← get
  require (agent.runId = graph.runId) (.invariantViolation "Agent belongs to a different run")

def assertAgentTransition (source target : AgentStatus) : GraphM Unit :=
  require (canTransitionAgent source target) (.invalidStateTransition "agent" source.text target.text)

section Changes
variable (collation : Collation)

/-- Stores the edge under its child and in its parent's sorted list. -/
def setEdge (edge : AgentGraphEdge) : GraphM Unit := do
  let graph ← get
  require ((graph.edgesByChild.find? edge.childAgentId).all (fun existing => existing.parentAgentId == edge.parentAgentId) = true)
    (.invariantViolation "An agent cannot be re-parented through another spawn edge")
  let withoutCurrent := (graph.edgesByParent edge.parentAgentId).filter fun candidate =>
    candidate.childAgentId != edge.childAgentId
  let sorted := collation.sortOn AgentGraphEdge.childAgentId (withoutCurrent ++ [edge])
  set { graph with
    edgesByChild := graph.edgesByChild.put edge
    edgesByParent := Function.update graph.edgesByParent edge.parentAgentId sorted }

/-- Adds a durable root agent. -/
def registerRoot (agent : Agent) : GraphM Agent := do
  assertAgentBelongsToRun agent
  require (agent.parentAgentId = none) (.invariantViolation "A root agent must not declare a parent agent")
  let graph ← get
  require (graph.hasAgent agent.id = false) (.invariantViolation "Agent identity already exists")
  setAgent agent
  return agent

structure SpawnAgentInput where
  agent : Agent
  parentAgentId : AgentId
  taskId : Option TaskId := none
  openedAt : Option IsoTimestamp := none

/-- The edge that attaches a new child. -/
def spawnEdge (runId : RunId) (input : SpawnAgentInput) : AgentGraphEdge :=
  let openedAt := input.openedAt.getD input.agent.spawnedAt
  { key := createAgentSpawnEdgeKey input.parentAgentId input.agent.id
    parentAgentId := input.parentAgentId
    childAgentId := input.agent.id
    runId := runId
    taskId := input.agent.taskId
    state := .opened
    createdAt := openedAt
    updatedAt := openedAt }

/-- Attaches a newly created child to exactly one parent. -/
def spawn (input : SpawnAgentInput) : GraphM AgentGraphEdge := do
  assertAgentBelongsToRun input.agent
  let _ ← mustAgent input.parentAgentId
  let graph ← get
  require (graph.hasAgent input.agent.id = false) (.invariantViolation "Agent identity already exists")
  require (input.agent.id ≠ input.parentAgentId) (.invariantViolation "An agent cannot spawn itself")
  require (input.agent.parentAgentId = some input.parentAgentId)
    (.invariantViolation "Child agent parent does not match the spawn request")
  require (input.taskId = none ∨ input.taskId = input.agent.taskId)
    (.invariantViolation "Spawn edge task must match the child task assignment")
  let edge := spawnEdge graph.runId input
  setAgent input.agent
  setEdge collation edge
  return edge

/-- Closes an active scheduling edge without deleting history. -/
def closeSpawnEdge (childAgentId : AgentId) (closedAt : IsoTimestamp) (closeReason : Option String) :
    GraphM AgentGraphEdge := do
  let graph ← get
  let current ← expect (graph.edgesByChild.find? childAgentId)
    (.invariantViolation "Root agents do not have a spawn edge")
  if current.state = .closed then return current
  else do
    let next := { current with
      state := .closed
      closedAt := some closedAt
      updatedAt := closedAt
      closeReason := closeReason.or current.closeReason }
    setEdge collation next
    return next

def transitionAgent (agentId : AgentId) (status : AgentStatus) (updatedAt : IsoTimestamp) : GraphM Agent := do
  let current ← mustAgent agentId
  if current.status = status then return current
  else do
    assertAgentTransition current.status status
    let next := { current with
      status := status
      updatedAt := updatedAt
      closedAt := if status = .closed then some updatedAt else current.closedAt }
    setAgent next
    return next

/-- Returns an agent to the durable queue for a new executor. -/
def resumeAgent (agentId : AgentId) (updatedAt : IsoTimestamp) : GraphM Agent := do
  let current ← mustAgent agentId
  require (isResumableAgentStatus current.status = true) (.invariantViolation "Agent status is not resumable")
  let graph ← get
  match graph.hasOpenAncestry agentId with
  | .error error => throw error
  | .ok opened => do
    require (opened = true)
      (.invariantViolation "An agent behind a closed spawn edge cannot be resumed automatically")
    transitionAgent agentId .queued updatedAt

def suspendAgent (agentId : AgentId) (updatedAt : IsoTimestamp) : GraphM Agent :=
  transitionAgent agentId .suspended updatedAt

def stopAgent (agentId : AgentId) (updatedAt : IsoTimestamp) : GraphM Agent :=
  transitionAgent agentId .stopped updatedAt

/-- Closing a child also closes its incoming scheduling edge, never history. -/
def closeAgent (agentId : AgentId) (closedAt : IsoTimestamp) (closeReason : Option String) : GraphM Agent := do
  let agent ← transitionAgent agentId .closed closedAt
  let graph ← get
  onlyIf ((graph.edgesByChild.find? agentId).isSome = true) do
    let _ ← closeSpawnEdge collation agentId closedAt closeReason
  return agent

end Changes

/-! The constructor. -/

def addSnapshotAgent (agent : Agent) : GraphM Unit := do
  assertAgentBelongsToRun agent
  let graph ← get
  require (graph.hasAgent agent.id = false) (.invariantViolation "Agent identity appears more than once")
  setAgent agent

def addSnapshotEdge (collation : Collation) (edge : AgentGraphEdge) : GraphM Unit := do
  let graph ← get
  require (edge.runId = graph.runId) (.invariantViolation "Spawn edge belongs to a different run")
  require (edge.key = createAgentSpawnEdgeKey edge.parentAgentId edge.childAgentId)
    (.invariantViolation "Spawn edge key is not canonical")
  require (graph.edgesByChild.find? edge.childAgentId = none)
    (.invariantViolation "An agent can have only one durable parent edge")
  require (edge.parentAgentId ≠ edge.childAgentId) (.invariantViolation "An agent cannot be its own parent")
  require (edge.state = .closed → edge.closedAt.isSome = true)
    (.invariantViolation "A closed spawn edge must record its close timestamp")
  require (edge.state = .opened → edge.closedAt = none)
    (.invariantViolation "An open spawn edge must not have a close timestamp")
  setEdge collation edge

/-- An agent and the edge stored under its id agree on its parent and its task. -/
def assertPlaced (agent : Agent) : GraphM Unit := do
  let graph ← get
  match agent.parentAgentId with
  | none =>
    require (graph.edgesByChild.find? agent.id = none) (.invariantViolation "A root agent must not have a spawn edge")
  | some parentAgentId => do
    require (graph.hasAgent parentAgentId = true) (.invariantViolation "Agent parent is missing from graph")
    let edge ← expect (graph.edgesByChild.find? agent.id)
      (.invariantViolation "A non-root agent must have exactly one spawn edge")
    require (edge.parentAgentId = parentAgentId)
      (.invariantViolation "Spawn edge parent differs from the agent parent")
    require (edge.taskId = agent.taskId)
      (.invariantViolation "Spawn edge task differs from the agent task assignment")

def assertEnds (edge : AgentGraphEdge) : GraphM Unit := do
  let graph ← get
  require (graph.hasAgent edge.parentAgentId = true) (.invariantViolation "Spawn edge parent is missing")
  require (graph.hasAgent edge.childAgentId = true) (.invariantViolation "Spawn edge child is missing")

def assertClimb (graph : AgentGraph) : Nat → List AgentId → Agent → Except GraphError Unit
  | 0, _, _ => .error parentCycle
  | steps + 1, visited, current =>
    match current.parentAgentId with
    | none => .ok ()
    | some parentId =>
      if visited.contains current.id then .error parentCycle
      else do
        let parent ← graph.requireAgent parentId
        assertClimb graph steps (current.id :: visited) parent

def assertAcyclicAncestry (agentId : AgentId) : GraphM Unit := do
  let graph ← get
  let current ← mustAgent agentId
  match assertClimb graph graph.bound [] current with
  | .ok _ => pure ()
  | .error error => throw error

def assertTopology : GraphM Unit := do
  let graph ← get
  graph.agentsById.rows.forM assertPlaced
  graph.edgesByChild.rows.forM assertEnds
  graph.agentsById.rows.forM fun agent => assertAcyclicAncestry agent.id

def construct (collation : Collation) (snapshot : AgentGraphSnapshot) : GraphM Unit := do
  snapshot.agents.forM addSnapshotAgent
  snapshot.edges.forM (addSnapshotEdge collation)
  assertTopology

/-- `new AgentGraph(snapshot)`. -/
def restore (collation : Collation) (snapshot : AgentGraphSnapshot) : Except GraphError AgentGraph :=
  match construct collation snapshot (blank snapshot.runId) with
  | .ok _ graph => .ok graph
  | .error error _ => .error error

/-- `AgentGraph.empty(runId)`. -/
def empty (collation : Collation) (runId : RunId) : Except GraphError AgentGraph :=
  restore collation { runId := runId, agents := [], edges := [] }

end AgentGraph

end OttiliCoder
