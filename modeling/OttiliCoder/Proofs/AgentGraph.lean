import Mathlib.Logic.Relation
import OttiliCoder.Agents.Graph
import OttiliCoder.Library.Reached

/-! What the operations on the agent graph keep: the three maps agree, parents and spawn
edges match, and every agent lies deeper than its parent. -/

namespace OttiliCoder.AgentGraph
open Relational Transaction StableSort

/-! Operations and runs. -/

inductive GraphOp where
  | registerRoot (agent : Agent)
  | spawn (input : SpawnAgentInput)
  | transitionAgent (agentId : AgentId) (status : AgentStatus) (updatedAt : IsoTimestamp)
  | closeAgent (agentId : AgentId) (closedAt : IsoTimestamp) (closeReason : Option String)
  | closeSpawnEdge (childAgentId : AgentId) (closedAt : IsoTimestamp) (closeReason : Option String)
  | suspendAgent (agentId : AgentId) (updatedAt : IsoTimestamp)
  | stopAgent (agentId : AgentId) (updatedAt : IsoTimestamp)
  | resumeAgent (agentId : AgentId) (updatedAt : IsoTimestamp)

inductive GraphResult where
  | agent (agent : Agent)
  | edge (edge : AgentGraphEdge)

def GraphOp.run (collation : Collation) : GraphOp → GraphM GraphResult
  | registerRoot agent => GraphResult.agent <$> AgentGraph.registerRoot agent
  | spawn input => GraphResult.edge <$> AgentGraph.spawn collation input
  | transitionAgent agentId status updatedAt => GraphResult.agent <$> AgentGraph.transitionAgent agentId status updatedAt
  | closeAgent agentId closedAt closeReason =>
    GraphResult.agent <$> AgentGraph.closeAgent collation agentId closedAt closeReason
  | closeSpawnEdge childAgentId closedAt closeReason =>
    GraphResult.edge <$> AgentGraph.closeSpawnEdge collation childAgentId closedAt closeReason
  | suspendAgent agentId updatedAt => GraphResult.agent <$> AgentGraph.suspendAgent agentId updatedAt
  | stopAgent agentId updatedAt => GraphResult.agent <$> AgentGraph.stopAgent agentId updatedAt
  | resumeAgent agentId updatedAt => GraphResult.agent <$> AgentGraph.resumeAgent agentId updatedAt

/-- The graph after an operation, whether or not it is refused. -/
def GraphOp.perform (collation : Collation) (op : GraphOp) (graph : AgentGraph) : AgentGraph := after (op.run collation) graph

/-- The graphs operations lead to from what the constructor made of a snapshot. -/
def Grown (collation : Collation) (graph : AgentGraph) : Prop :=
  ∃ snapshot start, restore collation snapshot = .ok start ∧
    Reached start (GraphOp.perform collation) (fun _ _ => True) graph

/-! The writes. -/

section Writes
variable (collation : Collation) (graph : AgentGraph)

def withAgent (agent : Agent) : AgentGraph := { graph with agentsById := graph.agentsById.put agent }

def withEdge (edge : AgentGraphEdge) : AgentGraph :=
  { graph with
    edgesByChild := graph.edgesByChild.put edge
    edgesByParent := Function.update graph.edgesByParent edge.parentAgentId
      (collation.sortOn AgentGraphEdge.childAgentId
        ((graph.edgesByParent edge.parentAgentId).filter (fun candidate => candidate.childAgentId != edge.childAgentId) ++ [edge])) }

end Writes

section Results
variable {collation : Collation} {graph next : AgentGraph} {agent current : Agent} {edge : AgentGraphEdge} {agentId : AgentId}

theorem requireAgent_ok : graph.requireAgent agentId = .ok agent ↔ graph.agentsById.find? agentId = some agent := by
  unfold requireAgent
  cases graph.agentsById.find? agentId <;> simp

@[simp] theorem mustAgent_ok :
    mustAgent agentId graph = .ok agent next ↔ graph.agentsById.find? agentId = some agent ∧ next = graph := by
  unfold mustAgent
  simp only [bind_ok, get_ok]
  constructor
  · rintro ⟨_, graph, ⟨rfl, rfl⟩, returned⟩
    cases found : graph.requireAgent agentId with
    | ok other =>
      simp only [found, pure_ok] at returned
      exact ⟨requireAgent_ok.mp (returned.1 ▸ found), returned.2⟩
    | error => simp [found] at returned
  · rintro ⟨found, same⟩
    refine ⟨graph, graph, ⟨rfl, rfl⟩, ?_⟩
    rw [requireAgent_ok.mpr found]
    exact pure_ok.mpr ⟨rfl, same⟩

theorem readOnly_mustAgent : ReadOnly (mustAgent agentId) := by
  refine ReadOnly.get.bind fun graph => ?_
  cases graph.requireAgent agentId with
  | ok agent => exact .pure agent
  | error error => exact .throw error

@[simp] theorem setAgent_ok {u : Unit} : setAgent agent graph = .ok u next ↔ next = graph.withAgent agent := modify_ok

@[simp] theorem assertAgentBelongsToRun_ok {u : Unit} :
    assertAgentBelongsToRun agent graph = .ok u next ↔ agent.runId = graph.runId ∧ next = graph := by
  unfold assertAgentBelongsToRun
  simp only [bind_ok, get_ok, require_ok]
  constructor
  · rintro ⟨_, _, ⟨rfl, rfl⟩, home, same⟩
    exact ⟨home, same⟩
  · rintro ⟨home, same⟩
    exact ⟨graph, graph, ⟨rfl, rfl⟩, home, same⟩

theorem setEdge_ok {u : Unit} :
    setEdge collation edge graph = .ok u next ↔
      (∀ existing, graph.edgesByChild.find? edge.childAgentId = some existing → existing.parentAgentId = edge.parentAgentId) ∧
        next = graph.withEdge collation edge := by
  unfold setEdge
  simp only [bind_ok, get_ok, require_ok, set_ok]
  have agree : (graph.edgesByChild.find? edge.childAgentId).all (fun existing => existing.parentAgentId == edge.parentAgentId) =
      true ↔ ∀ existing, graph.edgesByChild.find? edge.childAgentId = some existing →
        existing.parentAgentId = edge.parentAgentId := by
    cases graph.edgesByChild.find? edge.childAgentId <;> simp
  constructor
  · rintro ⟨_, _, ⟨rfl, rfl⟩, _, _, ⟨kept, rfl⟩, same⟩
    exact ⟨agree.mp kept, same⟩
  · rintro ⟨kept, same⟩
    exact ⟨graph, graph, ⟨rfl, rfl⟩, (), graph, ⟨agree.mpr kept, rfl⟩, same⟩

end Results

/-! What an operation may do. -/

/-- The rewritten agent keeps its place in the graph. -/
structure SamePlace (next current : Agent) : Prop where
  id : next.id = current.id
  run : next.runId = current.runId
  parent : next.parentAgentId = current.parentAgentId
  task : next.taskId = current.taskId

/-- The rewritten edge is closed and otherwise joins the same agents. -/
structure Closes (next current : AgentGraphEdge) : Prop where
  key : next.key = current.key
  parent : next.parentAgentId = current.parentAgentId
  child : next.childAgentId = current.childAgentId
  run : next.runId = current.runId
  task : next.taskId = current.taskId
  closed : next.state = .closed
  stamped : next.closedAt.isSome = true

/-- One write of an operation. -/
inductive Change (collation : Collation) (graph : AgentGraph) : AgentGraph → Prop
  | rewritten {current next : Agent} (stored : graph.agentsById.find? next.id = some current) (place : SamePlace next current) :
      Change collation graph (graph.withAgent next)
  | rooted {agent : Agent} (home : agent.runId = graph.runId) (top : agent.parentAgentId = none)
      (fresh : graph.agentsById.find? agent.id = none) : Change collation graph (graph.withAgent agent)
  | spawned {input : SpawnAgentInput} {parent : Agent} (home : input.agent.runId = graph.runId)
      (above : graph.agentsById.find? input.parentAgentId = some parent)
      (fresh : graph.agentsById.find? input.agent.id = none) (apart : input.agent.id ≠ input.parentAgentId)
      (below : input.agent.parentAgentId = some input.parentAgentId) :
      Change collation graph ((graph.withAgent input.agent).withEdge collation (spawnEdge graph.runId input))
  | closed {current next : AgentGraphEdge} (stored : graph.edgesByChild.find? next.childAgentId = some current)
      (closes : Closes next current) : Change collation graph (graph.withEdge collation next)

abbrev Changes (collation : Collation) : AgentGraph → AgentGraph → Prop := Relation.ReflTransGen (Change collation)

section Operations
variable {collation : Collation} {graph next : AgentGraph} {agent : Agent} {edge : AgentGraphEdge} {agentId : AgentId}
  {status : AgentStatus} {timestamp : IsoTimestamp} {reason : Option String} {input : SpawnAgentInput}

theorem registerRoot_changes {added : Agent} (returned : registerRoot agent graph = .ok added next) : Changes collation graph next := by
  simp only [registerRoot, bind_ok, assertAgentBelongsToRun_ok, require_ok, get_ok, setAgent_ok, pure_ok] at returned
  obtain ⟨_, _, ⟨home, rfl⟩, _, _, ⟨top, rfl⟩, _, _, ⟨rfl, rfl⟩, _, _, ⟨fresh, rfl⟩, _, _, rfl, -, rfl⟩ := returned
  exact .single (.rooted home top (by simpa [hasAgent] using fresh))

theorem spawn_changes (returned : spawn collation input graph = .ok edge next) : Changes collation graph next := by
  simp only [spawn, bind_ok, assertAgentBelongsToRun_ok, mustAgent_ok, require_ok, get_ok, setAgent_ok, setEdge_ok,
    pure_ok] at returned
  obtain ⟨_, _, ⟨home, rfl⟩, parent, _, ⟨above, rfl⟩, _, _, ⟨rfl, rfl⟩, _, _, ⟨fresh, rfl⟩, _, _, ⟨apart, rfl⟩, _, _,
    ⟨below, rfl⟩, _, _, ⟨-, rfl⟩, _, _, rfl, _, _, ⟨-, rfl⟩, -, rfl⟩ := returned
  exact .single (.spawned home above (by simpa [hasAgent] using fresh) apart below)

theorem transitionAgent_ok :
    transitionAgent agentId status timestamp graph = .ok agent next ↔
      ∃ current, graph.agentsById.find? agentId = some current ∧
        ((current.status = status ∧ agent = current ∧ next = graph) ∨
          (current.status ≠ status ∧ canTransitionAgent current.status status = true ∧
            agent = { current with
              status := status
              updatedAt := timestamp
              closedAt := if status = .closed then some timestamp else current.closedAt } ∧
            next = graph.withAgent agent)) := by
  simp only [transitionAgent, bind_ok, mustAgent_ok, ite_ok, pure_ok, assertAgentTransition, require_ok, setAgent_ok]
  constructor
  · rintro ⟨current, _, ⟨found, rfl⟩, moved⟩
    refine ⟨current, found, ?_⟩
    rcases moved with ⟨same, rfl, rfl⟩ | ⟨apart, _, _, ⟨edge, rfl⟩, _, _, rfl, rfl, rfl⟩
    · exact .inl ⟨same, rfl, rfl⟩
    · exact .inr ⟨apart, edge, rfl, rfl⟩
  · rintro ⟨current, found, moved⟩
    refine ⟨current, graph, ⟨found, rfl⟩, ?_⟩
    rcases moved with ⟨same, rfl, rfl⟩ | ⟨apart, edge, rfl, rfl⟩
    · exact .inl ⟨same, rfl, rfl⟩
    · exact .inr ⟨apart, (), graph, ⟨edge, rfl⟩, (), _, rfl, rfl, rfl⟩

theorem transitionAgent_changes (returned : transitionAgent agentId status timestamp graph = .ok agent next) :
    Changes collation graph next := by
  obtain ⟨current, found, ⟨-, -, rfl⟩ | ⟨-, -, rfl, rfl⟩⟩ := transitionAgent_ok.mp returned
  · exact .refl
  · have same : current.id = agentId := (Keyed.find?_eq_some.mp found).2
    subst same
    exact .single (.rewritten found ⟨rfl, rfl, rfl, rfl⟩)

theorem transitionAgent_atomic : Atomic (transitionAgent agentId status timestamp) := by
  refine readOnly_mustAgent.atomic_bind fun current => ?_
  split
  · exact (ReadOnly.pure current).atomic
  · refine (ReadOnly.require _ _).atomic_bind fun _ graph => ?_
    exact atomicAt_of_ok (show _ = EStateM.Result.ok _ (graph.withAgent _) from rfl)

theorem closeSpawnEdge_ok :
    closeSpawnEdge collation agentId timestamp reason graph = .ok edge next ↔
      ∃ current, graph.edgesByChild.find? agentId = some current ∧
        ((current.state = .closed ∧ edge = current ∧ next = graph) ∨
          (current.state ≠ .closed ∧
            edge = { current with
              state := .closed
              closedAt := some timestamp
              updatedAt := timestamp
              closeReason := reason.or current.closeReason } ∧
            next = graph.withEdge collation edge)) := by
  simp only [closeSpawnEdge, bind_ok, get_ok, expect_ok, ite_ok, pure_ok, setEdge_ok]
  constructor
  · rintro ⟨_, _, ⟨rfl, rfl⟩, current, _, ⟨found, rfl⟩, moved⟩
    refine ⟨current, found, ?_⟩
    rcases moved with ⟨same, rfl, rfl⟩ | ⟨apart, _, _, ⟨-, rfl⟩, rfl, rfl⟩
    · exact .inl ⟨same, rfl, rfl⟩
    · exact .inr ⟨apart, rfl, rfl⟩
  · rintro ⟨current, found, moved⟩
    refine ⟨graph, graph, ⟨rfl, rfl⟩, current, graph, ⟨found, rfl⟩, ?_⟩
    rcases moved with ⟨same, rfl, rfl⟩ | ⟨apart, rfl, rfl⟩
    · exact .inl ⟨same, rfl, rfl⟩
    · have child : current.childAgentId = agentId := (Keyed.find?_eq_some.mp found).2
      refine .inr ⟨apart, (), _, ⟨fun existing stored => ?_, rfl⟩, rfl, rfl⟩
      simp only [child] at stored
      cases found.symm.trans stored
      rfl

theorem closeSpawnEdge_changes (returned : closeSpawnEdge collation agentId timestamp reason graph = .ok edge next) :
    Changes collation graph next := by
  rw [closeSpawnEdge_ok] at returned
  obtain ⟨current, found, ⟨-, -, rfl⟩ | ⟨-, rfl, rfl⟩⟩ := returned
  · exact .refl
  · have child : current.childAgentId = agentId := (Keyed.find?_eq_some.mp found).2
    subst child
    exact .single (.closed found ⟨rfl, rfl, rfl, rfl, rfl, rfl, rfl⟩)

/-- A stored edge can always be closed. -/
theorem closeSpawnEdge_returns (collation : Collation) (timestamp : IsoTimestamp) (reason : Option String)
    (stored : (graph.edgesByChild.find? agentId).isSome = true) :
    ∃ edge next, closeSpawnEdge collation agentId timestamp reason graph = .ok edge next := by
  obtain ⟨current, found⟩ := Option.isSome_iff_exists.mp stored
  simp only [closeSpawnEdge_ok]
  by_cases closed : current.state = .closed
  · exact ⟨current, graph, current, found, .inl ⟨closed, rfl, rfl⟩⟩
  · exact ⟨_, _, current, found, .inr ⟨closed, rfl, rfl⟩⟩

theorem closeSpawnEdge_atomicAt : AtomicAt (closeSpawnEdge collation agentId timestamp reason) graph := by
  by_cases stored : (graph.edgesByChild.find? agentId).isSome = true
  · obtain ⟨edge, next, returned⟩ := closeSpawnEdge_returns collation timestamp reason stored
    exact atomicAt_of_ok returned
  · refine ReadOnly.get.atomicAt_bind fun current read => ?_
    obtain ⟨rfl, -⟩ := get_ok.mp read
    refine (ReadOnly.expect _ _).atomicAt_bind fun found expected => ?_
    exact absurd (expect_ok.mp expected).1 (by simp [Option.not_isSome_iff_eq_none.mp stored])

theorem closeAgent_ok :
    closeAgent collation agentId timestamp reason graph = .ok agent next ↔
      ∃ middle, transitionAgent agentId .closed timestamp graph = .ok agent middle ∧
        (((middle.edgesByChild.find? agentId).isSome = true ∧
            ∃ edge, closeSpawnEdge collation agentId timestamp reason middle = .ok edge next) ∨
          ((middle.edgesByChild.find? agentId).isSome ≠ true ∧ next = middle)) := by
  simp only [closeAgent, bind_ok, get_ok, onlyIf_ok, pure_ok]
  constructor
  · rintro ⟨_, middle, moved, _, _, ⟨rfl, rfl⟩, _, _, either, rfl, rfl⟩
    refine ⟨_, moved, ?_⟩
    rcases either with ⟨stored, edge, _, closed, -, rfl⟩ | ⟨missing, rfl⟩
    · exact .inl ⟨stored, edge, closed⟩
    · exact .inr ⟨missing, rfl⟩
  · rintro ⟨middle, moved, either⟩
    refine ⟨agent, middle, moved, middle, middle, ⟨rfl, rfl⟩, (), next, ?_, rfl, rfl⟩
    rcases either with ⟨stored, edge, closed⟩ | ⟨missing, rfl⟩
    · exact .inl ⟨stored, edge, next, closed, trivial, rfl⟩
    · exact .inr ⟨missing, rfl⟩

theorem closeAgent_changes (returned : closeAgent collation agentId timestamp reason graph = .ok agent next) :
    Changes collation graph next := by
  rw [closeAgent_ok] at returned
  obtain ⟨middle, moved, ⟨-, edge, closed⟩ | ⟨-, rfl⟩⟩ := returned
  · exact (transitionAgent_changes moved).trans (closeSpawnEdge_changes closed)
  · exact transitionAgent_changes moved

/-- Once the agent is closed, closing its edge cannot be refused. -/
theorem closeAgent_atomic : Atomic (closeAgent collation agentId timestamp reason) := by
  intro graph error next failed
  cases moved : transitionAgent agentId .closed timestamp graph with
  | error other middle =>
    rw [closeAgent, bind_apply, moved] at failed
    cases failed
    exact transitionAgent_atomic _ _ _ moved
  | ok agent middle =>
    have returned : ∃ next, closeAgent collation agentId timestamp reason graph = .ok agent next := by
      by_cases stored : (middle.edgesByChild.find? agentId).isSome = true
      · obtain ⟨edge, next, closed⟩ := closeSpawnEdge_returns collation timestamp reason stored
        refine ⟨next, ?_⟩
        rw [closeAgent_ok]
        exact ⟨middle, moved, .inl ⟨stored, edge, closed⟩⟩
      · refine ⟨middle, ?_⟩
        rw [closeAgent_ok]
        exact ⟨middle, moved, .inr ⟨stored, rfl⟩⟩
    obtain ⟨other, returned⟩ := returned
    rw [returned] at failed
    cases failed

theorem resumeAgent_changes (returned : resumeAgent agentId timestamp graph = .ok agent next) :
    Changes collation graph next := by
  simp only [resumeAgent, bind_ok, mustAgent_ok, require_ok, get_ok] at returned
  obtain ⟨current, _, ⟨-, rfl⟩, _, _, ⟨-, rfl⟩, read, _, ⟨same, rfl⟩, moved⟩ := returned
  subst same
  rename_i read
  cases asked : read.hasOpenAncestry agentId with
  | error error =>
    simp only [asked] at moved
    cases moved
  | ok opened =>
    simp only [asked, bind_ok, require_ok] at moved
    obtain ⟨_, _, ⟨-, rfl⟩, moved⟩ := moved
    exact transitionAgent_changes moved

theorem resumeAgent_atomic : Atomic (resumeAgent agentId timestamp) := by
  refine readOnly_mustAgent.atomic_bind fun current => (ReadOnly.require _ _).atomic_bind fun _ => ?_
  refine ReadOnly.get.atomic_bind fun graph => ?_
  cases asked : graph.hasOpenAncestry agentId with
  | error error => simpa only [asked] using (ReadOnly.throw error).atomic
  | ok opened => simpa only [asked] using (ReadOnly.require _ _).atomic_bind fun _ => transitionAgent_atomic

theorem registerRoot_atomic : Atomic (registerRoot agent) := by
  have home : ReadOnly (assertAgentBelongsToRun agent) := ReadOnly.get.bind fun _ => .require _ _
  refine home.atomic_bind fun _ => (ReadOnly.require _ _).atomic_bind fun _ => ?_
  refine ReadOnly.get.atomic_bind fun _ => (ReadOnly.require _ _).atomic_bind fun _ graph => ?_
  exact atomicAt_of_ok (show _ = EStateM.Result.ok agent (graph.withAgent agent) from rfl)

end Operations

end OttiliCoder.AgentGraph
