import Mathlib.Data.List.Lex
import OttiliCoder.Library.Paired
import OttiliCoder.Proofs.AgentForest

/-! A graph and the graph rebuilt from its snapshot. They answer every query alike, now and
after any operations, exactly when each parent's list holds the siblings that the
comparator cannot tell apart as the snapshot holds them. -/

namespace OttiliCoder.AgentGraph
open Relational Transaction StableSort

/-! The rebuilt graph. -/

/-- A parent's edges as the constructor sorts them. -/
def sortedBranch (collation : Collation) (edges : List AgentGraphEdge) (parentId : AgentId) : List AgentGraphEdge :=
  collation.sortOn AgentGraphEdge.childAgentId (edges.filter fun edge => edge.parentAgentId == parentId)

section Rebuilding
variable {collation : Collation} {graph other : AgentGraph}

/-- Stored rows in another order are the same topology. -/
theorem Topology.reordered (topology : Topology collation graph) (stored : Stored collation other)
    (agents : other.agentsById.rows.Perm graph.agentsById.rows) (edges : other.edgesByChild.rows.Perm graph.edgesByChild.rows) :
    Topology collation other where
  toStored := stored
  top agent inside free := by
    rw [Keyed.find?_perm edges]
    exact topology.top agent (agents.mem_iff.mp inside) free
  placed agent inside parentId under := by
    rw [Keyed.find?_perm edges]
    exact topology.placed agent (agents.mem_iff.mp inside) parentId under
  above edge inside := by
    rw [Keyed.find?_perm agents]
    exact topology.above edge (edges.mem_iff.mp inside)
  below edge inside := by
    rw [Keyed.find?_perm agents]
    exact topology.below edge (edges.mem_iff.mp inside)
  rooted agent inside := by
    obtain ⟨lineage, path⟩ := topology.rooted agent (agents.mem_iff.mp inside)
    exact path.follow (fun member stored => ⟨member, agents.mem_iff.mpr stored, rfl, rfl⟩) rfl

/-- The constructor with the agents of a snapshot loaded up to `rest`. -/
structure AgentsLoaded (collation : Collation) (snapshot : AgentGraphSnapshot) (rest : List Agent) (loaded : AgentGraph) : Prop where
  run : loaded.runId = snapshot.runId
  agents : loaded.agentsById.rows ++ rest = snapshot.agents
  edges : loaded.edgesByChild.rows = []
  branches : ∀ parentId, loaded.edgesByParent parentId = []
  stored : Stored collation loaded

theorem AgentsLoaded.step {snapshot : AgentGraphSnapshot} {agent : Agent} {rest : List Agent}
    (loaded : AgentsLoaded collation snapshot (agent :: rest) graph) (distinct : (snapshot.agents.map Agent.id).Nodup)
    (home : ∀ agent ∈ snapshot.agents, agent.runId = snapshot.runId) :
    Returns (addSnapshotAgent agent) graph fun _ => AgentsLoaded collation snapshot rest := by
  have fresh : graph.agentsById.find? agent.id = none := Keyed.find?_upcoming (loaded.agents ▸ distinct)
  have here : agent.runId = graph.runId := (home agent (by simp [← loaded.agents])).trans loaded.run.symm
  refine ⟨(), graph.withAgent agent, addSnapshotAgent_ok.mpr ⟨here, fresh, rfl⟩, ?_⟩
  exact
    { run := loaded.run
      agents := by simp [withAgent, Keyed.put_fresh fresh, ← loaded.agents]
      edges := loaded.edges
      branches := loaded.branches
      stored := loaded.stored.withAgent here }

/-- The constructor with all agents and the edges up to `rest` loaded. -/
structure EdgesLoaded (collation : Collation) (snapshot : AgentGraphSnapshot) (rest : List AgentGraphEdge) (loaded : AgentGraph) :
    Prop where
  run : loaded.runId = snapshot.runId
  agents : loaded.agentsById.rows = snapshot.agents
  edges : loaded.edgesByChild.rows ++ rest = snapshot.edges
  branches : ∀ parentId, loaded.edgesByParent parentId = sortedBranch collation loaded.edgesByChild.rows parentId
  stored : Stored collation loaded

theorem EdgesLoaded.rows {snapshot : AgentGraphSnapshot} (loaded : EdgesLoaded collation snapshot [] graph) :
    graph.edgesByChild.rows = snapshot.edges := (List.append_nil _).symm.trans loaded.edges

/-- Adding a new edge sorts it into the branch of its parent. -/
theorem edgesByParent_withEdge {edge : AgentGraphEdge} {parentId : AgentId} (stored : Stored collation graph)
    (branches : graph.edgesByParent parentId = sortedBranch collation graph.edgesByChild.rows parentId)
    (fresh : graph.edgesByChild.find? edge.childAgentId = none) :
    (graph.withEdge collation edge).edgesByParent parentId =
      sortedBranch collation (graph.edgesByChild.rows ++ [edge]) parentId := by
  by_cases same : parentId = edge.parentAgentId
  · subst same
    have others : ∀ candidate ∈ graph.edgesByParent edge.parentAgentId, (candidate.childAgentId != edge.childAgentId) = true := by
      intro candidate member
      have inside : candidate ∈ graph.edgesByChild := List.mem_of_mem_filter ((stored.branches _).mem_iff.mp member)
      simpa using Keyed.find?_eq_none.mp fresh candidate inside
    simp only [withEdge, Function.update_self, sortedBranch, List.filter_append]
    rw [List.filter_eq_self.mpr others, branches, sortedBranch, sortOn_append sortOn_sortOn]
    simp
  · simp only [withEdge, Function.update_of_ne same, branches, sortedBranch, List.filter_append]
    simp [Ne.symm same]

theorem EdgesLoaded.step {snapshot : AgentGraphSnapshot} {edge : AgentGraphEdge} {rest : List AgentGraphEdge}
    (loaded : EdgesLoaded collation snapshot (edge :: rest) graph)
    (distinct : (snapshot.edges.map AgentGraphEdge.childAgentId).Nodup)
    (fits : ∀ edge ∈ snapshot.edges, EdgeFits snapshot.runId edge) :
    Returns (addSnapshotEdge collation edge) graph fun _ => EdgesLoaded collation snapshot rest := by
  have fresh : graph.edgesByChild.find? edge.childAgentId = none := Keyed.find?_upcoming (loaded.edges ▸ distinct)
  have here : EdgeFits graph.runId edge := loaded.run ▸ fits edge (by simp [← loaded.edges])
  refine ⟨(), graph.withEdge collation edge, addSnapshotEdge_ok.mpr ⟨here, fresh, rfl⟩, ?_⟩
  have rows : (graph.withEdge collation edge).edgesByChild.rows = graph.edgesByChild.rows ++ [edge] := Keyed.put_fresh fresh
  exact
    { run := loaded.run
      agents := loaded.agents
      edges := by simp [rows, ← loaded.edges]
      branches := fun parentId => by
        rw [rows]
        exact edgesByParent_withEdge loaded.stored (loaded.branches parentId) fresh
      stored := loaded.stored.withEdge here (by simp [fresh]) }

/-- The constructor accepts the snapshot of a topology. -/
theorem Topology.restored (topology : Topology collation graph) :
    ∃ rebuilt, restore collation (graph.snapshot collation) = .ok rebuilt ∧
      EdgesLoaded collation (graph.snapshot collation) [] rebuilt := by
  have home : ∀ agent ∈ (graph.snapshot collation).agents, agent.runId = graph.runId := by
    exact fun agent inside => topology.home agent (mem_sortOn.mp inside)
  have fits : ∀ edge ∈ (graph.snapshot collation).edges, EdgeFits graph.runId edge := by
    exact fun edge inside => topology.fits edge (mem_sortOn.mp inside)
  have agents : ((graph.snapshot collation).agents.map Agent.id).Nodup :=
    (sortOn_perm.map _).nodup_iff.mpr graph.agentsById.unique
  have edges : ((graph.snapshot collation).edges.map AgentGraphEdge.childAgentId).Nodup :=
    (sortOn_perm.map _).nodup_iff.mpr graph.edgesByChild.unique
  have start : AgentsLoaded collation (graph.snapshot collation) (graph.snapshot collation).agents (blank graph.runId) :=
    ⟨rfl, rfl, rfl, fun _ => rfl, stored_blank _⟩
  have filled := Returns.forM (AgentsLoaded collation (graph.snapshot collation)) start fun _ _ _ loaded =>
    loaded.step agents home
  have built : Returns (construct collation (graph.snapshot collation)) (blank graph.runId)
      fun _ => EdgesLoaded collation (graph.snapshot collation) [] := by
    refine filled.bind fun _ first _ loaded => ?_
    have begun : EdgesLoaded collation (graph.snapshot collation) (graph.snapshot collation).edges first := by
      refine ⟨loaded.run, by simpa using loaded.agents, by simp [loaded.edges], fun parentId => ?_, loaded.stored⟩
      rw [loaded.branches, loaded.edges]
      rfl
    refine (Returns.forM _ begun fun _ _ _ loaded => loaded.step edges fits).bind fun _ second _ loaded => ?_
    have listed : second.edgesByChild.rows = (graph.snapshot collation).edges := loaded.rows
    have shape : Topology collation second := by
      apply topology.reordered loaded.stored
      · rw [loaded.agents]
        exact sortOn_perm
      · rw [listed]
        exact sortOn_perm
    exact ⟨(), second, (assertTopology_ok loaded.stored).mpr ⟨shape, rfl⟩, loaded⟩
  obtain ⟨_, rebuilt, returned, loaded⟩ := built
  refine ⟨rebuilt, ?_, loaded⟩
  rw [restore, show (graph.snapshot collation).runId = graph.runId from rfl, returned]

end Rebuilding

/-! Graphs that are alike. -/

/-- The two graphs hold the same rows, and each parent's children in one order. -/
structure Alike (collation : Collation) (graph other : AgentGraph) : Prop where
  run : graph.runId = other.runId
  agents : graph.listAgents collation = other.listAgents collation
  edges : graph.listEdges collation = other.listEdges collation
  branches : graph.edgesByParent = other.edgesByParent
  canonical : ∀ edge ∈ graph.edgesByChild, edge.key = createAgentSpawnEdgeKey edge.parentAgentId edge.childAgentId

section Queries
variable {collation : Collation} {graph other : AgentGraph}

theorem perm_of_sorted {α : Type} {label : α → String} {first second : List α}
    (same : collation.sortOn label first = collation.sortOn label second) : first.Perm second := by
  have perm : (collation.sortOn label first).Perm second := by
    rw [same]
    exact sortOn_perm
  exact sortOn_perm.symm.trans perm

theorem Alike.agent (alike : Alike collation graph other) (agentId : AgentId) :
    graph.agentsById.find? agentId = other.agentsById.find? agentId := Keyed.find?_perm (perm_of_sorted alike.agents) agentId

theorem Alike.edge (alike : Alike collation graph other) (childAgentId : AgentId) :
    graph.edgesByChild.find? childAgentId = other.edgesByChild.find? childAgentId :=
  Keyed.find?_perm (perm_of_sorted alike.edges) childAgentId

theorem Alike.bound (alike : Alike collation graph other) : graph.bound = other.bound :=
  congrArg (· + 1) (perm_of_sorted alike.agents).length_eq

theorem Alike.requireAgent (alike : Alike collation graph other) (agentId : AgentId) :
    graph.requireAgent agentId = other.requireAgent agentId := by
  unfold AgentGraph.requireAgent
  rw [alike.agent]

theorem Alike.childEdges (alike : Alike collation graph other) (parentId : AgentId) (edgeState : Option AgentSpawnEdgeState) :
    graph.childEdges parentId edgeState = other.childEdges parentId edgeState := by
  unfold AgentGraph.childEdges
  rw [alike.branches]

theorem Alike.visit (alike : Alike collation graph other) (edgeState : Option AgentSpawnEdgeState) (depth : Nat)
    (parentId : AgentId) (walked : List AgentId × List Agent) :
    graph.visit edgeState depth parentId walked = other.visit edgeState depth parentId walked := by
  induction depth generalizing parentId walked with
  | zero => rfl
  | succ depth ih => simp only [AgentGraph.visit, alike.childEdges, alike.requireAgent, ih]

theorem Alike.climb (alike : Alike collation graph other) (steps : Nat) (visited : List AgentId) (current : Agent)
    (lineage : List Agent) : graph.climb steps visited current lineage = other.climb steps visited current lineage := by
  induction steps generalizing visited current lineage with
  | zero => rfl
  | succ steps ih => simp only [AgentGraph.climb, alike.requireAgent, ih]

theorem Alike.climbOpen (alike : Alike collation graph other) (steps : Nat) (visited : List AgentId) (current : Agent) :
    graph.climbOpen steps visited current = other.climbOpen steps visited current := by
  induction steps generalizing visited current with
  | zero => rfl
  | succ steps ih => simp only [AgentGraph.climbOpen, alike.edge, alike.requireAgent, ih]

theorem Alike.ancestors (alike : Alike collation graph other) (agentId : AgentId) :
    graph.ancestors agentId = other.ancestors agentId := by
  simp only [AgentGraph.ancestors, alike.requireAgent, alike.bound, alike.climb]

theorem Alike.taskPath (alike : Alike collation graph other) (agentId : AgentId) :
    graph.taskPath agentId = other.taskPath agentId := by
  simp only [AgentGraph.taskPath, alike.ancestors, alike.requireAgent]

theorem Alike.hasOpenAncestry (alike : Alike collation graph other) (agentId : AgentId) :
    graph.hasOpenAncestry agentId = other.hasOpenAncestry agentId := by
  simp only [AgentGraph.hasOpenAncestry, alike.requireAgent, alike.bound, alike.climbOpen]

/-- Graphs that are alike answer alike. -/
theorem Alike.ask (alike : Alike collation graph other) (query : GraphQuery) :
    graph.ask collation query = other.ask collation query := by
  cases query with
  | snapshot => simp only [AgentGraph.ask, AgentGraph.snapshot, alike.run, alike.agents, alike.edges]
  | listAgents => simp only [AgentGraph.ask, alike.agents]
  | listEdges => simp only [AgentGraph.ask, alike.edges]
  | hasAgent => simp only [AgentGraph.ask, hasAgent, alike.agent]
  | getAgent => simp only [AgentGraph.ask, getAgent, alike.agent]
  | requireAgent => simp only [AgentGraph.ask, alike.requireAgent]
  | getSpawnEdge => simp only [AgentGraph.ask, getSpawnEdge, alike.edge]
  | roots => simp only [AgentGraph.ask, roots, alike.agents]
  | children => simp only [AgentGraph.ask, children, alike.requireAgent, alike.childEdges]
  | descendants => simp only [AgentGraph.ask, descendants, alike.requireAgent, alike.bound, alike.visit]
  | ancestors => simp only [AgentGraph.ask, alike.ancestors]
  | taskPath => simp only [AgentGraph.ask, alike.taskPath]
  | resumeCandidates => simp only [AgentGraph.ask, resumeCandidates, alike.agents, alike.hasOpenAncestry, alike.taskPath]
  | hasOpenAncestry => simp only [AgentGraph.ask, alike.hasOpenAncestry]
  | openChildCount => simp only [AgentGraph.ask, openChildCount, alike.childEdges]

end Queries

section Operations
variable {collation : Collation} {graph other : AgentGraph} {agent : Agent} {edge : AgentGraphEdge} {agentId : AgentId}
  {status : AgentStatus} {timestamp : IsoTimestamp} {reason : Option String} {input : SpawnAgentInput}

/-- Storing one row in tables that sort alike keeps them alike, when it sorts where the row
it replaces did. -/
theorem sortOn_put {ρ κ : Type} [DecidableEq κ] {key : ρ → κ} {label : ρ → String} {first second : Keyed key} {row : ρ}
    (same : collation.sortOn label first.rows = collation.sortOn label second.rows)
    (keeps : ∀ stored ∈ first, key stored = key row → label row = label stored) :
    collation.sortOn label (first.put row).rows = collation.sortOn label (second.put row).rows := by
  have found : first.find? (key row) = second.find? (key row) := Keyed.find?_perm (perm_of_sorted same) (key row)
  by_cases stored : (first.find? (key row)).isSome = true
  · rw [Keyed.put_stored stored, Keyed.put_stored (found ▸ stored)]
    apply sortOn_map same
    intro old member
    split
    next equal => exact keeps old member equal
    next => rfl
  · have fresh : first.find? (key row) = none := Option.not_isSome_iff_eq_none.mp stored
    rw [Keyed.put_fresh fresh, Keyed.put_fresh (found ▸ fresh)]
    exact sortOn_append same [row]

theorem Alike.withAgent (alike : Alike collation graph other) (agent : Agent) :
    Alike collation (graph.withAgent agent) (other.withAgent agent) where
  run := alike.run
  agents := sortOn_put alike.agents fun _ _ same => same.symm
  edges := alike.edges
  branches := alike.branches
  canonical := alike.canonical

theorem Alike.withEdge (alike : Alike collation graph other)
    (canonical : edge.key = createAgentSpawnEdgeKey edge.parentAgentId edge.childAgentId)
    (kept : ∀ existing, graph.edgesByChild.find? edge.childAgentId = some existing → existing.parentAgentId = edge.parentAgentId) :
    Alike collation (graph.withEdge collation edge) (other.withEdge collation edge) where
  run := alike.run
  agents := alike.agents
  edges := by
    apply sortOn_put alike.edges
    intro stored member same
    rw [canonical, alike.canonical stored member, kept stored (Keyed.find?_eq_some.mpr ⟨member, same⟩), same]
  branches := by simp only [AgentGraph.withEdge, alike.branches]
  canonical stored member := by
    rcases mem_withEdge.mp member with rfl | ⟨before, -⟩
    · exact canonical
    · exact alike.canonical stored before

theorem paired_mustAgent (alike : Alike collation graph other) :
    Paired (Alike collation) (mustAgent agentId) (mustAgent agentId) graph other := by
  refine Paired.get ?_
  rw [alike.requireAgent]
  cases other.requireAgent agentId with
  | ok agent => exact .pure alike
  | error error => exact .throw alike

theorem paired_setAgent (alike : Alike collation graph other) :
    Paired (Alike collation) (setAgent agent) (setAgent agent) graph other :=
  paired_ok rfl rfl (alike.withAgent agent)

theorem paired_belongs (alike : Alike collation graph other) :
    Paired (Alike collation) (assertAgentBelongsToRun agent) (assertAgentBelongsToRun agent) graph other :=
  Paired.get (.require (by rw [alike.run]) alike)

theorem paired_setEdge (alike : Alike collation graph other)
    (canonical : edge.key = createAgentSpawnEdgeKey edge.parentAgentId edge.childAgentId) :
    Paired (Alike collation) (setEdge collation edge) (setEdge collation edge) graph other := by
  refine Paired.get (Paired.bind (.require (by rw [alike.edge]) alike) fun _ s' t' first second _ => ?_)
  obtain ⟨kept, rfl⟩ := require_ok.mp first
  obtain ⟨-, rfl⟩ := require_ok.mp second
  refine paired_ok rfl rfl (alike.withEdge canonical fun existing found => ?_)
  simpa [found] using kept

theorem paired_registerRoot (alike : Alike collation graph other) :
    Paired (Alike collation) (registerRoot agent) (registerRoot agent) graph other := by
  refine (paired_belongs alike).bind fun _ _ _ _ _ alike => ?_
  refine Paired.bind (.require Iff.rfl alike) fun _ _ _ _ _ alike => Paired.get ?_
  refine Paired.bind (.require (by rw [hasAgent, hasAgent, alike.agent]) alike) fun _ _ _ _ _ alike => ?_
  exact (paired_setAgent alike).bind fun _ _ _ _ _ alike => .pure alike

theorem paired_spawn (alike : Alike collation graph other) :
    Paired (Alike collation) (spawn collation input) (spawn collation input) graph other := by
  refine (paired_belongs alike).bind fun _ _ _ _ _ alike => (paired_mustAgent alike).bind fun _ read _ _ _ alike => Paired.get ?_
  refine Paired.bind (.require (by rw [hasAgent, hasAgent, alike.agent]) alike) fun _ _ _ _ _ kept => ?_
  refine Paired.bind (.require Iff.rfl kept) fun _ _ _ _ _ kept => ?_
  refine Paired.bind (.require Iff.rfl kept) fun _ _ _ _ _ kept => ?_
  refine Paired.bind (.require Iff.rfl kept) fun _ _ _ _ _ kept => ?_
  -- Both graphs build the edge for the same run.
  have canonical : (spawnEdge read.runId input).key = createAgentSpawnEdgeKey input.parentAgentId input.agent.id := rfl
  simp only [← alike.run]
  exact (paired_setAgent kept).bind fun _ _ _ _ _ kept =>
    (paired_setEdge kept canonical).bind fun _ _ _ _ _ kept => .pure kept

theorem paired_transitionAgent (alike : Alike collation graph other) :
    Paired (Alike collation) (transitionAgent agentId status timestamp) (transitionAgent agentId status timestamp) graph other := by
  refine (paired_mustAgent alike).bind fun current _ _ _ _ alike => ?_
  split
  · exact .pure alike
  · refine Paired.bind (.require Iff.rfl alike) fun _ _ _ _ _ alike => ?_
    exact (paired_setAgent alike).bind fun _ _ _ _ _ alike => .pure alike

theorem paired_closeSpawnEdge (alike : Alike collation graph other) :
    Paired (Alike collation) (closeSpawnEdge collation agentId timestamp reason)
      (closeSpawnEdge collation agentId timestamp reason) graph other := by
  refine Paired.get (Paired.bind (.expect (alike.edge agentId) alike) fun current _ _ found again _ => ?_)
  obtain ⟨stored, rfl⟩ := expect_ok.mp found
  obtain ⟨-, rfl⟩ := expect_ok.mp again
  split
  · exact .pure alike
  · refine (paired_setEdge alike ?_).bind fun _ _ _ _ _ alike => .pure alike
    exact alike.canonical current (Keyed.find?_eq_some.mp stored).1

theorem paired_closeAgent (alike : Alike collation graph other) :
    Paired (Alike collation) (closeAgent collation agentId timestamp reason)
      (closeAgent collation agentId timestamp reason) graph other := by
  refine (paired_transitionAgent alike).bind fun _ middle after _ _ alike => Paired.get ?_
  refine Paired.bind ?_ fun _ _ _ _ _ alike => .pure alike
  unfold onlyIf
  rw [alike.edge]
  split
  · exact (paired_closeSpawnEdge alike).bind fun _ _ _ _ _ alike => .pure alike
  · exact .pure alike

theorem paired_resumeAgent (alike : Alike collation graph other) :
    Paired (Alike collation) (resumeAgent agentId timestamp) (resumeAgent agentId timestamp) graph other := by
  refine (paired_mustAgent alike).bind fun _ _ _ _ _ alike => ?_
  refine Paired.bind (.require Iff.rfl alike) fun _ _ after _ _ alike => Paired.get ?_
  rw [alike.hasOpenAncestry]
  cases after.hasOpenAncestry agentId with
  | error error => exact .throw alike
  | ok opened => exact Paired.bind (.require Iff.rfl alike) fun _ _ _ _ _ alike => paired_transitionAgent alike

/-- Graphs that are alike do the same and stay alike. -/
theorem Alike.step (alike : Alike collation graph other) (op : GraphOp) :
    Paired (Alike collation) (op.run collation) (op.run collation) graph other := by
  cases op with
  | registerRoot => exact (paired_registerRoot alike).map _
  | spawn => exact (paired_spawn alike).map _
  | transitionAgent => exact (paired_transitionAgent alike).map _
  | closeAgent => exact (paired_closeAgent alike).map _
  | closeSpawnEdge => exact (paired_closeSpawnEdge alike).map _
  | suspendAgent => exact (paired_transitionAgent alike).map _
  | stopAgent => exact (paired_transitionAgent alike).map _
  | resumeAgent => exact (paired_resumeAgent alike).map _

end Operations

/-! Telling a graph from the rebuilt one. -/

/-- No operations followed by a query or one more operation tell the graphs apart. -/
def Indistinguishable (collation : Collation) (graph other : AgentGraph) : Prop :=
  ∀ ops : List GraphOp,
    (∀ query, (performAll (GraphOp.perform collation) ops graph).ask collation query =
      (performAll (GraphOp.perform collation) ops other).ask collation query) ∧
    ∀ op : GraphOp, outcome (op.run collation) (performAll (GraphOp.perform collation) ops graph) =
      outcome (op.run collation) (performAll (GraphOp.perform collation) ops other)

/-- Siblings whose ids the comparator takes to be equal stand in their parent's list as
they stand in the snapshot. -/
def InStep (collation : Collation) (graph : AgentGraph) : Prop :=
  ∀ parentId text, tied collation AgentGraphEdge.childAgentId text (graph.edgesByParent parentId) =
    tied collation AgentGraphEdge.childAgentId text
      ((graph.listEdges collation).filter fun edge => edge.parentAgentId == parentId)

/-- The comparator tells siblings apart. -/
def SiblingsApart (collation : Collation) (graph : AgentGraph) : Prop :=
  ∀ one ∈ graph.edgesByChild, ∀ other ∈ graph.edgesByChild, one.parentAgentId = other.parentAgentId →
    collation.Ties one.childAgentId other.childAgentId → one = other

section Telling
variable {collation : Collation} {graph other : AgentGraph}

theorem Alike.indistinguishable (alike : Alike collation graph other) : Indistinguishable collation graph other := by
  intro ops
  induction ops generalizing graph other with
  | nil => exact ⟨alike.ask, fun op => (alike.step op).outcome⟩
  | cons op ops ih => exact ih (alike.step op).after

theorem Topology.inStep_iff (topology : Topology collation graph) :
    InStep collation graph ↔ ∀ parentId, graph.edgesByParent parentId = sortedBranch collation (graph.listEdges collation) parentId := by
  constructor
  · intro step parentId
    refine eq_of_tied (topology.ordered parentId) sortOn_sorted fun text => ?_
    rw [sortedBranch, tied_sortOn]
    exact step parentId text
  · intro same parentId text
    rw [same, sortedBranch, tied_sortOn]

theorem Topology.inStep_of_apart (topology : Topology collation graph) (apart : SiblingsApart collation graph) :
    InStep collation graph := by
  refine topology.inStep_iff.mpr fun parentId => ?_
  have stored : ∀ edge ∈ graph.edgesByParent parentId, edge ∈ graph.edgesByChild ∧ edge.parentAgentId = parentId :=
    fun edge member => topology.mem_edgesByParent.mp member
  have sorted : collation.sortOn AgentGraphEdge.childAgentId (graph.edgesByParent parentId) = graph.edgesByParent parentId :=
    eq_of_tied sortOn_sorted (topology.ordered parentId) fun text => tied_sortOn text
  rw [← sorted, sortedBranch]
  apply sortOn_of_perm
  · exact (topology.branches parentId).trans (sortOn_perm.symm.filter _)
  · intro one first two second ties
    exact apart one (stored one first).1 two (stored two second).1 ((stored one first).2.trans (stored two second).2.symm) ties

theorem Topology.alike_rebuilt (topology : Topology collation graph)
    (loaded : EdgesLoaded collation (graph.snapshot collation) [] other) (step : InStep collation graph) :
    Alike collation graph other where
  run := loaded.run.symm
  agents := by
    rw [listAgents, listAgents, loaded.agents]
    exact sortOn_sortOn.symm
  edges := by
    have rows : other.edgesByChild.rows = graph.listEdges collation := loaded.rows
    rw [listEdges, listEdges, rows]
    exact sortOn_sortOn.symm
  branches := by
    have rows : other.edgesByChild.rows = graph.listEdges collation := loaded.rows
    funext parentId
    rw [loaded.branches, rows]
    exact topology.inStep_iff.mp step parentId
  canonical edge member := (topology.fits edge member).canonical

/-- The children found are those of the edges, in their order. -/
theorem children_ids {parentId : AgentId} {found : List Agent} (answered : graph.children parentId none = .ok found) :
    found.map Agent.id = (graph.edgesByParent parentId).map AgentGraphEdge.childAgentId := by
  have reads : ∀ edges : List AgentGraphEdge, ∀ agents,
      edges.mapM (fun edge => graph.requireAgent edge.childAgentId) = Except.ok agents →
        agents.map Agent.id = edges.map AgentGraphEdge.childAgentId := by
    intro edges
    induction edges with
    | nil =>
      intro agents read
      cases read
      rfl
    | cons edge edges ih =>
      intro agents read
      rw [List.mapM_cons] at read
      cases first : graph.requireAgent edge.childAgentId with
      | error error =>
        rw [first] at read
        cases read
      | ok child =>
        cases rest : edges.mapM (fun edge => graph.requireAgent edge.childAgentId) with
        | error error =>
          rw [first, rest] at read
          cases read
        | ok others =>
          rw [first, rest] at read
          cases read
          have named : child.id = edge.childAgentId := (Keyed.find?_eq_some.mp (requireAgent_ok.mp first)).2
          rw [List.map_cons, List.map_cons, named, ih others rest]
  unfold children at answered
  cases known : graph.requireAgent parentId with
  | error error =>
    rw [known] at answered
    cases answered
  | ok parent =>
    rw [known, childEdges_none] at answered
    exact reads _ found answered

/-- Edges of one table are known from their children. -/
theorem edges_eq_of_ids {first second : List AgentGraphEdge} (inside : ∀ edge ∈ first, edge ∈ graph.edgesByChild)
    (within : ∀ edge ∈ second, edge ∈ graph.edgesByChild)
    (same : first.map AgentGraphEdge.childAgentId = second.map AgentGraphEdge.childAgentId) : first = second := by
  have found : ∀ edges : List AgentGraphEdge, (∀ edge ∈ edges, edge ∈ graph.edgesByChild) →
      (edges.map AgentGraphEdge.childAgentId).map graph.edgesByChild.find? = edges.map some := by
    intro edges members
    rw [List.map_map]
    exact List.map_congr_left fun edge member => Keyed.find?_key (members edge member)
  have equal := congrArg (List.map graph.edgesByChild.find?) same
  rw [found first inside, found second within] at equal
  exact List.map_injective_iff.mpr (Option.some_injective _) equal

/-- Graphs that answer alike list the children of every parent in one order. -/
theorem Topology.inStep_of_indistinguishable (topology : Topology collation graph) (rebuiltTopology : Topology collation other)
    (loaded : EdgesLoaded collation (graph.snapshot collation) [] other) (same : Indistinguishable collation graph other) :
    InStep collation graph := by
  have rows : other.edgesByChild.rows = graph.listEdges collation := loaded.rows
  refine topology.inStep_iff.mpr fun parentId => ?_
  rw [← rows, ← loaded.branches]
  have inside : ∀ edge ∈ graph.edgesByParent parentId, edge ∈ graph.edgesByChild :=
    fun edge member => (topology.mem_edgesByParent.mp member).1
  have within : ∀ edge ∈ other.edgesByParent parentId, edge ∈ graph.edgesByChild := by
    intro edge member
    have stored : edge ∈ other.edgesByChild.rows := (rebuiltTopology.mem_edgesByParent.mp member).1
    rw [rows] at stored
    exact mem_sortOn.mp stored
  apply edges_eq_of_ids inside within
  have asked := (same []).1 (.children parentId none)
  cases known : graph.agentsById.find? parentId with
  | some parent =>
    obtain ⟨stored, rfl⟩ := Keyed.find?_eq_some.mp known
    obtain ⟨found, answered⟩ := topology.children_all stored none
    have listed : other.children parent.id none = .ok found := by
      change (GraphAnswer.agents <$> graph.children parent.id none) = (GraphAnswer.agents <$> other.children parent.id none) at asked
      rw [answered] at asked
      cases again : other.children parent.id none with
      | error error =>
        rw [again] at asked
        cases asked
      | ok others =>
        rw [again] at asked
        cases asked
        rfl
    rw [← children_ids answered, ← children_ids listed]
  | none =>
    have alone : ∀ edge ∈ graph.edgesByChild, edge.parentAgentId ≠ parentId := by
      intro edge member equal
      have above := topology.above edge member
      rw [equal, known] at above
      cases above
    have first : graph.edgesByParent parentId = [] := by
      apply List.eq_nil_iff_forall_not_mem.mpr
      exact fun edge member => alone edge (inside edge member) (topology.mem_edgesByParent.mp member).2
    have second : other.edgesByParent parentId = [] := by
      apply List.eq_nil_iff_forall_not_mem.mpr
      exact fun edge member => alone edge (within edge member) (rebuiltTopology.mem_edgesByParent.mp member).2
    rw [first, second]

end Telling

/-! Every graph that operations lead to. -/

section Grown
variable {collation : Collation} {graph next : AgentGraph}

theorem GraphOp.changes {op : GraphOp} {result : GraphResult} (returned : op.run collation graph = .ok result next) :
    Changes collation graph next := by
  cases op with
  | registerRoot agent =>
    obtain ⟨_, moved, -⟩ := map_ok.mp returned
    exact registerRoot_changes moved
  | spawn input =>
    obtain ⟨_, moved, -⟩ := map_ok.mp returned
    exact spawn_changes moved
  | transitionAgent agentId status updatedAt =>
    obtain ⟨_, moved, -⟩ := map_ok.mp returned
    exact transitionAgent_changes moved
  | closeAgent agentId closedAt closeReason =>
    obtain ⟨_, moved, -⟩ := map_ok.mp returned
    exact closeAgent_changes moved
  | closeSpawnEdge childAgentId closedAt closeReason =>
    obtain ⟨_, moved, -⟩ := map_ok.mp returned
    exact closeSpawnEdge_changes moved
  | suspendAgent agentId updatedAt =>
    obtain ⟨_, moved, -⟩ := map_ok.mp returned
    exact transitionAgent_changes moved
  | stopAgent agentId updatedAt =>
    obtain ⟨_, moved, -⟩ := map_ok.mp returned
    exact transitionAgent_changes moved
  | resumeAgent agentId updatedAt =>
    obtain ⟨_, moved, -⟩ := map_ok.mp returned
    exact resumeAgent_changes moved

theorem Topology.perform (topology : Topology collation graph) (op : GraphOp) : Topology collation (op.perform collation graph) := by
  unfold GraphOp.perform
  cases moved : op.run collation graph with
  | ok result next =>
    rw [after_ok moved]
    exact topology.changes (GraphOp.changes moved)
  | error error next =>
    rw [after_error moved, (topology.refused moved).1]
    exact topology

theorem Grown.topology (grown : Grown collation graph) : Topology collation graph := by
  obtain ⟨snapshot, start, accepted, reached⟩ := grown
  exact reached.invariant (restore_topology accepted) fun _ op _ topology _ => topology.perform op

/-- The parent relation is a forest, and each agent but a root has one spawn edge. -/
structure Forest (graph : AgentGraph) : Prop where
  root : ∀ agent ∈ graph.agentsById, agent.parentAgentId = none → ∀ edge ∈ graph.edgesByChild, edge.childAgentId ≠ agent.id
  spawned : ∀ agent ∈ graph.agentsById, ∀ parentId, agent.parentAgentId = some parentId →
    (∃ parent ∈ graph.agentsById, parent.id = parentId) ∧
      ∃ edge ∈ graph.edgesByChild, edge.childAgentId = agent.id ∧ edge.parentAgentId = parentId ∧ edge.taskId = agent.taskId ∧
        ∀ other ∈ graph.edgesByChild, other.childAgentId = agent.id → other = edge
  path : ∀ agent ∈ graph.agentsById, ∃! lineage, RootPath graph agent lineage

/-- What the traversals list, and that they never report a cycle. -/
structure Traversed (collation : Collation) (graph : AgentGraph) : Prop where
  descendants : ∀ agent ∈ graph.agentsById, ∃ found, graph.descendants agent.id none = .ok found ∧ found.Nodup ∧
    ∀ other, other ∈ found ↔ graph.ProperDescendant agent other
  ancestors : ∀ agent ∈ graph.agentsById, ∃ lineage, graph.ancestors agent.id = .ok lineage ∧ RootPath graph agent lineage
  acyclic : ∀ query error, graph.ask collation query = .error error → Acyclic error

theorem Topology.forest (topology : Topology collation graph) : Forest graph where
  root agent inside free edge member same := by
    have none := topology.top agent inside free
    exact Keyed.find?_eq_none.mp none edge member same
  spawned agent inside parentId under := by
    obtain ⟨edge, found, parent, task⟩ := topology.placed agent inside parentId under
    obtain ⟨member, named⟩ := Keyed.find?_eq_some.mp found
    obtain ⟨above, kept⟩ := Option.isSome_iff_exists.mp (topology.above edge member)
    obtain ⟨stored, called⟩ := Keyed.find?_eq_some.mp kept
    refine ⟨⟨above, stored, called.trans parent⟩, edge, member, named, parent, task, fun other another same => ?_⟩
    exact Keyed.eq_of_key another member (same.trans named.symm)
  path agent inside := by
    obtain ⟨lineage, path⟩ := topology.rooted agent inside
    exact ⟨lineage, path, fun other again => again.unique path⟩

theorem Topology.traversed (topology : Topology collation graph) : Traversed collation graph where
  descendants agent inside := by
    obtain ⟨lineage, path⟩ := topology.rooted agent inside
    have enough : graph.agentsById.rows.length ≤ lineage.length + graph.bound := by
      unfold bound
      omega
    exact ⟨_, topology.descendants_ok inside path none, topology.preorder_nodup inside path, fun other =>
      topology.mem_preorder_iff inside path enough⟩
  ancestors agent inside := by
    obtain ⟨lineage, path⟩ := topology.rooted agent inside
    exact ⟨lineage, ancestors_ok inside path, path⟩
  acyclic query error failed := by
    rcases topology.ask_cases query with ⟨answer, answered⟩ | unknown | refused
    · rw [answered] at failed
      cases failed
    · rw [unknown] at failed
      cases failed
      simp [Acyclic, missing, traversalCycle, ancestryCycle]
    · rw [refused] at failed
      cases failed
      simp [Acyclic, limitRefused, traversalCycle, ancestryCycle]

/-- Every graph is a forest that its traversals list and refused operations leave alone. Its
snapshot is accepted, and the rebuilt graph behaves the same exactly when the siblings that
the comparator takes to be equal stand in step with the snapshot. -/
theorem grown_invariant (grown : Grown collation graph) :
    Forest graph ∧ Traversed collation graph ∧
      (∀ (op : GraphOp) error next, op.run collation graph = .error error next → next = graph ∧ Acyclic error) ∧
      (SiblingsApart collation graph → InStep collation graph) ∧
      ∃ rebuilt, restore collation (graph.snapshot collation) = .ok rebuilt ∧
        (Indistinguishable collation graph rebuilt ↔ InStep collation graph) := by
  have topology := grown.topology
  obtain ⟨rebuilt, accepted, loaded⟩ := topology.restored
  have again : Topology collation rebuilt := restore_topology accepted
  refine ⟨topology.forest, topology.traversed, fun op error next refused => topology.refused refused,
    topology.inStep_of_apart, rebuilt, accepted, ?_⟩
  constructor
  · exact topology.inStep_of_indistinguishable again loaded
  · exact fun step => (topology.alike_rebuilt loaded step).indistinguishable

end Grown

/-! A locale that takes the composed and the decomposed accent to be equal. -/

/-- The code points of a text, with the accented letter decomposed. -/
def decomposed (text : String) : List Nat :=
  text.toList.flatMap fun letter => if letter = 'é' then ['e'.toNat, 0x301] else [letter.toNat]

def accents : Collation := .byWeight decomposed

def sampleAgent (agentId : AgentId) (parentAgentId : Option AgentId) : Agent where
  id := agentId
  runId := "run"
  parentAgentId := parentAgentId
  taskId := none
  role := .implementer
  status := .queued
  sessionEpochIds := []
  worktreeUri := none
  permissions := defaultPermissions
  sandbox := defaultSandbox
  spawnedAt := "1970-01-01T00:00:00.000Z"
  closedAt := none
  createdAt := "1970-01-01T00:00:00.000Z"
  updatedAt := "1970-01-01T00:00:00.000Z"

/-- Two siblings whose ids tie, the first of which has its edge closed. -/
def accentedOps : List GraphOp := [
  .registerRoot (sampleAgent "root" none),
  .spawn { agent := sampleAgent "é" (some "root"), parentAgentId := "root" },
  .spawn { agent := sampleAgent "e\u0301" (some "root"), parentAgentId := "root" },
  .closeSpawnEdge "é" "1970-01-01T00:00:01.000Z" none]

def accentedGraph : AgentGraph := performAll (GraphOp.perform accents) accentedOps (blank "run")

theorem grown_accented : Grown accents accentedGraph := by
  refine ⟨{ runId := "run", agents := [], edges := [] }, blank "run", rfl, ?_⟩
  exact Reached.start.performAll (allAllowed_of_forall fun _ _ => trivial)

theorem grown_invariant_accented :
    Forest accentedGraph ∧ Traversed accents accentedGraph ∧
      (∀ (op : GraphOp) error next, op.run accents accentedGraph = .error error next → next = accentedGraph ∧ Acyclic error) ∧
      (SiblingsApart accents accentedGraph → InStep accents accentedGraph) ∧
      ∃ rebuilt, restore accents (accentedGraph.snapshot accents) = .ok rebuilt ∧
        (Indistinguishable accents accentedGraph rebuilt ↔ InStep accents accentedGraph) :=
  grown_invariant grown_accented

/-- Closing the edge moved it behind its sibling's, and the snapshot does not say so. -/
theorem rebuilt_differs : ∃ graph rebuilt, Grown accents graph ∧ restore accents (graph.snapshot accents) = .ok rebuilt ∧
    ¬ Indistinguishable accents graph rebuilt := by
  have topology := grown_accented.topology
  obtain ⟨rebuilt, accepted, loaded⟩ := topology.restored
  refine ⟨accentedGraph, rebuilt, grown_accented, accepted, fun same => ?_⟩
  have step := topology.inStep_of_indistinguishable (restore_topology accepted) loaded same "root" "é"
  revert step
  decide

end OttiliCoder.AgentGraph
