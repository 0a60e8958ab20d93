import OttiliCoder.Proofs.AgentGraph

/-! The topology that every graph has: each agent but a root has one spawn edge, under its
parent, and climbs to a root. The constructor accepts no other, and no write breaks it. -/

namespace OttiliCoder.AgentGraph
open Relational Transaction StableSort

/-- The agents above an agent, from its root down to its parent. -/
inductive RootPath (graph : AgentGraph) : Agent → List Agent → Prop
  | root {agent : Agent} (top : agent.parentAgentId = none) : RootPath graph agent []
  | under {agent parent : Agent} {lineage : List Agent} (child : agent.parentAgentId = some parent.id)
      (stored : parent ∈ graph.agentsById) (above : RootPath graph parent lineage) : RootPath graph agent (lineage ++ [parent])

/-- The edges of a parent's children, as the map by child holds them. -/
def branch (graph : AgentGraph) (parentId : AgentId) : List AgentGraphEdge :=
  graph.edgesByChild.rows.filter fun edge => edge.parentAgentId == parentId

/-- What the constructor asks of an edge by itself. -/
structure EdgeFits (runId : RunId) (edge : AgentGraphEdge) : Prop where
  home : edge.runId = runId
  canonical : edge.key = createAgentSpawnEdgeKey edge.parentAgentId edge.childAgentId
  apart : edge.parentAgentId ≠ edge.childAgentId
  stamped : edge.state = .closed ↔ edge.closedAt.isSome = true

/-- The rows fit, and the two maps of edges agree. -/
structure Stored (collation : Collation) (graph : AgentGraph) : Prop where
  home : ∀ agent ∈ graph.agentsById, agent.runId = graph.runId
  fits : ∀ edge ∈ graph.edgesByChild, EdgeFits graph.runId edge
  branches : ∀ parentId, (graph.edgesByParent parentId).Perm (graph.branch parentId)
  ordered : ∀ parentId, (graph.edgesByParent parentId).Pairwise fun one other =>
    collation.AtMost one.childAgentId other.childAgentId

/-- Agents and edges match, and every agent climbs to a root. -/
structure Topology (collation : Collation) (graph : AgentGraph) : Prop extends Stored collation graph where
  top : ∀ agent ∈ graph.agentsById, agent.parentAgentId = none → graph.edgesByChild.find? agent.id = none
  placed : ∀ agent ∈ graph.agentsById, ∀ parentId, agent.parentAgentId = some parentId →
    ∃ edge, graph.edgesByChild.find? agent.id = some edge ∧ edge.parentAgentId = parentId ∧ edge.taskId = agent.taskId
  above : ∀ edge ∈ graph.edgesByChild, (graph.agentsById.find? edge.parentAgentId).isSome = true
  below : ∀ edge ∈ graph.edgesByChild, (graph.agentsById.find? edge.childAgentId).isSome = true
  rooted : ∀ agent ∈ graph.agentsById, ∃ lineage, RootPath graph agent lineage

section Writes
variable {collation : Collation} {graph next : AgentGraph} {agent other : Agent} {edge : AgentGraphEdge}

/-- A root path follows agents that keep their ids and parents. -/
theorem RootPath.follow {lineage : List Agent} (path : RootPath graph agent lineage)
    (follows : ∀ agent ∈ graph.agentsById, ∃ other ∈ next.agentsById, other.id = agent.id ∧
      other.parentAgentId = agent.parentAgentId)
    (same : other.parentAgentId = agent.parentAgentId) : ∃ lineage, RootPath next other lineage := by
  induction path generalizing other with
  | root top => exact ⟨[], .root (same.trans top)⟩
  | @under agent parent lineage child stored above ih =>
    obtain ⟨moved, kept, named, parentage⟩ := follows parent stored
    obtain ⟨rest, path⟩ := ih parentage
    exact ⟨rest ++ [moved], .under (same.trans (child.trans (congrArg some named.symm))) kept path⟩

theorem branch_withEdge {parentId : AgentId}
    (kept : ∀ existing, graph.edgesByChild.find? edge.childAgentId = some existing → existing.parentAgentId = edge.parentAgentId) :
    ((graph.withEdge collation edge).branch parentId).Perm
      (if edge.parentAgentId = parentId then
        (graph.branch parentId).filter (fun candidate => candidate.childAgentId != edge.childAgentId) ++ [edge]
      else graph.branch parentId) := by
  have stored : (graph.edgesByChild.put edge).rows.Perm _ := Keyed.put_perm
  have perm := stored.filter fun edge => edge.parentAgentId == parentId
  refine perm.trans (List.Perm.of_eq ?_)
  rw [List.filter_append, List.filter_filter, branch]
  split
  next same =>
    rw [List.filter_filter]
    simp [same, Bool.and_comm]
  next different =>
    have outside : List.filter (fun edge => edge.parentAgentId == parentId) [edge] = [] := by simp [different]
    rw [outside, List.append_nil]
    apply List.filter_congr
    intro other member
    -- A stored edge of the same child has the edge's parent, so it is not among these.
    by_cases child : other.childAgentId = edge.childAgentId
    · have parent := kept other (Keyed.find?_eq_some.mpr ⟨member, child⟩)
      simp [parent, different]
    · simp [child]

theorem mem_withAgent : other ∈ (graph.withAgent agent).agentsById ↔ other = agent ∨ (other ∈ graph.agentsById ∧ other.id ≠ agent.id) :=
  Keyed.mem_put

theorem mem_withEdge {stored : AgentGraphEdge} :
    stored ∈ (graph.withEdge collation edge).edgesByChild ↔
      stored = edge ∨ (stored ∈ graph.edgesByChild ∧ stored.childAgentId ≠ edge.childAgentId) :=
  Keyed.mem_put

theorem Stored.withAgent (stored : Stored collation graph) (home : agent.runId = graph.runId) :
    Stored collation (graph.withAgent agent) where
  home other inside := by
    rcases mem_withAgent.mp inside with rfl | ⟨before, -⟩
    · exact home
    · exact stored.home other before
  fits := stored.fits
  branches := stored.branches
  ordered := stored.ordered

theorem Stored.withEdge (stored : Stored collation graph) (fits : EdgeFits graph.runId edge)
    (kept : ∀ existing, graph.edgesByChild.find? edge.childAgentId = some existing → existing.parentAgentId = edge.parentAgentId) :
    Stored collation (graph.withEdge collation edge) where
  home := stored.home
  fits other inside := by
    rcases mem_withEdge.mp inside with rfl | ⟨before, -⟩
    · exact fits
    · exact stored.fits other before
  branches parentId := by
    refine List.Perm.trans ?_ (branch_withEdge kept).symm
    by_cases same : parentId = edge.parentAgentId
    · subst same
      simp only [AgentGraph.withEdge, Function.update_self, if_true]
      exact sortOn_perm.trans (((stored.branches _).filter _).append_right _)
    · simp only [AgentGraph.withEdge, Function.update_of_ne same, if_neg fun equal => same (Eq.symm equal)]
      exact stored.branches parentId
  ordered parentId := by
    by_cases same : parentId = edge.parentAgentId
    · subst same
      simp only [AgentGraph.withEdge, Function.update_self]
      exact sortOn_sorted
    · simp only [AgentGraph.withEdge, Function.update_of_ne same]
      exact stored.ordered parentId

theorem isSome_withAgent {agentId : AgentId} (stored : (graph.agentsById.find? agentId).isSome = true) :
    ((graph.withAgent agent).agentsById.find? agentId).isSome = true := by
  simp only [withAgent, Keyed.find?_put]
  split <;> simp [stored]

end Writes

section Kept
variable {collation : Collation} {graph next : AgentGraph}

/-- An agent that keeps its place. -/
theorem Topology.rewritten (topology : Topology collation graph) {current next : Agent}
    (stored : graph.agentsById.find? next.id = some current) (place : SamePlace next current) :
    Topology collation (graph.withAgent next) := by
  obtain ⟨member, named⟩ := Keyed.find?_eq_some.mp stored
  have origin : ∀ agent ∈ (graph.withAgent next).agentsById, ∃ old ∈ graph.agentsById, SamePlace agent old := by
    intro agent inside
    rcases mem_withAgent.mp inside with rfl | ⟨kept, -⟩
    · exact ⟨current, member, place⟩
    · exact ⟨agent, kept, rfl, rfl, rfl, rfl⟩
  have follows : ∀ agent ∈ graph.agentsById, ∃ other ∈ (graph.withAgent next).agentsById, other.id = agent.id ∧
      other.parentAgentId = agent.parentAgentId := by
    intro agent inside
    by_cases same : agent.id = next.id
    · have equal : agent = current := Keyed.eq_of_key inside member (same.trans named.symm)
      exact ⟨next, mem_withAgent.mpr (.inl rfl), same.symm, equal ▸ place.parent⟩
    · exact ⟨agent, mem_withAgent.mpr (.inr ⟨inside, same⟩), rfl, rfl⟩
  exact
    { topology.toStored.withAgent (place.run.trans (topology.home current member)) with
      top := fun agent inside free => by
        obtain ⟨old, before, same⟩ := origin agent inside
        rw [same.id]
        exact topology.top old before (same.parent.symm.trans free)
      placed := fun agent inside parentId under => by
        obtain ⟨old, before, same⟩ := origin agent inside
        rw [same.id, same.task]
        exact topology.placed old before parentId (same.parent.symm.trans under)
      above := fun edge inside => isSome_withAgent (topology.above edge inside)
      below := fun edge inside => isSome_withAgent (topology.below edge inside)
      rooted := fun agent inside => by
        obtain ⟨old, before, same⟩ := origin agent inside
        obtain ⟨lineage, path⟩ := topology.rooted old before
        exact path.follow follows same.parent }

theorem follows_fresh {agent : Agent} (fresh : graph.agentsById.find? agent.id = none) :
    ∀ stored ∈ graph.agentsById, ∃ other ∈ (graph.withAgent agent).agentsById, other.id = stored.id ∧
      other.parentAgentId = stored.parentAgentId := by
  intro stored inside
  exact ⟨stored, mem_withAgent.mpr (.inr ⟨inside, Keyed.find?_eq_none.mp fresh stored inside⟩), rfl, rfl⟩

/-- No edge waits for an agent that is not there. -/
theorem Topology.unedged (topology : Topology collation graph) {agentId : AgentId}
    (fresh : graph.agentsById.find? agentId = none) : graph.edgesByChild.find? agentId = none := by
  cases found : graph.edgesByChild.find? agentId with
  | none => rfl
  | some edge =>
    obtain ⟨member, named⟩ := Keyed.find?_eq_some.mp found
    have child := topology.below edge member
    rw [named, fresh] at child
    cases child

/-- A new root. -/
theorem Topology.rooted_agent (topology : Topology collation graph) {agent : Agent} (home : agent.runId = graph.runId)
    (free : agent.parentAgentId = none) (fresh : graph.agentsById.find? agent.id = none) :
    Topology collation (graph.withAgent agent) where
  toStored := topology.toStored.withAgent home
  top other inside alone := by
    rcases mem_withAgent.mp inside with rfl | ⟨before, -⟩
    · exact topology.unedged fresh
    · exact topology.top other before alone
  placed other inside parentId under := by
    rcases mem_withAgent.mp inside with rfl | ⟨before, -⟩
    · rw [free] at under
      cases under
    · exact topology.placed other before parentId under
  above edge inside := isSome_withAgent (topology.above edge inside)
  below edge inside := isSome_withAgent (topology.below edge inside)
  rooted other inside := by
    rcases mem_withAgent.mp inside with rfl | ⟨before, -⟩
    · exact ⟨[], .root free⟩
    · obtain ⟨lineage, path⟩ := topology.rooted other before
      exact path.follow (follows_fresh fresh) rfl

/-- A new child with the edge to its parent. -/
theorem Topology.spawned (topology : Topology collation graph) {input : SpawnAgentInput} {parent : Agent}
    (home : input.agent.runId = graph.runId) (above : graph.agentsById.find? input.parentAgentId = some parent)
    (fresh : graph.agentsById.find? input.agent.id = none) (apart : input.agent.id ≠ input.parentAgentId)
    (below : input.agent.parentAgentId = some input.parentAgentId) :
    Topology collation ((graph.withAgent input.agent).withEdge collation (spawnEdge graph.runId input)) := by
  have unedged := topology.unedged fresh
  obtain ⟨member, named⟩ := Keyed.find?_eq_some.mp above
  have stays : parent ∈ (graph.withAgent input.agent).agentsById :=
    mem_withAgent.mpr (.inr ⟨member, Keyed.find?_eq_none.mp fresh parent member⟩)
  have climbs : ∀ other ∈ graph.agentsById, ∃ lineage,
      RootPath ((graph.withAgent input.agent).withEdge collation (spawnEdge graph.runId input)) other lineage := by
    intro other before
    obtain ⟨lineage, path⟩ := topology.rooted other before
    exact path.follow (follows_fresh fresh) rfl
  have fits : EdgeFits graph.runId (spawnEdge graph.runId input) := ⟨rfl, rfl, apart.symm, by simp [spawnEdge]⟩
  have kept : ∀ existing, (graph.withAgent input.agent).edgesByChild.find? (spawnEdge graph.runId input).childAgentId =
      some existing → existing.parentAgentId = (spawnEdge graph.runId input).parentAgentId := by
    intro existing found
    cases unedged.symm.trans found
  exact
    { (topology.toStored.withAgent home).withEdge fits kept with
      top := fun other inside alone => by
        rcases mem_withAgent.mp inside with rfl | ⟨before, different⟩
        · rw [below] at alone
          cases alone
        · simp only [withEdge, Keyed.find?_put, spawnEdge, if_neg different.symm]
          exact topology.top other before alone
      placed := fun other inside parentId under => by
        rcases mem_withAgent.mp inside with rfl | ⟨before, different⟩
        · cases below.symm.trans under
          exact ⟨spawnEdge graph.runId input, by simp [withEdge, Keyed.find?_put, spawnEdge], rfl, rfl⟩
        · simp only [withEdge, Keyed.find?_put, spawnEdge, if_neg different.symm]
          exact topology.placed other before parentId under
      above := fun edge inside => by
        rcases mem_withEdge.mp inside with rfl | ⟨before, -⟩
        · exact isSome_withAgent (by simp [spawnEdge, above])
        · exact isSome_withAgent (topology.above edge before)
      below := fun edge inside => by
        rcases mem_withEdge.mp inside with rfl | ⟨before, -⟩
        · simp [withEdge, withAgent, spawnEdge, Keyed.find?_put]
        · exact isSome_withAgent (topology.below edge before)
      rooted := fun other inside => by
        rcases mem_withAgent.mp inside with rfl | ⟨before, -⟩
        · obtain ⟨lineage, path⟩ := climbs parent member
          exact ⟨lineage ++ [parent], .under (named.symm ▸ below) stays path⟩
        · exact climbs other before }

theorem Closes.fits {runId : RunId} {current next : AgentGraphEdge} (closes : Closes next current) (fits : EdgeFits runId current) :
    EdgeFits runId next where
  home := closes.run.trans fits.home
  canonical := by
    rw [closes.key, closes.parent, closes.child]
    exact fits.canonical
  apart := by
    rw [closes.parent, closes.child]
    exact fits.apart
  stamped := by simp [closes.closed, closes.stamped]

/-- An edge that closes. -/
theorem Topology.closed (topology : Topology collation graph) {current next : AgentGraphEdge}
    (stored : graph.edgesByChild.find? next.childAgentId = some current) (closes : Closes next current) :
    Topology collation (graph.withEdge collation next) := by
  obtain ⟨member, -⟩ := Keyed.find?_eq_some.mp stored
  have kept : ∀ existing, graph.edgesByChild.find? next.childAgentId = some existing →
      existing.parentAgentId = next.parentAgentId := by
    intro existing found
    cases stored.symm.trans found
    exact closes.parent.symm
  exact
    { topology.toStored.withEdge (closes.fits (topology.fits current member)) kept with
      top := fun agent inside free => by
        have none := topology.top agent inside free
        have different : next.childAgentId ≠ agent.id := by
          intro same
          rw [same, none] at stored
          cases stored
        simpa only [withEdge, Keyed.find?_put, if_neg different] using none
      placed := fun agent inside parentId under => by
        obtain ⟨edge, found, parent, task⟩ := topology.placed agent inside parentId under
        simp only [withEdge, Keyed.find?_put]
        by_cases same : next.childAgentId = agent.id
        · rw [same] at stored
          cases stored.symm.trans found
          exact ⟨next, if_pos same, closes.parent.trans parent, closes.task.trans task⟩
        · exact ⟨edge, (if_neg same).trans found, parent, task⟩
      above := fun edge inside => by
        rcases mem_withEdge.mp inside with rfl | ⟨before, -⟩
        · rw [closes.parent]
          exact topology.above current member
        · exact topology.above edge before
      below := fun edge inside => by
        rcases mem_withEdge.mp inside with rfl | ⟨before, -⟩
        · rw [closes.child]
          exact topology.below current member
        · exact topology.below edge before
      rooted := fun agent inside => by
        obtain ⟨lineage, path⟩ := topology.rooted agent inside
        exact path.follow (fun stored inside => ⟨stored, inside, rfl, rfl⟩) rfl }

theorem Topology.change (topology : Topology collation graph) (change : Change collation graph next) :
    Topology collation next := by
  cases change with
  | rewritten stored place => exact topology.rewritten stored place
  | rooted home top fresh => exact topology.rooted_agent home top fresh
  | spawned home above fresh apart below => exact topology.spawned home above fresh apart below
  | closed stored closes => exact topology.closed stored closes

theorem Topology.changes (topology : Topology collation graph) (changes : Changes collation graph next) :
    Topology collation next := by
  induction changes with
  | refl => exact topology
  | tail _ change ih => exact ih.change change

end Kept

/-! Root paths. -/

section Paths
variable {graph : AgentGraph} {agent parent : Agent} {lineage other : List Agent} {agentId : AgentId}

theorem RootPath.stored (path : RootPath graph agent lineage) : ∀ member ∈ lineage, member ∈ graph.agentsById := by
  induction path with
  | root => simp
  | under child stored above ih =>
    intro member inside
    rcases List.mem_append.mp inside with before | last
    · exact ih member before
    · exact List.mem_singleton.mp last ▸ stored

theorem RootPath.unique (path : RootPath graph agent lineage) (again : RootPath graph agent other) : lineage = other := by
  induction path generalizing other with
  | root top =>
    cases again with
    | root => rfl
    | under child => cases top.symm.trans child
  | under child stored above ih =>
    cases again with
    | root top => cases top.symm.trans child
    | under another kept rest =>
      have same := Keyed.eq_of_key stored kept (Option.some.inj (child.symm.trans another))
      subst same
      rw [ih rest]

/-- The agents on a root path lie less deep than the agent it leads to. -/
theorem RootPath.higher (path : RootPath graph agent lineage) :
    ∀ member ∈ lineage, ∃ front, RootPath graph member front ∧ front.length < lineage.length := by
  induction path with
  | root => simp
  | @under agent parent lineage child stored above ih =>
    intro member inside
    rcases List.mem_append.mp inside with before | last
    · obtain ⟨front, path, shorter⟩ := ih member before
      exact ⟨front, path, by simp; omega⟩
    · rw [List.mem_singleton.mp last]
      exact ⟨lineage, above, by simp⟩

theorem RootPath.not_mem (path : RootPath graph agent lineage) : agent ∉ lineage := by
  intro inside
  obtain ⟨front, again, shorter⟩ := path.higher agent inside
  rw [again.unique path] at shorter
  omega

theorem RootPath.nodup (path : RootPath graph agent lineage) : lineage.Nodup := by
  induction path with
  | root => exact List.nodup_nil
  | under child stored above ih =>
    apply List.Nodup.append ih (List.nodup_singleton _)
    simpa using above.not_mem

/-- No agent on a root path has the id of the agent it leads to. -/
theorem RootPath.apart (path : RootPath graph agent lineage) (stored : agent ∈ graph.agentsById) :
    ∀ member ∈ lineage, member.id ≠ agent.id := by
  intro member inside same
  rw [Keyed.eq_of_key (path.stored member inside) stored same] at inside
  exact path.not_mem inside

/-- A path and its agent are no more than there are agents. -/
theorem RootPath.length_lt (path : RootPath graph agent lineage) (stored : agent ∈ graph.agentsById) :
    lineage.length < graph.agentsById.rows.length := by
  have distinct : (lineage ++ [agent]).Nodup := by
    apply List.Nodup.append path.nodup (List.nodup_singleton _)
    simpa using path.not_mem
  have within : lineage ++ [agent] ⊆ graph.agentsById.rows := by
    intro member inside
    rcases List.mem_append.mp inside with before | last
    · exact path.stored member before
    · rw [List.mem_singleton.mp last]
      exact stored
  have bounded := List.Nodup.length_le_of_subset distinct within
  simp only [List.length_append, List.length_singleton] at bounded
  omega

end Paths

/-! The constructor. -/

section Checks
variable {collation : Collation} {graph next : AgentGraph} {agent : Agent} {edge : AgentGraphEdge} {u : Unit}

theorem addSnapshotAgent_ok :
    addSnapshotAgent agent graph = .ok u next ↔
      agent.runId = graph.runId ∧ graph.agentsById.find? agent.id = none ∧ next = graph.withAgent agent := by
  simp only [addSnapshotAgent, bind_ok, assertAgentBelongsToRun_ok, get_ok, require_ok, setAgent_ok]
  constructor
  · rintro ⟨_, _, ⟨home, rfl⟩, _, _, ⟨rfl, rfl⟩, _, _, ⟨fresh, rfl⟩, same⟩
    exact ⟨home, by simpa [hasAgent] using fresh, same⟩
  · rintro ⟨home, fresh, same⟩
    exact ⟨(), graph, ⟨home, rfl⟩, graph, graph, ⟨rfl, rfl⟩, (), graph, ⟨by simp [hasAgent, fresh], rfl⟩, same⟩

theorem addSnapshotEdge_ok :
    addSnapshotEdge collation edge graph = .ok u next ↔
      EdgeFits graph.runId edge ∧ graph.edgesByChild.find? edge.childAgentId = none ∧ next = graph.withEdge collation edge := by
  simp only [addSnapshotEdge, bind_ok, get_ok, require_ok, setEdge_ok]
  constructor
  · rintro ⟨_, _, ⟨rfl, rfl⟩, _, _, ⟨home, rfl⟩, _, _, ⟨canonical, rfl⟩, _, _, ⟨fresh, rfl⟩, _, _, ⟨apart, rfl⟩, _, _,
      ⟨closed, rfl⟩, _, _, ⟨opened, rfl⟩, _, same⟩
    refine ⟨⟨home, canonical, apart, ?_⟩, fresh, same⟩
    cases state : edge.state with
    | opened => simp [opened state]
    | closed => simp [closed state]
  · rintro ⟨fits, fresh, same⟩
    have closed : edge.state = .closed → edge.closedAt.isSome = true := fits.stamped.mp
    have opened : edge.state = .opened → edge.closedAt = none := by
      intro state
      cases stamp : edge.closedAt with
      | none => rfl
      | some time => cases state.symm.trans (fits.stamped.mpr (by simp [stamp]))
    exact ⟨graph, graph, ⟨rfl, rfl⟩, (), graph, ⟨fits.home, rfl⟩, (), graph, ⟨fits.canonical, rfl⟩, (), graph, ⟨fresh, rfl⟩,
      (), graph, ⟨fits.apart, rfl⟩, (), graph, ⟨closed, rfl⟩, (), graph, ⟨opened, rfl⟩, by simp [fresh], same⟩

/-- What the constructor asks of an agent and the edge stored under its id. -/
structure Placed (graph : AgentGraph) (agent : Agent) : Prop where
  top : agent.parentAgentId = none → graph.edgesByChild.find? agent.id = none
  under : ∀ parentId, agent.parentAgentId = some parentId → graph.hasAgent parentId = true ∧
    ∃ edge, graph.edgesByChild.find? agent.id = some edge ∧ edge.parentAgentId = parentId ∧ edge.taskId = agent.taskId

theorem assertPlaced_ok : assertPlaced agent graph = .ok u next ↔ graph.Placed agent ∧ next = graph := by
  unfold assertPlaced
  simp only [bind_ok, get_ok]
  cases above : agent.parentAgentId with
  | none =>
    simp only [require_ok]
    constructor
    · rintro ⟨_, _, ⟨rfl, rfl⟩, alone, same⟩
      exact ⟨⟨fun _ => alone, by simp [above]⟩, same⟩
    · rintro ⟨placed, same⟩
      exact ⟨graph, graph, ⟨rfl, rfl⟩, placed.top above, same⟩
  | some parentId =>
    simp only [bind_ok, require_ok, expect_ok]
    constructor
    · rintro ⟨_, _, ⟨rfl, rfl⟩, _, _, ⟨stored, rfl⟩, edge, _, ⟨found, rfl⟩, _, _, ⟨parent, rfl⟩, task, same⟩
      refine ⟨⟨by simp [above], fun other equal => ?_⟩, same⟩
      cases above.symm.trans equal
      exact ⟨stored, edge, found, parent, task⟩
    · rintro ⟨placed, same⟩
      obtain ⟨stored, edge, found, parent, task⟩ := placed.under parentId above
      exact ⟨graph, graph, ⟨rfl, rfl⟩, (), graph, ⟨stored, rfl⟩, edge, graph, ⟨found, rfl⟩, (), graph, ⟨parent, rfl⟩, task,
        same⟩

theorem assertEnds_ok :
    assertEnds edge graph = .ok u next ↔
      (graph.hasAgent edge.parentAgentId = true ∧ graph.hasAgent edge.childAgentId = true) ∧ next = graph := by
  simp only [assertEnds, bind_ok, get_ok, require_ok]
  constructor
  · rintro ⟨_, _, ⟨rfl, rfl⟩, _, _, ⟨parent, rfl⟩, child, same⟩
    exact ⟨⟨parent, child⟩, same⟩
  · rintro ⟨⟨parent, child⟩, same⟩
    exact ⟨graph, graph, ⟨rfl, rfl⟩, (), graph, ⟨parent, rfl⟩, child, same⟩

/-- A climb that ends has gone up a root path. -/
theorem rootPath_of_climb {steps : Nat} {visited : List AgentId} {u : Unit} (ended : assertClimb graph steps visited agent = .ok u) :
    ∃ lineage, RootPath graph agent lineage := by
  induction steps generalizing visited agent with
  | zero => cases ended
  | succ steps ih =>
    cases above : agent.parentAgentId with
    | none => exact ⟨[], .root above⟩
    | some parentId =>
      simp only [assertClimb, above] at ended
      split at ended
      · cases ended
      · cases found : graph.requireAgent parentId with
        | error error =>
          rw [found] at ended
          cases ended
        | ok parent =>
          rw [found] at ended
          obtain ⟨lineage, path⟩ := ih ended
          obtain ⟨member, named⟩ := Keyed.find?_eq_some.mp (requireAgent_ok.mp found)
          exact ⟨lineage ++ [parent], .under (named.symm ▸ above) member path⟩

/-- The climb along a root path meets no agent again and has steps enough. -/
theorem assertClimb_ends {lineage : List Agent} (path : RootPath graph agent lineage) (stored : agent ∈ graph.agentsById)
    {steps : Nat} {visited : List AgentId} (enough : lineage.length < steps)
    (unmet : ∀ member ∈ lineage ++ [agent], member.id ∉ visited) : assertClimb graph steps visited agent = .ok () := by
  induction path generalizing steps visited with
  | root top =>
    cases steps with
    | zero => cases enough
    | succ steps => simp [assertClimb, top]
  | @under agent parent lineage child kept above ih =>
    cases steps with
    | zero => cases enough
    | succ steps =>
      have whole : RootPath graph agent (lineage ++ [parent]) := .under child kept above
      have found : graph.requireAgent parent.id = .ok parent := requireAgent_ok.mpr (Keyed.find?_key kept)
      have new : agent.id ∉ visited := unmet agent (by simp)
      simp only [assertClimb, child, found, List.contains_eq_mem, new, decide_false]
      apply ih kept
      · simp only [List.length_append, List.length_singleton] at enough
        omega
      · intro member inside
        have apart : member.id ≠ agent.id := whole.apart stored member inside
        have before : member.id ∉ visited := unmet member (List.mem_append_left _ inside)
        simp [apart, before]

theorem assertAcyclicAncestry_ok {agentId : AgentId} :
    assertAcyclicAncestry agentId graph = .ok u next ↔
      (∃ agent, graph.agentsById.find? agentId = some agent ∧ ∃ lineage, RootPath graph agent lineage) ∧ next = graph := by
  simp only [assertAcyclicAncestry, bind_ok, get_ok, mustAgent_ok]
  constructor
  · rintro ⟨_, _, ⟨rfl, rfl⟩, current, graph, ⟨found, rfl⟩, climbed⟩
    cases ended : assertClimb graph graph.bound [] current with
    | error error =>
      rw [ended] at climbed
      cases climbed
    | ok u =>
      rw [ended] at climbed
      exact ⟨⟨current, found, rootPath_of_climb ended⟩, (pure_ok.mp climbed).2⟩
  · rintro ⟨⟨agent, found, lineage, path⟩, same⟩
    obtain ⟨member, -⟩ := Keyed.find?_eq_some.mp found
    have ended : assertClimb graph graph.bound [] agent = .ok () := by
      apply assertClimb_ends path member
      · have shorter := path.length_lt member
        unfold bound
        omega
      · simp
    refine ⟨graph, graph, ⟨rfl, rfl⟩, agent, graph, ⟨found, rfl⟩, ?_⟩
    rw [ended]
    exact pure_ok.mpr ⟨rfl, same⟩

theorem assertTopology_ok (stored : Stored collation graph) :
    assertTopology graph = .ok u next ↔ Topology collation graph ∧ next = graph := by
  simp only [assertTopology, bind_ok, get_ok, forM_check_ok fun _ _ _ => assertPlaced_ok,
    forM_check_ok fun _ _ _ => assertEnds_ok]
  constructor
  · rintro ⟨_, _, ⟨rfl, rfl⟩, _, _, ⟨placed, rfl⟩, _, _, ⟨ends, rfl⟩, climbs⟩
    obtain ⟨rooted, same⟩ := (forM_check_ok fun _ _ _ => assertAcyclicAncestry_ok).mp climbs
    exact ⟨{ stored with
      top := fun agent inside => (placed agent inside).top
      placed := fun agent inside parentId above => ((placed agent inside).under parentId above).2
      above := fun edge inside => (ends edge inside).1
      below := fun edge inside => (ends edge inside).2
      rooted := fun agent inside => by
        obtain ⟨other, found, path⟩ := rooted agent inside
        cases (Keyed.find?_key inside).symm.trans found
        exact path }, same⟩
  · rintro ⟨topology, same⟩
    have placed : ∀ agent ∈ graph.agentsById.rows, graph.Placed agent := by
      intro agent inside
      refine ⟨topology.top agent inside, fun parentId above => ?_⟩
      obtain ⟨edge, found, parent, task⟩ := topology.placed agent inside parentId above
      exact ⟨parent ▸ topology.above edge (Keyed.find?_eq_some.mp found).1, edge, found, parent, task⟩
    refine ⟨graph, graph, ⟨rfl, rfl⟩, (), graph, ⟨placed, rfl⟩, (), graph,
      ⟨fun edge inside => ⟨topology.above edge inside, topology.below edge inside⟩, rfl⟩, ?_⟩
    refine (forM_check_ok fun _ _ _ => assertAcyclicAncestry_ok).mpr ⟨fun agent inside => ?_, same⟩
    exact ⟨agent, Keyed.find?_key inside, topology.rooted agent inside⟩

end Checks

section Constructor
variable {collation : Collation} {snapshot : AgentGraphSnapshot} {graph : AgentGraph}

theorem stored_blank (runId : RunId) : Stored collation (blank runId) where
  home _ inside := absurd inside Keyed.not_mem_empty
  fits _ inside := absurd inside Keyed.not_mem_empty
  branches _ := .refl []
  ordered _ := .nil

/-- The constructor accepts nothing but a topology. -/
theorem restore_topology (accepted : restore collation snapshot = .ok graph) : Topology collation graph := by
  unfold restore at accepted
  split at accepted
  next u built constructed =>
    cases accepted
    simp only [construct, bind_ok] at constructed
    obtain ⟨_, first, agents, _, second, edges, checked⟩ := constructed
    have filled : Stored collation first := by
      refine forM_keeps (Stored collation) (stored_blank snapshot.runId) (fun _ _ graph u next stored added => ?_) agents
      obtain ⟨home, -, rfl⟩ := addSnapshotAgent_ok.mp added
      exact stored.withAgent home
    have joined : Stored collation second := by
      refine forM_keeps (Stored collation) filled (fun _ _ graph u next stored added => ?_) edges
      obtain ⟨fits, fresh, rfl⟩ := addSnapshotEdge_ok.mp added
      exact stored.withEdge fits (by simp [fresh])
    obtain ⟨topology, rfl⟩ := (assertTopology_ok joined).mp checked
    exact topology
  next => cases accepted

end Constructor

end OttiliCoder.AgentGraph
