import OttiliCoder.Proofs.AgentTopology

/-! The traversals of the agent graph on a topology: the walk below an agent lists its
proper descendants, the climbs follow its root path, and none of them meets a cycle. -/

namespace OttiliCoder.AgentGraph
open Relational Transaction StableSort

/-! Parents and children. -/

/-- The parent relation on the agents of a graph. -/
def ChildOf (graph : AgentGraph) (parent child : Agent) : Prop :=
  child ∈ graph.agentsById ∧ child.parentAgentId = some parent.id

abbrev ProperDescendant (graph : AgentGraph) : Agent → Agent → Prop := Relation.TransGen graph.ChildOf

section Children
variable {collation : Collation} {graph : AgentGraph} {agent parent child : Agent} {edge : AgentGraphEdge}
  {parentId : AgentId} {edgeState : Option AgentSpawnEdgeState}

theorem Topology.mem_edgesByParent (topology : Topology collation graph) :
    edge ∈ graph.edgesByParent parentId ↔ edge ∈ graph.edgesByChild ∧ edge.parentAgentId = parentId := by
  rw [(topology.branches parentId).mem_iff, branch, List.mem_filter, Keyed.mem_def, beq_iff_eq]

/-- An edge leads to a child of its parent. -/
theorem Topology.child_of_edge (topology : Topology collation graph) (member : edge ∈ graph.edgesByChild) :
    ∃ child ∈ graph.agentsById, child.id = edge.childAgentId ∧ child.parentAgentId = some edge.parentAgentId := by
  obtain ⟨child, found⟩ := Option.isSome_iff_exists.mp (topology.below edge member)
  obtain ⟨stored, named⟩ := Keyed.find?_eq_some.mp found
  have here : graph.edgesByChild.find? child.id = some edge := Keyed.find?_eq_some.mpr ⟨member, named.symm⟩
  refine ⟨child, stored, named, ?_⟩
  cases above : child.parentAgentId with
  | none => cases here.symm.trans (topology.top child stored above)
  | some parentId =>
    obtain ⟨other, placed, parent, -⟩ := topology.placed child stored parentId above
    cases here.symm.trans placed
    exact congrArg some parent.symm

theorem Topology.edge_of_child (topology : Topology collation graph) (child : graph.ChildOf parent agent) :
    ∃ edge ∈ graph.edgesByParent parent.id, edge.childAgentId = agent.id := by
  obtain ⟨edge, found, under, -⟩ := topology.placed agent child.1 parent.id child.2
  obtain ⟨member, named⟩ := Keyed.find?_eq_some.mp found
  exact ⟨edge, topology.mem_edgesByParent.mpr ⟨member, under⟩, named⟩

theorem Topology.childEdge (topology : Topology collation graph) (member : edge ∈ graph.childEdges parentId edgeState) :
    ∃ child ∈ graph.agentsById, child.id = edge.childAgentId ∧ child.parentAgentId = some parentId := by
  obtain ⟨stored, under⟩ := topology.mem_edgesByParent.mp (List.mem_filter.mp member).1
  rw [← under]
  exact topology.child_of_edge stored

theorem Topology.childEdges_nodup (topology : Topology collation graph) (parentId : AgentId)
    (edgeState : Option AgentSpawnEdgeState) : ((graph.childEdges parentId edgeState).map AgentGraphEdge.childAgentId).Nodup := by
  have distinct : ((graph.edgesByParent parentId).map AgentGraphEdge.childAgentId).Nodup :=
    ((topology.branches parentId).map _).nodup_iff.mpr (graph.edgesByChild.unique.sublist (List.filter_sublist.map _))
  exact distinct.sublist (List.filter_sublist.map _)

@[simp] theorem childEdges_none : graph.childEdges parentId none = graph.edgesByParent parentId := by simp [childEdges]

/-- The root path of a child ends with its parent. -/
theorem RootPath.extend {lineage : List Agent} (path : RootPath graph parent lineage) (stored : parent ∈ graph.agentsById)
    (child : agent.parentAgentId = some parent.id) : RootPath graph agent (lineage ++ [parent]) := .under child stored path

/-- Two agents on one root path that lie equally deep are the same. -/
theorem RootPath.level {lineage first second : List Agent} {one other : Agent} (path : RootPath graph agent lineage)
    (inside : one ∈ lineage ++ [agent]) (within : other ∈ lineage ++ [agent]) (above : RootPath graph one first)
    (beyond : RootPath graph other second) (level : first.length = second.length) : one = other := by
  induction path with
  | root => simp_all
  | @under agent parent lineage child stored climb ih =>
    have path : RootPath graph agent (lineage ++ [parent]) := climb.extend stored child
    rcases List.mem_append.mp inside with high | last <;> rcases List.mem_append.mp within with tall | final
    · exact ih high tall
    · rw [List.mem_singleton.mp final] at beyond
      obtain ⟨front, again, shorter⟩ := path.higher one high
      rw [again.unique above, path.unique beyond] at shorter
      omega
    · rw [List.mem_singleton.mp last] at above
      obtain ⟨front, again, shorter⟩ := path.higher other tall
      rw [again.unique beyond, path.unique above] at shorter
      omega
    · rw [List.mem_singleton.mp last, List.mem_singleton.mp final]

/-- A root path holds the agents above. -/
theorem RootPath.mem_iff {lineage : List Agent} (path : RootPath graph agent lineage) (stored : agent ∈ graph.agentsById)
    (known : parent ∈ graph.agentsById) : parent ∈ lineage ↔ graph.ProperDescendant parent agent := by
  constructor
  · intro inside
    induction path with
    | root => cases inside
    | under child kept above ih =>
      rcases List.mem_append.mp inside with before | last
      · exact .tail (ih kept before) ⟨stored, child⟩
      · rw [List.mem_singleton.mp last]
        exact .single ⟨stored, child⟩
  · intro descends
    induction descends generalizing lineage with
    | single child =>
      cases path with
      | root top => cases top.symm.trans child.2
      | under named kept =>
        have same := Option.some.inj (named.symm.trans child.2)
        rw [Keyed.eq_of_key kept known same]
        simp
    | @tail middle agent descends child ih =>
      cases path with
      | root top => cases top.symm.trans child.2
      | under named kept above =>
        have inside : middle ∈ graph.agentsById := by
          cases descends with
          | single first => exact first.1
          | tail _ last => exact last.1
        have same := Keyed.eq_of_key kept inside (Option.some.inj (named.symm.trans child.2))
        subst same
        exact List.mem_append_left _ (ih above kept)

end Children

/-! The walk below an agent. -/

/-- The agents below an agent in the order of the depth-first walk. -/
def preorder (graph : AgentGraph) (edgeState : Option AgentSpawnEdgeState) : Nat → AgentId → List Agent
  | 0, _ => []
  | depth + 1, parentId => (graph.childEdges parentId edgeState).flatMap fun edge =>
    ((graph.agentsById.find? edge.childAgentId).map fun child => child :: preorder graph edgeState depth child.id).getD []

section Walk
variable {collation : Collation} {graph : AgentGraph} {agent parent child : Agent} {edge : AgentGraphEdge}
  {edgeState : Option AgentSpawnEdgeState} {depth : Nat} {lineage : List Agent}

theorem mem_preorder {parentId : AgentId} :
    agent ∈ graph.preorder edgeState (depth + 1) parentId ↔
      ∃ edge ∈ graph.childEdges parentId edgeState, ∃ child, graph.agentsById.find? edge.childAgentId = some child ∧
        (agent = child ∨ agent ∈ graph.preorder edgeState depth child.id) := by
  simp only [preorder, List.mem_flatMap]
  constructor
  · rintro ⟨edge, member, inside⟩
    cases found : graph.agentsById.find? edge.childAgentId with
    | none => simp [found] at inside
    | some child => exact ⟨edge, member, child, found, by simpa [found] using inside⟩
  · rintro ⟨edge, member, child, found, inside⟩
    exact ⟨edge, member, by simpa [found] using inside⟩

/-- What the walk lists lies below the agent it starts from. -/
theorem Topology.preorder_below (topology : Topology collation graph) (stored : parent ∈ graph.agentsById)
    (path : RootPath graph parent lineage) (inside : agent ∈ graph.preorder edgeState depth parent.id) :
    agent ∈ graph.agentsById ∧ ∃ above, RootPath graph agent above ∧ parent ∈ above := by
  induction depth generalizing parent lineage with
  | zero => cases inside
  | succ depth ih =>
    obtain ⟨edge, member, child, found, inside⟩ := mem_preorder.mp inside
    obtain ⟨other, kept, named, under⟩ := topology.childEdge member
    cases (Keyed.find?_eq_some.mpr ⟨kept, named⟩).symm.trans found
    have below : RootPath graph child (lineage ++ [parent]) := path.extend stored under
    rcases inside with rfl | deeper
    · exact ⟨kept, _, below, by simp⟩
    · obtain ⟨member, above, climb, between⟩ := ih kept below deeper
      refine ⟨member, above, climb, ?_⟩
      obtain ⟨front, again, -⟩ := climb.higher child between
      have beyond : graph.ProperDescendant parent agent :=
        Relation.TransGen.head ⟨kept, under⟩ ((climb.mem_iff member kept).mp between)
      exact (climb.mem_iff member stored).mpr beyond

/-- A child's part of the walk holds the child and what lies below it. -/
theorem Topology.within_part (topology : Topology collation graph) (kept : child ∈ graph.agentsById)
    (path : RootPath graph child lineage) (inside : agent ∈ child :: graph.preorder edgeState depth child.id) :
    ∃ above, RootPath graph agent above ∧ child ∈ above ++ [agent] := by
  rcases List.mem_cons.mp inside with rfl | deeper
  · exact ⟨lineage, path, by simp⟩
  · obtain ⟨-, above, climb, between⟩ := topology.preorder_below kept path deeper
    exact ⟨above, climb, List.mem_append_left _ between⟩

theorem Topology.preorder_nodup (topology : Topology collation graph) (stored : parent ∈ graph.agentsById)
    (path : RootPath graph parent lineage) : (graph.preorder edgeState depth parent.id).Nodup := by
  induction depth generalizing parent lineage with
  | zero => exact List.nodup_nil
  | succ depth ih =>
    rw [preorder, List.nodup_flatMap]
    constructor
    · intro edge member
      obtain ⟨child, kept, named, under⟩ := topology.childEdge member
      have below : RootPath graph child (lineage ++ [parent]) := path.extend stored under
      have found : graph.agentsById.find? edge.childAgentId = some child := Keyed.find?_eq_some.mpr ⟨kept, named⟩
      simp only [found, Option.map_some, Option.getD_some, List.nodup_cons]
      refine ⟨fun inside => ?_, ih kept below⟩
      obtain ⟨-, above, climb, between⟩ := topology.preorder_below kept below inside
      exact climb.not_mem between
    · refine (List.pairwise_map.mp (topology.childEdges_nodup parent.id edgeState)).imp_of_mem ?_
      intro one other first second apart
      obtain ⟨child, kept, named, under⟩ := topology.childEdge first
      obtain ⟨sibling, stays, called, beneath⟩ := topology.childEdge second
      have below : RootPath graph child (lineage ++ [parent]) := path.extend stored under
      have beside : RootPath graph sibling (lineage ++ [parent]) := path.extend stored beneath
      have found : graph.agentsById.find? one.childAgentId = some child := Keyed.find?_eq_some.mpr ⟨kept, named⟩
      have beheld : graph.agentsById.find? other.childAgentId = some sibling := Keyed.find?_eq_some.mpr ⟨stays, called⟩
      simp only [Function.onFun, found, beheld, Option.map_some, Option.getD_some]
      -- An agent below both siblings would have both on its root path, equally deep.
      intro agent inside within
      obtain ⟨above, climb, between⟩ := topology.within_part kept below inside
      obtain ⟨beyond, again, among⟩ := topology.within_part stays beside within
      rw [again.unique climb] at among
      have same : child = sibling := climb.level between among below beside rfl
      exact apart (named.symm.trans ((congrArg Agent.id same).trans called))

/-- With depth enough for every path below, the walk goes on to the children of what it lists. -/
theorem Topology.preorder_closed (topology : Topology collation graph) (stored : parent ∈ graph.agentsById)
    (path : RootPath graph parent lineage) (enough : graph.agentsById.rows.length ≤ lineage.length + depth)
    (inside : child = parent ∨ child ∈ graph.preorder none depth parent.id) (under : graph.ChildOf child agent) :
    agent ∈ graph.preorder none depth parent.id := by
  induction depth generalizing parent lineage with
  | zero =>
    have shorter := path.length_lt stored
    omega
  | succ depth ih =>
    rcases inside with rfl | inside
    · obtain ⟨edge, member, named⟩ := topology.edge_of_child under
      exact mem_preorder.mpr ⟨edge, by simpa using member, agent, Keyed.find?_eq_some.mpr ⟨under.1, named.symm⟩, .inl rfl⟩
    · obtain ⟨edge, member, first, found, inside⟩ := mem_preorder.mp inside
      obtain ⟨other, kept, named, beneath⟩ := topology.childEdge member
      cases (Keyed.find?_eq_some.mpr ⟨kept, named⟩).symm.trans found
      refine mem_preorder.mpr ⟨edge, member, first, found, .inr ?_⟩
      apply ih kept (path.extend stored beneath) ?_ inside
      simp only [List.length_append, List.length_singleton]
      omega

/-- The whole walk lists the proper descendants. -/
theorem Topology.mem_preorder_iff (topology : Topology collation graph) (stored : parent ∈ graph.agentsById)
    (path : RootPath graph parent lineage) (enough : graph.agentsById.rows.length ≤ lineage.length + depth) :
    agent ∈ graph.preorder none depth parent.id ↔ graph.ProperDescendant parent agent := by
  constructor
  · intro inside
    obtain ⟨member, above, climb, between⟩ := topology.preorder_below stored path inside
    exact (climb.mem_iff member stored).mp between
  · intro descends
    induction descends with
    | single child => exact topology.preorder_closed stored path enough (.inl rfl) child
    | tail _ child ih => exact topology.preorder_closed stored path enough (.inr ih) child

/-- A walk records the parts one after the other when it can record each of them by itself. -/
theorem walk_parts {step : List AgentId × List Agent → AgentGraphEdge → Except GraphError (List AgentId × List Agent)}
    {edges : List AgentGraphEdge} {part : AgentGraphEdge → List Agent} {visited : List AgentId} {found : List Agent}
    (walks : ∀ edge ∈ edges, ∀ visited found, (∀ agent ∈ part edge, agent.id ∉ visited) →
      step (visited, found) edge = .ok (((part edge).map Agent.id).reverse ++ visited, found ++ part edge))
    (unmet : ∀ agent ∈ edges.flatMap part, agent.id ∉ visited) (distinct : ((edges.flatMap part).map Agent.id).Nodup) :
    edges.foldlM step (visited, found) =
      .ok (((edges.flatMap part).map Agent.id).reverse ++ visited, found ++ edges.flatMap part) := by
  induction edges generalizing visited found with
  | nil => simp [pure, Except.pure]
  | cons edge edges ih =>
    rw [List.flatMap_cons, List.map_append, List.nodup_append] at distinct
    obtain ⟨-, rest, apart⟩ := distinct
    have first : step (visited, found) edge = .ok (((part edge).map Agent.id).reverse ++ visited, found ++ part edge) :=
      walks edge (by simp) visited found fun agent inside => unmet agent (by simp [inside])
    have later : ∀ agent ∈ edges.flatMap part, agent.id ∉ ((part edge).map Agent.id).reverse ++ visited := by
      intro agent inside
      have before : agent.id ∉ visited := unmet agent (List.mem_append_right _ inside)
      have other : agent.id ∉ (part edge).map Agent.id := fun twice => apart _ twice _ (List.mem_map_of_mem inside) rfl
      rw [List.mem_append, List.mem_reverse]
      exact not_or.mpr ⟨other, before⟩
    rw [List.foldlM_cons, first]
    refine (ih (fun other member => walks other (List.mem_cons_of_mem _ member)) later rest).trans ?_
    simp

theorem Topology.preorder_ids_nodup (topology : Topology collation graph) (stored : parent ∈ graph.agentsById)
    (path : RootPath graph parent lineage) : ((graph.preorder edgeState depth parent.id).map Agent.id).Nodup := by
  apply List.Nodup.map_on ?_ (topology.preorder_nodup stored path)
  intro one inside other within same
  exact Keyed.eq_of_key (topology.preorder_below stored path inside).1 (topology.preorder_below stored path within).1 same

/-- The walk lists the preorder: no agent is met twice, and the steps suffice. -/
theorem Topology.visit_preorder (topology : Topology collation graph) (stored : parent ∈ graph.agentsById)
    (path : RootPath graph parent lineage) (enough : graph.agentsById.rows.length ≤ lineage.length + depth)
    {visited : List AgentId} {found : List Agent} (unmet : ∀ agent ∈ graph.preorder edgeState depth parent.id, agent.id ∉ visited) :
    graph.visit edgeState depth parent.id (visited, found) =
      .ok (((graph.preorder edgeState depth parent.id).map Agent.id).reverse ++ visited,
        found ++ graph.preorder edgeState depth parent.id) := by
  induction depth generalizing parent lineage visited found with
  | zero =>
    have shorter := path.length_lt stored
    omega
  | succ depth ih =>
    have distinct : ((graph.preorder edgeState (depth + 1) parent.id).map Agent.id).Nodup :=
      topology.preorder_ids_nodup stored path
    refine walk_parts ?_ unmet distinct
    intro edge member visited found new
    obtain ⟨child, kept, named, under⟩ := topology.childEdge member
    have below : RootPath graph child (lineage ++ [parent]) := path.extend stored under
    have looked : graph.agentsById.find? edge.childAgentId = some child := Keyed.find?_eq_some.mpr ⟨kept, named⟩
    simp only [looked, Option.map_some, Option.getD_some, List.mem_cons, forall_eq_or_imp] at new ⊢
    have deeper : graph.agentsById.rows.length ≤ (lineage ++ [parent]).length + depth := by
      simp only [List.length_append, List.length_singleton]
      omega
    have unvisited : ∀ agent ∈ graph.preorder edgeState depth child.id, agent.id ∉ child.id :: visited := by
      intro agent inside
      obtain ⟨agentStored, above, climb, between⟩ := topology.preorder_below kept below inside
      have different : child.id ≠ agent.id := climb.apart agentStored child between
      simp [different.symm, new.2 agent inside]
    have walked : graph.visit edgeState depth child.id (child.id :: visited, found ++ [child]) = _ := ih kept below deeper unvisited
    have fresh : visited.contains child.id = false := by simpa using new.1
    rw [← named, fresh, requireAgent_ok.mpr (Keyed.find?_key kept)]
    refine walked.trans ?_
    simp

end Walk

/-! The climbs to the root. -/

section Climbs
variable {collation : Collation} {graph : AgentGraph} {agent parent : Agent} {lineage : List Agent} {steps : Nat}
  {visited : List AgentId}

theorem climb_rootPath (path : RootPath graph agent lineage) (stored : agent ∈ graph.agentsById) {below : List Agent}
    (enough : lineage.length < steps) (unmet : ∀ member ∈ lineage, member.id ∉ visited) :
    graph.climb steps visited agent below = .ok (lineage ++ below) := by
  induction path generalizing steps visited below with
  | root top =>
    cases steps with
    | zero => cases enough
    | succ steps => simp [climb, top]
  | @under agent parent lineage child kept above ih =>
    cases steps with
    | zero => cases enough
    | succ steps =>
      have new : parent.id ∉ visited := unmet parent (by simp)
      simp only [climb, child, List.contains_eq_mem, new, decide_false, requireAgent_ok.mpr (Keyed.find?_key kept)]
      refine (ih kept ?_ ?_).trans (by simp)
      · simp only [List.length_append, List.length_singleton] at enough
        omega
      · intro member inside
        have apart : member.id ≠ parent.id := above.apart kept member inside
        simp [apart, unmet member (List.mem_append_left _ inside)]

theorem climbOpen_ends (path : RootPath graph agent lineage) (stored : agent ∈ graph.agentsById)
    (enough : lineage.length < steps) (unmet : ∀ member ∈ lineage ++ [agent], member.id ∉ visited) :
    ∃ opened, graph.climbOpen steps visited agent = .ok opened := by
  induction path generalizing steps visited with
  | root top =>
    cases steps with
    | zero => cases enough
    | succ steps => exact ⟨true, by simp [climbOpen, top]⟩
  | @under agent parent lineage child kept above ih =>
    cases steps with
    | zero => cases enough
    | succ steps =>
      have new : agent.id ∉ visited := unmet agent (by simp)
      simp only [climbOpen, child, List.contains_eq_mem, new, decide_false]
      cases graph.edgesByChild.find? agent.id with
      | none => exact ⟨false, rfl⟩
      | some edge =>
        by_cases closed : (edge.state != .opened) = true
        · exact ⟨false, by simp [closed]⟩
        · simp only [closed, requireAgent_ok.mpr (Keyed.find?_key kept)]
          apply ih kept
          · simp only [List.length_append, List.length_singleton] at enough
            omega
          · intro member inside
            have apart : member.id ≠ agent.id := (above.extend kept child).apart stored member inside
            simp [apart, unmet member (List.mem_append_left _ inside)]

end Climbs

/-! The queries. -/

inductive GraphQuery where
  | snapshot
  | listAgents
  | listEdges
  | hasAgent (agentId : AgentId)
  | getAgent (agentId : AgentId)
  | requireAgent (agentId : AgentId)
  | getSpawnEdge (childAgentId : AgentId)
  | roots
  | children (parentAgentId : AgentId) (edgeState : Option AgentSpawnEdgeState)
  | descendants (parentAgentId : AgentId) (edgeState : Option AgentSpawnEdgeState)
  | ancestors (agentId : AgentId)
  | taskPath (agentId : AgentId)
  | resumeCandidates (options : AgentResumeOptions)
  | hasOpenAncestry (agentId : AgentId)
  | openChildCount (parentAgentId : AgentId)

inductive GraphAnswer where
  | snapshot (snapshot : AgentGraphSnapshot)
  | agents (agents : List Agent)
  | edges (edges : List AgentGraphEdge)
  | agent (agent : Option Agent)
  | edge (edge : Option AgentGraphEdge)
  | path (path : AgentTaskPath)
  | holds (answer : Bool)
  | count (count : Nat)

def ask (collation : Collation) (graph : AgentGraph) : GraphQuery → Except GraphError GraphAnswer
  | .snapshot => .ok (.snapshot (graph.snapshot collation))
  | .listAgents => .ok (.agents (graph.listAgents collation))
  | .listEdges => .ok (.edges (graph.listEdges collation))
  | .hasAgent agentId => .ok (.holds (graph.hasAgent agentId))
  | .getAgent agentId => .ok (.agent (graph.getAgent agentId))
  | .requireAgent agentId => return .agent (some (← graph.requireAgent agentId))
  | .getSpawnEdge childAgentId => .ok (.edge (graph.getSpawnEdge childAgentId))
  | .roots => .ok (.agents (graph.roots collation))
  | .children parentAgentId edgeState => return .agents (← graph.children parentAgentId edgeState)
  | .descendants parentAgentId edgeState => return .agents (← graph.descendants parentAgentId edgeState)
  | .ancestors agentId => return .agents (← graph.ancestors agentId)
  | .taskPath agentId => return .path (← graph.taskPath agentId)
  | .resumeCandidates options => return .agents (← graph.resumeCandidates collation options)
  | .hasOpenAncestry agentId => return .holds (← graph.hasOpenAncestry agentId)
  | .openChildCount parentAgentId => .ok (.count (graph.openChildCount parentAgentId))

section Queries
variable {collation : Collation} {graph : AgentGraph} {agent : Agent} {lineage : List Agent} {agentId : AgentId}

def missing : GraphError := .invariantViolation "Agent is not present in this graph"

theorem requireAgent_cases (graph : AgentGraph) (agentId : AgentId) :
    (∃ agent ∈ graph.agentsById, agent.id = agentId ∧ graph.requireAgent agentId = .ok agent) ∨
      graph.requireAgent agentId = .error missing := by
  cases found : graph.agentsById.find? agentId with
  | none => exact .inr (by simp [requireAgent, found, missing])
  | some agent =>
    obtain ⟨member, named⟩ := Keyed.find?_eq_some.mp found
    exact .inl ⟨agent, member, named, requireAgent_ok.mpr found⟩

/-- A loop of queries is answered when each of them is. -/
theorem mapM_answered {α β : Type} {items : List α} {query : α → Except GraphError β}
    (each : ∀ item ∈ items, ∃ answer, query item = .ok answer) : ∃ answers, items.mapM query = .ok answers := by
  induction items with
  | nil => exact ⟨[], rfl⟩
  | cons item items ih =>
    obtain ⟨answer, first⟩ := each item (by simp)
    obtain ⟨answers, rest⟩ := ih fun other member => each other (List.mem_cons_of_mem _ member)
    refine ⟨answer :: answers, ?_⟩
    rw [List.mapM_cons, first, rest]
    rfl

theorem Topology.children_all (topology : Topology collation graph) (stored : agent ∈ graph.agentsById)
    (edgeState : Option AgentSpawnEdgeState) : ∃ found, graph.children agent.id edgeState = .ok found := by
  have each : ∀ edge ∈ graph.childEdges agent.id edgeState, ∃ child, graph.requireAgent edge.childAgentId = .ok child := by
    intro edge member
    obtain ⟨child, kept, named, -⟩ := topology.childEdge member
    exact ⟨child, requireAgent_ok.mpr (Keyed.find?_eq_some.mpr ⟨kept, named⟩)⟩
  obtain ⟨found, read⟩ := mapM_answered each
  refine ⟨found, ?_⟩
  rw [children, requireAgent_ok.mpr (Keyed.find?_key stored)]
  exact read

theorem Topology.descendants_ok (topology : Topology collation graph) (stored : agent ∈ graph.agentsById)
    (path : RootPath graph agent lineage) (edgeState : Option AgentSpawnEdgeState) :
    graph.descendants agent.id edgeState = .ok (graph.preorder edgeState graph.bound agent.id) := by
  have unmet : ∀ member ∈ graph.preorder edgeState graph.bound agent.id, member.id ∉ [agent.id] := by
    intro member inside
    obtain ⟨kept, above, climb, between⟩ := topology.preorder_below stored path inside
    have different : agent.id ≠ member.id := climb.apart kept agent between
    simp [different.symm]
  have enough : graph.agentsById.rows.length ≤ lineage.length + graph.bound := by
    unfold bound
    omega
  have walked : graph.visit edgeState graph.bound agent.id ([agent.id], []) = _ :=
    topology.visit_preorder stored path enough unmet
  rw [descendants, requireAgent_ok.mpr (Keyed.find?_key stored)]
  simp only [bind, Except.bind, walked]
  rfl

theorem ancestors_ok (stored : agent ∈ graph.agentsById) (path : RootPath graph agent lineage) :
    graph.ancestors agent.id = .ok lineage := by
  have enough : lineage.length < graph.bound := by
    have shorter := path.length_lt stored
    unfold bound
    omega
  have climbed : graph.climb graph.bound [agent.id] agent [] = .ok (lineage ++ []) := by
    apply climb_rootPath path stored enough
    intro member inside
    simp [path.apart stored member inside]
  rw [ancestors, requireAgent_ok.mpr (Keyed.find?_key stored)]
  exact climbed.trans (by simp)

theorem taskPath_ok (stored : agent ∈ graph.agentsById) (path : RootPath graph agent lineage) :
    ∃ taskPath, graph.taskPath agent.id = .ok taskPath := by
  rw [taskPath, ancestors_ok stored path, requireAgent_ok.mpr (Keyed.find?_key stored)]
  exact ⟨_, rfl⟩

theorem hasOpenAncestry_ok (stored : agent ∈ graph.agentsById) (path : RootPath graph agent lineage) :
    ∃ opened, graph.hasOpenAncestry agent.id = .ok opened := by
  have enough : lineage.length < graph.bound := by
    have shorter := path.length_lt stored
    unfold bound
    omega
  obtain ⟨opened, ended⟩ := climbOpen_ends path stored enough (show ∀ member ∈ lineage ++ [agent], member.id ∉ [] by simp)
  refine ⟨opened, ?_⟩
  rw [hasOpenAncestry, requireAgent_ok.mpr (Keyed.find?_key stored)]
  exact ended

/-- An agent query is answered, or the agent is missing. -/
theorem Topology.asked_agent (topology : Topology collation graph) {β : Type} {query : AgentId → Except GraphError β}
    (answers : ∀ agent ∈ graph.agentsById, ∀ lineage, RootPath graph agent lineage → ∃ answer, query agent.id = .ok answer)
    (absent : graph.requireAgent agentId = .error missing → query agentId = .error missing) :
    (∃ answer, query agentId = .ok answer) ∨ query agentId = .error missing := by
  rcases requireAgent_cases graph agentId with ⟨agent, stored, rfl, -⟩ | unknown
  · obtain ⟨lineage, path⟩ := topology.rooted agent stored
    exact .inl (answers agent stored lineage path)
  · exact .inr (absent unknown)

theorem normalizeLimit_cases (limit : Option Number) (label : String) :
    (∃ count, normalizeLimit limit label = .ok count) ∨
      normalizeLimit limit label = .error (.invariantViolation (label ++ " must be a non-negative integer")) := by
  unfold normalizeLimit
  split
  · exact .inl ⟨_, rfl⟩
  · exact .inr rfl
  · split
    · exact .inl ⟨_, rfl⟩
    · exact .inr rfl

theorem filterM_answered {α : Type} {items : List α} {query : α → Except GraphError Bool}
    (each : ∀ item ∈ items, ∃ answer, query item = .ok answer) :
    ∃ kept, items.filterM query = .ok kept ∧ ∀ item ∈ kept, item ∈ items := by
  have collects : ∀ rest : List α, (∀ item ∈ rest, ∃ answer, query item = .ok answer) → ∀ front, ∃ kept,
      rest.filterAuxM query front = .ok kept ∧ ∀ item ∈ kept, item ∈ front ∨ item ∈ rest := by
    intro rest
    induction rest with
    | nil => exact fun _ front => ⟨front, rfl, fun item inside => .inl inside⟩
    | cons item rest ih =>
      intro answers front
      obtain ⟨answer, first⟩ := answers item (by simp)
      obtain ⟨kept, later, within⟩ := ih (fun other member => answers other (List.mem_cons_of_mem _ member))
        (cond answer (item :: front) front)
      refine ⟨kept, by rw [List.filterAuxM, first]; exact later, fun other inside => ?_⟩
      have origin := within other inside
      cases answer <;> simp at origin ⊢ <;> grind
  obtain ⟨kept, collected, within⟩ := collects items each []
  refine ⟨kept.reverse, ?_, fun item inside => by simpa using within item (List.mem_reverse.mp inside)⟩
  rw [List.filterM, collected]
  rfl

/-- The candidates are listed unless the limit is refused. -/
theorem Topology.resumeCandidates_cases (topology : Topology collation graph) (options : AgentResumeOptions) :
    (∃ found, graph.resumeCandidates collation options = .ok found) ∨
      graph.resumeCandidates collation options =
        .error (.invariantViolation "resume candidate limit must be a non-negative integer") := by
  rcases normalizeLimit_cases options.limit "resume candidate limit" with ⟨limit, bounded⟩ | refused
  · left
    have stored : ∀ agent ∈ (graph.listAgents collation).filter
        (fun agent => (options.statuses.getD defaultResumableAgentStatuses).contains agent.status),
        agent ∈ graph.agentsById := fun agent inside => mem_sortOn.mp (List.mem_filter.mp inside).1
    have opens : ∀ agent ∈ (graph.listAgents collation).filter
        (fun agent => (options.statuses.getD defaultResumableAgentStatuses).contains agent.status),
        ∃ answer, (if options.includeClosedEdges.getD false then .ok true else graph.hasOpenAncestry agent.id) =
          Except.ok answer := by
      intro agent inside
      obtain ⟨lineage, path⟩ := topology.rooted agent (stored agent inside)
      split
      · exact ⟨true, rfl⟩
      · exact hasOpenAncestry_ok (stored agent inside) path
    obtain ⟨kept, filtered, within⟩ := filterM_answered opens
    have paths : ∀ agent ∈ kept, ∃ keyed, (do
        let path ← graph.taskPath agent.id
        return (path.key, agent)) = Except.ok keyed := by
      intro agent inside
      have member := stored agent (within agent inside)
      obtain ⟨lineage, path⟩ := topology.rooted agent member
      obtain ⟨taskPath, found⟩ := taskPath_ok member path
      exact ⟨(taskPath.key, agent), by rw [found]; rfl⟩
    obtain ⟨keyed, sorted⟩ := mapM_answered paths
    rw [resumeCandidates, bounded]
    simp only [bind, Except.bind] at sorted ⊢
    rw [filtered]
    simp only [sorted]
    exact ⟨_, rfl⟩
  · right
    rw [resumeCandidates, refused]
    rfl

def limitRefused : GraphError := .invariantViolation "resume candidate limit must be a non-negative integer"

/-- A query is answered, or names a missing agent, or has its limit refused. -/
theorem Topology.ask_cases (topology : Topology collation graph) (query : GraphQuery) :
    (∃ answer, graph.ask collation query = .ok answer) ∨ graph.ask collation query = .error missing ∨
      graph.ask collation query = .error limitRefused := by
  have named : ∀ {β : Type} {asked : AgentId → Except GraphError β} (wrap : β → GraphAnswer) (agentId : AgentId),
      (∀ agent ∈ graph.agentsById, ∀ lineage, RootPath graph agent lineage → ∃ answer, asked agent.id = .ok answer) →
      (graph.requireAgent agentId = .error missing → asked agentId = .error missing) →
      (∃ answer, (wrap <$> asked agentId) = .ok answer) ∨ (wrap <$> asked agentId) = .error missing ∨
        (wrap <$> asked agentId) = .error limitRefused := by
    intro β asked wrap agentId answers absent
    rcases topology.asked_agent answers absent with ⟨answer, found⟩ | unknown
    · exact .inl ⟨wrap answer, by rw [found]; rfl⟩
    · exact .inr (.inl (by rw [unknown]; rfl))
  cases query with
  | snapshot => exact .inl ⟨_, rfl⟩
  | listAgents => exact .inl ⟨_, rfl⟩
  | listEdges => exact .inl ⟨_, rfl⟩
  | hasAgent => exact .inl ⟨_, rfl⟩
  | getAgent => exact .inl ⟨_, rfl⟩
  | getSpawnEdge => exact .inl ⟨_, rfl⟩
  | roots => exact .inl ⟨_, rfl⟩
  | openChildCount => exact .inl ⟨_, rfl⟩
  | requireAgent agentId =>
    apply named (fun agent => .agent (some agent)) agentId
    · exact fun agent stored _ _ => ⟨agent, requireAgent_ok.mpr (Keyed.find?_key stored)⟩
    · exact id
  | children agentId edgeState =>
    apply named .agents agentId
    · exact fun agent stored _ _ => topology.children_all stored edgeState
    · intro unknown
      rw [children, unknown]
      rfl
  | descendants agentId edgeState =>
    apply named .agents agentId
    · exact fun agent stored _ path => ⟨_, topology.descendants_ok stored path edgeState⟩
    · intro unknown
      rw [descendants, unknown]
      rfl
  | ancestors agentId =>
    apply named .agents agentId
    · exact fun agent stored lineage path => ⟨lineage, ancestors_ok stored path⟩
    · intro unknown
      rw [ancestors, unknown]
      rfl
  | taskPath agentId =>
    apply named .path agentId
    · exact fun agent stored _ path => taskPath_ok stored path
    · intro unknown
      rw [taskPath, ancestors, unknown]
      rfl
  | hasOpenAncestry agentId =>
    apply named .holds agentId
    · exact fun agent stored _ path => hasOpenAncestry_ok stored path
    · intro unknown
      rw [hasOpenAncestry, unknown]
      rfl
  | resumeCandidates options =>
    rcases topology.resumeCandidates_cases options with ⟨found, listed⟩ | refused
    · exact .inl ⟨.agents found, by rw [ask, listed]; rfl⟩
    · exact .inr (.inr (by rw [ask, refused]; rfl))

end Queries

/-! Refused operations. -/

/-- The error is not one of those that report a cycle during a traversal. -/
def Acyclic (error : GraphError) : Prop := error ≠ traversalCycle ∧ error ≠ ancestryCycle

section Refusals
variable {collation : Collation} {graph : AgentGraph} {agent : Agent} {agentId : AgentId} {status : AgentStatus}
  {timestamp : IsoTimestamp} {reason : Option String} {input : SpawnAgentInput}

theorem mustAgent_raises : Raises Acyclic (mustAgent agentId) graph := by
  refine Raises.bind (raises_of_ok rfl) fun read next _ => ?_
  rcases requireAgent_cases read agentId with ⟨agent, -, -, found⟩ | unknown
  · rw [found]
    exact raises_of_ok rfl
  · rw [unknown]
    exact .throw (by simp [Acyclic, missing, traversalCycle, ancestryCycle])

theorem belongs_raises : Raises Acyclic (assertAgentBelongsToRun agent) graph :=
  Raises.bind (raises_of_ok rfl) fun _ _ _ => .require (by simp [Acyclic, traversalCycle, ancestryCycle])

theorem registerRoot_raises : Raises Acyclic (registerRoot agent) graph := by
  refine belongs_raises.bind fun _ _ _ => Raises.bind (.require (by simp [Acyclic, traversalCycle, ancestryCycle])) fun _ _ _ => ?_
  refine Raises.bind (raises_of_ok rfl) fun _ _ _ => ?_
  exact Raises.bind (.require (by simp [Acyclic, traversalCycle, ancestryCycle])) fun _ _ _ => raises_of_ok rfl

theorem transitionAgent_raises : Raises Acyclic (transitionAgent agentId status timestamp) graph := by
  refine mustAgent_raises.bind fun current next _ => ?_
  split
  · exact raises_of_ok rfl
  · exact Raises.bind (.require (by simp [Acyclic, traversalCycle, ancestryCycle])) fun _ _ _ => raises_of_ok rfl

theorem setEdge_raises {edge : AgentGraphEdge} : Raises Acyclic (setEdge collation edge) graph := by
  refine Raises.bind (raises_of_ok rfl) fun _ _ _ => ?_
  exact Raises.bind (.require (by simp [Acyclic, traversalCycle, ancestryCycle])) fun _ _ _ => raises_of_ok rfl

theorem spawn_raises : Raises Acyclic (spawn collation input) graph := by
  refine belongs_raises.bind fun _ _ _ => mustAgent_raises.bind fun _ _ _ => Raises.bind (raises_of_ok rfl) fun _ _ _ => ?_
  refine Raises.bind (.require (by simp [Acyclic, traversalCycle, ancestryCycle])) fun _ _ _ => ?_
  refine Raises.bind (.require (by simp [Acyclic, traversalCycle, ancestryCycle])) fun _ _ _ => ?_
  refine Raises.bind (.require (by simp [Acyclic, traversalCycle, ancestryCycle])) fun _ _ _ => ?_
  refine Raises.bind (.require (by simp [Acyclic, traversalCycle, ancestryCycle])) fun _ _ _ => ?_
  exact Raises.bind (raises_of_ok rfl) fun _ _ _ => setEdge_raises.bind fun _ _ _ => raises_of_ok rfl

theorem closeSpawnEdge_raises : Raises Acyclic (closeSpawnEdge collation agentId timestamp reason) graph := by
  refine Raises.bind (raises_of_ok rfl) fun _ _ _ => ?_
  refine Raises.bind (.expect (by simp [Acyclic, traversalCycle, ancestryCycle])) fun _ _ _ => ?_
  split
  · exact raises_of_ok rfl
  · exact setEdge_raises.bind fun _ _ _ => raises_of_ok rfl

theorem closeAgent_raises : Raises Acyclic (closeAgent collation agentId timestamp reason) graph := by
  refine transitionAgent_raises.bind fun _ _ _ => Raises.bind (raises_of_ok rfl) fun read _ _ => ?_
  refine Raises.bind ?_ fun _ _ _ => raises_of_ok rfl
  unfold onlyIf
  split
  · exact closeSpawnEdge_raises.bind fun _ _ _ => raises_of_ok rfl
  · exact raises_of_ok rfl

theorem Topology.resumeAgent_raises (topology : Topology collation graph) :
    Raises Acyclic (resumeAgent agentId timestamp) graph := by
  refine mustAgent_raises.bind fun current next found => ?_
  obtain ⟨stored, rfl⟩ := mustAgent_ok.mp found
  obtain ⟨member, rfl⟩ := Keyed.find?_eq_some.mp stored
  obtain ⟨lineage, path⟩ := topology.rooted current member
  obtain ⟨opened, asked⟩ := hasOpenAncestry_ok member path
  refine Raises.bind (.require (by simp [Acyclic, traversalCycle, ancestryCycle])) fun _ same required => ?_
  obtain ⟨-, rfl⟩ := require_ok.mp required
  refine Raises.bind (raises_of_ok rfl) fun read again reading => ?_
  obtain ⟨rfl, rfl⟩ := get_ok.mp reading
  rw [asked]
  exact Raises.bind (.require (by simp [Acyclic, traversalCycle, ancestryCycle])) fun _ _ _ => transitionAgent_raises

/-- The edge of a new child meets no other, so once the agent is stored the spawn goes through. -/
theorem Topology.spawn_atomic (topology : Topology collation graph) : AtomicAt (spawn collation input) graph := by
  have home : ReadOnly (assertAgentBelongsToRun input.agent) := ReadOnly.get.bind fun _ => .require _ _
  refine home.atomicAt_bind fun _ _ => readOnly_mustAgent.atomicAt_bind fun parent _ => ?_
  refine ReadOnly.get.atomicAt_bind fun read reading => ?_
  obtain ⟨rfl, -⟩ := get_ok.mp reading
  refine (ReadOnly.require _ _).atomicAt_bind fun _ new => ?_
  have fresh : read.agentsById.find? input.agent.id = none := by simpa [hasAgent] using (require_ok.mp new).1
  refine (ReadOnly.require _ _).atomicAt_bind fun _ _ => (ReadOnly.require _ _).atomicAt_bind fun _ _ => ?_
  refine (ReadOnly.require _ _).atomicAt_bind fun _ _ => ?_
  have unedged : ∀ existing, (read.withAgent input.agent).edgesByChild.find? (spawnEdge read.runId input).childAgentId =
      some existing → existing.parentAgentId = (spawnEdge read.runId input).parentAgentId := by
    intro existing found
    cases (topology.unedged fresh).symm.trans found
  apply atomicAt_of_ok
  · exact bind_ok.mpr ⟨(), _, setAgent_ok.mpr rfl, bind_ok.mpr ⟨(), _, setEdge_ok.mpr ⟨unedged, rfl⟩, pure_ok.mpr ⟨rfl, rfl⟩⟩⟩

/-- A refused operation changes nothing, and none is refused for a cycle. -/
theorem Topology.refused (topology : Topology collation graph) {op : GraphOp} {error : GraphError} {next : AgentGraph}
    (refused : op.run collation graph = .error error next) : next = graph ∧ Acyclic error := by
  cases op with
  | registerRoot agent =>
    exact ⟨registerRoot_atomic.map _ _ _ _ refused, registerRoot_raises.map _ _ refused⟩
  | spawn input =>
    exact ⟨topology.spawn_atomic.map _ _ _ refused, spawn_raises.map _ _ refused⟩
  | transitionAgent agentId status updatedAt =>
    exact ⟨transitionAgent_atomic.map _ _ _ _ refused, transitionAgent_raises.map _ _ refused⟩
  | closeAgent agentId closedAt closeReason =>
    exact ⟨closeAgent_atomic.map _ _ _ _ refused, closeAgent_raises.map _ _ refused⟩
  | closeSpawnEdge childAgentId closedAt closeReason =>
    exact ⟨closeSpawnEdge_atomicAt.map _ _ _ refused, closeSpawnEdge_raises.map _ _ refused⟩
  | suspendAgent agentId updatedAt =>
    exact ⟨transitionAgent_atomic.map _ _ _ _ refused, transitionAgent_raises.map _ _ refused⟩
  | stopAgent agentId updatedAt =>
    exact ⟨transitionAgent_atomic.map _ _ _ _ refused, transitionAgent_raises.map _ _ refused⟩
  | resumeAgent agentId updatedAt =>
    exact ⟨resumeAgent_atomic.map _ _ _ _ refused, topology.resumeAgent_raises.map _ _ refused⟩

end Refusals

end OttiliCoder.AgentGraph
