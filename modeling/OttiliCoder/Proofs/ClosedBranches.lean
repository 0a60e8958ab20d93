import OttiliCoder.Agents.Capacity
import OttiliCoder.Proofs.AgentSnapshots
import OttiliCoder.Proofs.Budget

/-! Who may run: admission and recovery leave out what lies behind a closed edge. An agent is closed by its
status too, which nobody asks on the way up, so closing has to reach the edge. -/

namespace OttiliCoder.AgentGraph
open Relational Transaction StableSort Results

/-! Branches. -/

/-- No spawn edge on the way to the root is closed. -/
def PathOpen (graph : AgentGraph) (agent : Agent) : Prop :=
  ∀ lineage, RootPath graph agent lineage → ∀ member ∈ lineage ++ [agent], ∀ edge,
    graph.edgesByChild.find? member.id = some edge → edge.state = .opened

/-- No agent above and no edge on the way to the root is closed. -/
def BranchOpen (graph : AgentGraph) (agent : Agent) : Prop :=
  PathOpen graph agent ∧ ∀ lineage, RootPath graph agent lineage → ∀ above ∈ lineage, above.status ≠ .closed

def EdgeClosed (graph : AgentGraph) (agentId : AgentId) : Prop :=
  ∃ edge, graph.edgesByChild.find? agentId = some edge ∧ edge.state = .closed

/-- Whoever is closed is behind a closed edge. -/
def Sealed (graph : AgentGraph) : Prop := ∀ agent ∈ graph.agentsById, agent.status = .closed → EdgeClosed graph agent.id

/-- Operations that leave no agent closed whose edge is not. -/
def Sealing (graph : AgentGraph) : GraphOp → Prop
  | .registerRoot agent => agent.status ≠ .closed
  | .spawn input => input.agent.status ≠ .closed
  | .transitionAgent agentId status _ => status = .closed → EdgeClosed graph agentId
  | .closeAgent agentId _ _ => (graph.edgesByChild.find? agentId).isSome
  | .closeSpawnEdge _ _ _ | .suspendAgent _ _ | .stopAgent _ _ | .resumeAgent _ _ => True

section Sealing
variable {collation : Collation} {graph next : AgentGraph} {agent : Agent} {edge : AgentGraphEdge} {agentId : AgentId}
  {status : AgentStatus} {timestamp : IsoTimestamp} {reason : Option String}

theorem Sealed.branchOpen (sealed : Sealed graph) (opened : PathOpen graph agent) : BranchOpen graph agent := by
  refine ⟨opened, fun lineage path above member closed => ?_⟩
  obtain ⟨edge, found, shut⟩ := sealed above (path.stored above member) closed
  have still := opened lineage path above (List.mem_append_left _ member) edge found
  rw [shut] at still
  cases still

theorem Sealed.withAgent (sealed : Sealed graph) (closed : agent.status = .closed → EdgeClosed graph agent.id) :
    Sealed (graph.withAgent agent) := by
  intro other inside
  obtain rfl | ⟨before, _⟩ := mem_withAgent.mp inside
  · exact closed
  · exact sealed other before

theorem edgeClosed_withEdge (kept : EdgeClosed graph agentId) (shut : edge.childAgentId = agentId → edge.state = .closed) :
    EdgeClosed (graph.withEdge collation edge) agentId := by
  obtain ⟨old, found, closed⟩ := kept
  unfold EdgeClosed withEdge
  rw [Keyed.find?_put]
  split
  · next same => exact ⟨edge, rfl, shut same⟩
  · exact ⟨old, found, closed⟩

theorem transitionAgent_sealed (sealed : Sealed graph) (seals : status = .closed → EdgeClosed graph agentId)
    (returned : transitionAgent agentId status timestamp graph = .ok agent next) : Sealed next := by
  obtain ⟨current, found, ⟨_, _, rfl⟩ | ⟨_, _, rfl, rfl⟩⟩ := transitionAgent_ok.mp returned
  · exact sealed
  · have named : current.id = agentId := (Keyed.find?_eq_some.mp found).2
    apply sealed.withAgent
    intro closed
    change EdgeClosed graph current.id
    rw [named]
    exact seals closed

theorem closeSpawnEdge_sealed (sealed : Sealed graph)
    (returned : closeSpawnEdge collation agentId timestamp reason graph = .ok edge next) :
    Sealed next ∧ EdgeClosed next agentId := by
  obtain ⟨current, found, ⟨shut, _, rfl⟩ | ⟨_, rfl, rfl⟩⟩ := closeSpawnEdge_ok.mp returned
  · exact ⟨sealed, current, found, shut⟩
  · have named : current.childAgentId = agentId := (Keyed.find?_eq_some.mp found).2
    constructor
    · exact fun agent inside closed => edgeClosed_withEdge (sealed agent inside closed) fun _ => rfl
    · unfold EdgeClosed withEdge
      rw [Keyed.find?_put, if_pos named]
      exact ⟨_, rfl, rfl⟩

/-- Between the two writes only the agent itself is not behind its edge. -/
theorem closeAgent_sealed (sealed : Sealed graph) (child : (graph.edgesByChild.find? agentId).isSome)
    (returned : closeAgent collation agentId timestamp reason graph = .ok agent next) : Sealed next := by
  obtain ⟨middle, moved, closing⟩ := closeAgent_ok.mp returned
  have around : ∀ other ∈ middle.agentsById, other.status = .closed → other.id ≠ agentId → EdgeClosed middle other.id := by
    obtain ⟨current, found, ⟨_, _, rfl⟩ | ⟨_, _, rfl, rfl⟩⟩ := transitionAgent_ok.mp moved
    · exact fun other inside closed _ => sealed other inside closed
    · intro other inside closed apart
      obtain rfl | ⟨before, _⟩ := mem_withAgent.mp inside
      · exact absurd (Keyed.find?_eq_some.mp found).2 apart
      · exact sealed other before closed
  have same : middle.edgesByChild = graph.edgesByChild := by
    obtain ⟨current, found, ⟨_, _, rfl⟩ | ⟨_, _, rfl, rfl⟩⟩ := transitionAgent_ok.mp moved
    · rfl
    · rfl
  obtain ⟨_, edge, closed⟩ | ⟨absent, _⟩ := closing
  · obtain ⟨current, found, ⟨shut, _, rfl⟩ | ⟨_, rfl, rfl⟩⟩ := closeSpawnEdge_ok.mp closed
    · intro other inside ended
      by_cases named : other.id = agentId
      · rw [named]
        exact ⟨current, found, shut⟩
      · exact around other inside ended named
    · have named : current.childAgentId = agentId := (Keyed.find?_eq_some.mp found).2
      intro other inside ended
      by_cases here : other.id = agentId
      · unfold EdgeClosed withEdge
        rw [here, Keyed.find?_put, if_pos named]
        exact ⟨_, rfl, rfl⟩
      · exact edgeClosed_withEdge (around other inside ended here) fun _ => rfl
  · rw [same, child] at absent
    exact absurd rfl absent

theorem spawn_sealed {input : SpawnAgentInput} (sealed : Sealed graph)
    (running : input.agent.status ≠ .closed) (returned : spawn collation input graph = .ok edge next) : Sealed next := by
  simp only [spawn, bind_ok, assertAgentBelongsToRun_ok, mustAgent_ok, require_ok, get_ok, setAgent_ok, setEdge_ok,
    pure_ok] at returned
  obtain ⟨_, _, ⟨_, rfl⟩, parent, _, ⟨_, rfl⟩, _, _, ⟨rfl, rfl⟩, _, _, ⟨_, rfl⟩, _, _, ⟨_, rfl⟩, _, _,
    ⟨_, rfl⟩, _, _, ⟨_, rfl⟩, _, _, rfl, _, _, ⟨_, rfl⟩, _, rfl⟩ := returned
  intro other inside closed
  obtain rfl | ⟨before, apart⟩ := mem_withAgent.mp inside
  · exact absurd closed running
  · exact edgeClosed_withEdge (sealed other before closed) fun same => absurd same.symm apart

theorem registerRoot_sealed {added : Agent} (sealed : Sealed graph) (running : agent.status ≠ .closed)
    (returned : registerRoot agent graph = .ok added next) : Sealed next := by
  simp only [registerRoot, bind_ok, assertAgentBelongsToRun_ok, require_ok, get_ok, setAgent_ok, pure_ok] at returned
  obtain ⟨_, _, ⟨_, rfl⟩, _, _, ⟨_, rfl⟩, _, _, ⟨rfl, rfl⟩, _, _, ⟨_, rfl⟩, _, _, rfl, _, rfl⟩ := returned
  exact sealed.withAgent fun closed => absurd closed running

theorem resumeAgent_moves (returned : resumeAgent agentId timestamp graph = .ok agent next) :
    transitionAgent agentId .queued timestamp graph = .ok agent next := by
  simp only [resumeAgent, bind_ok, mustAgent_ok, require_ok, get_ok] at returned
  obtain ⟨current, _, ⟨_, rfl⟩, _, _, ⟨_, rfl⟩, read, _, ⟨same, rfl⟩, moved⟩ := returned
  subst same
  cases asked : read.hasOpenAncestry agentId with
  | error error =>
    rw [asked] at moved
    exact absurd moved throw_ok
  | ok opened =>
    rw [asked] at moved
    simp only [bind_ok, require_ok] at moved
    obtain ⟨_, _, ⟨_, rfl⟩, moved⟩ := moved
    exact moved

theorem Sealed.perform {op : GraphOp} (sealed : Sealed graph) (topology : Topology collation graph) (seals : Sealing graph op) :
    Sealed (op.perform collation graph) := by
  unfold GraphOp.perform
  cases moved : op.run collation graph with
  | error error next =>
    rw [after_error moved, (topology.refused moved).1]
    exact sealed
  | ok result next =>
    rw [after_ok moved]
    cases op with
    | registerRoot agent =>
      obtain ⟨_, returned, _⟩ := map_ok.mp moved
      exact registerRoot_sealed sealed seals returned
    | spawn input =>
      obtain ⟨_, returned, _⟩ := map_ok.mp moved
      exact spawn_sealed sealed seals returned
    | transitionAgent agentId status updatedAt =>
      obtain ⟨_, returned, _⟩ := map_ok.mp moved
      exact transitionAgent_sealed sealed seals returned
    | closeAgent agentId closedAt closeReason =>
      obtain ⟨_, returned, _⟩ := map_ok.mp moved
      exact closeAgent_sealed sealed seals returned
    | closeSpawnEdge childAgentId closedAt closeReason =>
      obtain ⟨_, returned, _⟩ := map_ok.mp moved
      exact (closeSpawnEdge_sealed sealed returned).1
    | suspendAgent agentId updatedAt =>
      obtain ⟨_, returned, _⟩ := map_ok.mp moved
      exact transitionAgent_sealed sealed (fun closed : AgentStatus.suspended = .closed => nomatch closed) returned
    | stopAgent agentId updatedAt =>
      obtain ⟨_, returned, _⟩ := map_ok.mp moved
      exact transitionAgent_sealed sealed (fun closed : AgentStatus.stopped = .closed => nomatch closed) returned
    | resumeAgent agentId updatedAt =>
      obtain ⟨_, returned, _⟩ := map_ok.mp moved
      exact transitionAgent_sealed sealed (fun closed : AgentStatus.queued = .closed => nomatch closed) (resumeAgent_moves returned)

end Sealing

/-! What is chosen. -/

section Chosen
variable {collation : Collation} {graph : AgentGraph} {agent : Agent} {lineage : List Agent} {steps : Nat} {visited : List AgentId}

theorem climbOpen_true (topology : Topology collation graph) (path : RootPath graph agent lineage) (stored : agent ∈ graph.agentsById)
    (opened : graph.climbOpen steps visited agent = .ok true) :
    ∀ member ∈ lineage ++ [agent], ∀ edge, graph.edgesByChild.find? member.id = some edge → edge.state = .opened := by
  induction path generalizing steps visited with
  | @root agent top =>
    intro member inside edge found
    obtain rfl := List.mem_singleton.mp inside
    rw [topology.top member stored top] at found
    cases found
  | @under agent parent lineage child kept above ih =>
    cases steps with
    | zero => cases opened
    | succ steps =>
      rw [climbOpen, child] at opened
      dsimp only at opened
      split at opened
      · cases opened
      · cases here : graph.edgesByChild.find? agent.id with
        | none =>
          rw [here] at opened
          cases opened
        | some edge =>
          rw [here, requireAgent_ok.mpr (Keyed.find?_key kept)] at opened
          dsimp only at opened
          split at opened
          · cases opened
          · next still =>
            intro member inside other found
            obtain inside | inside := List.mem_append.mp inside
            · exact ih kept opened member inside other found
            · obtain rfl := List.mem_singleton.mp inside
              cases here.symm.trans found
              simpa using still

theorem hasOpenAncestry_true (topology : Topology collation graph) (stored : agent ∈ graph.agentsById)
    (opened : graph.hasOpenAncestry agent.id = .ok true) : PathOpen graph agent := by
  intro lineage path
  rw [hasOpenAncestry, requireAgent_ok.mpr (Keyed.find?_key stored)] at opened
  exact climbOpen_true topology path stored opened

theorem filterM_picks {α : Type} {items kept : List α} {query : α → Except GraphError Bool} (done : items.filterM query = .ok kept) :
    kept.Sublist items ∧ ∀ item ∈ kept, query item = .ok true := by
  have collects : ∀ rest front : List α, ∀ result, rest.filterAuxM query front = .ok result →
      ∃ picked : List α, picked.Sublist rest ∧ (∀ item ∈ picked, query item = .ok true) ∧ result = picked.reverse ++ front := by
    intro rest
    induction rest with
    | nil =>
      intro front result done
      cases done
      exact ⟨[], .slnil, by simp, rfl⟩
    | cons item rest ih =>
      intro front result done
      rw [List.filterAuxM] at done
      obtain ⟨answer, asked, done⟩ := except_bind_ok.mp done
      obtain ⟨picked, within, each, rfl⟩ := ih _ result done
      cases answer with
      | false => exact ⟨picked, within.cons item, each, rfl⟩
      | true =>
        refine ⟨item :: picked, within.cons_cons item, ?_, by simp [cond]⟩
        exact List.forall_mem_cons.mpr ⟨asked, each⟩
  rw [List.filterM] at done
  obtain ⟨result, collected, done⟩ := except_bind_ok.mp done
  cases done
  obtain ⟨picked, within, each, rfl⟩ := collects items [] result collected
  rw [List.append_nil, List.reverse_reverse]
  exact ⟨within, each⟩

theorem mapM_tagged {β : Type} {tag : Agent → Except GraphError (β × Agent)} {agents : List Agent} {tagged : List (β × Agent)}
    (keeps : ∀ agent read, tag agent = .ok read → read.2 = agent) (done : agents.mapM tag = .ok tagged) :
    tagged.map (·.2) = agents := by
  induction agents generalizing tagged with
  | nil =>
    cases done
    rfl
  | cons agent agents ih =>
    rw [List.mapM_cons] at done
    obtain ⟨first, tagging, done⟩ := except_bind_ok.mp done
    obtain ⟨rest, others, done⟩ := except_bind_ok.mp done
    cases done
    rw [List.map_cons, ih others, keeps agent first tagging]

theorem taskPath_tagged (agent : Agent) (read : String × Agent) (done : (do
    let path ← graph.taskPath agent.id
    return (path.key, agent)) = Except.ok read) : read.2 = agent := by
  obtain ⟨path, _, done⟩ := except_bind_ok.mp done
  cases done
  rfl

theorem byTaskPath_perm {agents sorted : List Agent} (done : graph.byTaskPath collation agents = .ok sorted) : sorted.Perm agents := by
  obtain ⟨keyed, tagged, done⟩ := except_bind_ok.mp done
  cases done
  rw [← mapM_tagged taskPath_tagged tagged]
  exact sortOn_perm.map _

/-- The candidates of a default query. -/
theorem resumeCandidates_eligible {candidates : List Agent} (listed : graph.resumeCandidates collation {} = .ok candidates) :
    ∀ agent ∈ candidates, agent ∈ graph.agentsById ∧ isResumableAgentStatus agent.status ∧ graph.hasOpenAncestry agent.id = .ok true := by
  obtain ⟨limit, bounded, listed⟩ := except_bind_ok.mp listed
  cases bounded
  obtain ⟨kept, filtered, listed⟩ := except_bind_ok.mp listed
  obtain ⟨keyed, tagged, listed⟩ := except_bind_ok.mp listed
  cases listed
  intro agent member
  have inside : agent ∈ kept := by
    rw [← mapM_tagged taskPath_tagged tagged]
    exact (sortOn_perm.map _).mem_iff.mp member
  obtain ⟨within, each⟩ := filterM_picks filtered
  obtain ⟨stored, status⟩ := List.mem_filter.mp (within.subset inside)
  exact ⟨mem_sortOn.mp stored, status, each agent inside⟩

/-- How many agents hold a slot. -/
def residents (graph : AgentGraph) : Nat := (graph.agentsById.rows.filter isAgentResident).length

theorem assessAgentCapacity_ok {maximumResidentAgents : Number} {capacity : AgentCapacityAssessment}
    (assessed : assessAgentCapacity collation (graph.listAgents collation) maximumResidentAgents = .ok capacity) :
    ∃ maximum : Nat, maximumResidentAgents = .finite maximum ∧ capacity.availableSlots = maximum - residents graph := by
  unfold assessAgentCapacity at assessed
  cases maximumResidentAgents with
  | notFinite => cases assessed
  | finite value =>
    dsimp only at assessed
    split at assessed
    · cases assessed
    · next accepted =>
      cases assessed
      simp only [Bool.or_eq_true, not_or, Bool.not_eq_true', Bool.not_eq_false, Number.isSafeInteger, Number.below,
        Bool.and_eq_true, beq_iff_eq, decide_eq_true_eq] at accepted
      have value_eq : value = (value.num.toNat : Rat) := by
        have whole : (value.num : Rat) = value := Rat.den_eq_one_iff value |>.mp accepted.1.1
        have positive : 0 ≤ value.num := Rat.num_nonneg.mpr (not_lt.mp accepted.2)
        have count : (value.num.toNat : Int) = value.num := Int.toNat_of_nonneg positive
        rw [← whole]
        exact_mod_cast count.symm
      refine ⟨value.num.toNat, congrArg Number.finite value_eq, ?_⟩
      have listed : (graph.listAgents collation).Perm graph.agentsById.rows := sortOn_perm
      simp only [residents, sortOn_perm.length_eq, List.length_map, (listed.filter _).length_eq]

/-- What is admitted: distinct queued agents, no more than there are slots. -/
theorem selectAgentsForAdmission_ok {maximumResidentAgents : Number} {admitted : List Agent}
    (selected : graph.selectAgentsForAdmission collation maximumResidentAgents = .ok admitted) :
    (∀ agent ∈ admitted, agent ∈ graph.agentsById ∧ agent.status = .queued ∧ graph.hasOpenAncestry agent.id = .ok true) ∧
      (admitted.map Agent.id).Nodup ∧
        ∃ maximum : Nat, maximumResidentAgents = .finite maximum ∧ admitted.length ≤ maximum - residents graph := by
  obtain ⟨capacity, assessed, selected⟩ := except_bind_ok.mp selected
  obtain ⟨maximum, given, slots⟩ := assessAgentCapacity_ok assessed
  split at selected
  · cases selected
    exact ⟨by simp, by simp, maximum, given, Nat.zero_le _⟩
  · obtain ⟨eligible, filtered, selected⟩ := except_bind_ok.mp selected
    obtain ⟨sorted, ordered, selected⟩ := except_bind_ok.mp selected
    cases selected
    obtain ⟨within, each⟩ := filterM_picks filtered
    have perm := byTaskPath_perm ordered
    refine ⟨?_, ?_, maximum, given, ?_⟩
    · intro agent member
      have inside : agent ∈ eligible := perm.mem_iff.mp (List.mem_of_mem_take member)
      have asked := each agent inside
      split at asked
      · next queued => exact ⟨mem_sortOn.mp (within.subset inside), queued, asked⟩
      · cases asked
    · have distinct : (eligible.map Agent.id).Nodup := by
        have all : ((graph.listAgents collation).map Agent.id).Nodup :=
          (sortOn_perm.map Agent.id).nodup_iff.mpr graph.agentsById.unique
        exact all.sublist (within.map _)
      have ids : (sorted.map Agent.id).Nodup := (perm.map _).nodup_iff.mpr distinct
      exact ids.sublist ((List.take_sublist _ _).map _)
    · rw [List.length_take, slots]
      exact Nat.min_le_left _ _

end Chosen

/-! Starting and resuming them. -/

/-- Starting agents, one write after the other. -/
def starts (agents : List Agent) (updatedAt : IsoTimestamp) : List GraphOp :=
  agents.map fun agent => .transitionAgent agent.id .running updatedAt

section Starting
variable {collation : Collation} {graph : AgentGraph} {agent : Agent} {timestamp : IsoTimestamp}

theorem residents_withAgent : residents (graph.withAgent agent) ≤ residents graph + 1 := by
  have perm : (graph.withAgent agent).agentsById.rows.Perm _ := Keyed.put_perm
  unfold residents
  rw [(perm.filter _).length_eq, List.filter_append, List.length_append]
  have kept := (List.filter_sublist (p := fun other => other.id != agent.id) (l := graph.agentsById.rows)).filter isAgentResident
  have one : ([agent].filter isAgentResident).length ≤ 1 := List.length_filter_le _ _
  have fewer := kept.length_le
  omega

theorem residents_transition (agentId : AgentId) (status : AgentStatus) :
    residents ((GraphOp.transitionAgent agentId status timestamp).perform collation graph) ≤ residents graph + 1 := by
  unfold GraphOp.perform GraphOp.run
  rw [after_map]
  cases moved : transitionAgent agentId status timestamp graph with
  | error error next =>
    rw [after_error moved, transitionAgent_atomic _ _ _ moved]
    omega
  | ok agent next =>
    rw [after_ok moved]
    obtain ⟨current, _, ⟨_, _, rfl⟩ | ⟨_, _, _, rfl⟩⟩ := transitionAgent_ok.mp moved
    · omega
    · exact residents_withAgent

theorem residents_starts (agents : List Agent) :
    residents (performAll (GraphOp.perform collation) (starts agents timestamp) graph) ≤ residents graph + agents.length := by
  induction agents generalizing graph with
  | nil => exact Nat.le_refl _
  | cons agent agents ih =>
    have first : residents ((GraphOp.transitionAgent agent.id .running timestamp).perform collation graph) ≤ residents graph + 1 :=
      residents_transition agent.id .running
    have rest := @ih ((GraphOp.transitionAgent agent.id .running timestamp).perform collation graph)
    change residents (performAll (GraphOp.perform collation) (starts agents timestamp)
      ((GraphOp.transitionAgent agent.id .running timestamp).perform collation graph)) ≤ _
    rw [List.length_cons]
    omega

theorem resumable_queues {status : AgentStatus} (resumable : isResumableAgentStatus status) :
    status ≠ .queued ∧ canTransitionAgent status .queued := by
  revert resumable
  cases status <;> decide

theorem resumeAgent_returns (timestamp : IsoTimestamp) (stored : agent ∈ graph.agentsById) (resumable : isResumableAgentStatus agent.status)
    (opened : graph.hasOpenAncestry agent.id = .ok true) : ∃ resumed next, resumeAgent agent.id timestamp graph = .ok resumed next := by
  obtain ⟨other, allowed⟩ := resumable_queues resumable
  have found : graph.agentsById.find? agent.id = some agent := Keyed.find?_key stored
  obtain ⟨resumed, next, moved⟩ : ∃ resumed next, transitionAgent agent.id .queued timestamp graph = .ok resumed next :=
    ⟨_, _, transitionAgent_ok.mpr ⟨agent, found, .inr ⟨other, allowed, rfl, rfl⟩⟩⟩
  refine ⟨resumed, next, ?_⟩
  simp only [resumeAgent, bind_ok, mustAgent_ok, require_ok, get_ok]
  refine ⟨agent, graph, ⟨found, rfl⟩, (), graph, ⟨resumable, rfl⟩, graph, graph, ⟨rfl, rfl⟩, ?_⟩
  rw [opened]
  exact bind_ok.mpr ⟨(), graph, require_ok.mpr ⟨rfl, rfl⟩, moved⟩

end Starting

/-- What holds of the chosen agents in any case. -/
structure Chosen (collation : Collation) (graph : AgentGraph) : Prop where
  admission : ∀ limit admitted, graph.selectAgentsForAdmission collation limit = .ok admitted →
    (∀ agent ∈ admitted, agent.status = .queued ∧ PathOpen graph agent) ∧ (admitted.map Agent.id).Nodup ∧
      ∃ maximum : Nat, limit = .finite maximum ∧ ∀ updatedAt,
        residents (performAll (GraphOp.perform collation) (starts admitted updatedAt) graph) ≤ max maximum (residents graph)
  recovery : ∀ candidates, graph.resumeCandidates collation {} = .ok candidates → ∀ agent ∈ candidates,
    PathOpen graph agent ∧ ∀ updatedAt, ∃ resumed next, resumeAgent agent.id updatedAt graph = .ok resumed next

/-- None of the chosen agents is under a closed branch. -/
def ChosenOpen (collation : Collation) (graph : AgentGraph) : Prop :=
  (∀ limit admitted, graph.selectAgentsForAdmission collation limit = .ok admitted → ∀ agent ∈ admitted, BranchOpen graph agent) ∧
    ∀ candidates, graph.resumeCandidates collation {} = .ok candidates → ∀ agent ∈ candidates, BranchOpen graph agent

theorem Topology.chosen {collation : Collation} {graph : AgentGraph} (topology : Topology collation graph) : Chosen collation graph where
  admission limit admitted selected := by
    obtain ⟨eligible, distinct, maximum, given, slots⟩ := selectAgentsForAdmission_ok selected
    refine ⟨?_, distinct, maximum, given, ?_⟩
    · intro agent member
      obtain ⟨stored, queued, opened⟩ := eligible agent member
      exact ⟨queued, hasOpenAncestry_true topology stored opened⟩
    · intro updatedAt
      have started : residents (performAll (GraphOp.perform collation) (starts admitted updatedAt) graph) ≤ _ := residents_starts admitted
      omega
  recovery candidates listed agent member := by
    obtain ⟨stored, resumable, opened⟩ := resumeCandidates_eligible listed agent member
    exact ⟨hasOpenAncestry_true topology stored opened, fun updatedAt => resumeAgent_returns updatedAt stored resumable opened⟩

theorem Chosen.sealed {collation : Collation} {graph : AgentGraph} (chosen : Chosen collation graph) (sealed : Sealed graph) :
    ChosenOpen collation graph := by
  constructor
  · intro limit admitted selected agent member
    exact sealed.branchOpen ((chosen.admission limit admitted selected).1 agent member).2
  · intro candidates listed agent member
    exact sealed.branchOpen (chosen.recovery candidates listed agent member).1

/-- While closing reaches the edge, nothing is chosen under a closed branch; the edges are asked in any case. -/
theorem chosen_open {collation : Collation} {snapshot : AgentGraphSnapshot} {start : AgentGraph}
    (accepted : restore collation snapshot = .ok start) :
    (∀ graph, Reached start (GraphOp.perform collation) (fun _ _ => True) graph → Chosen collation graph) ∧
      (Sealed start → ∀ graph, Reached start (GraphOp.perform collation) Sealing graph → ChosenOpen collation graph) := by
  have topologies : ∀ graph, Reached start (GraphOp.perform collation) (fun _ _ => True) graph → Topology collation graph := by
    intro graph reached
    exact reached.invariant (restore_topology accepted) fun _ op _ topology _ => topology.perform op
  constructor
  · exact fun graph reached => (topologies graph reached).chosen
  · intro fresh graph reached
    have free : ∀ graph, Reached start (GraphOp.perform collation) Sealing graph → Topology collation graph := by
      intro graph reached
      exact topologies graph (reached.mono fun _ _ _ => trivial)
    have sealed : Sealed graph := by
      apply reached.invariant fresh
      exact fun between op before sealed seals => sealed.perform (free between before) seals
    exact (free graph reached).chosen.sealed sealed

theorem chosen_open_empty :
    (∀ graph, Reached (blank "run") (GraphOp.perform accents) (fun _ _ => True) graph → Chosen accents graph) ∧
      (Sealed (blank "run") → ∀ graph, Reached (blank "run") (GraphOp.perform accents) Sealing graph → ChosenOpen accents graph) :=
  chosen_open (show restore accents { runId := "run", agents := [], edges := [] } = .ok (blank "run") from rfl)

/-- A root is closed, and its child still waits to be admitted. -/
def closedRootOps : List GraphOp := [
  .registerRoot (sampleAgent "root" none),
  .spawn { agent := sampleAgent "child" (some "root"), parentAgentId := "root" },
  .closeAgent "root" "1970-01-01T00:00:01.000Z" none]

def closedRootGraph : AgentGraph := performAll (GraphOp.perform accents) closedRootOps (blank "run")

theorem closed_root_admits :
    ¬∀ collation snapshot start, restore collation snapshot = .ok start →
      ∀ graph, Reached start (GraphOp.perform collation) (fun _ _ => True) graph → ChosenOpen collation graph := by
  intro claim
  have reached : Reached (blank "run") (GraphOp.perform accents) (fun _ _ => True) closedRootGraph :=
    Reached.start.performAll (allAllowed_of_forall fun _ _ => trivial)
  obtain ⟨admission, _⟩ := claim accents { runId := "run", agents := [], edges := [] } (blank "run") rfl closedRootGraph reached
  have selected : closedRootGraph.selectAgentsForAdmission accents (.finite 1) = .ok [sampleAgent "child" (some "root")] := by rfl
  obtain ⟨_, above⟩ := admission _ _ selected _ List.mem_cons_self
  obtain ⟨root, found⟩ : ∃ root, closedRootGraph.agentsById.find? "root" = some root ∧ root.status = .closed ∧
    root.parentAgentId = none := ⟨_, rfl, by decide, by decide⟩
  obtain ⟨stored, named⟩ := Keyed.find?_eq_some.mp found.1
  have path : RootPath closedRootGraph (sampleAgent "child" (some "root")) ([] ++ [root]) :=
    .under (congrArg some named.symm) stored (.root found.2.2)
  exact above _ path root (by simp) found.2.1

end OttiliCoder.AgentGraph
