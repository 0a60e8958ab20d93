import OttiliCoder.Proofs.Sound

/-! Recovery of the graphs after a takeover: when it returns, and what it leaves. -/

namespace OttiliCoder
open Relational Transaction

/-! Stranded work. -/

def StrandedTask (lease : FencedLease) (task : TaskRow) : Prop :=
  task.runId = lease.runId ∧ task.status = .running ∧ isStranded task.leaseGeneration lease.generation = true

def StrandedAgent (lease : FencedLease) (agent : AgentRow) : Prop :=
  agent.runId = lease.runId ∧ (agent.status = .running ∨ agent.status = .recovering) ∧
    isStranded agent.leaseGeneration lease.generation = true

section Recovery
variable {s s' : Store} {lease : FencedLease} {now : IsoTimestamp}

/-- What is still to be recovered while recovery goes through a list of tasks. -/
structure TasksLeft (lease : FencedLease) (agents : Keyed (key .agents)) (left : List TaskRow) (s : Store) : Prop where
  sound : Sound s
  run : ∃ run, (s .runs).find? lease.runId = some run
  agents : s .agents = agents
  stranded : ∀ task ∈ s .tasks, StrandedTask lease task → ∃ row ∈ left, row.id = task.id

theorem recoverTask_returns {agents : Keyed (key .agents)} {row : TaskRow} {rest : List TaskRow}
    (left : TasksLeft lease agents (row :: rest) s) :
    Returns (recoverTask lease now row.id) s fun _ => TasksLeft lease agents rest := by
  unfold recoverTask
  refine .bind Returns.update fun _ s₁ _ failed => ?_
  refine .bind Returns.update fun _ s₂ _ readied => ?_
  have sound : Sound s₂ := by
    rw [readied, failed]
    exact (Effect.tasks (s := Db.set s .tasks _)).sound (Effect.tasks.sound left.sound)
  have others : ∀ t, t ≠ .tasks → s₂ t = s t := fun t other => by
    rw [readied, failed, Db.set_other _ _ other, Db.set_other _ _ other]
  obtain ⟨run, found⟩ := left.run
  rw [← others .runs (by simp)] at found
  refine .bind (appendEvent_returns sound found _ _ _) fun event s' appended sound' => ?_
  refine .pure ⟨sound', ?_, ?_, fun task member stranded => ?_⟩
  · obtain ⟨run', found', -⟩ := (Effect.event appended).runs_found found
    exact ⟨run', found'⟩
  · rw [appended_other appended (by simp) (by simp), others .agents (by simp), left.agents]
  · rw [appended_other appended (by simp) (by simp), readied, failed, Db.set_same, Db.set_same] at member
    obtain ⟨middle, inside, rfl⟩ := Keyed.mem_update.mp member
    obtain ⟨old, there, rfl⟩ := Keyed.mem_update.mp inside
    by_cases mine : old.id = row.id
    · exact absurd stranded.2.1 (by simp [mine])
    · simp only [beq_iff_eq, mine, if_false] at stranded ⊢
      obtain ⟨other, listed, same⟩ := left.stranded old there stranded
      rcases List.mem_cons.mp listed with rfl | later
      · exact absurd same.symm mine
      · exact ⟨other, later, same⟩

/-- What is still to be recovered while recovery goes through a list of agents. -/
structure AgentsLeft (lease : FencedLease) (tasks : Keyed (key .tasks)) (left : List AgentRow) (s : Store) : Prop where
  sound : Sound s
  tasks : s .tasks = tasks
  distinct : (left.map (·.id)).Nodup
  stored : ∀ row ∈ left, (s .agents).find? row.id = some row
  running : ∀ row ∈ left, row.status = .running
  stranded : ∀ agent ∈ s .agents, StrandedAgent lease agent → ∃ row ∈ left, row.id = agent.id

theorem recoverAgent_agents {id : AgentId} {u : Unit} (recovered : recoverAgent lease now id s = .ok u s') :
    ∀ agent ∈ s' .agents, agent ∈ s .agents ∧ agent.id ≠ id ∨ agent.id = id ∧ agent.status = .queued := by
  simp only [recoverAgent, bind_ok, update_ok] at recovered
  obtain ⟨_, s₁, first, _, s₂, second, rfl⟩ := recovered
  intro agent member
  rw [Db.set_same, transitionAgent_agents second, withAgentStatus, Db.set_same, transitionAgent_agents first,
    withAgentStatus, Db.set_same] at member
  obtain ⟨middle, inside, rfl⟩ := Keyed.mem_update.mp member
  obtain ⟨queued, there, rfl⟩ := Keyed.mem_update.mp inside
  obtain ⟨old, stored, rfl⟩ := Keyed.mem_update.mp there
  by_cases mine : old.id = id
  · exact .inr (by simp [mine])
  · exact .inl (by simp [mine, stored])

theorem recoverAgent_others {id other : AgentId} {u : Unit}
    (recovered : recoverAgent lease now id s = .ok u s') (apart : other ≠ id) :
    (s' .agents).find? other = (s .agents).find? other := by
  simp only [recoverAgent, bind_ok, update_ok] at recovered
  obtain ⟨_, s₁, first, _, s₂, second, rfl⟩ := recovered
  rw [Db.set_same, transitionAgent_agents second, withAgentStatus, Db.set_same, transitionAgent_agents first,
    withAgentStatus, Db.set_same]
  simp only [Keyed.find?_update, Option.map_map]
  cases found : (s .agents).find? other with
  | none => rfl
  | some row =>
    have same : row.id = other := (Keyed.find?_eq_some.mp found).2
    simp [same, apart]

theorem recoverAgent_returns {tasks : Keyed (key .tasks)} {row : AgentRow} {rest : List AgentRow}
    (left : AgentsLeft lease tasks (row :: rest) s) :
    Returns (recoverAgent lease now row.id) s fun _ => AgentsLeft lease tasks rest := by
  have stored := left.stored row (by simp)
  have running : canTransitionAgent row.status .recovering = true := by rw [left.running row (by simp)]; decide
  have returns : Returns (recoverAgent lease now row.id) s fun _ s' => Sound s' ∧ s' .tasks = tasks := by
    unfold recoverAgent
    refine (transitionAgent_returns left.sound stored running none).bind fun _ s₁ first sound₁ => ?_
    have found : ∃ agent, (s₁ .agents).find? row.id = some agent ∧ agent.status = .recovering := by
      rw [transitionAgent_agents first, withAgentStatus, Db.set_same, Keyed.find?_update, stored]
      exact ⟨_, rfl, by simp⟩
    obtain ⟨agent, found, recovering⟩ := found
    refine (transitionAgent_returns sound₁ found (by rw [recovering]; decide) none).bind fun _ s₂ second sound₂ => ?_
    refine Returns.update.weaken fun _ s' updated => ?_
    rw [updated]
    refine ⟨Effect.sound (.agentStamp ?_) sound₂, ?_⟩
    · exact fun _ => ⟨rfl, rfl⟩
    rw [Db.set_other _ _ (by simp), transitionAgent_other second (by simp) (by simp) (by simp),
      transitionAgent_other first (by simp) (by simp) (by simp), left.tasks]
  obtain ⟨u, s', recovered, sound, tasksKept⟩ := returns
  have distinct := List.nodup_cons.mp left.distinct
  refine ⟨u, s', recovered, sound, tasksKept, distinct.2, fun other member => ?_,
    fun other member => left.running other (by simp [member]), fun agent member stranded => ?_⟩
  · have apart : other.id ≠ row.id := fun same => distinct.1 (List.mem_map.mpr ⟨other, member, same⟩)
    rw [recoverAgent_others recovered apart]
    exact left.stored other (by simp [member])
  · rcases recoverAgent_agents recovered agent member with ⟨inside, apart⟩ | ⟨-, queued⟩
    · obtain ⟨other, listed, same⟩ := left.stranded agent inside stranded
      rcases List.mem_cons.mp listed with rfl | later
      · exact absurd same.symm apart
      · exact ⟨other, later, same⟩
    · rcases stranded.2.1 with status | status <;> simp [queued] at status

/-! The whole of recovery. -/

/-- An agent of the leased Run that an older generation left `recovering`. -/
def StuckAgent (lease : FencedLease) (agent : AgentRow) : Prop :=
  agent.runId = lease.runId ∧ agent.status = .recovering ∧
    isStranded agent.leaseGeneration lease.generation = true

/-- Recovery returns and leaves no stranded task and no stranded agent. -/
def RecoversGraph (s : Store) (lease : FencedLease) (clock : Date) : Prop :=
  Returns (recoverGraphWork lease clock) s fun _ s' =>
    (∀ task ∈ s' .tasks, ¬ StrandedTask lease task) ∧ ∀ agent ∈ s' .agents, ¬ StrandedAgent lease agent

theorem mem_strandedTasks {task : TaskRow} :
    task ∈ (s .tasks).rows.filter (fun row => row.runId == lease.runId && row.status == .running &&
      isStranded row.leaseGeneration lease.generation) ↔ task ∈ s .tasks ∧ StrandedTask lease task := by
  simp only [List.mem_filter, Bool.and_eq_true, beq_iff_eq, StrandedTask, and_assoc, Keyed.mem_def]

theorem mem_strandedAgents {agent : AgentRow} :
    agent ∈ (s .agents).rows.filter (fun row => row.runId == lease.runId &&
      (row.status == .running || row.status == .recovering) && isStranded row.leaseGeneration lease.generation) ↔
      agent ∈ s .agents ∧ StrandedAgent lease agent := by
  simp only [List.mem_filter, Bool.and_eq_true, Bool.or_eq_true, beq_iff_eq, StrandedAgent, and_assoc, Keyed.mem_def]

theorem recovers_of_clear {clock : Date} (sound : Sound s) (current : CurrentLease s lease clock.toISOString)
    (clear : ∀ agent ∈ s .agents, ¬ StuckAgent lease agent) : RecoversGraph s lease clock := by
  unfold RecoversGraph recoverGraphWork
  refine .transaction ?_
  refine .step current.accepted ?_
  refine .step (select_ok.mpr ⟨rfl, rfl⟩) ?_
  refine .bind (.forM (TasksLeft lease (s .agents)) ⟨sound, sound.leased current, rfl, fun task member stranded => ?_⟩
    fun row rest s' left => recoverTask_returns left) fun _ s₁ _ tasksDone => ?_
  · exact ⟨task, mem_strandedTasks.mpr ⟨member, stranded⟩, rfl⟩
  refine .step (select_ok.mpr ⟨rfl, rfl⟩) ?_
  have left : AgentsLeft lease (s₁ .tasks) ((s₁ .agents).rows.filter fun row => row.runId == lease.runId &&
      (row.status == .running || row.status == .recovering) && isStranded row.leaseGeneration lease.generation) s₁ := by
    refine ⟨tasksDone.sound, rfl, (s₁ .agents).unique.sublist (List.filter_sublist.map _), fun row member => ?_,
      fun row member => ?_, fun agent member stranded => ?_⟩
    · exact Keyed.find?_key (mem_strandedAgents.mp member).1
    · obtain ⟨inside, mine, active | recovering, older⟩ := mem_strandedAgents.mp member
      · exact active
      · exact absurd ⟨mine, recovering, older⟩ (clear row (tasksDone.agents ▸ inside))
    · exact ⟨agent, mem_strandedAgents.mpr ⟨member, stranded⟩, rfl⟩
  refine .bind (.forM (AgentsLeft lease (s₁ .tasks)) left fun row rest s' left => recoverAgent_returns left)
    fun _ s₂ _ agentsDone => ?_
  refine .pure ⟨fun task member stranded => ?_, fun agent member stranded => ?_⟩
  · rw [agentsDone.tasks] at member
    obtain ⟨_, none, _⟩ := tasksDone.stranded task member stranded
    cases none
  · obtain ⟨_, none, _⟩ := agentsDone.stranded agent member stranded
    cases none

private theorem recoverTask_agents {id : TaskId} {u : Unit} (recovered : recoverTask lease now id s = .ok u s') :
    s' .agents = s .agents := by
  simp only [recoverTask, bind_ok, update_ok, pure_ok] at recovered
  obtain ⟨_, s₁, rfl, _, s₂, rfl, event, s₃, appended, -, rfl⟩ := recovered
  rw [appended_other appended (by simp) (by simp), Db.set_other _ _ (by simp), Db.set_other _ _ (by simp)]

theorem recoverTasks_agents {tasks : List TaskRow} {u : PUnit}
    (recovered : (tasks.forM fun row => recoverTask lease now row.id) s = .ok u s') : s' .agents = s .agents := by
  have loop : Yields (fun _ _ => True) (tasks.forM fun row => recoverTask lease now row.id) s
      fun _ s' => s' .agents = s .agents :=
    .forM rfl fun row _ s₁ _ same _ s₂ moved => ⟨trivial, (recoverTask_agents moved).trans same⟩
  exact (loop _ _ recovered).2

private theorem recovering_throws {id : AgentId}
    (recovering : ∃ row, (s .agents).find? id = some row ∧ row.status = .recovering) :
    Throws (recoverAgent lease now id) s := by
  refine Throws.bind_left (throws_iff.mpr fun agent s' moved => ?_) _
  obtain ⟨row, found, status⟩ := recovering
  obtain ⟨other, _, stored, edge, -⟩ := transitionAgentInternal_ok.mp moved
  have same : other = row := Option.some.inj (stored.symm.trans found)
  rw [same, status] at edge
  exact absurd edge (by decide)

/-- One stuck agent makes every recovery of its Run throw. -/
theorem stuck_throws {clock : Date} {agent : AgentRow} (member : agent ∈ s .agents) (stuck : StuckAgent lease agent) :
    Throws (recoverGraphWork lease clock) s := by
  obtain ⟨mine, recovering, older⟩ := stuck
  unfold recoverGraphWork
  refine Throws.transaction (Throws.bind_right fun _ s₁ leased => ?_)
  obtain rfl := readOnly_assertLeaseInternal.ok leased
  refine Throws.bind_right fun tasks s₂ selected => ?_
  obtain ⟨rfl, rfl⟩ := select_ok.mp selected
  refine Throws.bind_right fun _ s₃ looped => ?_
  have kept := recoverTasks_agents looped
  refine Throws.bind_right fun agents s₄ selected => ?_
  obtain ⟨rfl, rfl⟩ := select_ok.mp selected
  have listed := mem_strandedAgents.mpr ⟨kept.symm ▸ member, mine, .inr recovering, older⟩
  refine Throws.bind_left (throws_forM (fun s' => ∃ row, (s' .agents).find? agent.id = some row ∧
    row.status = .recovering) listed ?_ ?_ ?_) _
  · exact ⟨agent, Keyed.find?_key (kept.symm ▸ member), recovering⟩
  · intro other _ s' u s'' held recovered
    by_cases same : agent.id = other.id
    · exact absurd recovered (throws_iff.mp (recovering_throws (same ▸ held)) u s'')
    · rwa [recoverAgent_others recovered same]
  · exact fun s' held => recovering_throws held

end Recovery

/-! Runs that leave no agent recovering. -/

section Runs
variable {s s' : Store} {lease : FencedLease} {clock : Date}

def NoneRecovering (s : Store) : Prop := ∀ agent ∈ s .agents, agent.status ≠ .recovering

/-- The call asks for an agent to be left `recovering`. -/
def Call.leavesRecovering : Call → Bool
  | .transitionAgent input _ => input.target == .recovering
  | _ => false

private theorem noneRecovering_effect {k : Kind} (effect : Effect k s s') (other : k ≠ .agentStatus .recovering)
    (none : NoneRecovering s) : NoneRecovering s' := by
  intro agent member recovering
  rcases (effect.agents agent.id).earlier (Keyed.find?_key member) with ⟨-, new⟩ | ⟨old, stored, kept⟩
  · rcases new with ⟨-, queued⟩ | ⟨-, created⟩
    · simp [queued] at recovering
    · simp [created] at recovering
  · rcases kept.status with same | ⟨rfl, -⟩
    · exact none old (Keyed.find?_eq_some.mp stored).1 (same ▸ recovering)
    · exact other (congrArg Kind.agentStatus recovering)

private theorem noneRecovering_recovered {result : RecoveredGraphWork} (none : NoneRecovering s)
    (recovered : recoverGraphWork lease clock s = .ok result s') : NoneRecovering s' := by
  simp only [recoverGraphWork, transaction_ok, bind_ok, assertLeaseInternal_ok, pure_ok] at recovered
  obtain ⟨_, _, ⟨-, rfl⟩, tasks, _, selected, _, _, tasksDone, agents, s₁, listed, _, _, agentsDone, -, rfl⟩ := recovered
  obtain ⟨-, rfl⟩ := select_ok.mp selected
  obtain ⟨-, rfl⟩ := select_ok.mp listed
  have start : NoneRecovering s₁ := fun agent member => none agent (recoverTasks_agents tasksDone ▸ member)
  have loop : Yields (fun _ _ => True) (agents.forM fun row => recoverAgent lease clock.toISOString row.id) s₁
      fun _ => NoneRecovering := by
    refine .forM start fun row _ s₃ _ held _ s₄ recovered => ⟨trivial, fun agent member => ?_⟩
    rcases recoverAgent_agents recovered agent member with ⟨inside, -⟩ | ⟨-, queued⟩
    · exact held agent inside
    · simp [queued]
  exact (loop _ _ agentsDone).2

private theorem atomic_recoverGraphWork (lease : FencedLease) (clock : Date) :
    Atomic (recoverGraphWork lease clock) := Atomic.transaction _

theorem noneRecovering_reached
    (reached : ReachedBy (fun _ call => call.leavesRecovering = false) s) : NoneRecovering s := by
  have start : NoneRecovering Store.empty := fun _ member => absurd member Keyed.not_mem_empty
  refine reached.invariant start fun s call _ none quiet => ?_
  by_cases graph : ∃ lease clock, call = .recoverGraphWork lease clock
  · obtain ⟨lease, clock, rfl⟩ := graph
    change NoneRecovering (after (discard (recoverGraphWork lease clock)) s)
    rw [discard, after_map]
    rcases (atomic_recoverGraphWork lease clock).cases with ⟨result, returned⟩ | ⟨-, same⟩
    · exact noneRecovering_recovered none returned
    · rwa [same]
  · refine (Call.moves s call).keeps (fun k s₁ s₂ can effect => noneRecovering_effect effect ?_) none
    rintro rfl
    cases call with
    | recoverGraphWork lease clock => exact graph ⟨lease, clock, rfl⟩
    | transitionAgent input clock =>
      have target : input.target = .recovering := by simpa [Call.kinds, eq_comm] using can
      simp [Call.leavesRecovering, target] at quiet
    | appendFencedEvent input clock =>
      simp only [Call.kinds] at can
      split at can <;> simp at can
    | _ => simp [Call.kinds] at can

end Runs

/-! Recovery under the lease a Run is under: after any history it returns with nothing
stranded exactly when no older generation left an agent `recovering`, and a history
that never asks for that leaves none. -/

theorem graph_recovers_unless_stuck (history : List Call) :
    (∀ lease clock, CurrentLease (storeAfter history) lease clock.toISOString →
      (RecoversGraph (storeAfter history) lease clock ↔
        ∀ agent ∈ (storeAfter history) .agents, ¬ StuckAgent lease agent)) ∧
    ((∀ call ∈ history, call.leavesRecovering = false) →
      ∀ lease clock, CurrentLease (storeAfter history) lease clock.toISOString →
        RecoversGraph (storeAfter history) lease clock) := by
  have sound : Sound (storeAfter history) := (reachable_storeAfter history).sound
  have exactly : ∀ lease clock, CurrentLease (storeAfter history) lease clock.toISOString →
      (RecoversGraph (storeAfter history) lease clock ↔
        ∀ agent ∈ (storeAfter history) .agents, ¬ StuckAgent lease agent) := by
    intro lease clock current
    refine ⟨fun recovers agent member stuck => ?_, recovers_of_clear sound current⟩
    obtain ⟨result, s', returned, -⟩ := recovers
    exact throws_iff.mp (stuck_throws member stuck) result s' returned
  refine ⟨exactly, fun quiet lease clock current => ?_⟩
  have reached : ReachedBy (fun _ call => call.leavesRecovering = false) (storeAfter history) :=
    Reached.performAll .start (allAllowed_of_forall quiet)
  exact (exactly lease clock current).mpr fun agent member stuck => noneRecovering_reached reached agent member stuck.2.1

/-- The first executor leaves the coordinator `recovering` and dies; a second takes over. -/
def stuckHistory : List Call :=
  [sampleRun, takeSample "first" .epoch,
    .transitionAgent { agentId := sampleAgentId, lease := sampleLease "first" 1, target := .recovering } .epoch,
    takeSample "second" oneMinute]

theorem recovery_throws_on_recovering_agent :
    ¬ ∀ (history : List Call) (lease : FencedLease) (clock : Date),
      CurrentLease (storeAfter history) lease clock.toISOString → RecoversGraph (storeAfter history) lease clock := by
  intro always
  obtain ⟨result, s', returned, -⟩ := always stuckHistory (sampleLease "second" 2) oneMinute (by decide +kernel)
  have thrown : Throws (recoverGraphWork (sampleLease "second" 2) oneMinute) (storeAfter stuckHistory) := by
    decide +kernel
  exact throws_iff.mp thrown result s' returned

end OttiliCoder
