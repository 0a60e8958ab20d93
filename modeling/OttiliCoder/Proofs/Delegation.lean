import OttiliCoder.Proofs.GraphRecovery
import OttiliCoder.Runtime.Coordinator

/-! Delegation across a takeover: which agent acts once the graph is recovered. -/

namespace OttiliCoder
open Relational Transaction

/-! What recovery leaves in the graph. -/

/-- Stranded tasks lose their owner, stranded agents are queued, and nothing else moves. -/
structure GraphRecovered (lease : FencedLease) (s s' : Store) : Prop where
  sound : Sound s'
  kept : ∀ task ∈ s .tasks, ¬ StrandedTask lease task → task ∈ s' .tasks
  released : ∀ task ∈ s' .tasks, task ∈ s .tasks ∧ ¬ StrandedTask lease task ∨ task.ownerAgentId = none
  queued : ∀ agent ∈ s .agents, StrandedAgent lease agent →
    ∃ row, (s' .agents).find? agent.id = some row ∧ row.runId = agent.runId ∧ row.status = .queued
  mailbox : s' .agentMessages = s .agentMessages
  leases : s' .runLeases = s .runLeases

section Recovered
variable {s s' : Store} {lease : FencedLease} {now : IsoTimestamp}

private theorem recoverTask_tasks {id : TaskId} {u : Unit} (recovered : recoverTask lease now id s = .ok u s') :
    (∀ task ∈ s' .tasks, task ∈ s .tasks ∧ task.id ≠ id ∨ task.id = id ∧ task.ownerAgentId = none) ∧
      ∀ task ∈ s .tasks, task.id ≠ id → task ∈ s' .tasks := by
  simp only [recoverTask, bind_ok, update_ok, pure_ok] at recovered
  obtain ⟨_, s₁, failed, _, s₂, readied, event, s₃, appended, -, rfl⟩ := recovered
  have tasks : s' .tasks = s₂ .tasks := appended_other appended (by simp) (by simp)
  rw [tasks, readied, failed, Db.set_same, Db.set_same]
  constructor
  · intro task member
    obtain ⟨middle, inside, rfl⟩ := Keyed.mem_update.mp member
    obtain ⟨old, there, rfl⟩ := Keyed.mem_update.mp inside
    by_cases mine : old.id = id
    · exact .inr (by simp [mine])
    · exact .inl (by simp [mine, there])
  · intro task member other
    refine Keyed.mem_update.mpr ⟨task, Keyed.mem_update.mpr ⟨task, member, ?_⟩, ?_⟩
    · simp [other]
    · simp [other]

theorem recoverGraphWork_ok {clock : Date} {result : RecoveredGraphWork}
    (recovered : recoverGraphWork lease clock s = .ok result s') :
    ∃ (tasks : List TaskRow) (agents : List AgentRow) (s₁ : Store), (∀ task, task ∈ tasks ↔ task ∈ s .tasks ∧ StrandedTask lease task) ∧
      (∀ agent, agent ∈ agents ↔ agent ∈ s .agents ∧ StrandedAgent lease agent) ∧
      (tasks.forM fun row => recoverTask lease clock.toISOString row.id) s = .ok () s₁ ∧
      (agents.forM fun row => recoverAgent lease clock.toISOString row.id) s₁ = .ok () s' := by
  simp only [recoverGraphWork, transaction_ok, bind_ok, assertLeaseInternal_ok, pure_ok] at recovered
  obtain ⟨_, _, ⟨-, rfl⟩, tasks, _, selected, _, s₁, tasksDone, agents, _, listed, _, _, agentsDone, -, rfl⟩ := recovered
  obtain ⟨rfl, rfl⟩ := select_ok.mp selected
  obtain ⟨rfl, rfl⟩ := select_ok.mp listed
  have same := recoverTasks_agents tasksDone
  refine ⟨_, _, _, fun task => mem_strandedTasks, fun agent => ?_, tasksDone, agentsDone⟩
  rw [← same]
  exact mem_strandedAgents

private theorem recoverAgent_found {id : AgentId} {u : Unit} (recovered : recoverAgent lease now id s = .ok u s') :
    ∃ row, (s' .agents).find? id = some row ∧ row.status = .queued := by
  have recovering := recovered
  simp only [recoverAgent, bind_ok, update_ok] at recovering
  obtain ⟨_, s₁, first, _, s₂, second, restamped⟩ := recovering
  obtain ⟨old, -, stored, -⟩ := transitionAgentInternal_ok.mp second
  have found : ∃ row, (s' .agents).find? id = some row := by
    rw [restamped, Db.set_same, Keyed.find?_update, transitionAgent_agents second, withAgentStatus, Db.set_same,
      Keyed.find?_update, stored]
    exact ⟨_, rfl⟩
  obtain ⟨row, found⟩ := found
  obtain ⟨member, same⟩ := Keyed.find?_eq_some.mp found
  rcases recoverAgent_agents recovered row member with ⟨-, apart⟩ | ⟨-, queued⟩
  · exact absurd same apart
  · exact ⟨row, found, queued⟩

/-- An agent never changes its Run. -/
private theorem agent_stays {touched : RunId → Prop} {kinds : Kind → Prop} {agent : AgentRow}
    (moves : Moves touched kinds s s') (member : agent ∈ s .agents) :
    ∃ row, (s' .agents).find? agent.id = some row ∧ row.runId = agent.runId := by
  let Stays (s : Store) : Prop := ∃ row, (s .agents).find? agent.id = some row ∧ row.runId = agent.runId
  have start : Stays s := ⟨agent, Keyed.find?_key member, rfl⟩
  have step : ∀ k s₁ s₂, kinds k → Effect k s₁ s₂ → Stays s₁ → Stays s₂ := by
    rintro k s₁ s₂ - effect ⟨row, found, mine⟩
    obtain ⟨row', found', kept⟩ := (effect.agents agent.id).later found
    exact ⟨row', found', kept.run.trans mine⟩
  exact moves.keeps step start

theorem graphRecovered {clock : Date} {result : RecoveredGraphWork} (sound : Sound s)
    (recovered : recoverGraphWork lease clock s = .ok result s') : GraphRecovered lease s s' := by
  have performed : (Call.recoverGraphWork lease clock).perform s = s' := by
    change after (discard (recoverGraphWork lease clock)) s = s'
    rw [discard, after_map, after_ok recovered]
  have moves := Call.moves s (.recoverGraphWork lease clock)
  rw [performed] at moves
  obtain ⟨tasks, agents, s₁, listed, stuck, tasksDone, agentsDone⟩ := recoverGraphWork_ok recovered
  have tasksSame : s' .tasks = s₁ .tasks := by
    have loop : Yields (fun _ _ => True) (agents.forM fun row => recoverAgent lease clock.toISOString row.id) s₁
        fun _ s' => s' .tasks = s₁ .tasks := by
      refine .forM rfl fun row _ s₂ _ same _ s₃ moved => ⟨trivial, ?_⟩
      simp only [recoverAgent, bind_ok, update_ok] at moved
      obtain ⟨_, s₄, first, _, s₅, second, rfl⟩ := moved
      rw [Db.set_other _ _ (by simp), transitionAgent_other second (by simp) (by simp) (by simp),
        transitionAgent_other first (by simp) (by simp) (by simp), same]
    exact (loop _ _ agentsDone).2
  refine ⟨moves.sound sound, ?_, ?_, ?_, ?_, ?_⟩
  · intro task member settled
    have loop : Yields (fun _ _ => True) (tasks.forM fun row => recoverTask lease clock.toISOString row.id) s
        fun _ s' => task ∈ s' .tasks := by
      refine .forM member fun row inside s₂ _ held _ s₃ moved => ⟨trivial, ?_⟩
      apply (recoverTask_tasks moved).2 task held
      intro same
      obtain ⟨there, stranded⟩ := (listed row).mp inside
      exact settled ((Keyed.eq_of_key member there same) ▸ stranded)
    rw [tasksSame]
    exact (loop _ _ tasksDone).2
  · intro task member
    rw [tasksSame] at member
    have origin : Yields (fun _ _ => True) (tasks.forM fun row => recoverTask lease clock.toISOString row.id) s
        fun _ s' => ∀ task ∈ s' .tasks, task ∈ s .tasks ∨ task.ownerAgentId = none := by
      refine .forM (fun _ => .inl) fun row _ s₂ _ held _ s₃ moved => ⟨trivial, fun task member => ?_⟩
      rcases (recoverTask_tasks moved).1 task member with ⟨inside, -⟩ | ⟨-, none⟩
      · exact held task inside
      · exact .inr none
    have freed := forM_settles (fun (row : TaskRow) s' => ∀ task ∈ s' .tasks, task.id = row.id → task.ownerAgentId = none)
      (fun row s₂ _ s₃ moved task member same => ?_) (fun row other s₂ _ s₃ held moved task member same => ?_) tasksDone
    · rcases (origin _ _ tasksDone).2 task member with inside | none
      · by_cases stranded : StrandedTask lease task
        · exact .inr (freed task ((listed task).mpr ⟨inside, stranded⟩) task member rfl)
        · exact .inl ⟨inside, stranded⟩
      · exact .inr none
    · rcases (recoverTask_tasks moved).1 task member with ⟨-, apart⟩ | ⟨-, none⟩
      · exact absurd same apart
      · exact none
    · rcases (recoverTask_tasks moved).1 task member with ⟨inside, -⟩ | ⟨-, none⟩
      · exact held task inside same
      · exact none
  · intro agent member stranded
    have settled := forM_settles (fun (row : AgentRow) s' => ∃ row', (s' .agents).find? row.id = some row' ∧
        row'.status = .queued) (fun row s₂ _ s₃ moved => recoverAgent_found moved)
      (fun row other s₂ _ s₃ held moved => ?_) agentsDone
    · obtain ⟨row, found, queued⟩ := settled agent ((stuck agent).mpr ⟨member, stranded⟩)
      obtain ⟨row', found', mine⟩ := agent_stays moves member
      obtain rfl : row = row' := Option.some.inj (found.symm.trans found')
      exact ⟨row, found, mine, queued⟩
    · by_cases same : row.id = other.id
      · exact same ▸ recoverAgent_found moved
      · rwa [recoverAgent_others moved same]
  · rw [← performed]
    exact Call.frame _ rfl
  · rw [← performed]
    exact Call.frame _ rfl

end Recovered

/-! Which agent is selected. -/

/-- The assignment of an agent is in its inbox, or a task it owns is unfinished. -/
def HasWork (s : Store) (runId : RunId) (agentId : AgentId) : Prop :=
  (∃ message ∈ s .agentMessages, message.runId = runId ∧ message.toAgentId = agentId ∧ message.status = .pending) ∨
    ∃ task ∈ s .tasks, task.runId = runId ∧ task.ownerAgentId = some agentId ∧ task.status.isUnfinished = true

/-- An agent which may be handed a turn. -/
def Schedulable (agent : AgentRow) : Prop :=
  agent.status = .queued ∨ agent.status = .running ∨ agent.status = .waiting

section Selection
variable {s s' : Store} {runId : RunId} {coordinator : Agent} {lease : FencedLease}

theorem mem_listAgents {agent : Agent} :
    agent ∈ listAgents s runId ↔ ∃ row ∈ s .agents, row.runId = runId ∧ agentFromRow s row = agent := by
  simp only [listAgents, List.mem_map, List.mem_insertionSort, List.mem_filter, beq_iff_eq, Keyed.mem_def, and_assoc]

private theorem pending_iff {agentId : AgentId} :
    (((listAgentMessages s runId).filter fun message => message.status == .pending).map (·.toAgentId)).contains agentId =
        true ↔
      ∃ message ∈ s .agentMessages, message.runId = runId ∧ message.toAgentId = agentId ∧ message.status = .pending := by
  simp only [listAgentMessages, List.contains_iff_mem, List.mem_map, List.mem_filter, List.mem_insertionSort,
    beq_iff_eq, Keyed.mem_def]
  constructor
  · rintro ⟨message, ⟨⟨member, mine⟩, pending⟩, recipient⟩
    exact ⟨message, member, mine, recipient, pending⟩
  · rintro ⟨message, member, mine, recipient, pending⟩
    exact ⟨message, ⟨⟨member, mine⟩, pending⟩, recipient⟩

private theorem owns_iff {agentId : AgentId} :
    ((listTasks s runId).any fun task => task.ownerAgentId == some agentId && task.status.isUnfinished) = true ↔
      ∃ task ∈ s .tasks, task.runId = runId ∧ task.ownerAgentId = some agentId ∧ task.status.isUnfinished = true := by
  simp [listTasks, List.any_eq_true, Keyed.mem_def, taskFromRow, and_assoc]

private theorem hasWork_iff {agentId : AgentId} :
    ((((listAgentMessages s runId).filter fun message => message.status == .pending).map (·.toAgentId)).contains
          agentId ||
        (listTasks s runId).any fun task => task.ownerAgentId == some agentId && task.status.isUnfinished) = true ↔
      HasWork s runId agentId := by
  rw [Bool.or_eq_true, pending_iff, owns_iff, HasWork]

theorem nextDelegate_some {agent : Agent} (next : nextDelegate s runId coordinator = some agent) :
    ∃ row ∈ s .agents, agentFromRow s row = agent ∧ row.runId = runId ∧ row.id ≠ coordinator.id ∧ Schedulable row ∧
      HasWork s runId row.id := by
  have working := List.find?_some next
  have listed := List.mem_of_find?_eq_some next
  simp only [List.mem_filter, Bool.and_eq_true, Bool.or_eq_true, beq_iff_eq, bne_iff_ne] at listed
  obtain ⟨member, apart, status⟩ := listed
  obtain ⟨row, stored, mine, rfl⟩ := mem_listAgents.mp member
  exact ⟨row, stored, rfl, mine, apart, or_assoc.mp status, hasWork_iff.mp working⟩

theorem nextDelegate_isSome {row : AgentRow} (stored : row ∈ s .agents) (mine : row.runId = runId)
    (apart : row.id ≠ coordinator.id) (schedulable : Schedulable row) (work : HasWork s runId row.id) :
    ∃ agent, nextDelegate s runId coordinator = some agent := by
  apply Option.isSome_iff_exists.mp
  apply List.find?_isSome.mpr
  refine ⟨agentFromRow s row, ?_, hasWork_iff.mpr work⟩
  simp only [List.mem_filter, Bool.and_eq_true, Bool.or_eq_true, beq_iff_eq, bne_iff_ne]
  exact ⟨mem_listAgents.mpr ⟨row, stored, mine, rfl⟩, apart, or_assoc.mpr schedulable⟩

theorem markAgentActive_returns {clock : Date} {row : AgentRow} (current : CurrentLease s lease clock.toISOString)
    (found : (s .agents).find? row.id = some row) (mine : row.runId = lease.runId) :
    Returns (markAgentActive { agentId := row.id, lease := lease } clock) s fun _ _ => True := by
  unfold markAgentActive
  refine .transaction ?_
  refine .step current.accepted ?_
  refine .step (mustAgentOfLease_ok.mpr ⟨row, found, mine, rfl, rfl⟩) ?_
  exact Returns.update.weaken fun _ _ _ => trivial

private theorem transitionAgent_leased {clock : Date} {row : AgentRow} {target : AgentStatus} (sound : Sound s)
    (current : CurrentLease s lease clock.toISOString) (found : (s .agents).find? row.id = some row)
    (mine : row.runId = lease.runId) (edge : canTransitionAgent row.status target = true) :
    Returns (transitionAgent { agentId := row.id, lease := some lease, target := target } clock) s fun agent s' =>
      agent.id = row.id ∧ s' .runLeases = s .runLeases ∧
        ∃ row', (s' .agents).find? row.id = some row' ∧ row'.runId = row.runId := by
  have returns : Returns (transitionAgent { agentId := row.id, lease := some lease, target := target } clock) s
      fun agent _ => agent.id = row.id := by
    unfold transitionAgent
    refine .transaction ?_
    have leased : given (some lease) (fun lease => do
        assertLeaseInternal lease clock.toISOString
        let _ ← mustAgentOfLease row.id lease) s = .ok () s := by
      rw [given_ok]
      refine .inr ⟨lease, rfl, bind_ok.mpr ⟨(), s, current.accepted, ?_⟩⟩
      exact bind_ok.mpr ⟨_, s, mustAgentOfLease_ok.mpr ⟨row, found, mine, rfl, rfl⟩, rfl⟩
    refine .step leased ?_
    refine (transitionAgent_returns sound found edge _).bind fun agent s₁ moved _ => ?_
    refine Returns.update.bind fun _ s₂ _ _ => .pure ?_
    obtain ⟨-, -, -, -, -, got⟩ := transitionAgentInternal_ok.mp moved
    exact mustAgent_id got
  obtain ⟨agent, s', returned, same⟩ := returns
  have performed : (Call.transitionAgent { agentId := row.id, lease := some lease, target := target } clock).perform s =
      s' := by
    change after (discard (transitionAgent _ clock)) s = s'
    rw [discard, after_map, after_ok returned]
  refine ⟨agent, s', returned, same, ?_, ?_⟩
  · rw [← performed]
    exact Call.frame _ rfl
  · have moves := Call.moves s (.transitionAgent { agentId := row.id, lease := some lease, target := target } clock)
    rw [performed] at moves
    exact agent_stays moves (Keyed.find?_eq_some.mp found).1

theorem selectActingAgent_returns {agent : Agent} {moved stamped : Date} (sound : Sound s)
    (next : nextDelegate s lease.runId coordinator = some agent)
    (first : CurrentLease s lease moved.toISOString) (second : CurrentLease s lease stamped.toISOString) :
    Returns (selectActingAgent lease.runId coordinator lease moved stamped) s fun acting _ => acting.id = agent.id := by
  obtain ⟨row, stored, rfl, mine, -, schedulable, -⟩ := nextDelegate_some next
  have found : (s .agents).find? row.id = some row := Keyed.find?_key stored
  unfold selectActingAgent
  refine .step (get_ok.mpr ⟨rfl, rfl⟩) ?_
  rw [next, Option.getD_some]
  by_cases running : row.status = .running
  · rw [if_pos (show (agentFromRow s row).status = .running from running)]
    refine .step (pure_ok.mpr ⟨rfl, rfl⟩) ?_
    exact (markAgentActive_returns second found mine).bind fun _ _ _ _ => .pure rfl
  · rw [if_neg (show (agentFromRow s row).status ≠ .running from running)]
    have edge : canTransitionAgent row.status .running = true := by
      rcases schedulable with status | status | status
      · rw [status]; decide
      · exact absurd status running
      · rw [status]; decide
    refine (transitionAgent_leased sound first found mine edge).bind fun active s₁ _ after => ?_
    obtain ⟨same, leases, row', found', home⟩ := after
    have current : CurrentLease s₁ lease stamped.toISOString := by
      obtain ⟨held, there, rest⟩ := second
      exact ⟨held, leases ▸ there, rest⟩
    have key : row'.id = active.id := (Keyed.find?_eq_some.mp found').2.trans same.symm
    have stored' : (s₁ .agents).find? row'.id = some row' := by rw [key, same]; exact found'
    have marked := markAgentActive_returns current stored' (home.trans mine)
    rw [key] at marked
    exact marked.bind fun _ _ _ _ => .pure same

end Selection

/-! Takeover in the middle of a delegate's turn. -/

/-- The executor that lost the lease left the delegate in its turn: the assignment received,
the task claimed, both under an older generation. -/
structure Interrupted (s : Store) (lease : FencedLease) (coordinator : Agent) (delegate : AgentRow) (task : TaskRow) :
    Prop where
  acts : coordinatorOf s lease.runId = some coordinator
  stored : delegate ∈ s .agents
  apart : delegate.id ≠ coordinator.id
  running : delegate.status = .running
  replaced : StrandedAgent lease delegate
  received : ∃ message ∈ s .agentMessages, message.runId = lease.runId ∧ message.toAgentId = delegate.id ∧
    message.status = .delivered
  listed : task ∈ s .tasks
  owner : task.ownerAgentId = some delegate.id
  working : StrandedTask lease task

/-- A message naming the task is still in the agent's inbox. -/
def AssignmentPending (s : Store) (runId : RunId) (agentId : AgentId) (taskId : TaskId) : Prop :=
  ∃ message ∈ s .agentMessages, message.runId = runId ∧ message.toAgentId = agentId ∧ message.status = .pending ∧
    message.taskId = some taskId

/-- Recovery returns, the turn then goes to a delegate with work, and the interrupted one is
not left queued with its task neither in its inbox nor owned by it. -/
def DelegationSurvives (s : Store) (lease : FencedLease) (clock : Date) (coordinator : Agent) (delegate : AgentId)
    (taskId : TaskId) : Prop :=
  Returns (recoverGraphWork lease clock) s fun _ s' =>
    (∀ moved stamped : Date, CurrentLease s' lease moved.toISOString → CurrentLease s' lease stamped.toISOString →
      Returns (selectActingAgent lease.runId coordinator lease moved stamped) s' fun acting _ =>
        acting.id ≠ coordinator.id ∧ HasWork s' lease.runId acting.id) ∧
    ∀ row, (s' .agents).find? delegate = some row → row.status = .queued →
      AssignmentPending s' lease.runId delegate taskId ∨
        ∃ task ∈ s' .tasks, task.id = taskId ∧ task.ownerAgentId = some delegate

/-- Work of an agent which recovery does not take away: a message still undelivered, or an
unfinished task it owns that is not stranded. -/
def KeepsWork (s : Store) (lease : FencedLease) (agentId : AgentId) : Prop :=
  (∃ message ∈ s .agentMessages,
    message.runId = lease.runId ∧ message.toAgentId = agentId ∧ message.status = .pending) ∨
  ∃ task ∈ s .tasks, task.runId = lease.runId ∧ task.ownerAgentId = some agentId ∧
    task.status.isUnfinished = true ∧ ¬ StrandedTask lease task

instance (lease : FencedLease) (task : TaskRow) : Decidable (StrandedTask lease task) :=
  inferInstanceAs (Decidable (_ ∧ _ ∧ _))

instance (lease : FencedLease) (agent : AgentRow) : Decidable (StrandedAgent lease agent) :=
  inferInstanceAs (Decidable (_ ∧ _ ∧ _))

instance (s : Store) (runId : RunId) (agentId : AgentId) (taskId : TaskId) :
    Decidable (AssignmentPending s runId agentId taskId) :=
  inferInstanceAs (Decidable (∃ message ∈ (s .agentMessages).rows, _))

section Takeover
variable {s s' : Store} {lease : FencedLease}

theorem GraphRecovered.hasWork_iff {agentId : AgentId} (recovered : GraphRecovered lease s s') :
    HasWork s' lease.runId agentId ↔ KeepsWork s lease agentId := by
  unfold HasWork KeepsWork
  rw [recovered.mailbox]
  apply or_congr_right
  constructor
  · rintro ⟨task, member, mine, owner, unfinished⟩
    rcases recovered.released task member with ⟨inside, settled⟩ | none
    · exact ⟨task, inside, mine, owner, unfinished, settled⟩
    · simp [none] at owner
  · rintro ⟨task, member, mine, owner, unfinished, settled⟩
    exact ⟨task, recovered.kept task member settled, mine, owner, unfinished⟩

/-- Once the graph is recovered the turn goes to a delegate exactly when one that may be
handed a turn has work that recovery left to it. -/
theorem GraphRecovered.next_iff {coordinator : Agent} (recovered : GraphRecovered lease s s') :
    (∃ agent, nextDelegate s' lease.runId coordinator = some agent) ↔
      ∃ row ∈ s' .agents, row.runId = lease.runId ∧ row.id ≠ coordinator.id ∧ Schedulable row ∧
        KeepsWork s lease row.id := by
  constructor
  · rintro ⟨agent, next⟩
    obtain ⟨row, stored, -, mine, apart, schedulable, work⟩ := nextDelegate_some next
    exact ⟨row, stored, mine, apart, schedulable, recovered.hasWork_iff.mp work⟩
  · rintro ⟨row, stored, mine, apart, schedulable, keeps⟩
    exact nextDelegate_isSome stored mine apart schedulable (recovered.hasWork_iff.mpr keeps)

private theorem GraphRecovered.unassigned {task : TaskRow} {agentId : AgentId} (recovered : GraphRecovered lease s s')
    (member : task ∈ s .tasks) (stranded : StrandedTask lease task) :
    ¬ ∃ other ∈ s' .tasks, other.id = task.id ∧ other.ownerAgentId = some agentId := by
  rintro ⟨other, inside, same, owner⟩
  rcases recovered.released other inside with ⟨earlier, settled⟩ | none
  · exact settled ((Keyed.eq_of_key earlier member same) ▸ stranded)
  · simp [none] at owner

private theorem delegation_iff {clock : Date} {coordinator : Agent} {delegate : AgentRow} {task : TaskRow}
    (sound : Sound s) (current : CurrentLease s lease clock.toISOString)
    (interrupted : Interrupted s lease coordinator delegate task) :
    DelegationSurvives s lease clock coordinator delegate.id task.id ↔
      (∀ agent ∈ s .agents, ¬ StuckAgent lease agent) ∧ AssignmentPending s lease.runId delegate.id task.id := by
  constructor
  · rintro ⟨result, s', returned, -, assigned⟩
    have recovered := graphRecovered sound returned
    obtain ⟨row, found, -, queued⟩ := recovered.queued delegate interrupted.stored interrupted.replaced
    refine ⟨fun agent member stuck => ?_, ?_⟩
    · exact throws_iff.mp (stuck_throws member stuck) result s' returned
    · rcases assigned row found queued with pending | owned
      · rwa [AssignmentPending, recovered.mailbox] at pending
      · exact absurd owned (recovered.unassigned interrupted.listed interrupted.working)
  · rintro ⟨clear, pending⟩
    obtain ⟨result, s', returned, -⟩ := recovers_of_clear sound current clear
    have recovered := graphRecovered sound returned
    have still : AssignmentPending s' lease.runId delegate.id task.id := by rwa [AssignmentPending, recovered.mailbox]
    refine ⟨result, s', returned, ?_, fun _ _ _ => .inl still⟩
    obtain ⟨row, found, mine, queued⟩ := recovered.queued delegate interrupted.stored interrupted.replaced
    obtain ⟨stored, same⟩ := Keyed.find?_eq_some.mp found
    have apart : row.id ≠ coordinator.id := fun equal => interrupted.apart (same.symm.trans equal)
    have assigned : HasWork s' lease.runId row.id := by
      obtain ⟨message, member, home, recipient, waiting, -⟩ := still
      exact .inl ⟨message, member, home, recipient.trans same.symm, waiting⟩
    obtain ⟨agent, next⟩ := nextDelegate_isSome stored (mine.trans interrupted.replaced.1) apart (.inl queued) assigned
    intro moved stamped first second
    refine (selectActingAgent_returns recovered.sound next first second).weaken fun acting _ same => ?_
    obtain ⟨other, -, rfl, -, apart, -, hasWork⟩ := nextDelegate_some next
    exact same ▸ ⟨apart, hasWork⟩

end Takeover

/-! Delegation survives a takeover exactly when recovery returns and a message naming the
task is still undelivered: the ownership of the task is always lost. -/

def delegatedTaskId : TaskId := createId .task (sampleRunId ++ ":implement")

def delegateId : AgentId := createId .agent (sampleRunId ++ ":delegate")

/-- The coordinator delegates a task, the delegate takes its turn, and a second executor
takes the Run over. -/
def delegatedHistory : List Call :=
  let lease := sampleLease "first" 1
  [sampleRun, takeSample "first" .epoch,
    .createTask { lease := some lease, runId := sampleRunId, title := "Implement", description := "" } "implement" .epoch,
    .spawnAgent
      { lease := some lease, parentAgentId := some sampleAgentId, role := .implementer, runId := sampleRunId
        taskId := some delegatedTaskId } "delegate" .epoch,
    .transitionAgent { agentId := delegateId, lease := some lease, target := .queued } .epoch,
    .sendAgentMessage
      { body := [], fromAgentId := some sampleAgentId, kind := .taskAssignment, lease := lease
        taskId := some delegatedTaskId, toAgentId := delegateId } "assignment" .epoch,
    .recoverGraphWork lease .epoch,
    .transitionAgent { agentId := delegateId, lease := some lease, target := .running } .epoch,
    .markAgentActive { agentId := delegateId, lease := lease } .epoch,
    .receiveAgentMessages { agentId := delegateId, lease := lease } .epoch,
    .claimTask { agentId := delegateId, lease := lease, taskId := delegatedTaskId } .epoch,
    takeSample "second" oneMinute]

/-- What the takeover finds, all of it read from the one store. -/
theorem delegated_found :
    (((coordinatorOf (storeAfter delegatedHistory) sampleRunId).any fun agent => agent.id != delegateId) = true ∧
      (((storeAfter delegatedHistory) .agents).find? delegateId).any (fun agent =>
        agent.status == .running && decide (StrandedAgent (sampleLease "second" 2) agent)) = true ∧
      (((storeAfter delegatedHistory) .tasks).find? delegatedTaskId).any (fun task =>
        task.ownerAgentId == some delegateId && decide (StrandedTask (sampleLease "second" 2) task)) = true ∧
      ((storeAfter delegatedHistory) .agentMessages).rows.any (fun message =>
        message.runId == sampleRunId && (message.toAgentId == delegateId && message.status == .delivered)) = true) ∧
    ¬ AssignmentPending (storeAfter delegatedHistory) sampleRunId delegateId delegatedTaskId ∧
    CurrentLease (storeAfter delegatedHistory) (sampleLease "second" 2) oneMinute.toISOString := by
  decide +kernel

theorem delegated_interrupted : ∃ coordinator delegate task,
    (delegate.id = delegateId ∧ task.id = delegatedTaskId) ∧
    Interrupted (storeAfter delegatedHistory) (sampleLease "second" 2) coordinator delegate task := by
  obtain ⟨acts, running, working, received⟩ := delegated_found.1
  simp only [Option.any_eq_true, List.any_eq_true, Bool.and_eq_true, beq_iff_eq, bne_iff_ne, decide_eq_true_eq]
    at acts running working received
  obtain ⟨coordinator, acting, apart⟩ := acts
  obtain ⟨delegate, foundAgent, active, replaced⟩ := running
  obtain ⟨task, foundTask, owner, stranded⟩ := working
  obtain ⟨stored, same⟩ := Keyed.find?_eq_some.mp foundAgent
  obtain ⟨listed, named⟩ := Keyed.find?_eq_some.mp foundTask
  refine ⟨coordinator, delegate, task, ⟨same, named⟩, acting, stored, ?_, active, replaced, ?_, listed, ?_, stranded⟩
  · exact fun equal => apart (equal.symm.trans same)
  · obtain ⟨message, member, mine, recipient, delivered⟩ := received
    exact ⟨message, member, mine, recipient.trans same.symm, delivered⟩
  · exact owner.trans (congrArg some same.symm)

end OttiliCoder
