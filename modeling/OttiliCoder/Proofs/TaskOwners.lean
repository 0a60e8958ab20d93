import OttiliCoder.Proofs.Delegation

/-! Who owns a task: what a claim gives, and which steps offer a task that somebody
still owns. -/

namespace OttiliCoder
open Relational Transaction

def Owns (s : Store) (agentId : AgentId) (taskId : TaskId) : Prop :=
  ∃ task, (s .tasks).find? taskId = some task ∧ task.ownerAgentId = some agentId

/-! What a claim gives. -/

/-- The task is the claimer's, under the generation of the claim, and was nobody else's. -/
structure TaskGiven (s s' : Store) (input : ClaimTaskInput) : Prop where
  free : ∀ agentId, Owns s agentId input.taskId → agentId = input.agentId
  given : ∃ task, (s' .tasks).find? input.taskId = some task ∧ task.status = .running ∧
    task.ownerAgentId = some input.agentId ∧ task.leaseGeneration = some input.lease.generation

def claimedTask (input : ClaimTaskInput) (now : IsoTimestamp) (task : TaskRow) : TaskRow :=
  { task with
    status := .running
    ownerAgentId := some input.agentId
    leaseGeneration := some input.lease.generation
    updatedAt := now }

theorem claimedTask_key {input : ClaimTaskInput} {now : IsoTimestamp} (task : TaskRow) :
    key .tasks (claimedTask input now task) = key .tasks task := rfl

/-- The store once the claim's update has run. -/
def withClaim (s : Store) (input : ClaimTaskInput) (now : IsoTimestamp) : Store :=
  s.set .tasks ((s .tasks).update
    (fun task => task.id == input.taskId && task.status == .ready && task.ownerAgentId.isNone)
    (claimedTask input now) claimedTask_key)

section Claim
variable {s s' : Store} {input : ClaimTaskInput} {clock : Date} {claimed : Task} {task : TaskRow}

theorem withClaim_found {now : IsoTimestamp} (found : (s .tasks).find? input.taskId = some task) :
    ((withClaim s input now) .tasks).find? input.taskId =
      some (if task.status = .ready ∧ task.ownerAgentId = none then claimedTask input now task else task) := by
  have same : task.id = input.taskId := (Keyed.find?_eq_some.mp found).2
  rw [withClaim, Db.set_same, Keyed.find?_update, found, Option.map_some]
  simp [same, Option.isNone_iff_eq_none]

/-- A claim's checks, its guarded update, and the check that the claimer owns the task. -/
theorem claimTask_ok :
    claimTask input clock s = .ok claimed s' ↔
      CurrentLease s input.lease clock.toISOString ∧ ∃ task agent claimedRow assigned s₁ moved,
        (s .tasks).find? input.taskId = some task ∧ task.runId = input.lease.runId ∧
        (s .agents).find? input.agentId = some agent ∧ agent.runId = task.runId ∧
        canTransitionTask task.status .running = true ∧
        ((withClaim s input clock.toISOString) .tasks).find? input.taskId = some claimedRow ∧
        claimedRow.ownerAgentId = some input.agentId ∧
        appendEventInternal task.runId .taskAssigned
          [("agentId", .string input.agentId), ("taskId", .string input.taskId)] clock.toISOString
          (some input.lease.generation) (withClaim s input clock.toISOString) = .ok assigned s₁ ∧
        appendEventInternal task.runId .taskStatusChanged
          [("taskId", .string input.taskId), ("to", .string TaskStatus.running.text)] clock.toISOString
          (some input.lease.generation) s₁ = .ok moved s' ∧
        claimed = taskFromRow (withClaim s input clock.toISOString) claimedRow := by
  simp only [claimTask, transaction_ok, bind_ok, assertLeaseInternal_ok, mustTask_ok, mustAgent_ok, require_ok,
    assertTaskTransition_ok, update_ok, pure_ok]
  constructor
  · intro returned
    obtain ⟨_, _, ⟨current, rfl⟩, _, _, ⟨task, found, rfl, rfl⟩, _, _, ⟨home, rfl⟩, returned⟩ := returned
    obtain ⟨_, _, ⟨agent, known, rfl, rfl⟩, _, _, ⟨mate, rfl⟩, _, _, ⟨edge, rfl⟩, returned⟩ := returned
    obtain ⟨_, _, rfl, _, _, ⟨claimedRow, taken, rfl, rfl⟩, _, _, ⟨mine, rfl⟩, returned⟩ := returned
    obtain ⟨assigned, s₁, first, moved, s₂, second, rfl, rfl⟩ := returned
    have same : task.id = input.taskId := (Keyed.find?_eq_some.mp found).2
    simp only [taskFromRow, same] at taken first second ⊢
    exact ⟨current, task, agent, claimedRow, assigned, s₁, moved, found, home, known, mate, edge, taken, mine, first,
      second, rfl⟩
  · rintro ⟨current, task, agent, claimedRow, assigned, s₁, moved, found, home, known, mate, edge, taken, mine, first,
      second, result⟩
    have same : task.id = input.taskId := (Keyed.find?_eq_some.mp found).2
    refine ⟨(), _, ⟨current, rfl⟩, _, _, ⟨task, found, rfl, rfl⟩, (), _, ⟨home, rfl⟩, _, _, ⟨agent, known, rfl, rfl⟩,
      (), _, ⟨mate, rfl⟩, (), _, ⟨edge, rfl⟩, (), withClaim s input clock.toISOString, ?_, _, _,
      ⟨claimedRow, ?_, rfl, rfl⟩, (), _, ⟨mine, rfl⟩, assigned, s₁, ?_, moved, s', ?_, result, rfl⟩
    · simp only [taskFromRow, same]
      rfl
    · simpa only [taskFromRow, same] using taken
    · simpa only [taskFromRow, same] using first
    · simpa only [taskFromRow, same] using second

theorem claimTask_tasks (returned : claimTask input clock s = .ok claimed s') :
    s' .tasks = (withClaim s input clock.toISOString) .tasks := by
  obtain ⟨-, task, agent, claimedRow, assigned, s₁, moved, -, -, -, -, -, -, -, first, second, -⟩ :=
    claimTask_ok.mp returned
  rw [appended_other second (by simp) (by simp), appended_other first (by simp) (by simp)]

/-- A claim that returns has given the task, unless the task was the claimer's already. -/
theorem taskGiven_iff (returned : claimTask input clock s = .ok claimed s') :
    TaskGiven s s' input ↔ ¬ Owns s input.agentId input.taskId := by
  have tasks := claimTask_tasks returned
  obtain ⟨-, task, agent, claimedRow, -, -, -, found, -, -, -, edge, taken, mine, -, -, -⟩ := claimTask_ok.mp returned
  have after : some claimedRow = some (if task.status = .ready ∧ task.ownerAgentId = none then
      claimedTask input clock.toISOString task else task) := taken.symm.trans (withClaim_found found)
  constructor
  · intro given owned
    obtain ⟨other, there, owner⟩ := owned
    cases found.symm.trans there
    obtain ⟨row, left, running, -, -⟩ := given.given
    rw [tasks, taken] at left
    cases left
    rw [if_neg (by simp [owner])] at after
    cases after
    rw [running] at edge
    exact absurd edge (by decide)
  · intro unowned
    by_cases free : task.status = .ready ∧ task.ownerAgentId = none
    · rw [if_pos free] at after
      refine ⟨?_, ?_⟩
      · intro agentId owned
        obtain ⟨other, there, owner⟩ := owned
        cases found.symm.trans there
        cases free.2.symm.trans owner
      · rw [tasks, taken, after]
        exact ⟨_, rfl, rfl, rfl, rfl⟩
    · rw [if_neg free] at after
      cases after
      exact absurd ⟨task, found, mine⟩ unowned

end Claim

/-! Which steps offer a task that has an owner. -/

/-- The task is on offer, or will be once its dependencies are complete. -/
def TaskStatus.isOpen : TaskStatus → Bool
  | .ready | .pending | .failed => true
  | _ => false

/-- No open task has an owner. -/
def Unheld (tasks : Keyed (key .tasks)) : Prop := ∀ task ∈ tasks, task.status.isOpen = true → task.ownerAgentId = none

/-- The call takes a task that has an owner back to `ready` or `pending`. -/
def PutsBackOwned (s : Store) : Call → Prop
  | .transitionTask input _ => (input.target = .ready ∨ input.target = .pending) ∧
      ∃ task, (s .tasks).find? input.taskId = some task ∧ canTransitionTask task.status input.target = true ∧
        ∃ agentId, Owns s agentId input.taskId
  | _ => False

/-- Open tasks stay unowned. -/
def KeepsUnheld (s s' : Store) : Prop := Unheld (s .tasks) → Unheld (s' .tasks)

instance : IsPreorder Store KeepsUnheld where
  refl _ unheld := unheld
  trans _ _ _ first second unheld := second (first unheld)

theorem KeepsUnheld.of_same {s s' : Store} (same : s' .tasks = s .tasks) : KeepsUnheld s s' := by
  intro unheld
  rwa [same]

theorem KeepsUnheld.set {s : Store} {t : Table} {rows : Keyed (key t)} (other : t ≠ .tasks) :
    KeepsUnheld s (s.set t rows) := .of_same (Db.set_other _ _ other.symm)

theorem KeepsUnheld.update {s : Store} {selected : TaskRow → Bool} {f : TaskRow → TaskRow}
    {keeps : ∀ task, key .tasks (f task) = key .tasks task}
    (unheld : ∀ task ∈ s .tasks, selected task = true → (f task).status.isOpen = true → (f task).ownerAgentId = none) :
    KeepsUnheld s (s.set .tasks ((s .tasks).update selected f keeps)) := by
  intro before
  rw [Db.set_same]
  intro task member opened
  obtain ⟨old, inside, rfl⟩ := Keyed.mem_update.mp member
  split at opened
  next chosen =>
    rw [if_pos chosen]
    exact unheld old inside chosen opened
  next spared =>
    rw [if_neg spared]
    exact before old inside opened

/-- An open task may be rewritten as long as its owner is not. -/
theorem KeepsUnheld.update_open {s : Store} {selected : TaskRow → Bool} {f : TaskRow → TaskRow}
    {keeps : ∀ task, key .tasks (f task) = key .tasks task}
    (opened : ∀ task ∈ s .tasks, selected task = true → task.status.isOpen = true)
    (owner : ∀ task, (f task).ownerAgentId = task.ownerAgentId) :
    KeepsUnheld s (s.set .tasks ((s .tasks).update selected f keeps)) := by
  intro unheld
  refine KeepsUnheld.update (fun task inside chosen _ => ?_) unheld
  rw [owner]
  exact unheld task inside (opened task inside chosen)

section Steps
variable {s s' : Store} {runId : RunId} {now : IsoTimestamp} {clock : Date} {u : Unit}

theorem yields_appended {type : RunEventType} {payload : JsonObject} {leaseGeneration : Option Nat} :
    Yields KeepsUnheld (appendEventInternal runId type payload now leaseGeneration) s fun _ s' => s' .tasks = s .tasks := by
  intro event s' appended
  have same : s' .tasks = s .tasks := appended_other appended (by simp) (by simp)
  exact ⟨.of_same same, same⟩

private theorem yields_agentMoved {agentId : AgentId} {target : AgentStatus} {leaseGeneration : Option Nat} :
    Yields KeepsUnheld (transitionAgentInternal agentId target now leaseGeneration) s fun _ _ => True :=
  fun _ _ moved => ⟨.of_same (transitionAgent_other moved (by simp) (by simp) (by simp)), trivial⟩

/-- A readiness refresh offers open tasks only. -/
theorem yields_refreshed :
    Yields KeepsUnheld (refreshTaskReadinessInternal runId now) s fun _ _ => True := by
  unfold refreshTaskReadinessInternal
  refine .read readOnly_selectRows fun pending selected => ?_
  obtain ⟨rfl, -⟩ := select_ok.mp selected
  let Opened (pending : List TaskRow) (s : Store) : Prop :=
    ∀ row ∈ pending, ∀ task ∈ s .tasks, task.id = row.id → task.status.isOpen = true
  have start : Opened ((s .tasks).rows.filter fun row => row.runId == runId &&
      (row.status == .pending || (row.status == .failed && row.attempt < maxTaskAttempts))) s := by
    intro row member task inside same
    obtain ⟨stored, chosen⟩ := List.mem_filter.mp member
    obtain rfl := Keyed.eq_of_key inside stored same
    simp only [Bool.and_eq_true, Bool.or_eq_true, beq_iff_eq] at chosen
    rcases chosen.2 with waiting | ⟨failed, -⟩
    · rw [waiting, TaskStatus.isOpen]
    · rw [failed, TaskStatus.isOpen]
  refine (Yields.forM start fun row member s₁ _ opened => ?_).plain
  refine .read .get fun _ _ => .onlyIf (fun _ => opened) fun _ => ?_
  have free : ∀ task ∈ s₁ .tasks, (task.id == row.id) = true → task.status.isOpen = true := by
    intro task inside same
    exact opened row member task inside (eq_of_beq same)
  refine .bind (Yields.update (.update_open free fun _ => rfl)) fun _ s₂ _ promoted => ?_
  refine .bind yields_appended fun _ s₃ _ appended => .pure ?_
  intro other pending task inside same
  rw [appended, promoted, Db.set_same] at inside
  obtain ⟨old, there, rfl⟩ := Keyed.mem_update.mp inside
  split
  next => rfl
  next spared =>
    rw [if_neg spared] at same
    exact opened other pending old there same

theorem claimTask_keeps {input : ClaimTaskInput} : Within KeepsUnheld (claimTask input clock) s := by
  unfold claimTask
  refine Yields.within ?_
  refine .read readOnly_assertLeaseInternal fun _ _ => ?_
  refine .read readOnly_mustTask fun task _ => ?_
  refine .read (.require _ _) fun _ _ => ?_
  refine .read readOnly_mustAgent fun agent _ => ?_
  refine .read (.require _ _) fun _ _ => ?_
  refine .read (.require _ _) fun _ _ => ?_
  refine .seq (Yields.update (.update fun _ _ _ opened => by cases opened)).plain fun _ s₁ _ => ?_
  refine .read readOnly_mustTask fun claimed _ => ?_
  refine .read (.require _ _) fun _ _ => ?_
  exact .seq yields_appended.plain fun _ s₂ _ => .seq yields_appended.plain fun _ s₃ _ => .pure trivial

theorem createTask_keeps {input : CreateTaskInput} {uuid : String} :
    Within KeepsUnheld (createTask input uuid clock) s := by
  unfold createTask
  refine Yields.within ?_
  refine .read (.given fun _ => readOnly_assertLeaseOfRun) fun _ _ => ?_
  refine .seq (Yields.insert fun admitted unheld => ?_).plain fun _ s₁ _ => ?_
  · rw [Db.set_same]
    intro task member opened
    rcases (Keyed.mem_insert admitted.fresh).mp member with stored | rfl
    · exact unheld task stored opened
    · rfl
  refine .seq (.forM trivial fun dependency _ s₂ _ _ => (Yields.insert fun _ => .set (by simp)).plain) fun _ s₂ _ => ?_
  refine .seq (.forM trivial fun requirementId _ s₃ _ _ => ?_) fun _ s₃ _ => ?_
  · refine .read readOnly_findRow fun requirement _ => ?_
    refine .read (.require _ _) fun _ _ => ?_
    exact (Yields.insert fun _ => .set (by simp)).plain
  refine .seq (.forM trivial fun scope _ s₄ _ _ => (Yields.insert fun _ => .set (by simp)).plain) fun _ s₄ _ => ?_
  exact .seq yields_refreshed fun _ s₅ _ => readOnly_mustTask.plain

theorem transitionTask_keeps {input : TransitionTaskInput} (orderly : ¬ PutsBackOwned s (.transitionTask input clock)) :
    Within KeepsUnheld (transitionTask input clock) s := by
  unfold transitionTask
  refine Yields.within ?_
  refine .read (.given fun _ => readOnly_assertLeaseInternal) fun _ _ => ?_
  refine .read readOnly_mustTask fun task got => ?_
  refine .read (.given fun _ => .require _ _) fun _ _ => ?_
  refine .read (.require _ _) fun _ edge => ?_
  have put : ∀ row ∈ s .tasks, (row.id == task.id) = true → input.target.isOpen = true →
      (if input.target = .completed ∨ input.target = .failed ∨ input.target = .cancelled then none
        else row.ownerAgentId) = none := by
    intro row inside same opened
    obtain ⟨stored, found, rfl, -⟩ := mustTask_ok.mp got
    have mine : row = stored := Keyed.eq_of_key inside (Keyed.find?_eq_some.mp found).1 (eq_of_beq same)
    obtain ⟨edge, -⟩ := require_ok.mp edge
    subst mine
    by_cases failed : input.target = .failed
    · rw [if_pos (.inr (.inl failed))]
    have offered : input.target = .ready ∨ input.target = .pending := by
      cases target : input.target <;> simp_all [TaskStatus.isOpen]
    rw [if_neg (by rcases offered with target | target <;> simp [target])]
    cases owner : row.ownerAgentId with
    | none => rfl
    | some agentId => exact absurd ⟨offered, row, found, edge, agentId, row, found, owner⟩ orderly
  refine .seq (Yields.update (.update put)).plain fun _ s₁ _ => ?_
  refine .seq yields_appended.plain fun _ s₂ _ => ?_
  exact .seq yields_refreshed fun _ s₃ _ => readOnly_mustTask.plain

private theorem yields_recovered {lease : FencedLease} {taskId : TaskId} :
    Yields KeepsUnheld (recoverTask lease now taskId) s fun _ _ => True := by
  unfold recoverTask
  refine .bind (Yields.update (.update fun _ _ _ _ => rfl)) fun _ s₁ _ failed => ?_
  have released : ∀ task ∈ s₁ .tasks, (task.id == taskId) = true → TaskStatus.ready.isOpen = true →
      task.ownerAgentId = none := by
    intro task inside same _
    rw [failed, Db.set_same] at inside
    obtain ⟨old, -, rfl⟩ := Keyed.mem_update.mp inside
    split at same
    next mine => rw [if_pos mine]
    next other => exact absurd same other
  refine .seq (Yields.update (.update released)).plain fun _ s₂ _ => ?_
  exact .seq yields_appended.plain fun _ _ _ => .pure trivial

theorem recoverGraphWork_keeps {lease : FencedLease} : Within KeepsUnheld (recoverGraphWork lease clock) s := by
  unfold recoverGraphWork
  refine Yields.within ?_
  refine .read readOnly_assertLeaseInternal fun _ _ => ?_
  refine .read readOnly_selectRows fun tasks _ => ?_
  refine .seq (.forM trivial fun row _ s₁ _ _ => yields_recovered) fun _ s₁ _ => ?_
  refine .read readOnly_selectRows fun agents _ => ?_
  refine .seq (.forM trivial fun row _ s₂ _ _ => ?_) fun _ _ _ => .pure trivial
  unfold recoverAgent
  refine .seq yields_agentMoved fun _ s₃ _ => .seq yields_agentMoved fun _ s₄ _ => ?_
  exact (Yields.update (.set (by simp))).plain

/-- A call that does not put an owned task back leaves every open task unowned. -/
theorem Call.keeps_unheld (call : Call) (orderly : ¬ PutsBackOwned s call) : KeepsUnheld s (call.perform s) := by
  by_cases plain : call.writes .tasks = false
  · exact .of_same (call.frame plain)
  cases call with
  | claimTask input clock => exact claimTask_keeps.map _
  | createTask input uuid clock => exact createTask_keeps.map _
  | transitionTask input clock => exact (transitionTask_keeps orderly).map _
  | recoverGraphWork lease clock => exact recoverGraphWork_keeps.map _
  | appendFencedEvent input clock => exact absurd (Call.appendFencedEvent_writes rfl rfl) plain
  | _ => exact absurd rfl plain

theorem unheld_reached (reached : ReachedBy (fun s call => ¬ PutsBackOwned s call) s) : Unheld (s .tasks) := by
  let Stays (s : Store) : Prop := Unheld (s .tasks)
  have start : Stays Store.empty := fun _ member => absurd member Keyed.not_mem_empty
  have step : ∀ s call, ReachedBy (fun s call => ¬ PutsBackOwned s call) s → Stays s → ¬ PutsBackOwned s call →
      Stays (call.perform s) := by
    intro s call _ unheld orderly
    exact call.keeps_unheld orderly unheld
  exact reached.invariant start step

end Steps

/-! What a ready task is offered for. -/

/-- A ready task is nobody's, every agent of its Run can claim it under the current lease,
and the oldest ready task of the Run is the next one. -/
structure Claimable (s : Store) (task : TaskRow) : Prop where
  unowned : task.ownerAgentId = none
  claims : ∀ input clock, input.taskId = task.id → input.lease.runId = task.runId →
    CurrentLease s input.lease clock.toISOString →
    (∃ agent, (s .agents).find? input.agentId = some agent ∧ agent.runId = task.runId) →
    ∃ claimed s', claimTask input clock s = .ok claimed s'
  offered : nextReadyTask s task.runId = (listTasks s task.runId { status := [.ready] }).head?

section Ready
variable {s : Store} {task : TaskRow}

private theorem claim_returns {input : ClaimTaskInput} {clock : Date} (sound : Sound s) (member : task ∈ s .tasks)
    (ready : task.status = .ready) (unowned : task.ownerAgentId = none) (named : input.taskId = task.id)
    (home : input.lease.runId = task.runId) (current : CurrentLease s input.lease clock.toISOString)
    (mate : ∃ agent, (s .agents).find? input.agentId = some agent ∧ agent.runId = task.runId) :
    ∃ claimed s', claimTask input clock s = .ok claimed s' := by
  have found : (s .tasks).find? input.taskId = some task := Keyed.find?_eq_some.mpr ⟨member, named.symm⟩
  have taken : ((withClaim s input clock.toISOString) .tasks).find? input.taskId =
      some (claimedTask input clock.toISOString task) := by
    rw [withClaim_found found, if_pos ⟨ready, unowned⟩]
  obtain ⟨agent, known, same⟩ := mate
  obtain ⟨run, stored⟩ := sound.leased current
  rw [home] at stored
  have claimed : Sound (withClaim s input clock.toISOString) := Effect.tasks.sound sound
  have kept : ((withClaim s input clock.toISOString) .runs).find? task.runId = some run := by
    rw [withClaim, Db.set_other _ _ (by simp)]
    exact stored
  obtain ⟨assigned, s₁, first, sound₁⟩ := appendEvent_returns claimed kept .taskAssigned
    [("agentId", .string input.agentId), ("taskId", .string input.taskId)] (some input.lease.generation)
  obtain ⟨run₁, stored₁, -⟩ := (Effect.event first).runs_found kept
  obtain ⟨moved, s₂, second, -⟩ := appendEvent_returns sound₁ stored₁ .taskStatusChanged
    [("taskId", .string input.taskId), ("to", .string TaskStatus.running.text)] (some input.lease.generation)
  have edge : canTransitionTask task.status .running = true := by
    rw [ready]
    decide
  exact ⟨_, s₂, claimTask_ok.mpr ⟨current, task, agent, _, assigned, s₁, moved, found, home.symm, known, same, edge, taken,
    rfl, first, second, rfl⟩⟩

theorem nextReadyTask_head {runId : RunId} (unheld : Unheld (s .tasks)) :
    nextReadyTask s runId = (listTasks s runId { status := [.ready] }).head? := by
  have free : ∀ task ∈ listTasks s runId { status := [.ready] }, task.ownerAgentId = none := by
    intro task listed
    simp only [listTasks, List.mem_map, List.mem_insertionSort, List.mem_filter] at listed
    obtain ⟨row, ⟨inside, chosen⟩, rfl⟩ := listed
    have ready : row.status = .ready := by simp at chosen; exact chosen.2
    exact unheld row inside (by rw [ready, TaskStatus.isOpen])
  rw [nextReadyTask]
  cases tasks : listTasks s runId { status := [.ready] } with
  | nil => rfl
  | cons first rest =>
    rw [tasks] at free
    simp [free first (by simp)]

theorem claimable_of_ready (sound : Sound s) (unheld : Unheld (s .tasks)) (member : task ∈ s .tasks)
    (ready : task.status = .ready) : Claimable s task := by
  have unowned : task.ownerAgentId = none := unheld task member (by rw [ready, TaskStatus.isOpen])
  refine ⟨unowned, ?_, nextReadyTask_head unheld⟩
  intro input clock named home current mate
  exact claim_returns sound member ready unowned named home current mate

end Ready

/-- A claim that returns gives the task exactly when the claimer did not own it already, and
every ready task can be claimed in every run that puts no owned task back. -/
theorem claims_give_ready_tasks (s : Store) :
    (Reachable s → ∀ input clock claimed s', claimTask input clock s = .ok claimed s' →
      (TaskGiven s s' input ↔ ¬ Owns s input.agentId input.taskId)) ∧
    (ReachedBy (fun s call => ¬ PutsBackOwned s call) s → ∀ task ∈ s .tasks, task.status = .ready → Claimable s task) :=
  ⟨fun _ _ _ _ _ returned => taskGiven_iff returned,
    fun reached _ member ready => claimable_of_ready reached.sound (unheld_reached reached) member ready⟩

def sampleClaim : ClaimTaskInput where
  agentId := sampleAgentId
  lease := sampleLease "first" 1
  taskId := sampleTaskId

def offeredHistory : List Call :=
  [sampleRun, takeSample "first" .epoch,
    .createTask { lease := some (sampleLease "first" 1), runId := sampleRunId, title := "Implement", description := "" }
      "implement" .epoch]

theorem offered_task_is_given : ∃ task ∈ (storeAfter offeredHistory) .tasks, Claimable (storeAfter offeredHistory) task ∧
    ∃ claimed s', claimTask sampleClaim .epoch (storeAfter offeredHistory) = .ok claimed s' ∧
      TaskGiven (storeAfter offeredHistory) s' sampleClaim := by
  have orderly : ReachedBy (fun s call => ¬ PutsBackOwned s call) (storeAfter offeredHistory) :=
    Reached.performAll .start ⟨id, id, id, trivial⟩
  have free : (((storeAfter offeredHistory) .tasks).find? sampleTaskId).any (fun task =>
      task.status == .ready && task.ownerAgentId == none) = true := by decide +kernel
  simp only [Option.any_eq_true, Bool.and_eq_true, beq_iff_eq] at free
  obtain ⟨task, found, ready, owner⟩ := free
  obtain ⟨claimed, s', returned⟩ : ∃ claimed s', claimTask sampleClaim .epoch (storeAfter offeredHistory) = .ok claimed s' :=
    fails_eq_false.mp (by decide +kernel)
  have unowned : ¬ Owns (storeAfter offeredHistory) sampleAgentId sampleTaskId := by
    rintro ⟨other, there, mine⟩
    cases found.symm.trans there
    cases owner.symm.trans mine
  have member := (Keyed.find?_eq_some.mp found).1
  refine ⟨task, member, (claims_give_ready_tasks _).2 orderly task member ready, claimed, s', returned, ?_⟩
  exact ((claims_give_ready_tasks _).1 (reachable_storeAfter _) _ _ _ _ returned).mpr unowned

/-- The coordinator claims a task, waits on it, and puts it back. -/
def putBackHistory : List Call :=
  let lease := some (sampleLease "first" 1)
  offeredHistory ++ [.claimTask sampleClaim .epoch,
    .transitionTask { lease := lease, taskId := sampleTaskId, target := .waiting } .epoch,
    .transitionTask { lease := lease, taskId := sampleTaskId, target := .ready } .epoch]

/-- The task put back is ready and still owned, and its owner's claim succeeds without effect. -/
theorem put_back_task_is_not_given :
    ¬ ((∀ s, Reachable s → ∀ input clock claimed s', claimTask input clock s = .ok claimed s' → TaskGiven s s' input) ∨
      ∀ s, Reachable s → ∀ task ∈ s .tasks, task.status = .ready → Claimable s task) := by
  have reached := reachable_storeAfter putBackHistory
  have owned : (((storeAfter putBackHistory) .tasks).find? sampleTaskId).any (fun task =>
      task.status == .ready && task.ownerAgentId == some sampleAgentId) = true := by decide +kernel
  simp only [Option.any_eq_true, Bool.and_eq_true, beq_iff_eq] at owned
  obtain ⟨task, found, ready, owner⟩ := owned
  intro either
  rcases either with gives | offers
  · obtain ⟨claimed, s', returned⟩ : ∃ claimed s', claimTask sampleClaim .epoch (storeAfter putBackHistory) = .ok claimed s' :=
      fails_eq_false.mp (by decide +kernel)
    exact (taskGiven_iff returned).mp (gives _ reached _ _ _ _ returned) ⟨task, found, owner⟩
  · have claimable := offers _ reached task (Keyed.find?_eq_some.mp found).1 ready
    cases claimable.unowned.symm.trans owner

end OttiliCoder
