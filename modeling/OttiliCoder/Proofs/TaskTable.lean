import OttiliCoder.Proofs.TaskOwners

/-! What the operations on the Task Graph leave in the task table, row by row. -/

namespace OttiliCoder
open Relational Transaction

/-! Readiness. -/

/-- A refresh offers the task again once its dependencies are complete. -/
def TaskRow.retriable (task : TaskRow) : Bool :=
  task.status == .pending || (task.status == .failed && task.attempt < maxTaskAttempts)

def TaskRow.promote (task : TaskRow) (now : IsoTimestamp) : TaskRow := { task with status := .ready, updatedAt := now }

theorem promote_key {now : IsoTimestamp} (task : TaskRow) : key .tasks (task.promote now) = key .tasks task := rfl

/-- No dependency of the task is incomplete. -/
def met (s : Store) (taskId : TaskId) : Bool :=
  !(s .taskDependencies).rows.any fun link => link.taskId == taskId &&
    ((s .tasks).find? link.dependencyId).any fun dependency => dependency.status != .completed

/-- The tasks once a refresh has run over the tasks of a Run. -/
def withReady (s : Store) (runId : RunId) (now : IsoTimestamp) : Keyed (key .tasks) :=
  (s .tasks).update (fun task => task.runId == runId && task.retriable && met s task.id) (·.promote now) promote_key

section Refresh
variable {s s' : Store} {runId : RunId} {now : IsoTimestamp} {clock : Date} {u : PUnit}

theorem met_eq_true {taskId : TaskId} :
    met s taskId = true ↔ ∀ link ∈ s .taskDependencies, link.taskId = taskId →
      ∀ task, (s .tasks).find? link.dependencyId = some task → task.status = .completed := by
  simp only [met, Bool.not_eq_true', List.any_eq_false, Bool.and_eq_true, beq_iff_eq, Option.any_eq_true, bne_iff_ne,
    not_and, not_exists, not_not]
  rfl

/-- A rewrite that completes no task and spares the completed ones changes no readiness. -/
theorem met_update {selected : TaskRow → Bool} {f : TaskRow → TaskRow} {keeps : ∀ task, key .tasks (f task) = key .tasks task}
    (spared : ∀ task ∈ s .tasks, selected task = true → task.status ≠ .completed)
    (incomplete : ∀ task, (f task).status ≠ .completed) (taskId : TaskId) :
    met (s.set .tasks ((s .tasks).update selected f keeps)) taskId = met s taskId := by
  have same : ∀ id, ((((s .tasks).update selected f keeps).find? id).any fun task => task.status != .completed) =
      ((s .tasks).find? id).any fun task => task.status != .completed := by
    intro id
    rw [Keyed.find?_update]
    cases found : (s .tasks).find? id with
    | none => rfl
    | some task =>
      simp only [Option.map_some, Option.any_some]
      split
      next chosen =>
        have stuck : task.status ≠ .completed := spared task (Keyed.find?_eq_some.mp found).1 chosen
        rw [bne_iff_ne.mpr (incomplete task), bne_iff_ne.mpr stuck]
      next => rfl
  simp only [met, Db.set_same, Db.set_other _ _ (show Table.taskDependencies ≠ .tasks by simp), same]

theorem met_of_same (tasks : s' .tasks = s .tasks) (links : s' .taskDependencies = s .taskDependencies)
    (taskId : TaskId) : met s' taskId = met s taskId := by
  unfold met
  rw [tasks, links]

theorem withReady_of_same (tasks : s' .tasks = s .tasks) (links : s' .taskDependencies = s .taskDependencies) :
    withReady s' runId now = withReady s runId now := by
  simp only [withReady, tasks, met_of_same tasks links]

/-- One turn of the refresh. -/
def refreshOne (runId : RunId) (now : IsoTimestamp) (row : TaskRow) : StoreM PUnit := do
  let s ← get
  let incomplete := (s .taskDependencies).rows.any fun link => link.taskId == row.id &&
    ((s .tasks).find? link.dependencyId).any fun dependency => dependency.status != .completed
  onlyIf (incomplete = false) do
    updateRow .tasks row.id (fun row => { row with status := .ready, updatedAt := now }) (readied_key now)
    let _ ← appendEventInternal runId .taskStatusChanged
      [("taskId", .string row.id), ("to", .string TaskStatus.ready.text)] now

/-- A refresh loop promotes the listed tasks that have their dependencies. -/
structure Refreshed (s s' : Store) (items : List TaskRow) (now : IsoTimestamp) : Prop where
  tasks : s' .tasks = (s .tasks).update (fun task => (items.any fun item => task.id == item.id) && met s task.id)
    (·.promote now) promote_key
  links : s' .taskDependencies = s .taskDependencies

theorem refreshOne_refreshed {item : TaskRow} (returned : refreshOne runId now item s = .ok u s') :
    Refreshed s s' [item] now := by
  simp only [refreshOne, bind_ok, get_ok, onlyIf_ok, update_ok, pure_ok] at returned
  obtain ⟨_, _, ⟨current, start⟩, branches⟩ := returned
  rw [current, start] at branches
  rcases branches with ⟨complete, _, middle, rfl, _, _, appended, -, rfl⟩ | ⟨incomplete, rfl⟩
  · have ready : met s item.id = true := by rw [met, complete, Bool.not_false]
    refine ⟨?_, ?_⟩
    · rw [appended_other appended (by simp) (by simp), Db.set_same]
      apply Keyed.update_congr
      intro task _
      by_cases mine : task.id = item.id
      · simp [mine, ready]
      · simp [mine]
    · rw [appended_other appended (by simp) (by simp), Db.set_other _ _ (by simp)]
  · have blocked : met s' item.id = false := by rw [met, (Bool.not_eq_false _).mp incomplete, Bool.not_true]
    refine ⟨?_, rfl⟩
    have nothing : (s' .tasks).update (fun task => ([item].any fun other => task.id == other.id) && met s' task.id)
        (·.promote now) promote_key = (s' .tasks).update (fun _ => false) (·.promote now) promote_key := by
      apply Keyed.update_congr
      intro task _
      by_cases mine : task.id = item.id
      · simp [mine, blocked]
      · simp [mine]
    rw [nothing, Keyed.update_none]

theorem refreshAll_refreshed {items : List TaskRow}
    (waits : ∀ item ∈ items, ∀ task ∈ s .tasks, task.id = item.id → task.status ≠ .completed)
    (looped : items.forM (refreshOne runId now) s = .ok u s') : Refreshed s s' items now := by
  induction items generalizing s with
  | nil =>
    obtain ⟨-, rfl⟩ := pure_ok.mp looped
    exact ⟨by simp only [List.any_nil, Bool.false_and, Keyed.update_none], rfl⟩
  | cons item rest ih =>
    obtain ⟨_, middle, first, others⟩ := bind_ok.mp looped
    have one := refreshOne_refreshed first
    have stuck : ∀ task ∈ s .tasks, (([item].any fun other => task.id == other.id) && met s task.id) = true →
        task.status ≠ .completed := by
      intro task member chosen
      simp only [List.any_cons, List.any_nil, Bool.or_false, Bool.and_eq_true, beq_iff_eq] at chosen
      exact waits item (by simp) task member chosen.1
    have same : ∀ taskId, met middle taskId = met s taskId := by
      intro taskId
      have promoted : met (s.set .tasks ((s .tasks).update (fun task => ([item].any fun other => task.id == other.id) &&
          met s task.id) (·.promote now) promote_key)) taskId = met s taskId :=
        met_update stuck (fun _ => by simp [TaskRow.promote]) taskId
      rw [← promoted]
      exact met_of_same (by rw [one.tasks, Db.set_same]) (by rw [one.links, Db.set_other _ _ (by simp)]) taskId
    have later : Refreshed middle s' rest now := by
      refine ih (fun other inside task member mine => ?_) others
      rw [one.tasks] at member
      obtain ⟨old, there, rfl⟩ := Keyed.mem_update.mp member
      split
      next => simp [TaskRow.promote]
      next spared =>
        rw [if_neg spared] at mine
        exact waits other (by simp [inside]) old there mine
    refine ⟨?_, later.links.trans one.links⟩
    have joined := @Keyed.update_update _ _ (key .tasks) (s .tasks)
      (fun id => ([item].any fun other => id == other.id) && met s id)
      (fun id => (rest.any fun other => id == other.id) && met s id) (·.promote now) promote_key fun _ => rfl
    rw [later.tasks, one.tasks]
    simp only [same]
    rw [joined]
    apply Keyed.update_congr
    intro task _
    simp only [List.any_cons, List.any_nil, Bool.or_false, Bool.and_or_distrib_right]

/-- A refresh promotes the waiting and the retriable tasks of the Run that have their
dependencies, and no others. -/
theorem refreshed_tasks (returned : refreshTaskReadinessInternal runId now s = .ok u s') :
    s' .tasks = withReady s runId now ∧ s' .taskDependencies = s .taskDependencies := by
  have looped : ((s .tasks).rows.filter fun row => row.runId == runId &&
      (row.status == .pending || (row.status == .failed && row.attempt < maxTaskAttempts))).forM (refreshOne runId now) s =
        .ok u s' := by
    simp only [refreshTaskReadinessInternal, bind_ok, select_ok] at returned
    obtain ⟨_, _, ⟨rfl, rfl⟩, looped⟩ := returned
    exact looped
  have refreshed := refreshAll_refreshed (fun item inside task member mine => ?_) looped
  · refine ⟨?_, refreshed.links⟩
    rw [refreshed.tasks, withReady]
    apply Keyed.update_congr
    intro task member
    have listed : ((s .tasks).rows.filter fun row => row.runId == runId &&
        (row.status == .pending || (row.status == .failed && row.attempt < maxTaskAttempts))).any
          (fun item => task.id == item.id) = (task.runId == runId && task.retriable) := by
      rw [Bool.eq_iff_iff, List.any_eq_true]
      constructor
      · rintro ⟨item, inside, mine⟩
        obtain ⟨stored, chosen⟩ := List.mem_filter.mp inside
        obtain rfl := Keyed.eq_of_key member stored (eq_of_beq mine)
        exact chosen
      · exact fun chosen => ⟨task, List.mem_filter.mpr ⟨member, chosen⟩, beq_self_eq_true _⟩
    rw [listed]
  · obtain ⟨stored, chosen⟩ := List.mem_filter.mp inside
    obtain rfl := Keyed.eq_of_key member stored mine
    intro completed
    simp [completed] at chosen

end Refresh

/-! The operations. -/

def TransitionTaskInput.move (input : TransitionTaskInput) (now : IsoTimestamp) (task : TaskRow) : TaskRow :=
  { task with
    status := input.target
    completedAt := if input.target = .completed then some now else none
    updatedAt := now
    ownerAgentId := if input.target = .completed ∨ input.target = .failed ∨ input.target = .cancelled then none
      else task.ownerAgentId
    attempt := task.attempt + if input.target = .failed then 1 else 0
    lastError := input.error
    result := input.result.or task.result
    leaseGeneration := (input.lease.map (·.generation)).or task.leaseGeneration }

theorem move_key {input : TransitionTaskInput} {now : IsoTimestamp} (task : TaskRow) :
    key .tasks (input.move now task) = key .tasks task := rfl

def withMoved (s : Store) (input : TransitionTaskInput) (now : IsoTimestamp) : Store :=
  s.set .tasks ((s .tasks).update (fun task => task.id == input.taskId) (input.move now) move_key)

/-- The transition of a task that a store admits. -/
structure Transitions (s s' : Store) (input : TransitionTaskInput) (task : TaskRow) (now : IsoTimestamp) : Prop where
  found : (s .tasks).find? input.taskId = some task
  edge : canTransitionTask task.status input.target = true
  leased : ∀ lease, input.lease = some lease → CurrentLease s lease now ∧ task.runId = lease.runId
  tasks : s' .tasks = withReady (withMoved s input now) task.runId now
  links : s' .taskDependencies = s .taskDependencies

def recovered (lease : FencedLease) (now : IsoTimestamp) (task : TaskRow) : TaskRow :=
  { task with
    status := .ready
    ownerAgentId := none
    leaseGeneration := some lease.generation
    attempt := task.attempt + 1
    lastError := some "Executor was replaced before the task finished."
    updatedAt := now }

theorem recovered_key {lease : FencedLease} {now : IsoTimestamp} (task : TaskRow) :
    key .tasks (recovered lease now task) = key .tasks task := rfl

/-- The tasks an older generation left running. -/
def FencedLease.strandsTask (lease : FencedLease) (task : TaskRow) : Bool :=
  task.runId == lease.runId && task.status == .running && isStranded task.leaseGeneration lease.generation

def CreateTaskInput.newTask (input : CreateTaskInput) (uuid : String) (now : IsoTimestamp) : TaskRow where
  id := createId .task (input.runId ++ ":" ++ uuid)
  runId := input.runId
  goalId := input.goalId
  title := input.title
  description := input.description
  status := .pending
  createdAt := now
  updatedAt := now

/-- A task is created, linked to its dependencies, and promoted if it waits for none. -/
structure Creates (s s' : Store) (input : CreateTaskInput) (task : TaskRow) (now : IsoTimestamp) : Prop where
  fresh : (s .tasks).find? task.id = none
  tasks : ∃ s₁, s₁ .tasks = (s .tasks).insert task ∧ s₁ .taskDependencies = s' .taskDependencies ∧
    s' .tasks = withReady s₁ input.runId now
  kept : ∀ link ∈ s .taskDependencies, link ∈ s' .taskDependencies
  links : ∀ link ∈ s' .taskDependencies, link ∈ s .taskDependencies ∨
    (link.taskId = task.id ∧ link.dependencyId ∈ input.dependencies)
  known : ∀ dependency ∈ input.dependencies, dependency = task.id ∨ (s .tasks).find? dependency ≠ none

section Operations
variable {s s' : Store} {now : IsoTimestamp} {clock : Date} {uuid : String} {lease : FencedLease}

theorem transitionTask_transitions {input : TransitionTaskInput} {result : Task}
    (returned : transitionTask input clock s = .ok result s') :
    ∃ task, Transitions s s' input task clock.toISOString := by
  simp only [transitionTask, transaction_ok, bind_ok, mustTask_ok, assertTaskTransition_ok, update_ok] at returned
  obtain ⟨_, s₁, leased, _, s₂, ⟨task, found, got, at₂⟩, _, s₃, home, _, s₄, ⟨edge, at₄⟩, _, s₅, moved, _, s₆, appended,
    _, s₇, refreshed, _, _, _, at₇⟩ := returned
  obtain ⟨current, at₁⟩ := (given_check_ok fun _ => assertLeaseInternal_ok).mp leased
  obtain ⟨mine, at₃⟩ := (given_check_ok fun _ => require_ok).mp home
  subst got at₁ at₂ at₃ at₄ at₇
  have named : task.id = input.taskId := (Keyed.find?_eq_some.mp found).2
  obtain ⟨tasks, links⟩ := refreshed_tasks refreshed
  have sets : s₅ = withMoved s₄ input clock.toISOString := by
    rw [moved]
    simp only [taskFromRow, named]
    rfl
  refine ⟨task, found, edge, fun lease given => ⟨current lease given, mine lease given⟩, ?_, ?_⟩
  · rw [tasks, ← sets]
    exact withReady_of_same (appended_other appended (by simp) (by simp)) (appended_other appended (by simp) (by simp))
  · rw [links, appended_other appended (by simp) (by simp), sets, withMoved, Db.set_other _ _ (by simp)]

/-- The rows a creation adds hang on the new task. -/
private theorem linked_links {id : TaskId} {dependencies : List TaskId} {u : PUnit}
    (looped : (dependencies.forM fun dependency => insertInto .taskDependencies
      { taskId := id, dependencyId := dependency }) s = .ok u s') :
    (∀ t, t ≠ .taskDependencies → s' t = s t) ∧ (∀ link ∈ s .taskDependencies, link ∈ s' .taskDependencies) ∧
      (∀ link ∈ s' .taskDependencies, link ∈ s .taskDependencies ∨
        (link.taskId = id ∧ link.dependencyId ∈ dependencies)) ∧
      ∀ dependency ∈ dependencies, (s' .tasks).find? dependency ≠ none := by
  have inserts : ∀ dependency (s s' : Store) (u : PUnit), insertInto .taskDependencies
      { taskId := id, dependencyId := dependency } s = .ok u s' →
        schema.Admits s .taskDependencies { taskId := id, dependencyId := dependency } ∧
        s' = s.set .taskDependencies ((s .taskDependencies).insert { taskId := id, dependencyId := dependency }) :=
    fun dependency s s' u => insert_ok.mp
  refine ⟨?_, ?_, ?_, ?_⟩
  · refine forM_keeps (fun s' => ∀ t, t ≠ .taskDependencies → s' t = s t) (fun _ _ => rfl) ?_ looped
    intro dependency _ s₁ u s₂ same returned t other
    obtain ⟨-, rfl⟩ := inserts dependency s₁ s₂ u returned
    rw [Db.set_other _ _ other, same t other]
  · refine forM_keeps (fun s' => ∀ link ∈ s .taskDependencies, link ∈ s' .taskDependencies) (fun _ member => member) ?_
      looped
    intro dependency _ s₁ u s₂ kept returned link member
    obtain ⟨admitted, rfl⟩ := inserts dependency s₁ s₂ u returned
    rw [Db.set_same, Keyed.mem_insert admitted.fresh]
    exact .inl (kept link member)
  · refine forM_keeps (fun s' => ∀ link ∈ s' .taskDependencies, link ∈ s .taskDependencies ∨
      (link.taskId = id ∧ link.dependencyId ∈ dependencies)) (fun _ member => .inl member) ?_ looped
    intro dependency inside s₁ u s₂ old returned link member
    obtain ⟨admitted, rfl⟩ := inserts dependency s₁ s₂ u returned
    rw [Db.set_same, Keyed.mem_insert admitted.fresh] at member
    rcases member with earlier | rfl
    · exact old link earlier
    · exact .inr ⟨rfl, inside⟩
  · refine forM_settles (fun dependency s => (s .tasks).find? dependency ≠ none) ?_ ?_ looped
    · intro dependency s₁ u s₂ returned
      obtain ⟨admitted, rfl⟩ := inserts dependency s₁ s₂ u returned
      have present := admitted.present
      simp only [schema, references, Bool.and_eq_true] at present
      rw [Db.set_other _ _ (by simp)]
      exact Option.isSome_iff_ne_none.mp present.2
    · intro dependency other s₁ u s₂ known returned
      obtain ⟨-, rfl⟩ := inserts other s₁ s₂ u returned
      rwa [Db.set_other _ _ (by simp)]

private theorem required_same {id : TaskId} {runId : RunId} {requirementIds : List RequirementId} {u : PUnit} {t : Table}
    (other : t ≠ .taskRequirements)
    (looped : (requirementIds.forM fun requirementId => do
      let requirement ← findRow .requirements requirementId
      require (requirement.any (fun row : RequirementRow => row.runId == runId) = true) (.failure "Task requirement must belong to the same Run.")
      insertInto .taskRequirements { taskId := id, requirementId := requirementId }) s = .ok u s') : s' t = s t := by
  refine forM_keeps (fun s' => s' t = s t) rfl ?_ looped
  intro requirementId _ s₁ u s₂ same returned
  simp only [bind_ok, find?_ok, require_ok, insert_ok] at returned
  obtain ⟨_, _, ⟨rfl, rfl⟩, _, _, ⟨-, rfl⟩, -, rfl⟩ := returned
  rw [Db.set_other _ _ other, same]

private theorem scoped_same {id : TaskId} {scopes : List ResourceScope} {u : PUnit} {t : Table}
    (other : t ≠ .taskResourceScopes)
    (looped : (scopes.forM fun scope => insertInto .taskResourceScopes { taskId := id, scope := scope }) s = .ok u s') :
    s' t = s t := by
  refine forM_keeps (fun s' => s' t = s t) rfl ?_ looped
  intro scope _ s₁ u s₂ same returned
  obtain ⟨-, rfl⟩ := insert_ok.mp returned
  rw [Db.set_other _ _ other, same]

theorem createTask_creates {input : CreateTaskInput} {result : Task}
    (returned : createTask input uuid clock s = .ok result s') :
    Creates s s' input (input.newTask uuid clock.toISOString) clock.toISOString := by
  simp only [createTask, transaction_ok, bind_ok, mustTask_ok] at returned
  obtain ⟨_, s₁, leased, _, s₂, inserted, _, s₃, linked, _, s₄, required, _, s₅, limits, _, s₆, refreshed, _, _, _, at₇⟩ :=
    returned
  have start : s₁ = s := (ReadOnly.given fun _ => readOnly_assertLeaseOfRun).ok leased
  obtain ⟨admitted, added⟩ := insert_ok.mp inserted
  obtain ⟨others, kept, new, known⟩ := linked_links linked
  obtain ⟨tasks, links⟩ := refreshed_tasks refreshed
  subst start at₇
  have fresh : (s₁ .tasks).find? (key .tasks (input.newTask uuid clock.toISOString)) = none := admitted.fresh
  have tasks₂ : s₂ .tasks = (s₁ .tasks).insert (input.newTask uuid clock.toISOString) := by
    rw [added, Db.set_same]
    rfl
  have tasks₅ : s₅ .tasks = s₂ .tasks := by
    rw [scoped_same (by simp) limits, required_same (by simp) required, others _ (by simp)]
  have links₅ : s₅ .taskDependencies = s₃ .taskDependencies := by
    rw [scoped_same (by simp) limits, required_same (by simp) required]
  have links₂ : s₂ .taskDependencies = s₁ .taskDependencies := by rw [added, Db.set_other _ _ (by simp)]
  refine ⟨fresh, ⟨s₅, tasks₅.trans tasks₂, links.symm, tasks⟩, ?_, ?_, ?_⟩
  · intro link member
    rw [links, links₅]
    exact kept link (links₂ ▸ member)
  · intro link member
    rw [links, links₅] at member
    exact links₂ ▸ new link member
  · intro dependency member
    have present := known dependency member
    rw [others _ (by simp), tasks₂, Keyed.find?_insert fresh] at present
    split at present
    next same => exact .inl same.symm
    next => exact .inr present

private theorem recoverTask_recovered {id : TaskId} {u : PUnit} (returned : recoverTask lease now id s = .ok u s') :
    s' .tasks = (s .tasks).update (fun task => task.id == id) (recovered lease now) recovered_key ∧
      s' .taskDependencies = s .taskDependencies := by
  simp only [recoverTask, bind_ok, update_ok, pure_ok] at returned
  obtain ⟨_, s₁, failed, _, s₂, readied, event, s₃, appended, -, rfl⟩ := returned
  constructor
  · rw [appended_other appended (by simp) (by simp), readied, failed, Db.set_same, Db.set_same]
    apply Keyed.ext
    simp only [Keyed.update, List.map_map]
    refine List.map_congr_left fun task _ => ?_
    by_cases mine : task.id = id
    · simp [mine, recovered]
    · simp [mine]
  · rw [appended_other appended (by simp) (by simp), readied, failed, Db.set_other _ _ (by simp),
      Db.set_other _ _ (by simp)]

private theorem recoverTasks_recovered {items : List TaskRow} {u : PUnit} (distinct : (items.map (·.id)).Nodup)
    (looped : (items.forM fun item => recoverTask lease now item.id) s = .ok u s') :
    s' .tasks = (s .tasks).update (fun task => items.any fun item => task.id == item.id) (recovered lease now)
      recovered_key ∧ s' .taskDependencies = s .taskDependencies := by
  induction items generalizing s with
  | nil =>
    obtain ⟨-, rfl⟩ := pure_ok.mp looped
    exact ⟨by simp only [List.any_nil, Keyed.update_none], rfl⟩
  | cons item rest ih =>
    obtain ⟨_, middle, first, others⟩ := bind_ok.mp looped
    rw [List.map_cons, List.nodup_cons] at distinct
    obtain ⟨one, links⟩ := recoverTask_recovered first
    obtain ⟨later, laterLinks⟩ := ih distinct.2 others
    have apart : ∀ id, (id == item.id) = true → (rest.any fun other => id == other.id) = false := by
      intro id mine
      refine List.any_eq_false.mpr fun other member same => distinct.1 ?_
      exact List.mem_map.mpr ⟨other, member, (eq_of_beq same).symm.trans (eq_of_beq mine)⟩
    have joined := @Keyed.update_update_apart _ _ (key .tasks) (s .tasks) (fun id => id == item.id)
      (fun id => rest.any fun other => id == other.id) (recovered lease now) recovered_key apart
    refine ⟨?_, laterLinks.trans links⟩
    rw [later, one, joined]
    simp only [List.any_cons]

/-- A recovery re-runs every task an older generation left running, whatever its attempts. -/
theorem recoverGraphWork_recovered {result : RecoveredGraphWork} (returned : recoverGraphWork lease clock s = .ok result s') :
    CurrentLease s lease clock.toISOString ∧
      s' .tasks = (s .tasks).update lease.strandsTask (recovered lease clock.toISOString) recovered_key ∧
      s' .taskDependencies = s .taskDependencies := by
  simp only [recoverGraphWork, transaction_ok, bind_ok, assertLeaseInternal_ok, select_ok, pure_ok] at returned
  obtain ⟨_, s₁, ⟨current, at₁⟩, tasks, s₂, ⟨chosen, at₂⟩, _, s₃, tasksDone, agents, s₄, ⟨-, at₄⟩, _, s₅, agentsDone, -,
    at₅⟩ := returned
  have start : s₂ = s := at₂.trans at₁
  rw [start] at tasksDone
  rw [at₁] at chosen
  have distinct : (tasks.map (·.id)).Nodup := by
    rw [chosen]
    exact (s .tasks).unique.sublist (List.filter_sublist.map _)
  obtain ⟨retried, links⟩ := recoverTasks_recovered distinct tasksDone
  have agents : ∀ t, t ≠ .agents → t ≠ .runs → t ≠ .runEvents → s₅ t = s₃ t := by
    intro t agents runs events
    refine forM_keeps (fun s' => s' t = s₃ t) rfl ?_ (at₄ ▸ agentsDone)
    intro agent _ s₆ u s₇ same returned
    simp only [recoverAgent, bind_ok, update_ok] at returned
    obtain ⟨_, s₈, recovering, _, s₉, queued, stamped⟩ := returned
    rw [stamped, Db.set_other _ _ agents, transitionAgent_other queued agents runs events,
      transitionAgent_other recovering agents runs events, same]
  rw [at₅]
  refine ⟨at₁ ▸ current, ?_, ?_⟩
  · rw [agents _ (by simp) (by simp) (by simp), retried]
    apply Keyed.update_congr
    intro task member
    rw [chosen, Bool.eq_iff_iff, List.any_eq_true]
    constructor
    · rintro ⟨other, inside, same⟩
      obtain ⟨stored, stranded⟩ := List.mem_filter.mp inside
      rwa [Keyed.eq_of_key member stored (eq_of_beq same)]
    · exact fun stranded => ⟨task, List.mem_filter.mpr ⟨member, stranded⟩, beq_self_eq_true _⟩
  · rw [agents _ (by simp) (by simp) (by simp), links]

end Operations

/-! One call. -/

/-- What a call does to the tasks and the links between them. -/
inductive TaskWrite (s : Store) (call : Call) : Prop
  | same (tasks : (call.perform s) .tasks = s .tasks)
      (links : (call.perform s) .taskDependencies = s .taskDependencies)
  | claims {input : ClaimTaskInput} {clock : Date} (called : call = .claimTask input clock)
      (tasks : (call.perform s) .tasks = (withClaim s input clock.toISOString) .tasks)
      (links : (call.perform s) .taskDependencies = s .taskDependencies)
  | creates {input : CreateTaskInput} {uuid : String} {clock : Date} (called : call = .createTask input uuid clock)
      (creates : Creates s (call.perform s) input (input.newTask uuid clock.toISOString) clock.toISOString)
  | transitions {input : TransitionTaskInput} {clock : Date} {task : TaskRow} (called : call = .transitionTask input clock)
      (transitions : Transitions s (call.perform s) input task clock.toISOString)
  | recovers {lease : FencedLease} {clock : Date} (called : call = .recoverGraphWork lease clock)
      (current : CurrentLease s lease clock.toISOString)
      (tasks : (call.perform s) .tasks =
        (s .tasks).update lease.strandsTask (recovered lease clock.toISOString) recovered_key)
      (links : (call.perform s) .taskDependencies = s .taskDependencies)

/-- A transaction whose result is dropped has moved as its result says, or not at all. -/
theorem perform_cases {α : Type} {m : StoreM α} (atomic : Atomic m) (s : Store) :
    (∃ a, m s = .ok a (after (discard m) s)) ∨ after (discard m) s = s := by
  rw [discard, after_map]
  rcases atomic.cases (s := s) with ⟨a, returned⟩ | ⟨-, same⟩
  · exact .inl ⟨a, returned⟩
  · exact .inr same

theorem Call.task_write (s : Store) (call : Call) : TaskWrite s call := by
  have idle : ∀ {call : Call}, call.perform s = s → TaskWrite s call := fun same => .same (by rw [same]) (by rw [same])
  cases call with
  | claimTask input clock =>
    have atomic : Atomic (OttiliCoder.claimTask input clock) := .transaction _
    rcases perform_cases atomic s with ⟨claimed, returned⟩ | same
    · refine .claims rfl (claimTask_tasks returned) ?_
      exact Call.frame _ rfl
    · exact idle same
  | createTask input uuid clock =>
    have atomic : Atomic (OttiliCoder.createTask input uuid clock) := .transaction _
    rcases perform_cases atomic s with ⟨created, returned⟩ | same
    · exact .creates rfl (createTask_creates returned)
    · exact idle same
  | transitionTask input clock =>
    have atomic : Atomic (OttiliCoder.transitionTask input clock) := .transaction _
    rcases perform_cases atomic s with ⟨moved, returned⟩ | same
    · obtain ⟨task, transitions⟩ := transitionTask_transitions returned
      exact .transitions rfl transitions
    · exact idle same
  | recoverGraphWork lease clock =>
    have atomic : Atomic (OttiliCoder.recoverGraphWork lease clock) := .transaction _
    rcases perform_cases atomic s with ⟨result, returned⟩ | same
    · obtain ⟨current, tasks, links⟩ := recoverGraphWork_recovered returned
      exact .recovers rfl current tasks links
    · exact idle same
  | appendFencedEvent input clock =>
    exact .same (Call.frame _ (Call.appendFencedEvent_writes rfl rfl))
      (Call.frame _ (Call.appendFencedEvent_writes rfl rfl))
  | _ => exact .same (Call.frame _ rfl) (Call.frame _ rfl)

end OttiliCoder
