import Mathlib.Data.List.Basic
import OttiliCoder.Proofs.TaskTable

/-! Task readiness: when the stored statuses agree with the dependencies. -/

namespace OttiliCoder
open Relational Transaction

def Complete (s : Store) (taskId : TaskId) : Prop := ∃ task, (s .tasks).find? taskId = some task ∧ task.status = .completed

def Depends (s : Store) (taskId dependencyId : TaskId) : Prop :=
  ∃ link ∈ s .taskDependencies, link.taskId = taskId ∧ link.dependencyId = dependencyId

/-- Ready tasks have their dependencies, pending tasks wait for one, and no task waits for itself. -/
structure Tracked (s : Store) : Prop where
  ready : ∀ task ∈ s .tasks, task.status = .ready → ∀ dependencyId, Depends s task.id dependencyId → Complete s dependencyId
  pending : ∀ task ∈ s .tasks, task.status = .pending → ∃ dependencyId, Depends s task.id dependencyId ∧ ¬ Complete s dependencyId
  acyclic : ∀ taskId, ¬ Relation.TransGen (Depends s) taskId taskId

/-! Dependencies are older than the tasks that wait for them. -/

def taskIds (s : Store) : List TaskId := (s .tasks).rows.map (·.id)

def position (s : Store) (taskId : TaskId) : Nat := (taskIds s).idxOf taskId

/-- Every dependency is a stored task, created before the task that waits for it. -/
structure Ordered (s : Store) : Prop where
  stored : ∀ link ∈ s .taskDependencies, link.taskId ∈ taskIds s
  older : ∀ link ∈ s .taskDependencies, position s link.dependencyId < position s link.taskId

section Order
variable {s s' : Store} {taskId dependencyId : TaskId}

theorem mem_taskIds : taskId ∈ taskIds s ↔ ∃ task, (s .tasks).find? taskId = some task := by
  rw [taskIds, List.mem_map]
  constructor
  · rintro ⟨task, member, same⟩
    exact ⟨task, Keyed.find?_eq_some.mpr ⟨member, same⟩⟩
  · rintro ⟨task, found⟩
    exact ⟨task, Keyed.find?_eq_some.mp found⟩

theorem Ordered.depends (ordered : Ordered s) (depends : Depends s taskId dependencyId) :
    position s dependencyId < position s taskId := by
  obtain ⟨link, member, rfl, rfl⟩ := depends
  exact ordered.older link member

theorem Ordered.known (ordered : Ordered s) (depends : Depends s taskId dependencyId) : dependencyId ∈ taskIds s := by
  have below : position s dependencyId < (taskIds s).length := (ordered.depends depends).trans_le List.idxOf_le_length
  exact List.idxOf_lt_length_iff.mp below

theorem Ordered.acyclic (ordered : Ordered s) : ¬ Relation.TransGen (Depends s) taskId taskId := by
  have falls : ∀ {later}, Relation.TransGen (Depends s) taskId later → position s later < position s taskId := by
    intro later path
    induction path with
    | single depends => exact ordered.depends depends
    | tail _ depends ih => exact (ordered.depends depends).trans ih
  exact fun cycle => Nat.lt_irrefl _ (falls cycle)

theorem Ordered.of_same (ordered : Ordered s) (ids : taskIds s' = taskIds s)
    (links : s' .taskDependencies = s .taskDependencies) : Ordered s' := by
  refine ⟨fun link member => ?_, fun link member => ?_⟩
  · rw [ids]
    exact ordered.stored link (links ▸ member)
  · rw [position, position, ids]
    exact ordered.older link (links ▸ member)

theorem taskIds_update {selected : TaskRow → Bool} {f : TaskRow → TaskRow} {keeps : ∀ task, key .tasks (f task) = key .tasks task}
    (tasks : s' .tasks = (s .tasks).update selected f keeps) : taskIds s' = taskIds s := by
  rw [taskIds, tasks, Keyed.update, List.map_map]
  refine List.map_congr_left fun task _ => ?_
  simp only [Function.comp_apply]
  split
  · exact keeps task
  · rfl

/-- A new task can only be last, and depends on tasks that are there. -/
theorem Ordered.create {task : TaskRow} (ordered : Ordered s) (fresh : (s .tasks).find? task.id = none)
    (ids : taskIds s' = taskIds s ++ [task.id])
    (links : ∀ link ∈ s' .taskDependencies, link ∈ s .taskDependencies ∨
      (link.taskId = task.id ∧ link.dependencyId ∈ taskIds s)) : Ordered s' := by
  have new : task.id ∉ taskIds s := by
    intro member
    obtain ⟨other, found⟩ := mem_taskIds.mp member
    rw [fresh] at found
    cases found
  refine ⟨fun link member => ?_, fun link member => ?_⟩
  · rw [ids, List.mem_append]
    rcases links link member with old | ⟨mine, -⟩
    · exact .inl (ordered.stored link old)
    · exact .inr (by simp [mine])
  · simp only [position, ids]
    rcases links link member with old | ⟨mine, known⟩
    · have dependency : link.dependencyId ∈ taskIds s := ordered.known ⟨link, old, rfl, rfl⟩
      rw [List.idxOf_append_of_mem dependency, List.idxOf_append_of_mem (ordered.stored link old)]
      exact ordered.older link old
    · rw [mine, List.idxOf_append_of_mem known, List.idxOf_append_of_notMem new]
      exact Nat.lt_add_right _ (List.idxOf_lt_length_iff.mpr known)

/-- Over ordered links, a task is met when everything it depends on is complete. -/
theorem met_iff (ordered : Ordered s) :
    met s taskId = true ↔ ∀ dependencyId, Depends s taskId dependencyId → Complete s dependencyId := by
  rw [met_eq_true]
  constructor
  · intro met dependencyId depends
    obtain ⟨task, found⟩ := mem_taskIds.mp (ordered.known depends)
    obtain ⟨link, member, rfl, rfl⟩ := depends
    exact ⟨task, found, met link member rfl task found⟩
  · intro complete link member mine task found
    obtain ⟨other, stored, completed⟩ := complete link.dependencyId ⟨link, member, mine, rfl⟩
    cases found.symm.trans stored
    exact completed

end Order

/-! Statuses and dependencies. -/

/-- A task that has left `pending`, other than by cancellation, was let through. -/
def TaskStatus.isOpened : TaskStatus → Bool
  | .pending | .cancelled => false
  | _ => true

structure Gated (s : Store) : Prop where
  opened : ∀ task ∈ s .tasks, task.status.isOpened = true → met s task.id = true
  waits : ∀ task ∈ s .tasks, task.status = .pending → met s task.id = false

/-- The dependencies a call names are stored tasks. -/
def NamesStored (s : Store) : Call → Prop
  | .createTask input _ _ => ∀ dependency ∈ input.dependencies, ∃ task, (s .tasks).find? dependency = some task
  | _ => True

/-- The call takes a task to `ready` by hand while it waits for another, or completes the last
dependency of a pending task of another Run. -/
def Strays (s : Store) : Call → Prop
  | .transitionTask input _ => ∃ task, (s .tasks).find? input.taskId = some task ∧
      canTransitionTask task.status input.target = true ∧
      ((input.target = .ready ∧ ∃ dependencyId, Depends s input.taskId dependencyId ∧ ¬ Complete s dependencyId) ∨
        (input.target = .completed ∧ ∃ other ∈ s .tasks, other.runId ≠ task.runId ∧ other.status = .pending ∧
          ∀ dependencyId, Depends s other.id dependencyId → dependencyId = input.taskId ∨ Complete s dependencyId))
  | _ => False

section Gates
variable {s s' : Store} {runId : RunId} {now : IsoTimestamp}

/-- Two stores that complete the same tasks let the same tasks through. -/
theorem met_congr (links : s' .taskDependencies = s .taskDependencies)
    (completed : ∀ id, (((s' .tasks).find? id).any fun task => task.status != .completed) =
      ((s .tasks).find? id).any fun task => task.status != .completed) (taskId : TaskId) :
    met s' taskId = met s taskId := by
  unfold met
  simp only [links, completed]

theorem met_rewritten {selected : TaskRow → Bool} {f : TaskRow → TaskRow} {keeps : ∀ task, key .tasks (f task) = key .tasks task}
    (tasks : s' .tasks = (s .tasks).update selected f keeps) (links : s' .taskDependencies = s .taskDependencies)
    (same : ∀ task ∈ s .tasks, selected task = true →
      ((f task).status != .completed) = (task.status != .completed)) (taskId : TaskId) :
    met s' taskId = met s taskId := by
  refine met_congr links (fun id => ?_) taskId
  rw [tasks, Keyed.find?_update]
  cases found : (s .tasks).find? id with
  | none => rfl
  | some task =>
    simp only [Option.map_some, Option.any_some]
    split
    next chosen => exact same task (Keyed.find?_eq_some.mp found).1 chosen
    next => rfl

/-- A refresh leaves the tasks of its Run gated, if those of other Runs are. -/
theorem Gated.refreshed (tasks : s' .tasks = withReady s runId now) (links : s' .taskDependencies = s .taskDependencies)
    (opened : ∀ task ∈ s .tasks, task.status.isOpened = true → met s task.id = true)
    (others : ∀ task ∈ s .tasks, task.runId ≠ runId → task.status = .pending → met s task.id = false) : Gated s' := by
  have same : ∀ taskId, met s' taskId = met s taskId := by
    refine met_rewritten tasks links fun task _ chosen => ?_
    simp only [Bool.and_eq_true, TaskRow.retriable, Bool.or_eq_true, beq_iff_eq] at chosen
    rcases chosen.1.2 with pending | ⟨failed, -⟩
    · rw [pending]
      rfl
    · rw [failed]
      rfl
  have rows : ∀ task ∈ s' .tasks, ∃ old ∈ s .tasks, task =
      if (old.runId == runId && old.retriable && met s old.id) = true then old.promote now else old := by
    intro task member
    rw [tasks] at member
    exact Keyed.mem_update.mp member
  constructor
  · intro task member isOpened
    obtain ⟨old, inside, rfl⟩ := rows task member
    rw [same]
    split at isOpened
    next chosen =>
      rw [if_pos chosen]
      simp only [Bool.and_eq_true] at chosen
      exact chosen.2
    next spared =>
      rw [if_neg spared]
      exact opened old inside isOpened
  · intro task member pending
    obtain ⟨old, inside, rfl⟩ := rows task member
    rw [same]
    split at pending
    next => cases pending
    next spared =>
      rw [if_neg spared]
      by_cases mine : old.runId = runId
      · simpa [mine, TaskRow.retriable, pending] using spared
      · exact others old inside mine pending

theorem Gated.rewritten {selected : TaskRow → Bool} {f : TaskRow → TaskRow}
    {keeps : ∀ task, key .tasks (f task) = key .tasks task} (gated : Gated s)
    (tasks : s' .tasks = (s .tasks).update selected f keeps) (links : s' .taskDependencies = s .taskDependencies)
    (moves : ∀ task ∈ s .tasks, selected task = true → task.status.isOpened = true ∧ task.status ≠ .completed ∧
      (f task).status ≠ .completed ∧ (f task).status ≠ .pending) : Gated s' := by
  have same : ∀ taskId, met s' taskId = met s taskId := by
    refine met_rewritten tasks links fun task member chosen => ?_
    obtain ⟨-, before, later, -⟩ := moves task member chosen
    rw [bne_iff_ne.mpr before, bne_iff_ne.mpr later]
  have rows : ∀ task ∈ s' .tasks, ∃ old ∈ s .tasks, task = if selected old = true then f old else old := by
    intro task member
    rw [tasks] at member
    exact Keyed.mem_update.mp member
  constructor
  · intro task member isOpened
    obtain ⟨old, inside, rfl⟩ := rows task member
    rw [same]
    split at isOpened
    next chosen =>
      rw [if_pos chosen]
      have home : (f old).id = old.id := keeps old
      rw [home]
      exact gated.opened old inside (moves old inside chosen).1
    next spared =>
      rw [if_neg spared]
      exact gated.opened old inside isOpened
  · intro task member pending
    obtain ⟨old, inside, rfl⟩ := rows task member
    rw [same]
    split at pending
    next chosen => exact absurd pending (moves old inside chosen).2.2.2
    next spared =>
      rw [if_neg spared]
      exact gated.waits old inside pending

theorem withMoved_tasks {input : TransitionTaskInput} : (withMoved s input now) .tasks =
    (s .tasks).update (fun task => task.id == input.taskId) (input.move now) move_key := Db.set_same _ _ _

theorem withMoved_links {input : TransitionTaskInput} : (withMoved s input now) .taskDependencies = s .taskDependencies :=
  Db.set_other _ _ (by simp)

end Gates

section Moves
variable {s s' : Store} {now : IsoTimestamp} {input : TransitionTaskInput} {task : TaskRow}

theorem Transitions.named (transitions : Transitions s s' input task now) : task.id = input.taskId :=
  (Keyed.find?_eq_some.mp transitions.found).2

theorem Transitions.chosen (transitions : Transitions s s' input task now) {other : TaskRow} (member : other ∈ s .tasks)
    (mine : (other.id == input.taskId) = true) : other = task :=
  Keyed.eq_of_key member (Keyed.find?_eq_some.mp transitions.found).1 ((eq_of_beq mine).trans transitions.named.symm)

theorem Transitions.incomplete (transitions : Transitions s s' input task now) : task.status ≠ .completed := by
  intro done
  have edge := transitions.edge
  rw [done] at edge
  cases target : input.target <;> rw [target] at edge <;> exact absurd edge (by decide)

/-- A task that may move to an opened status was opened before, or moves to `ready`. -/
theorem Transitions.opened (transitions : Transitions s s' input task now) (isOpened : input.target.isOpened = true) :
    input.target = .ready ∨ task.status.isOpened = true := by
  have edge := transitions.edge
  cases status : task.status <;> rw [status] at edge <;> first | exact .inr rfl | skip
  all_goals
    cases target : input.target <;> rw [target] at edge isOpened <;>
      first | exact .inl rfl | exact absurd edge (by decide) | exact absurd isOpened (by decide)

theorem Transitions.complete (transitions : Transitions s s' input task now) {id : TaskId} :
    Complete (withMoved s input now) id ↔ Complete s id ∨ (id = input.taskId ∧ input.target = .completed) := by
  simp only [Complete, withMoved_tasks, Keyed.find?_update]
  constructor
  · rintro ⟨row, found, done⟩
    obtain ⟨old, stored, rfl⟩ := Option.map_eq_some_iff.mp found
    split at done
    next mine =>
      have same : old.id = id := (Keyed.find?_eq_some.mp stored).2
      exact .inr ⟨same.symm.trans (eq_of_beq mine), done⟩
    next => exact .inl ⟨old, stored, done⟩
  · intro done
    rcases done with ⟨old, found, done⟩ | ⟨mine, target⟩
    · have spared : ¬ (old.id == input.taskId) = true := by
        intro mine
        exact transitions.incomplete (transitions.chosen (Keyed.find?_eq_some.mp found).1 mine ▸ done)
      exact ⟨old, by rw [found, Option.map_some, if_neg spared], done⟩
    · subst mine
      refine ⟨input.move now task, ?_, target⟩
      rw [transitions.found, Option.map_some, if_pos (beq_iff_eq.mpr transitions.named)]

theorem Transitions.met (transitions : Transitions s s' input task now) (ordered : Ordered s) {id : TaskId} :
    met (withMoved s input now) id = true ↔ ∀ dependencyId, Depends s id dependencyId →
      Complete s dependencyId ∨ (dependencyId = input.taskId ∧ input.target = .completed) := by
  have ids : Ordered (withMoved s input now) := ordered.of_same (taskIds_update withMoved_tasks) withMoved_links
  rw [met_iff ids]
  simp only [Depends, withMoved_links, transitions.complete]

/-- A transition of a gated store that readies no waiting task and completes no last dependency
of a pending task of another Run leaves it gated. -/
theorem Transitions.gated (transitions : Transitions s s' input task now) (ordered : Ordered s) (gated : Gated s)
    (readied : input.target = .ready → OttiliCoder.met s input.taskId = true)
    (completed : input.target = .completed → ∀ other ∈ s .tasks, other.runId ≠ task.runId → other.status = .pending →
      ∃ dependencyId, Depends s other.id dependencyId ∧ dependencyId ≠ input.taskId ∧ ¬ Complete s dependencyId) :
    Gated s' := by
  have grows : ∀ id, OttiliCoder.met s id = true → OttiliCoder.met (withMoved s input now) id = true := by
    intro id met
    exact (transitions.met ordered).mpr fun dependencyId waits => .inl ((met_iff ordered).mp met dependencyId waits)
  refine Gated.refreshed transitions.tasks (transitions.links.trans withMoved_links.symm) ?_ ?_
  · intro other member isOpened
    rw [withMoved_tasks] at member
    obtain ⟨old, inside, rfl⟩ := Keyed.mem_update.mp member
    split at isOpened
    next mine =>
      rw [if_pos mine]
      obtain rfl := transitions.chosen inside mine
      apply grows
      rcases transitions.opened isOpened with target | before
      · exact transitions.named ▸ readied target
      · exact gated.opened old inside before
    next spared =>
      rw [if_neg spared]
      exact grows _ (gated.opened old inside isOpened)
  · intro other member apart pending
    rw [withMoved_tasks] at member
    obtain ⟨old, inside, rfl⟩ := Keyed.mem_update.mp member
    by_cases mine : (old.id == input.taskId) = true
    · rw [if_pos mine] at apart
      exact absurd (congrArg TaskRow.runId (transitions.chosen inside mine)) apart
    · rw [if_neg mine] at apart pending ⊢
      rw [← Bool.not_eq_true]
      intro met
      have waits := (transitions.met ordered).mp met
      by_cases target : input.target = .completed
      · obtain ⟨dependencyId, depends, other, missing⟩ := completed target old inside apart pending
        rcases waits dependencyId depends with done | ⟨same, -⟩
        · exact missing done
        · exact other same
      · have unmet := gated.waits old inside pending
        rw [← Bool.not_eq_true, met_iff ordered] at unmet
        refine unmet fun dependencyId depends => ?_
        rcases waits dependencyId depends with done | ⟨-, same⟩
        · exact done
        · exact absurd same target

end Moves

section Creation
variable {s s' s₁ : Store} {input : CreateTaskInput} {task : TaskRow} {now : IsoTimestamp}

theorem taskIds_insert (fresh : (s .tasks).find? task.id = none) (tasks : s₁ .tasks = (s .tasks).insert task) :
    taskIds s₁ = taskIds s ++ [task.id] := by
  rw [taskIds, tasks, Keyed.insert_rows fresh, List.map_append, List.map_singleton, taskIds]

theorem Creates.ordered (creates : Creates s s' input task now) (ordered : Ordered s)
    (named : ∀ dependency ∈ input.dependencies, ∃ task, (s .tasks).find? dependency = some task)
    (tasks : s₁ .tasks = (s .tasks).insert task) (links : s₁ .taskDependencies = s' .taskDependencies) : Ordered s₁ := by
  refine ordered.create creates.fresh (taskIds_insert creates.fresh tasks) fun link member => ?_
  rw [links] at member
  rcases creates.links link member with old | ⟨mine, inside⟩
  · exact .inl old
  · exact .inr ⟨mine, mem_taskIds.mpr (named _ inside)⟩

/-- A creation changes nothing for the tasks that are there. -/
theorem Creates.met_old (creates : Creates s s' input task now) (ordered : Ordered s)
    (named : ∀ dependency ∈ input.dependencies, ∃ task, (s .tasks).find? dependency = some task)
    (tasks : s₁ .tasks = (s .tasks).insert task) (links : s₁ .taskDependencies = s' .taskDependencies)
    {old : TaskRow} (inside : old ∈ s .tasks) : met s₁ old.id = met s old.id := by
  have apart : old.id ≠ task.id := by
    intro same
    have found := Keyed.find?_key inside
    rw [show key .tasks old = task.id from same, creates.fresh] at found
    cases found
  have depends : ∀ dependencyId, Depends s₁ old.id dependencyId ↔ Depends s old.id dependencyId := by
    intro dependencyId
    constructor
    · rintro ⟨link, member, mine, names⟩
      rw [links] at member
      rcases creates.links link member with stored | ⟨new, -⟩
      · exact ⟨link, stored, mine, names⟩
      · exact absurd (mine.symm.trans new) apart
    · rintro ⟨link, member, mine, names⟩
      exact ⟨link, links ▸ creates.kept link member, mine, names⟩
  have complete : ∀ id ∈ taskIds s, Complete s₁ id ↔ Complete s id := by
    intro id known
    obtain ⟨other, found⟩ := mem_taskIds.mp known
    have different : ¬ key .tasks task = id := by
      intro same
      rw [← same, creates.fresh] at found
      cases found
    rw [Complete, tasks, Keyed.find?_insert creates.fresh, if_neg different, Complete]
  rw [Bool.eq_iff_iff, met_iff (creates.ordered ordered named tasks links), met_iff ordered]
  constructor
  · intro met dependencyId waits
    exact (complete _ (ordered.known waits)).mp (met dependencyId ((depends _).mpr waits))
  · intro met dependencyId waits
    have known := ordered.known ((depends _).mp waits)
    exact (complete _ known).mpr (met dependencyId ((depends _).mp waits))

theorem Creates.gated (creates : Creates s s' input task now) (pending : task.status = .pending)
    (home : task.runId = input.runId) (ordered : Ordered s) (gated : Gated s)
    (named : ∀ dependency ∈ input.dependencies, ∃ task, (s .tasks).find? dependency = some task) : Gated s' := by
  obtain ⟨s₁, tasks, links, refreshed⟩ := creates.tasks
  refine Gated.refreshed refreshed links.symm ?_ ?_
  · intro other member isOpened
    rw [tasks, Keyed.mem_insert creates.fresh] at member
    rcases member with inside | rfl
    · rw [creates.met_old ordered named tasks links inside]
      exact gated.opened other inside isOpened
    · rw [pending] at isOpened
      cases isOpened
  · intro other member apart waits
    rw [tasks, Keyed.mem_insert creates.fresh] at member
    rcases member with inside | rfl
    · rw [creates.met_old ordered named tasks links inside]
      exact gated.waits other inside waits
    · exact absurd home apart

end Creation

/-! Runs. -/

section Runs
variable {s : Store}

theorem Call.keeps_ordered (call : Call) (named : NamesStored s call) (ordered : Ordered s) : Ordered (call.perform s) := by
  cases call.task_write s with
  | same tasks links =>
    have ids : taskIds (call.perform s) = taskIds s := by rw [taskIds, tasks, taskIds]
    exact ordered.of_same ids links
  | claims called tasks links =>
    rw [withClaim, Db.set_same] at tasks
    exact ordered.of_same (taskIds_update tasks) links
  | creates called creates =>
    subst called
    obtain ⟨s₁, tasks, links, refreshed⟩ := creates.tasks
    exact (creates.ordered ordered named tasks links).of_same (taskIds_update refreshed) links.symm
  | transitions called transitions =>
    refine ordered.of_same ?_ transitions.links
    exact (taskIds_update transitions.tasks).trans (taskIds_update withMoved_tasks)
  | recovers called current tasks links => exact ordered.of_same (taskIds_update tasks) links

theorem Call.keeps_gated (call : Call) (named : NamesStored s call) (orderly : ¬ Strays s call) (ordered : Ordered s)
    (gated : Gated s) : Gated (call.perform s) := by
  cases call.task_write s with
  | same tasks links =>
    have same : ∀ taskId, met (call.perform s) taskId = met s taskId := met_of_same tasks links
    refine ⟨fun task member isOpened => ?_, fun task member pending => ?_⟩
    · rw [same]
      exact gated.opened task (tasks ▸ member) isOpened
    · rw [same]
      exact gated.waits task (tasks ▸ member) pending
  | claims called tasks links =>
    rw [withClaim, Db.set_same] at tasks
    refine gated.rewritten tasks links fun task member chosen => ?_
    simp only [Bool.and_eq_true, beq_iff_eq] at chosen
    refine ⟨?_, ?_, by simp [claimedTask], by simp [claimedTask]⟩ <;> rw [chosen.1.2]
    · rfl
    · simp
  | creates called creates =>
    subst called
    exact creates.gated rfl rfl ordered gated named
  | @transitions input clock task called transitions =>
    subst called
    refine transitions.gated ordered gated ?_ ?_
    · intro target
      refine (met_iff ordered).mpr fun dependencyId depends => ?_
      by_contra missing
      exact orderly ⟨task, transitions.found, transitions.edge, .inl ⟨target, dependencyId, depends, missing⟩⟩
    · intro target other inside apart pending
      by_contra none
      refine orderly ⟨task, transitions.found, transitions.edge, .inr ⟨target, other, inside, apart, pending, ?_⟩⟩
      intro dependencyId depends
      by_contra neither
      obtain ⟨different, missing⟩ := not_or.mp neither
      exact none ⟨dependencyId, depends, different, missing⟩
  | @recovers lease clock called current tasks links =>
    refine gated.rewritten tasks links fun task member chosen => ?_
    simp only [FencedLease.strandsTask, Bool.and_eq_true, beq_iff_eq] at chosen
    refine ⟨?_, ?_, by simp [recovered], by simp [recovered]⟩ <;> rw [chosen.1.2]
    · rfl
    · simp

theorem Gated.tracked (gated : Gated s) (ordered : Ordered s) : Tracked s := by
  refine ⟨fun task member ready => ?_, fun task member pending => ?_, fun _ => ordered.acyclic⟩
  · exact (met_iff ordered).mp (gated.opened task member (by rw [ready]; rfl))
  · have unmet := gated.waits task member pending
    rw [← Bool.not_eq_true, met_iff ordered] at unmet
    push Not at unmet
    exact unmet

/-- In every run in which dependencies name stored tasks and no call strays, readiness follows
the dependencies in every store reached, so also where each task became ready. -/
theorem readiness_tracks_dependencies (reached : ReachedBy (fun s call => NamesStored s call ∧ ¬ Strays s call) s) :
    Tracked s := by
  let Stays (s : Store) : Prop := Ordered s ∧ Gated s
  have start : Stays Store.empty :=
    ⟨⟨fun _ none => absurd none Keyed.not_mem_empty, fun _ none => absurd none Keyed.not_mem_empty⟩,
      fun _ none => absurd none Keyed.not_mem_empty, fun _ none => absurd none Keyed.not_mem_empty⟩
  have step : ∀ s call, ReachedBy (fun s call => NamesStored s call ∧ ¬ Strays s call) s → Stays s →
      NamesStored s call ∧ ¬ Strays s call → Stays (call.perform s) := by
    intro s call _ stays allowed
    exact ⟨call.keeps_ordered allowed.1 stays.1, call.keeps_gated allowed.1 allowed.2 stays.1 stays.2⟩
  have stays : Stays s := reached.invariant start step
  exact stays.2.tracked stays.1

end Runs

/-! Two tasks of one Run, and two tasks of two Runs. -/

def sampleTask (runId : RunId) (uuid : String) (dependencies : List TaskId) : Call :=
  .createTask { dependencies := dependencies, description := "Step.", runId := runId, title := uuid } uuid .epoch

def sampleTasks : List Call := [sampleRun, sampleTask sampleRunId "implement" [], sampleTask sampleRunId "review" [sampleTaskId]]

theorem sampleTasks_tracked : Tracked (storeAfter sampleTasks) :=
  readiness_tracks_dependencies <| Reached.performAll .start
    ⟨⟨trivial, id⟩, ⟨fun _ none => absurd none List.not_mem_nil, id⟩,
      ⟨fun dependency member => by
        obtain rfl := List.mem_singleton.mp member
        exact Option.isSome_iff_exists.mp (by decide +kernel), id⟩, trivial⟩

def otherRunId : RunId := createId .run "other"

def otherTaskId : TaskId := createId .task (otherRunId ++ ":build")

/-- A task of the sample Run waits for one of another Run, which is then completed. -/
def foreignDependency : List Call :=
  [sampleRun, .createRun { prompt := "Build it.", workspaceUri := "file:///work" } "other" "v2" .epoch,
    sampleTask otherRunId "build" [], sampleTask sampleRunId "implement" [otherTaskId],
    .transitionTask { taskId := otherTaskId, target := .running } .epoch,
    .transitionTask { taskId := otherTaskId, target := .completed } .epoch]

/-- The refresh of the completed task's Run never looks at the Run that waits. -/
theorem foreign_dependent_stays_pending :
    AllAllowed Call.perform NamesStored Store.empty foreignDependency ∧ ¬ Tracked (storeAfter foreignDependency) := by
  constructor
  · refine ⟨trivial, trivial, fun _ none => absurd none List.not_mem_nil, ?_, trivial, trivial, trivial⟩
    intro dependency member
    obtain rfl := List.mem_singleton.mp member
    exact Option.isSome_iff_exists.mp (by decide +kernel)
  · intro tracked
    have stuck : (((storeAfter foreignDependency) .tasks).rows.any fun task => task.status == .pending &&
        ((storeAfter foreignDependency) .taskDependencies).rows.all fun link => link.taskId != task.id ||
          (((storeAfter foreignDependency) .tasks).find? link.dependencyId).any fun dependency =>
            dependency.status == .completed) = true := by
      decide +kernel
    obtain ⟨task, member, facts⟩ := List.any_eq_true.mp stuck
    obtain ⟨pending, complete⟩ := Bool.and_eq_true_iff.mp facts
    obtain ⟨dependencyId, ⟨link, linked, mine, rfl⟩, missing⟩ := tracked.pending task member (eq_of_beq pending)
    have done := List.all_eq_true.mp complete link linked
    rw [mine, bne_self_eq_false, Bool.false_or, Option.any_eq_true] at done
    obtain ⟨dependency, found, completed⟩ := done
    exact missing ⟨dependency, found, eq_of_beq completed⟩

end OttiliCoder
