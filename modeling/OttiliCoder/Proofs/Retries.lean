import Mathlib.Data.List.Induction
import OttiliCoder.Proofs.TaskTable

/-! How often a task is run again: the attempts that failures and recoveries count, and
the retries nobody asked for. -/

namespace OttiliCoder
open Relational Transaction

/-- Somebody asks for the task to be made ready or pending again. -/
def Call.asksFor (taskId : TaskId) : Call → Bool
  | .transitionTask input _ => input.taskId == taskId && (input.target == .ready || input.target == .pending)
  | _ => false

/-- The call re-runs a task that has used up its attempts: an interrupted one, whatever it has
counted, or one that was put back to wait for a dependency. -/
def Spins (s : Store) : Call → Prop
  | .recoverGraphWork lease clock => CurrentLease s lease clock.toISOString ∧
      ∃ task ∈ s .tasks, lease.strandsTask task = true ∧ maxTaskAttempts ≤ task.attempt + 1
  | .createTask input _ _ => ∃ task ∈ s .tasks, task.runId = input.runId ∧ task.status = .pending ∧
      maxTaskAttempts ≤ task.attempt ∧ met s task.id = true
  | .transitionTask input clock => ∃ moved, (s .tasks).find? input.taskId = some moved ∧
      canTransitionTask moved.status input.target = true ∧
      ∃ task ∈ s .tasks, task.id ≠ input.taskId ∧ task.runId = moved.runId ∧ task.status = .pending ∧
        maxTaskAttempts ≤ task.attempt ∧ met (withMoved s input clock.toISOString) task.id = true
  | _ => False

/-- What one call can do to the status and the attempts of a task. -/
inductive TaskStep (s : Store) (call : Call) (taskId : TaskId) (task : TaskRow) : TaskRow → Prop
  | kept : TaskStep s call taskId task task
  | claimed {task' : TaskRow} (ready : task.status = .ready) (status : task'.status = .running)
      (attempt : task'.attempt = task.attempt) : TaskStep s call taskId task task'
  | moved {task' : TaskRow} (input : TransitionTaskInput) (edge : canTransitionTask task.status input.target = true)
      (asks : input.target = .ready ∨ input.target = .pending → call.asksFor taskId = true)
      (status : task'.status = input.target)
      (attempt : task'.attempt = task.attempt + if input.target = .failed then 1 else 0) :
      TaskStep s call taskId task task'
  | putBack {task' : TaskRow} (asks : call.asksFor taskId = true) (edge : canTransitionTask task.status .pending = true)
      (status : task'.status = .ready) (attempt : task'.attempt = task.attempt) : TaskStep s call taskId task task'
  | retried {task' : TaskRow} (running : task.status = .running) (status : task'.status = .ready)
      (attempt : task'.attempt = task.attempt + 1) (bound : ¬ Spins s call → task'.attempt < maxTaskAttempts) :
      TaskStep s call taskId task task'
  | promoted {task' : TaskRow} (retriable : task.retriable = true) (status : task'.status = .ready)
      (attempt : task'.attempt = task.attempt) (bound : ¬ Spins s call → task.attempt < maxTaskAttempts) :
      TaskStep s call taskId task task'

section Steps
variable {s s' : Store} {taskId : TaskId} {task task' : TaskRow} {call : Call}

/-- A refresh keeps a row or promotes it. -/
theorem withReady_found {runId : RunId} {now : IsoTimestamp} (tasks : s' .tasks = withReady s runId now)
    (found : (s .tasks).find? taskId = some task) (found' : (s' .tasks).find? taskId = some task') :
    task' = task ∨ (task' = task.promote now ∧ task.runId = runId ∧ task.retriable = true ∧ met s taskId = true) := by
  have same : task.id = taskId := (Keyed.find?_eq_some.mp found).2
  rw [tasks, withReady, Keyed.find?_update, found, Option.map_some, Option.some.injEq] at found'
  subst found'
  split
  next chosen =>
    simp only [Bool.and_eq_true, beq_iff_eq] at chosen
    exact .inr ⟨rfl, chosen.1.1, chosen.1.2, same ▸ chosen.2⟩
  next => exact .inl rfl

/-- A task that is let through beside a new one was let through before. -/
theorem met_of_insert {s₁ : Store} {new : TaskRow} (fresh : (s .tasks).find? new.id = none)
    (tasks : s₁ .tasks = (s .tasks).insert new) (kept : ∀ link ∈ s .taskDependencies, link ∈ s₁ .taskDependencies)
    (through : met s₁ taskId = true) : met s taskId = true := by
  rw [met_eq_true] at through ⊢
  intro link member mine dependency found
  refine through link (kept link member) mine dependency ?_
  rw [tasks, Keyed.find?_insert fresh, if_neg, found]
  intro same
  rw [← same, fresh] at found
  cases found

/-- A failed task is retriable only while it has attempts left. -/
theorem retriable_bound (retriable : task.retriable = true) : task.status = .pending ∨
    (task.status = .failed ∧ task.attempt < maxTaskAttempts) := by
  simpa only [TaskRow.retriable, Bool.or_eq_true, Bool.and_eq_true, beq_iff_eq, decide_eq_true_eq] using retriable

theorem Call.task_step (call : Call) (found : (s .tasks).find? taskId = some task)
    (found' : ((call.perform s) .tasks).find? taskId = some task') : TaskStep s call taskId task task' := by
  have mine : task.id = taskId := (Keyed.find?_eq_some.mp found).2
  have member : task ∈ s .tasks := (Keyed.find?_eq_some.mp found).1
  cases call.task_write s with
  | same tasks =>
    rw [tasks, found] at found'
    cases found'
    exact .kept
  | claims called tasks =>
    rw [tasks, withClaim, Db.set_same, Keyed.find?_update, found, Option.map_some, Option.some.injEq] at found'
    subst found'
    split
    next chosen =>
      simp only [Bool.and_eq_true, beq_iff_eq] at chosen
      exact .claimed chosen.1.2 rfl rfl
    next => exact .kept
  | @creates input uuid clock called creates =>
    subst called
    obtain ⟨s₁, tasks, links, refreshed⟩ := creates.tasks
    have apart : ¬ key .tasks (input.newTask uuid clock.toISOString) = taskId := by
      intro same
      rw [← same, creates.fresh] at found
      cases found
    have inserted : (s₁ .tasks).find? taskId = some task := by
      rw [tasks, Keyed.find?_insert creates.fresh, if_neg apart, found]
    rcases withReady_found refreshed inserted found' with rfl | ⟨rfl, home, retriable, through⟩
    · exact .kept
    · refine .promoted retriable rfl rfl fun orderly => ?_
      rcases retriable_bound retriable with pending | ⟨-, bound⟩
      · by_contra exhausted
        have before := met_of_insert creates.fresh tasks (fun link inside => links ▸ creates.kept link inside) through
        exact orderly ⟨task, member, home, pending, not_lt.mp exhausted, mine ▸ before⟩
      · exact bound
  | @transitions input clock moved called transitions =>
    subst called
    by_cases own : taskId = input.taskId
    · have same : task = moved := Option.some.inj (found.symm.trans (own ▸ transitions.found))
      subst same
      have stepped : ((withMoved s input clock.toISOString) .tasks).find? taskId =
          some (input.move clock.toISOString task) := by
        rw [withMoved, Db.set_same, Keyed.find?_update, found, Option.map_some, if_pos (by simp [mine, own])]
      have asks : input.target = .ready ∨ input.target = .pending →
          (Call.transitionTask input clock).asksFor taskId = true := by
        intro target
        simp only [Call.asksFor, own, beq_self_eq_true, Bool.true_and, Bool.or_eq_true, beq_iff_eq]
        exact target
      rcases withReady_found transitions.tasks stepped found' with rfl | ⟨rfl, -, retriable, -⟩
      · exact .moved input transitions.edge asks rfl rfl
      · have edge := transitions.edge
        rcases retriable_bound retriable with pending | ⟨failed, bound⟩
        · have target : input.target = .pending := pending
          rw [target] at edge
          refine .putBack (asks (.inr target)) edge rfl ?_
          simp [TaskRow.promote, TransitionTaskInput.move, target]
        · have target : input.target = .failed := failed
          rw [target] at edge
          refine .retried ?_ rfl ?_ fun _ => bound
          · cases status : task.status <;> rw [status] at edge <;> first | rfl | exact absurd edge (by decide)
          · simp [TaskRow.promote, TransitionTaskInput.move, target]
    · have stepped : ((withMoved s input clock.toISOString) .tasks).find? taskId = some task := by
        rw [withMoved, Db.set_same, Keyed.find?_update, found, Option.map_some, if_neg (by simp [mine, own])]
      rcases withReady_found transitions.tasks stepped found' with rfl | ⟨rfl, home, retriable, through⟩
      · exact .kept
      · refine .promoted retriable rfl rfl fun orderly => ?_
        rcases retriable_bound retriable with pending | ⟨-, bound⟩
        · by_contra exhausted
          exact orderly ⟨moved, transitions.found, transitions.edge, task, member, mine ▸ own, home, pending,
            not_lt.mp exhausted, mine ▸ through⟩
        · exact bound
  | @recovers lease clock called current tasks =>
    subst called
    rw [tasks, Keyed.find?_update, found, Option.map_some, Option.some.injEq] at found'
    subst found'
    split
    next stranded =>
      have running : task.status = .running := by
        simp only [FencedLease.strandsTask, Bool.and_eq_true, beq_iff_eq] at stranded
        exact stranded.1.2
      refine .retried running rfl rfl fun orderly => ?_
      by_contra exhausted
      exact orderly ⟨current, task, member, stranded, not_lt.mp exhausted⟩
    next => exact .kept

end Steps

/-! Runs. -/

/-- The task becomes ready with all its attempts used up. -/
def ReadiedExhausted (s s' : Store) (taskId : TaskId) : Prop :=
  (∃ task', (s' .tasks).find? taskId = some task' ∧ task'.status = .ready ∧ maxTaskAttempts ≤ task'.attempt) ∧
    ∀ task, (s .tasks).find? taskId = some task → task.status ≠ .ready

/-- The call makes a failed or interrupted task ready again, and nobody has asked for it. -/
def Call.retries (taskId : TaskId) (s : Store) (call : Call) : Bool :=
  ((s .tasks).find? taskId).any (fun task => task.status == .failed || task.status == .running) &&
    (((call.perform s) .tasks).find? taskId).any (fun task => task.status == .ready) && !call.asksFor taskId

/-- How many times a history has retried the task on its own. -/
def retryCount (history : List Call) (taskId : TaskId) : Nat :=
  (observed Call.perform (fun s call => if call.retries taskId s then [()] else []) Store.empty history).length

/-- The retries of a task so far: each one followed an attempt, and a failed task is owed one. -/
structure Counted (s : Store) (taskId : TaskId) (count : Nat) : Prop where
  unknown : (s .tasks).find? taskId = none → count = 0
  known : ∀ task, (s .tasks).find? taskId = some task → count ≤ task.attempt ∧ (task.status = .failed → count < task.attempt)
  bound : count < maxTaskAttempts

section Runs
variable {s : Store} {taskId : TaskId} {task' : TaskRow}

/-- A task that was not there has made no attempt. -/
theorem Call.task_new (call : Call) (unknown : (s .tasks).find? taskId = none)
    (found' : ((call.perform s) .tasks).find? taskId = some task') :
    task'.attempt = 0 ∧ task'.status ≠ .failed := by
  have updated : ∀ {selected : TaskRow → Bool} {f : TaskRow → TaskRow} {keeps : ∀ task, key .tasks (f task) = key .tasks task}
      {tasks : Keyed (key .tasks)}, tasks.find? taskId = none → (tasks.update selected f keeps).find? taskId ≠ some task' := by
    intro selected f keeps tasks none found
    rw [Keyed.find?_update, none] at found
    cases found
  cases call.task_write s with
  | same tasks =>
    rw [tasks, unknown] at found'
    cases found'
  | claims called tasks =>
    rw [tasks, withClaim, Db.set_same] at found'
    exact absurd found' (updated unknown)
  | @creates input uuid clock called creates =>
    obtain ⟨s₁, tasks, -, refreshed⟩ := creates.tasks
    by_cases new : key .tasks (input.newTask uuid clock.toISOString) = taskId
    · have inserted : (s₁ .tasks).find? taskId = some (input.newTask uuid clock.toISOString) := by
        rw [tasks, Keyed.find?_insert creates.fresh, if_pos new]
      rcases withReady_found refreshed inserted found' with rfl | ⟨rfl, -⟩
      · exact ⟨rfl, by simp [CreateTaskInput.newTask]⟩
      · exact ⟨rfl, by simp [TaskRow.promote]⟩
    · have missing : (s₁ .tasks).find? taskId = none := by
        rw [tasks, Keyed.find?_insert creates.fresh, if_neg new, unknown]
      rw [refreshed] at found'
      exact absurd found' (updated missing)
  | transitions called transitions =>
    rw [transitions.tasks] at found'
    refine absurd found' (updated ?_)
    rw [withMoved, Db.set_same, Keyed.find?_update, unknown, Option.map_none]
  | recovers called current tasks =>
    rw [tasks] at found'
    exact absurd found' (updated unknown)

/-- A call that does not spin readies an exhausted task only when asked to. -/
theorem Call.spares (call : Call) (orderly : ¬ Spins s call) (readied : ReadiedExhausted s (call.perform s) taskId) :
    call.asksFor taskId = true := by
  obtain ⟨⟨task', found', ready, exhausted⟩, before⟩ := readied
  cases found : (s .tasks).find? taskId with
  | none =>
    obtain ⟨new, -⟩ := call.task_new found found'
    rw [new] at exhausted
    exact absurd exhausted (by decide)
  | some task =>
    cases call.task_step found found' with
    | kept => exact absurd ready (before _ found)
    | claimed _ status => rw [status] at ready; cases ready
    | moved input _ asks status => exact asks (.inl (status ▸ ready))
    | putBack asks => exact asks
    | retried _ _ _ bound => exact absurd exhausted (not_le.mpr (bound orderly))
    | promoted _ _ attempt bound => exact absurd (attempt ▸ exhausted) (not_le.mpr (bound orderly))

/-- No call deletes a task. -/
theorem Call.task_stays {task : TaskRow} (call : Call) (found : (s .tasks).find? taskId = some task) :
    ∃ task', ((call.perform s) .tasks).find? taskId = some task' := by
  have updated : ∀ {selected : TaskRow → Bool} {f : TaskRow → TaskRow} {keeps : ∀ task, key .tasks (f task) = key .tasks task}
      {tasks : Keyed (key .tasks)} {task : TaskRow}, tasks.find? taskId = some task →
        ∃ task', (tasks.update selected f keeps).find? taskId = some task' := by
    intro selected f keeps tasks task there
    rw [Keyed.find?_update, there]
    exact ⟨_, rfl⟩
  cases call.task_write s with
  | same tasks => exact ⟨task, tasks ▸ found⟩
  | claims called tasks =>
    rw [tasks, withClaim, Db.set_same]
    exact updated found
  | creates called creates =>
    obtain ⟨s₁, tasks, -, refreshed⟩ := creates.tasks
    rw [refreshed]
    have inserted : ∃ task, (s₁ .tasks).find? taskId = some task := by
      rw [tasks, Keyed.find?_insert creates.fresh]
      split
      · exact ⟨_, rfl⟩
      · exact ⟨task, found⟩
    obtain ⟨there, stored⟩ := inserted
    exact updated stored
  | @transitions input clock moved called transitions =>
    rw [transitions.tasks]
    have moved : ∃ task, ((withMoved s input clock.toISOString) .tasks).find? taskId = some task := by
      rw [withMoved, Db.set_same]
      exact updated found
    obtain ⟨there, stored⟩ := moved
    exact updated stored
  | recovers called current tasks =>
    rw [tasks]
    exact updated found

/-- Only a task that had failed or was running is retried, and it is ready then. -/
theorem Call.retries_eq {task : TaskRow} {call : Call} (found : (s .tasks).find? taskId = some task)
    (found' : ((call.perform s) .tasks).find? taskId = some task') :
    call.retries taskId s = true ↔
      (task.status = .failed ∨ task.status = .running) ∧ task'.status = .ready ∧ call.asksFor taskId = false := by
  simp only [Call.retries, found, found', Option.any_some, Bool.and_eq_true, Bool.or_eq_true, beq_iff_eq,
    Bool.not_eq_true', and_assoc]

/-- One call keeps the count, and adds to it when it retries. -/
theorem Call.counted {count : Nat} (call : Call) (orderly : ¬ Spins s call) (counted : Counted s taskId count) :
    Counted (call.perform s) taskId (count + if call.retries taskId s then 1 else 0) := by
  cases found : (s .tasks).find? taskId with
  | none =>
    have idle : call.retries taskId s = false := by simp [Call.retries, found]
    rw [idle, if_neg Bool.false_ne_true, Nat.add_zero, counted.unknown found]
    refine ⟨fun _ => rfl, fun task' found' => ?_, by decide⟩
    obtain ⟨-, unfailed⟩ := call.task_new found found'
    exact ⟨Nat.zero_le _, fun failed => absurd failed unfailed⟩
  | some task =>
    obtain ⟨below, owed⟩ := counted.known task found
    obtain ⟨task', found'⟩ := call.task_stays found
    have retries := Call.retries_eq found found'
    have holds : ∀ count', (count' ≤ task'.attempt ∧ (task'.status = .failed → count' < task'.attempt) ∧
        count' < maxTaskAttempts) → Counted (call.perform s) taskId count' := by
      rintro count' ⟨atMost, waits, bound⟩
      refine ⟨fun none => ?_, fun other there => ?_, bound⟩
      · rw [found'] at none
        cases none
      · cases found'.symm.trans there
        exact ⟨atMost, waits⟩
    apply holds
    have bound := counted.bound
    by_cases again : call.retries taskId s = true
    · obtain ⟨attempted, ready, unasked⟩ := retries.mp again
      rw [if_pos again]
      have unfailed : task'.status ≠ .failed := by simp [ready]
      cases call.task_step found found' with
      | kept => rcases attempted with failed | running <;> simp [ready] at *
      | claimed before => simp [before] at attempted
      | moved input _ asks status => exact absurd (asks (.inl (status ▸ ready))) (by simp [unasked])
      | putBack asks => exact absurd asks (by simp [unasked])
      | retried _ _ attempt limit =>
        have limit := limit orderly
        exact ⟨by omega, fun failed => absurd failed unfailed, by omega⟩
      | promoted retriable _ attempt limit =>
        rcases retriable_bound retriable with pending | ⟨failed, left⟩
        · simp [pending] at attempted
        · have owed := owed failed
          exact ⟨by omega, fun failed => absurd failed unfailed, by omega⟩
    · rw [if_neg again, Nat.add_zero]
      cases call.task_step found found' with
      | kept => exact ⟨below, owed, bound⟩
      | claimed _ status attempt => exact ⟨by omega, fun failed => by simp [status] at failed, bound⟩
      | moved input _ _ status attempt =>
        refine ⟨by omega, fun failed => ?_, bound⟩
        rw [status] at failed
        rw [if_pos failed] at attempt
        omega
      | putBack _ _ status attempt => exact ⟨by omega, fun failed => by simp [status] at failed, bound⟩
      | retried _ status attempt => exact ⟨by omega, fun failed => by simp [status] at failed, bound⟩
      | promoted _ status attempt => exact ⟨by omega, fun failed => by simp [status] at failed, bound⟩

theorem retryCount_concat (history : List Call) (call : Call) (taskId : TaskId) :
    retryCount (history ++ [call]) taskId =
      retryCount history taskId + if call.retries taskId (storeAfter history) then 1 else 0 := by
  rw [retryCount, observed_concat, List.length_append, retryCount]
  change _ + (if call.retries taskId (storeAfter history) then [()] else []).length = _
  split <;> rfl

/-- In every run in which no call re-runs a task that has used up its attempts, a task is
readied with its attempts used up only when somebody asks for it, and is retried fewer than
`maxTaskAttempts` times otherwise. -/
theorem tasks_retried_within_bound {history : List Call}
    (orderly : AllAllowed Call.perform (fun s call => ¬ Spins s call) Store.empty history) :
    AllAllowed Call.perform (fun s call => ∀ taskId, ReadiedExhausted s (call.perform s) taskId →
        call.asksFor taskId = true) Store.empty history ∧
      ∀ taskId, retryCount history taskId < maxTaskAttempts := by
  have spares : ∀ (s : Store) (call : Call), ¬ Spins s call → ∀ taskId,
      ReadiedExhausted s (call.perform s) taskId → call.asksFor taskId = true := by
    intro s call quiet taskId readied
    exact call.spares quiet readied
  refine ⟨orderly.mono spares, fun taskId => ?_⟩
  have counted : Counted (storeAfter history) taskId (retryCount history taskId) := by
    induction history using List.reverseRecOn with
    | nil =>
      have positive : 0 < maxTaskAttempts := by decide
      refine ⟨fun _ => rfl, fun task found => ?_, positive⟩
      cases found
    | append_singleton before call ih =>
      obtain ⟨earlier, quiet⟩ := allAllowed_concat.mp orderly
      rw [storeAfter_concat, retryCount_concat]
      exact call.counted quiet (ih earlier)
  exact counted.bound

end Runs

/-! A task that keeps killing its executor. -/

def minutesIn (count : Nat) : Date where
  ms := 60000 * (count % 60)
  valid := by
    have latest : maxDateMs = 8640000000000000 := rfl
    omega

/-- The executor takes the Run, recovers what it left behind, and starts the task. -/
def crashing (round : Nat) : List Call :=
  [takeSample "first" (minutesIn round), .recoverGraphWork (sampleLease "first" (round + 1)) (minutesIn round),
    .claimTask { agentId := sampleAgentId, lease := sampleLease "first" (round + 1), taskId := sampleTaskId }
      (minutesIn round)]

def crashes (rounds : Nat) : List Call :=
  [sampleRun, .createTask { description := "Step.", runId := sampleRunId, title := "implement" } "implement" .epoch] ++
    (List.range rounds).flatMap crashing

/-- The first executor starts the task: nothing was attempted before. -/
theorem first_executor_within_bound : retryCount (crashes 1) sampleTaskId < maxTaskAttempts := by
  have idle : ∀ generation clock, ¬ Spins (storeAfter ((crashes 1).take 3))
      (.recoverGraphWork (sampleLease "first" generation) clock) := by
    rintro generation clock ⟨_, task, member, _, exhausted⟩
    have unattempted : ((storeAfter ((crashes 1).take 3)) .tasks).rows.all (fun task => task.attempt == 0) = true := by
      decide +kernel
    have first : task.attempt = 0 := eq_of_beq (List.all_eq_true.mp unattempted task member)
    rw [first] at exhausted
    exact absurd exhausted (by decide)
  have empty : ∀ input uuid clock, ¬ Spins (storeAfter ((crashes 1).take 1)) (.createTask input uuid clock) := by
    rintro input uuid clock ⟨task, member, _⟩
    have nothing : ((storeAfter ((crashes 1).take 1)) .tasks).rows.length = 0 := by decide +kernel
    have member : task ∈ ((storeAfter ((crashes 1).take 1)) .tasks).rows := member
    rw [List.length_eq_zero_iff.mp nothing] at member
    cases member
  have orderly : AllAllowed Call.perform (fun s call => ¬ Spins s call) Store.empty (crashes 1) :=
    ⟨id, empty _ _ _, id, idle _ _, id, trivial⟩
  exact (tasks_retried_within_bound orderly).2 sampleTaskId

/-- The seventh executor is given a task whose five attempts are used up, and then some. -/
theorem crashing_task_never_gives_up :
    maxTaskAttempts < retryCount (crashes 7) sampleTaskId ∧
      (((storeAfter (crashes 6)) .tasks).find? sampleTaskId).any
        (fun task => task.status == .running && maxTaskAttempts ≤ task.attempt) = true ∧
      (((storeAfter (crashes 6 ++ (crashing 6).take 2)) .tasks).find? sampleTaskId).any
        (fun task => task.status == .ready && maxTaskAttempts ≤ task.attempt) = true := by
  decide +kernel

end OttiliCoder
