import OttiliCoder.Store.Calls

/-! What the shared steps of the store return, and the store they leave. -/

namespace OttiliCoder
open Relational Transaction

variable {s s' : Store} {now : IsoTimestamp} {u : Unit}

/-! Steps that only read. -/

theorem readOnly_findRow {t : Table} {k : Key t} : ReadOnly (findRow t k) := ReadOnly.find?

theorem readOnly_selectRows {t : Table} {selected : Row t → Bool} : ReadOnly (selectRows t selected) :=
  ReadOnly.select

theorem readOnly_assertInvariant {α : Type} {checked : Except InvariantMessage α} :
    ReadOnly (assertInvariant checked) := by
  unfold assertInvariant
  split
  next value => exact .pure value
  next message => exact .throw (StoreError.invariantViolation message)

theorem readOnly_mustRow {t : Table} {k : Key t} {e : StoreError} : ReadOnly (mustRow t k e) := ReadOnly.must

theorem readOnly_mustRun {runId : RunId} : ReadOnly (mustRun runId) := .bind readOnly_mustRow fun _ => .pure _

theorem readOnly_mustGoal {goalId : GoalId} : ReadOnly (mustGoal goalId) := .bind readOnly_mustRow fun _ => .pure _

theorem readOnly_mustTask {taskId : TaskId} : ReadOnly (mustTask taskId) :=
  .bind readOnly_mustRow fun _ => ReadOnly.get.bind fun _ => .pure _

theorem readOnly_mustAgent {agentId : AgentId} : ReadOnly (mustAgent agentId) :=
  .bind readOnly_mustRow fun _ => ReadOnly.get.bind fun _ => .pure _

theorem readOnly_mustLease {runId : RunId} : ReadOnly (mustLease runId) := readOnly_mustRow

theorem readOnly_mustApproval {id : ApprovalId} : ReadOnly (mustApproval id) := readOnly_mustRow

theorem readOnly_assertLeaseInternal {lease : FencedLease} : ReadOnly (assertLeaseInternal lease now) :=
  .bind readOnly_mustRow fun _ => .require _ _

theorem readOnly_assertRunLeaseInternal {lease : FencedLease} {runId : RunId} {message : String} :
    ReadOnly (assertRunLeaseInternal lease runId now message) :=
  (ReadOnly.require _ _).bind fun _ => readOnly_assertLeaseInternal

theorem readOnly_assertLeaseOfRun {lease : FencedLease} {runId : RunId} {message : String} :
    ReadOnly (assertLeaseOfRun lease runId now message) :=
  .bind readOnly_assertLeaseInternal fun _ => .require _ _

theorem readOnly_mustAgentOfLease {agentId : AgentId} {lease : FencedLease} {message : String} :
    ReadOnly (mustAgentOfLease agentId lease message) :=
  .bind readOnly_mustAgent fun _ => (ReadOnly.require _ _).bind fun _ => .pure _

/-! Lookups. -/

@[simp] theorem mustRun_ok {runId : RunId} {run : Run} :
    mustRun runId s = .ok run s' ↔ ∃ row, (s .runs).find? runId = some row ∧ run = row.toRun ∧ s' = s := by
  simp only [mustRun, bind_ok, must_ok, pure_ok]
  constructor
  · rintro ⟨row, _, ⟨found, rfl⟩, rfl, rfl⟩
    exact ⟨row, found, rfl, rfl⟩
  · rintro ⟨row, found, rfl, rfl⟩
    exact ⟨row, _, ⟨found, rfl⟩, rfl, rfl⟩

theorem mustRun_id {runId : RunId} {run : Run} (got : mustRun runId s = .ok run s') : run.id = runId := by
  rw [mustRun_ok] at got
  obtain ⟨row, found, rfl, -⟩ := got
  exact (Keyed.find?_eq_some.mp found).2

@[simp] theorem mustGoal_ok {goalId : GoalId} {goal : Goal} :
    mustGoal goalId s = .ok goal s' ↔
      ∃ row, (s .goals).find? goalId = some row ∧ goal = row.toGoal ∧ s' = s := by
  simp only [mustGoal, bind_ok, must_ok, pure_ok]
  constructor
  · rintro ⟨row, _, ⟨found, rfl⟩, rfl, rfl⟩
    exact ⟨row, found, rfl, rfl⟩
  · rintro ⟨row, found, rfl, rfl⟩
    exact ⟨row, _, ⟨found, rfl⟩, rfl, rfl⟩

@[simp] theorem mustTask_ok {taskId : TaskId} {task : Task} :
    mustTask taskId s = .ok task s' ↔
      ∃ row, (s .tasks).find? taskId = some row ∧ task = taskFromRow s row ∧ s' = s := by
  simp only [mustTask, bind_ok, must_ok, get_ok, pure_ok]
  constructor
  · rintro ⟨row, _, ⟨found, rfl⟩, _, _, ⟨rfl, rfl⟩, rfl, rfl⟩
    exact ⟨row, found, rfl, rfl⟩
  · rintro ⟨row, found, rfl, rfl⟩
    exact ⟨row, _, ⟨found, rfl⟩, _, _, ⟨rfl, rfl⟩, rfl, rfl⟩

@[simp] theorem mustAgent_ok {agentId : AgentId} {agent : Agent} :
    mustAgent agentId s = .ok agent s' ↔
      ∃ row, (s .agents).find? agentId = some row ∧ agent = agentFromRow s row ∧ s' = s := by
  simp only [mustAgent, bind_ok, must_ok, get_ok, pure_ok]
  constructor
  · rintro ⟨row, _, ⟨found, rfl⟩, _, _, ⟨rfl, rfl⟩, rfl, rfl⟩
    exact ⟨row, found, rfl, rfl⟩
  · rintro ⟨row, found, rfl, rfl⟩
    exact ⟨row, _, ⟨found, rfl⟩, _, _, ⟨rfl, rfl⟩, rfl, rfl⟩

@[simp] theorem mustLease_ok {runId : RunId} {row : RunLeaseRow} :
    mustLease runId s = .ok row s' ↔ (s .runLeases).find? runId = some row ∧ s' = s := must_ok

@[simp] theorem mustApproval_ok {id : ApprovalId} {row : ApprovalRow} :
    mustApproval id s = .ok row s' ↔ (s .approvals).find? id = some row ∧ s' = s := must_ok

/-! Leases. -/

/-- The lease is the one its Run is under, and has not expired at `now`. -/
def CurrentLease (s : Store) (lease : FencedLease) (now : IsoTimestamp) : Prop :=
  ∃ row, (s .runLeases).find? lease.runId = some row ∧ row.holderId = lease.executorId ∧
    row.generation = lease.generation ∧ ¬ row.expiresAt ≤ now

instance (s : Store) (lease : FencedLease) (now : IsoTimestamp) : Decidable (CurrentLease s lease now) :=
  decidable_of_iff (((s .runLeases).find? lease.runId).any (fun row => row.holderId == lease.executorId &&
      row.generation == lease.generation && !decide (row.expiresAt ≤ now)) = true)
    (by simp only [CurrentLease, Option.any_eq_true, Bool.and_eq_true, beq_iff_eq, Bool.not_eq_true',
      decide_eq_false_iff_not, and_assoc])

@[simp] theorem assertLeaseInternal_ok {lease : FencedLease} :
    assertLeaseInternal lease now s = .ok u s' ↔ CurrentLease s lease now ∧ s' = s := by
  simp only [assertLeaseInternal, bind_ok, must_ok, require_ok, CurrentLease]
  constructor
  · rintro ⟨row, _, ⟨found, rfl⟩, valid, rfl⟩
    exact ⟨⟨row, found, valid⟩, rfl⟩
  · rintro ⟨⟨row, found, valid⟩, rfl⟩
    exact ⟨row, _, ⟨found, rfl⟩, valid, rfl⟩

theorem CurrentLease.accepted {lease : FencedLease} (current : CurrentLease s lease now) :
    assertLeaseInternal lease now s = .ok () s := assertLeaseInternal_ok.mpr ⟨current, rfl⟩

@[simp] theorem assertRunLeaseInternal_ok {lease : FencedLease} {runId : RunId} {message : String} :
    assertRunLeaseInternal lease runId now message s = .ok u s' ↔
      (lease.runId = runId ∧ CurrentLease s lease now) ∧ s' = s := by
  simp only [assertRunLeaseInternal, bind_ok, require_ok, assertLeaseInternal_ok]
  constructor
  · rintro ⟨_, _, ⟨mine, rfl⟩, current, rfl⟩
    exact ⟨⟨mine, current⟩, rfl⟩
  · rintro ⟨⟨mine, current⟩, rfl⟩
    exact ⟨(), _, ⟨mine, rfl⟩, current, rfl⟩

@[simp] theorem assertLeaseOfRun_ok {lease : FencedLease} {runId : RunId} {message : String} :
    assertLeaseOfRun lease runId now message s = .ok u s' ↔
      (lease.runId = runId ∧ CurrentLease s lease now) ∧ s' = s := by
  simp only [assertLeaseOfRun, bind_ok, require_ok, assertLeaseInternal_ok]
  constructor
  · rintro ⟨_, _, ⟨current, rfl⟩, mine, rfl⟩
    exact ⟨⟨mine, current⟩, rfl⟩
  · rintro ⟨⟨mine, current⟩, rfl⟩
    exact ⟨(), _, ⟨current, rfl⟩, mine, rfl⟩

@[simp] theorem mustAgentOfLease_ok {agentId : AgentId} {lease : FencedLease} {message : String} {agent : Agent} :
    mustAgentOfLease agentId lease message s = .ok agent s' ↔
      ∃ row, (s .agents).find? agentId = some row ∧ row.runId = lease.runId ∧ agent = agentFromRow s row ∧
        s' = s := by
  simp only [mustAgentOfLease, bind_ok, mustAgent_ok, require_ok, pure_ok]
  constructor
  · rintro ⟨_, _, ⟨row, found, rfl, rfl⟩, _, _, ⟨mine, rfl⟩, rfl, rfl⟩
    exact ⟨row, found, mine, rfl, rfl⟩
  · rintro ⟨row, found, mine, rfl, rfl⟩
    exact ⟨_, _, ⟨row, found, rfl, rfl⟩, (), _, ⟨mine, rfl⟩, rfl, rfl⟩

@[simp] theorem assertRunTransition_ok {source target : RunStatus} :
    assertRunTransition source target s = .ok u s' ↔ canTransitionRun source target = true ∧ s' = s := require_ok

@[simp] theorem assertGoalTransition_ok {source target : GoalStatus} :
    assertGoalTransition source target s = .ok u s' ↔ canTransitionGoal source target = true ∧ s' = s := require_ok

@[simp] theorem assertTaskTransition_ok {source target : TaskStatus} :
    assertTaskTransition source target s = .ok u s' ↔ canTransitionTask source target = true ∧ s' = s := require_ok

@[simp] theorem assertAgentTransition_ok {source target : AgentStatus} :
    assertAgentTransition source target s = .ok u s' ↔ canTransitionAgent source target = true ∧ s' = s :=
  require_ok

@[simp] theorem assertInvariant_ok {α : Type} {checked : Except InvariantMessage α} {value : α} :
    assertInvariant checked s = .ok value s' ↔ checked = .ok value ∧ s' = s := by
  cases checked <;> simp [assertInvariant, eq_comm (a := value)]

/-! The journal. -/

/-- The store with one more event, counted by its Run. -/
def journaled (s : Store) (row : RunEventRow) : Store :=
  (s.set .runEvents ((s .runEvents).insert row)).set .runs
    ((s .runs).update (fun run => run.id == row.runId)
      (fun run => { run with nextSequence := row.seq, revision := run.revision + 1, updatedAt := row.createdAt })
      fun _ => rfl)

/-- The event a Run journals next. -/
def nextEvent (run : RunRow) (type : RunEventType) (payload : JsonObject) (now : IsoTimestamp)
    (leaseGeneration : Option Nat) : RunEventRow :=
  { runId := run.id, seq := run.nextSequence + 1, type := type, payload := payload
    leaseGeneration := leaseGeneration, createdAt := now }

/-- Appending succeeds for a known Run whose next sequence number is free. -/
theorem appendEventInternal_ok {runId : RunId} {type : RunEventType} {payload : JsonObject}
    {leaseGeneration : Option Nat} {event : RunEvent} :
    appendEventInternal runId type payload now leaseGeneration s = .ok event s' ↔
      ∃ run, (s .runs).find? runId = some run ∧
        (s .runEvents).find? (runId, run.nextSequence + 1) = none ∧
        event = eventFromRow (nextEvent run type payload now leaseGeneration) ∧
        s' = journaled s (nextEvent run type payload now leaseGeneration) := by
  simp only [appendEventInternal, bind_ok, mustRun_ok, find?_ok, pure_ok, insert_ok, update_ok]
  constructor
  · rintro ⟨_, _, ⟨run, found, rfl, rfl⟩, _, _, ⟨rfl, rfl⟩, _, _, ⟨admitted, rfl⟩, _, _, rfl, rfl, rfl⟩
    obtain rfl := (Keyed.find?_eq_some.mp found).2
    simp only [found] at admitted ⊢
    exact ⟨run, rfl, admitted.fresh, rfl, by simp [journaled, nextEvent]⟩
  · rintro ⟨run, found, free, rfl, rfl⟩
    obtain rfl := (Keyed.find?_eq_some.mp found).2
    refine ⟨_, _, ⟨run, found, rfl, rfl⟩, _, _, ⟨rfl, rfl⟩, (), _, ⟨⟨?_, ?_, ?_⟩, rfl⟩, (), _, rfl, ?_, ?_⟩
    · simpa only [found] using free
    · simp [schema, clash]
    · simp [schema, references, Store.has, found]
    · simp [eventFromRow, nextEvent, found]
    · simp [journaled, nextEvent, found]

/-! Statuses. -/

def withRunStatus (s : Store) (runId : RunId) (target : RunStatus) (now : IsoTimestamp) (reason : Option String) :
    Store :=
  s.set .runs ((s .runs).update (fun run => run.id == runId)
    (fun run => { run with
      status := target
      blockedReason := reason
      completedAt := if target = .completed ∨ target = .cancelled ∨ target = .failed then some now else none
      revision := run.revision + 1
      updatedAt := now })
    fun run => (rfl : run.id = run.id))

theorem transitionRunInternal_ok {runId : RunId} {target : RunStatus} {reason : Option String} :
    transitionRunInternal runId target now reason s = .ok u s' ↔
      ∃ run event, (s .runs).find? runId = some run ∧ canTransitionRun run.status target = true ∧
        appendEventInternal runId .runStatusChanged
          [("from", .string run.status.text), ("to", .string target.text)] now none
          (withRunStatus s runId target now reason) = .ok event s' := by
  simp only [transitionRunInternal, bind_ok, mustRun_ok, assertRunTransition_ok, update_ok, pure_ok]
  constructor
  · rintro ⟨_, _, ⟨run, found, rfl, rfl⟩, _, _, ⟨edge, rfl⟩, _, _, rfl, event, _, appended, _, rfl⟩
    obtain rfl := (Keyed.find?_eq_some.mp found).2
    exact ⟨run, event, found, edge, appended⟩
  · rintro ⟨run, event, found, edge, appended⟩
    obtain rfl := (Keyed.find?_eq_some.mp found).2
    exact ⟨_, _, ⟨run, found, rfl, rfl⟩, (), _, ⟨edge, rfl⟩, (), _, rfl, event, _, appended, trivial, rfl⟩

def withAgentStatus (s : Store) (agentId : AgentId) (target : AgentStatus) (now : IsoTimestamp) : Store :=
  s.set .agents ((s .agents).update (fun agent => agent.id == agentId)
    (fun agent => { agent with
      status := target
      closedAt := if target = .closed then some now else none
      updatedAt := now })
    fun agent => (rfl : agent.id = agent.id))

theorem transitionAgentInternal_ok {agentId : AgentId} {target : AgentStatus} {leaseGeneration : Option Nat}
    {agent : Agent} :
    transitionAgentInternal agentId target now leaseGeneration s = .ok agent s' ↔
      ∃ row event, (s .agents).find? agentId = some row ∧ canTransitionAgent row.status target = true ∧
        appendEventInternal row.runId .agentStatusChanged
          [("agentId", .string agentId), ("to", .string target.text)] now leaseGeneration
          (withAgentStatus s agentId target now) = .ok event s' ∧
        mustAgent agentId s' = .ok agent s' := by
  simp only [transitionAgentInternal, bind_ok, mustAgent_ok, assertAgentTransition_ok, update_ok]
  constructor
  · rintro ⟨_, _, ⟨row, found, rfl, rfl⟩, _, _, ⟨edge, rfl⟩, _, _, rfl, event, _, appended, last, again, rfl, rfl⟩
    obtain rfl := (Keyed.find?_eq_some.mp found).2
    exact ⟨row, event, found, edge, appended, last, again, rfl, trivial⟩
  · rintro ⟨row, event, found, edge, appended, last, again, rfl, -⟩
    obtain rfl := (Keyed.find?_eq_some.mp found).2
    exact ⟨_, _, ⟨row, found, rfl, rfl⟩, (), _, ⟨edge, rfl⟩, (), _, rfl, event, _, appended, last, again, rfl, rfl⟩

theorem insertRun_ok {run : RunRow} {goal : GoalRow} {agent : AgentRow} :
    insertRun run goal agent s = .ok u s' ↔
      schema.Admits s .runs run ∧ schema.Admits (s.set .runs ((s .runs).insert run)) .goals goal ∧
      schema.Admits ((s.set .runs ((s .runs).insert run)).set .goals ((s .goals).insert goal)) .agents agent ∧
      s' = ((s.set .runs ((s .runs).insert run)).set .goals ((s .goals).insert goal)).set .agents
        ((s .agents).insert agent) := by
  simp only [insertRun, bind_ok, insert_ok]
  constructor
  · rintro ⟨_, _, ⟨first, rfl⟩, _, _, ⟨second, rfl⟩, third, rfl⟩
    exact ⟨first, second, by simpa using third, by simp⟩
  · rintro ⟨first, second, third, rfl⟩
    exact ⟨(), _, ⟨first, rfl⟩, (), _, ⟨second, rfl⟩, by simpa using third, by simp⟩

theorem insertRun_fresh {run : RunRow} {goal : GoalRow} {agent : AgentRow}
    (inserted : insertRun run goal agent s = .ok u s') :
    (s .runs).find? run.id = none ∧ (s .goals).find? goal.id = none ∧ (s .agents).find? agent.id = none ∧
      s' .runs = (s .runs).insert run ∧ s' .goals = (s .goals).insert goal ∧
      s' .agents = (s .agents).insert agent := by
  rw [insertRun_ok] at inserted
  obtain ⟨first, second, third, rfl⟩ := inserted
  exact ⟨first.fresh, by simpa using second.fresh, by simpa using third.fresh, by simp, by simp, by simp⟩

/-! Continuations. -/

/-- The Run runs and its current goal is active, so a continuation is due. -/
def Continuing (s : Store) (run : RunRow) : Prop :=
  run.status = .running ∧ ∃ goalId goal, run.currentGoalId = some goalId ∧
    (s .goals).find? goalId = some goal ∧ goal.status = .active

theorem continuableGoal_some {run : Run} {goal : Goal} :
    continuableGoal s run = some goal ↔ run.status = .running ∧ ∃ row, run.currentGoalId = some row.id ∧
      (s .goals).find? row.id = some row ∧ goal = row.toGoal ∧ row.status = .active := by
  unfold continuableGoal
  split
  next running =>
    simp only [running, true_and, Option.filter_eq_some_iff, Option.bind_eq_some_iff, getGoal, Option.map_eq_some_iff]
    constructor
    · rintro ⟨⟨goalId, current, row, found, rfl⟩, continued⟩
      obtain rfl := (Keyed.find?_eq_some.mp found).2
      exact ⟨row, current, found, rfl, by simpa [shouldContinueGoal] using continued⟩
    · rintro ⟨row, current, found, rfl, active⟩
      exact ⟨⟨row.id, current, row, found, rfl⟩, by simp [shouldContinueGoal, active]⟩
  next stopped => simp [stopped]

def newAction (runId : RunId) (now : IsoTimestamp) : ScheduledActionRow :=
  { runId := runId, dueAt := now, status := .pending, createdAt := now, updatedAt := now }

/-- The store with a continuation for the Run; one that is there stays as it is. -/
def withAction (s : Store) (runId : RunId) (now : IsoTimestamp) : Store :=
  s.set .scheduledActions ((s .scheduledActions).insert (newAction runId now))

private theorem insertAction_ok {runId : RunId} {run : RunRow} (found : (s .runs).find? runId = some run) :
    insertOrIgnoreInto .scheduledActions (newAction runId now) s = .ok u s' ↔ s' = withAction s runId now := by
  rw [insertOrIgnore_ok]
  by_cases taken : ((s .scheduledActions).find? runId).isSome
  · have same : withAction s runId now = s := by
      rw [withAction, Keyed.insert_taken taken, Db.set_current]
    have refused : ¬ schema.Admits s .scheduledActions (newAction runId now) := fun admitted => by
      have fresh : (s .scheduledActions).find? runId = none := admitted.fresh
      simp [fresh] at taken
    simp only [refused, false_and, or_false, same]
    exact ⟨fun both => both.2, fun left => ⟨taken, left⟩⟩
  · have free : (s .scheduledActions).find? (key .scheduledActions (newAction runId now)) = none :=
      Option.not_isSome_iff_eq_none.mp taken
    have admitted : schema.Admits s .scheduledActions (newAction runId now) :=
      ⟨free, by simp [schema, clash], by simp [schema, references, Store.has, newAction, found]⟩
    constructor
    · rintro (⟨impossible, -⟩ | ⟨-, left⟩)
      · simp [free] at impossible
      · exact left
    · exact fun left => .inr ⟨admitted, left⟩

theorem ensureContinuationInternal_ok {runId : RunId} :
    ensureContinuationInternal runId now s = .ok u s' ↔
      ∃ run, (s .runs).find? runId = some run ∧
        ((Continuing s run ∧ s' = withAction s runId now) ∨
          (¬ Continuing s run ∧ s' = s ∧
            ∀ goalId, run.status = .running → run.currentGoalId = some goalId →
              ∃ goal, (s .goals).find? goalId = some goal)) := by
  cases found : (s .runs).find? runId with
  | none => simp [ensureContinuationInternal, found]
  | some run =>
    simp only [ensureContinuationInternal, bind_ok, mustRun_ok, found, Option.some.injEq, onlyIf_ok]
    constructor
    · rintro ⟨_, _, ⟨_, rfl, rfl, rfl⟩, ⟨running, rest⟩ | ⟨still, rfl⟩⟩
      · refine ⟨run, rfl, ?_⟩
        rcases given_ok.mp rest with ⟨absent, rfl⟩ | ⟨goalId, current, rest⟩
        · refine .inr ⟨?_, rfl, fun _ _ given => by simp [absent] at given⟩
          rintro ⟨_, _, _, given, _⟩
          simp [absent] at given
        · simp only [bind_ok, mustGoal_ok, onlyIf_ok] at rest
          obtain ⟨_, _, ⟨goal, stored, rfl, rfl⟩, ⟨continued, rest⟩ | ⟨stopped, rfl⟩⟩ := rest
          · exact .inl ⟨⟨running, goalId, goal, current, stored, by simpa [shouldContinueGoal] using continued⟩,
              (insertAction_ok found).mp rest⟩
          · refine .inr ⟨?_, rfl, fun other _ given => ?_⟩
            · rintro ⟨-, other, active, given, kept, status⟩
              obtain rfl : goalId = other := Option.some.inj (current.symm.trans given)
              obtain rfl : goal = active := Option.some.inj (stored.symm.trans kept)
              exact stopped (by simp [shouldContinueGoal, status])
            · obtain rfl : goalId = other := Option.some.inj (current.symm.trans given)
              exact ⟨goal, stored⟩
      · exact ⟨run, rfl, .inr ⟨fun continuing => still continuing.1, rfl, fun _ running => absurd running still⟩⟩
    · rintro ⟨_, rfl, ⟨⟨running, goalId, goal, current, stored, active⟩, rfl⟩ | ⟨stopped, rfl, known⟩⟩
      · refine ⟨_, _, ⟨run, rfl, rfl, rfl⟩, .inl ⟨running, given_ok.mpr (.inr ⟨goalId, current, ?_⟩)⟩⟩
        simp only [bind_ok, mustGoal_ok, onlyIf_ok]
        exact ⟨_, _, ⟨goal, stored, rfl, rfl⟩, .inl ⟨by simp [shouldContinueGoal, active], (insertAction_ok found).mpr rfl⟩⟩
      · refine ⟨_, _, ⟨run, rfl, rfl, rfl⟩, ?_⟩
        by_cases running : run.status = .running
        · refine .inl ⟨running, given_ok.mpr ?_⟩
          cases current : run.currentGoalId with
          | none => exact .inl ⟨rfl, rfl⟩
          | some goalId =>
            obtain ⟨goal, stored⟩ := known goalId running current
            refine .inr ⟨goalId, rfl, ?_⟩
            simp only [bind_ok, mustGoal_ok, onlyIf_ok]
            refine ⟨_, _, ⟨goal, stored, rfl, rfl⟩, .inr ⟨fun continued => stopped ?_, rfl⟩⟩
            exact ⟨running, goalId, goal, current, stored, by simpa [shouldContinueGoal] using continued⟩
        · exact .inr ⟨running, rfl⟩

end OttiliCoder
