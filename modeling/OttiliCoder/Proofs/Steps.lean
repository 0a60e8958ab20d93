import OttiliCoder.Proofs.Effects

/-! The effects of the statements and shared steps that operations are written in. -/

namespace OttiliCoder
open Relational Transaction

/-! Whom a row that was looked up belongs to. -/

section Lookups
variable {touched : RunId → Prop} {s s' : Store}

theorem mustTask_owned {taskId : TaskId} {task : Task} (got : mustTask taskId s = .ok task s') :
    Owned touched s (.through .tasks taskId) ↔ touched task.runId := by
  obtain ⟨row, found, rfl, -⟩ := mustTask_ok.mp got
  exact owned_iff found rfl

theorem mustTask_id {taskId : TaskId} {task : Task} (got : mustTask taskId s = .ok task s') : task.id = taskId := by
  obtain ⟨row, found, rfl, -⟩ := mustTask_ok.mp got
  exact (Keyed.find?_eq_some.mp found).2

theorem mustAgent_id {agentId : AgentId} {agent : Agent} (got : mustAgent agentId s = .ok agent s') :
    agent.id = agentId := by
  obtain ⟨row, found, rfl, -⟩ := mustAgent_ok.mp got
  exact (Keyed.find?_eq_some.mp found).2

/-- A session epoch belongs to the Run of its agent. -/
theorem epoch_owned {epoch : SessionEpochRow} (mine : ∀ runId, epochRun s epoch.id = some runId → touched runId)
    (member : epoch ∈ s .sessionEpochs) : Owned touched s (.through .agents epoch.agentId) := by
  refine Owned.through fun row runId found direct => mine runId ?_
  have stored : (s .sessionEpochs).find? epoch.id = some epoch := Keyed.find?_key member
  simp only [epochRun, stored, Option.bind_some, found, Option.map_some]
  exact direct

end Lookups

/-- The kinds of effect an operation may have include this one. -/
class Allows (kinds : Kind → Prop) (kind : Kind) : Prop where
  allowed : kinds kind

instance {kind : Kind} : Allows (fun _ => True) kind := ⟨trivial⟩

instance {kind : Kind} {rest : List Kind} : Allows (· ∈ kind :: rest) kind := ⟨List.mem_cons_self⟩

instance {kind other : Kind} {rest : List Kind} [listed : Allows (· ∈ rest) kind] : Allows (· ∈ other :: rest) kind :=
  ⟨List.mem_cons_of_mem other listed.allowed⟩

section Statements
variable {touched : RunId → Prop} {kinds : Kind → Prop} {s : Store} {t : Table}

theorem insert_moves {row : Row t} (admitted : schema.Admits s t row) (owned : Owned touched s (owner t row))
    (plain : isLedger t = true) (can : kinds (.ledger t)) :
    Moves touched kinds s (s.set t ((s t).insert row)) :=
  .one can (.ledger plain) (.insert admitted.fresh owned)

theorem yields_insert {row : Row t} [can : Allows kinds (.ledger t)] (plain : isLedger t = true)
    (owned : Owned touched s (owner t row)) :
    Yields (Moves touched kinds) (insertInto t row) s fun _ s' =>
      schema.Admits s t row ∧ s' = s.set t ((s t).insert row) :=
  Yields.insert fun admitted => insert_moves admitted owned plain can.allowed

theorem within_insert {row : Row t} [can : Allows kinds (.ledger t)] (plain : isLedger t = true)
    (owned : Owned touched s (owner t row)) :
    Within (Moves touched kinds) (insertInto t row) s :=
  Within.insert fun admitted => insert_moves admitted owned plain can.allowed

theorem yields_insertOrIgnore {row : Row t} [can : Allows kinds (.ledger t)] (plain : isLedger t = true)
    (owned : Owned touched s (owner t row)) :
    Yields (Moves touched kinds) (insertOrIgnoreInto t row) s fun _ _ => True :=
  (Yields.insertOrIgnore fun admitted => insert_moves admitted owned plain can.allowed).plain

theorem update_moves {selected : Row t → Bool} {f : Row t → Row t} {keeps : ∀ row, key t (f row) = key t row}
    (owned : ∀ row ∈ s t, selected row = true → Owned touched s (owner t row))
    (same : ∀ row, owner t (f row) = owner t row) (plain : isLedger t = true) (can : kinds (.ledger t)) :
    Moves touched kinds s (s.set t ((s t).update selected f keeps)) :=
  .one can (.ledger plain) (.update owned same)

theorem yields_update {selected : Row t → Bool} {f : Row t → Row t} {keeps : ∀ row, key t (f row) = key t row}
    [can : Allows kinds (.ledger t)] (plain : isLedger t = true) (same : ∀ row, owner t (f row) = owner t row)
    (owned : ∀ row ∈ s t, selected row = true → Owned touched s (owner t row)) :
    Yields (Moves touched kinds) (updateRows t selected f keeps) s fun _ _ => True :=
  (Yields.update (update_moves owned same plain can.allowed)).plain

theorem yields_delete {removed : Row t → Bool}
    [can : Allows kinds (.ledger t)] (plain : isLedger t = true)
    (owned : ∀ row ∈ s t, removed row = true → Owned touched s (owner t row)) :
    Yields (Moves touched kinds) (deleteRows t removed) s fun _ _ => True :=
  (Yields.delete (.one can.allowed (.ledger plain) (.delete owned))).plain

end Statements

/-! Tasks, agents, goals, counters and continuations. -/

section Core
variable {touched : RunId → Prop} {kinds : Kind → Prop} {s : Store}

theorem yields_insertTask {task : TaskRow} (mine : touched task.runId) [can : Allows kinds .tasks] :
    Yields (Moves touched kinds) (insertInto .tasks task) s fun _ s' =>
      schema.Admits s .tasks task ∧ s' = s.set .tasks ((s .tasks).insert task) :=
  Yields.insert fun admitted => .one can.allowed .tasks (.insert admitted.fresh (.run mine))

theorem yields_updateTasks {selected : TaskRow → Bool} {f : TaskRow → TaskRow} {keeps : ∀ row, (f row).id = row.id}
    (same : ∀ row, (f row).runId = row.runId) (mine : ∀ row ∈ s .tasks, selected row = true → touched row.runId)
    [can : Allows kinds .tasks] :
    Yields (Moves touched kinds) (updateRows .tasks selected f keeps) s fun _ s' =>
      s' = s.set .tasks ((s .tasks).update selected f keeps) :=
  Yields.update (.one can.allowed .tasks (.update (fun row member chosen => .run (mine row member chosen))
    fun row => congrArg Owner.run (same row)))

theorem yields_stampAgents {selected : AgentRow → Bool} {f : AgentRow → AgentRow}
    {keeps : ∀ row, (f row).id = row.id} (same : ∀ row, (f row).status = row.status ∧ (f row).runId = row.runId)
    (mine : ∀ row ∈ s .agents, selected row = true → touched row.runId)
    [can : Allows kinds .agentStamp] :
    Yields (Moves touched kinds) (updateRows .agents selected f keeps) s fun _ _ => True :=
  (Yields.update (.one can.allowed (.agentStamp same) (.update (fun row member chosen => .run (mine row member chosen))
    fun row => congrArg Owner.run (same row).2))).plain

theorem yields_counters {selected : RunRow → Bool} {f : RunRow → RunRow} {keeps : ∀ row, (f row).id = row.id}
    (same : ∀ row, (f row).status = row.status ∧ (f row).currentGoalId = row.currentGoalId ∧
      (f row).nextSequence = row.nextSequence ∧ (f row).budget = row.budget)
    (mine : ∀ row ∈ s .runs, selected row = true → touched row.id)
    [can : Allows kinds .counters] :
    Yields (Moves touched kinds) (updateRows .runs selected f keeps) s fun _ s' =>
      s' = s.set .runs ((s .runs).update selected f keeps) :=
  Yields.update (.one can.allowed (.counters same) (.update (fun row member chosen => .run (mine row member chosen))
    fun row => congrArg Owner.run (keeps row)))

theorem yields_claimActions {selected : ScheduledActionRow → Bool}
    {f : ScheduledActionRow → ScheduledActionRow} {keeps : ∀ row, (f row).runId = row.runId}
    (mine : ∀ row ∈ s .scheduledActions, selected row = true → touched row.runId)
    [can : Allows kinds .claimed] :
    Yields (Moves touched kinds) (updateRows .scheduledActions selected f keeps) s fun _ _ => True :=
  (Yields.update (.one can.allowed .claimed (.update (fun row member chosen => .run (mine row member chosen))
    fun row => congrArg Owner.run (keeps row)))).plain

theorem yields_settleActions {removed : ScheduledActionRow → Bool}
    (mine : ∀ row ∈ s .scheduledActions, removed row = true → touched row.runId)
    [can : Allows kinds .settled] :
    Yields (Moves touched kinds) (deleteRows .scheduledActions removed) s fun _ s' =>
      s' = s.set .scheduledActions ((s .scheduledActions).filter fun row => !removed row) :=
  Yields.delete (.one can.allowed .settled (.delete fun row member gone => .run (mine row member gone)))

theorem yields_countGoals {selected : GoalRow → Bool} {f : GoalRow → GoalRow} {keeps : ∀ row, (f row).id = row.id}
    (same : ∀ row, (f row).status = row.status ∧ (f row).runId = row.runId)
    (mine : ∀ row ∈ s .goals, selected row = true → touched row.runId)
    [can : Allows kinds .goalCounter] :
    Yields (Moves touched kinds) (updateRows .goals selected f keeps) s fun _ _ => True :=
  (Yields.update (.one can.allowed (.goalCounter same) (.update (fun row member chosen => .run (mine row member chosen))
    fun row => congrArg Owner.run (same row).2))).plain

/-! New Runs, Goals, Agents and leases. -/

theorem yields_spawn {agent : AgentRow} (status : agent.status = .created) (mine : touched agent.runId)
    [can : Allows kinds .spawned] :
    Yields (Moves touched kinds) (insertInto .agents agent) s fun _ s' =>
      schema.Admits s .agents agent ∧ s' = s.set .agents ((s .agents).insert agent) :=
  Yields.insert fun admitted => .one can.allowed
    (.spawned admitted.fresh status (Bool.and_eq_true_iff.mp admitted.present).1) (.insert admitted.fresh (.run mine))

theorem yields_insertRun {run : RunRow} {goal : GoalRow} {agent : AgentRow} (mine : touched run.id)
    (home : goal.runId = run.id) (coordinates : agent.runId = run.id) (current : run.currentGoalId = some goal.id)
    (status : run.status = .queued) (active : goal.status = .active) (queued : agent.status = .queued)
    (unspent : run.usage = emptyBudgetUsage) (silent : run.nextSequence = 0) [can : Allows kinds .created] :
    Yields (Moves touched kinds) (insertRun run goal agent) s fun _ s' =>
      (s' .agents).find? agent.id = some agent := by
  intro _ s' inserted
  obtain ⟨first, second, third, rfl⟩ := insertRun_ok.mp inserted
  have runs : SameReport touched s (s.set .runs ((s .runs).insert run)) := .insert first.fresh (.run mine)
  have goals : SameReport touched _ _ := .insert second.fresh (.run (home ▸ mine))
  have agents : SameReport touched _ _ := .insert third.fresh (.run (coordinates ▸ mine))
  refine ⟨.one can.allowed (.created inserted status current home active coordinates queued unspent silent)
    (IsTrans.trans _ _ _ runs (IsTrans.trans _ _ _ goals ?_)), ?_⟩
  · simpa using agents
  · obtain ⟨-, -, fresh, -, -, stored⟩ := insertRun_fresh inserted
    rw [stored, Keyed.find?_insert fresh]
    simp

theorem yields_insertLease {lease : RunLeaseRow} (mine : touched lease.runId)
    [can : Allows kinds .leases] :
    Yields (Moves touched kinds) (insertInto .runLeases lease) s fun _ _ => True := by
  refine (Yields.insert fun admitted => .one can.allowed (.leases fun row member => ?_)
    (.insert admitted.fresh (.run mine))).plain
  rcases (Keyed.mem_insert admitted.fresh).mp member with inside | rfl
  · exact .inl ⟨row, inside, rfl⟩
  · exact .inr admitted.present

theorem yields_updateLeases {selected : RunLeaseRow → Bool} {f : RunLeaseRow → RunLeaseRow}
    {keeps : ∀ row, (f row).runId = row.runId}
    (mine : ∀ row ∈ s .runLeases, selected row = true → touched row.runId)
    [can : Allows kinds .leases] :
    Yields (Moves touched kinds) (updateRows .runLeases selected f keeps) s fun _ _ => True := by
  refine (Yields.update (.one can.allowed (.leases fun row member => ?_)
    (.update (fun row member chosen => .run (mine row member chosen)) fun row => congrArg Owner.run (keeps row)))).plain
  obtain ⟨old, inside, rfl⟩ := Keyed.mem_update.mp member
  refine .inl ⟨old, inside, ?_⟩
  split
  next => exact (keeps old).symm
  next => rfl

/-! The journal and the transitions. -/

private theorem sameReport_runs {s : Store} {runId : RunId} (mine : touched runId) {f : RunRow → RunRow}
    {keeps : ∀ row, (f row).id = row.id} :
    SameReport touched s (s.set .runs ((s .runs).update (fun run => run.id == runId) f keeps)) :=
  .update (fun row _ chosen => .run (by simpa [eq_of_beq chosen] using mine))
    fun row => congrArg Owner.run (keeps row)

theorem journaled_same {row : RunEventRow} (fresh : (s .runEvents).find? (row.runId, row.seq) = none)
    (mine : touched row.runId) : SameReport touched s (journaled s row) := by
  have inserted : SameReport touched s (s.set .runEvents ((s .runEvents).insert row)) :=
    .insert fresh (.run mine)
  refine IsTrans.trans _ _ _ inserted ?_
  exact sameReport_runs mine

theorem appendEvent_same {s' : Store} {runId : RunId} {type : RunEventType} {payload : JsonObject}
    {now : IsoTimestamp} {leaseGeneration : Option Nat} {event : RunEvent} (mine : touched runId)
    (appended : appendEventInternal runId type payload now leaseGeneration s = .ok event s') :
    SameReport touched s s' := by
  obtain ⟨run, found, fresh, -, rfl⟩ := appendEventInternal_ok.mp appended
  obtain rfl := (Keyed.find?_eq_some.mp found).2
  exact journaled_same fresh mine

theorem yields_journal {runId : RunId} {type : RunEventType} {payload : JsonObject} {now : IsoTimestamp}
    {leaseGeneration : Option Nat} (plain : type.isStatus = false) (mine : touched runId)
    [can : Allows kinds (.journal type)] :
    Yields (Moves touched kinds) (appendEventInternal runId type payload now leaseGeneration) s fun _ _ => True :=
  fun _ _ appended => ⟨.one can.allowed (.journal plain appended) (appendEvent_same mine appended), trivial⟩

theorem yields_event {runId : RunId} {type : RunEventType} {payload : JsonObject} {now : IsoTimestamp}
    {leaseGeneration : Option Nat} (mine : touched runId) [can : Allows kinds (.event type)] :
    Yields (Moves touched kinds) (appendEventInternal runId type payload now leaseGeneration) s fun _ _ => True :=
  fun _ _ appended => ⟨.one can.allowed (.event appended) (appendEvent_same mine appended), trivial⟩

theorem yields_transitionRun {runId : RunId} {target : RunStatus} {now : IsoTimestamp} {reason : Option String}
    (mine : touched runId) [can : Allows kinds (.transition target)] :
    Yields (Moves touched kinds) (transitionRunInternal runId target now reason) s fun _ _ => True := by
  intro _ s' moved
  obtain ⟨run, event, found, edge, appended⟩ := transitionRunInternal_ok.mp moved
  have same : SameReport touched s s' :=
    IsTrans.trans _ _ _ (sameReport_runs mine) (appendEvent_same mine appended)
  exact ⟨.one can.allowed (.transition moved) same, trivial⟩

theorem yields_transitionAgent {agentId : AgentId} {target : AgentStatus} {now : IsoTimestamp}
    {leaseGeneration : Option Nat} (mine : Owned touched s (.through .agents agentId))
    [can : Allows kinds (.agentStatus target)] :
    Yields (Moves touched kinds) (transitionAgentInternal agentId target now leaseGeneration) s
      fun _ _ => True := by
  intro agent s' moved
  obtain ⟨row, event, found, edge, appended, -⟩ := transitionAgentInternal_ok.mp moved
  have home : touched row.runId := mine row.runId (by simp [shown, found, Owner.direct])
  have same : SameReport touched s (withAgentStatus s agentId target now) := by
    refine .update (fun other member chosen => .run ?_) fun _ => rfl
    have equal : other = row := Keyed.eq_of_key member (Keyed.find?_eq_some.mp found).1
      ((eq_of_beq chosen).trans (Keyed.find?_eq_some.mp found).2.symm)
    exact equal ▸ home
  exact ⟨.one can.allowed (.agentStatus moved) (IsTrans.trans _ _ _ same (appendEvent_same home appended)), trivial⟩

theorem yields_ensureContinuation {runId : RunId} {now : IsoTimestamp} (mine : touched runId)
    [can : Allows kinds .ensured] :
    Yields (Moves touched kinds) (ensureContinuationInternal runId now) s fun _ _ => True := by
  intro _ s' moved
  have same : SameReport touched s s' := by
    obtain ⟨run, found, ⟨-, rfl⟩ | ⟨-, rfl, -⟩⟩ := ensureContinuationInternal_ok.mp moved
    · by_cases taken : ((s .scheduledActions).find? runId).isSome
      · rw [withAction, Keyed.insert_taken taken, Db.set_current]
        exact Std.Refl.refl s
      · exact .insert (Option.not_isSome_iff_eq_none.mp taken) (.run mine)
    · exact Std.Refl.refl _
  exact ⟨.one can.allowed (.ensured moved) same, trivial⟩

theorem yields_goalStatus {runId : RunId} {goal : GoalRow} {target : GoalStatus} {now : IsoTimestamp}
    {selected : GoalRow → Bool} {f : GoalRow → GoalRow} {keeps : ∀ goal, (f goal).id = goal.id}
    (sets : ∀ goal, (f goal).status = target ∧ (f goal).runId = goal.runId) (found : (s .goals).find? goal.id = some goal)
    (chosen : ∀ other ∈ s .goals, selected other = true ↔ other = goal)
    (edge : canTransitionGoal goal.status target = true)
    (home : goal.runId = runId ∨ ∃ run, (s .runs).find? runId = some run ∧ run.currentGoalId = some goal.id)
    (mine : touched runId) (owned : touched goal.runId)
    [can : Allows kinds (.goalStatus target)] :
    Yields (Moves touched kinds)
      (updateRows .goals selected f keeps >>= fun _ => appendEventInternal runId .goalStatusChanged
        [("goalId", .string goal.id), ("to", .string target.text)] now) s fun _ _ => True := by
  intro event s' returned
  obtain ⟨_, middle, updated, appended⟩ := bind_ok.mp returned
  obtain rfl := update_ok.mp updated
  have rewritten : SameReport touched s (s.set .goals ((s .goals).update selected f keeps)) :=
    .update (fun other member picked => .run ((chosen other member).mp picked ▸ owned))
      fun other => congrArg Owner.run (sets other).2
  exact ⟨.one can.allowed (.goalStatus found chosen edge home sets appended)
    (IsTrans.trans _ _ _ rewritten (appendEvent_same mine appended)), trivial⟩

/-! The steps several operations share. -/

theorem yields_refreshTaskReadiness {runId : RunId} {now : IsoTimestamp} (mine : touched runId)
    [Allows kinds .tasks]
    [Allows kinds (.journal .taskStatusChanged)] :
    Yields (Moves touched kinds) (refreshTaskReadinessInternal runId now) s fun _ _ => True := by
  unfold refreshTaskReadinessInternal
  refine .read readOnly_selectRows fun pending selected => ?_
  obtain ⟨rfl, -⟩ := select_ok.mp selected
  refine Yields.forM trivial fun row member s₁ moved _ => ?_
  obtain ⟨member, chosen⟩ := List.mem_filter.mp member
  simp only [Bool.and_eq_true, beq_iff_eq] at chosen
  have owned : Owned touched s (.through .tasks row.id) := .of_member (t := .tasks) member fun runId direct => by
    have same : row.runId = runId := by simpa [Owner.direct] using direct
    exact same ▸ chosen.1 ▸ mine
  refine .read .get fun _ _ => ?_
  refine .onlyIf (fun _ => trivial) fun _ => ?_
  refine .seq (yields_updateTasks (fun _ => by rfl) fun other inside same =>
    (moved.owned owned).member inside (eq_of_beq same) rfl).plain fun _ s₂ _ => ?_
  exact .seq (yields_journal rfl mine) fun _ _ _ => .pure trivial

theorem yields_recordUsage {runId : RunId} {delta : BudgetDelta} {now : IsoTimestamp} (mine : touched runId)
    [Allows kinds .counters] [Allows kinds (.transition .budgetLimited)] :
    Yields (Moves touched kinds) (recordUsageInternal runId delta now) s fun _ _ => True := by
  unfold recordUsageInternal
  refine .read readOnly_mustRun fun run got => ?_
  obtain ⟨row, found, rfl, -⟩ := mustRun_ok.mp got
  obtain rfl := (Keyed.find?_eq_some.mp found).2
  refine .read readOnly_assertInvariant fun usage _ => ?_
  refine .read readOnly_assertInvariant fun exhausted _ => ?_
  refine .seq (yields_counters (fun _ => by exact ⟨rfl, rfl, rfl, rfl⟩) fun other _ same => by simpa [eq_of_beq same] using mine).plain fun _ s₁ _ => ?_
  refine .seq (.onlyIf (fun _ => trivial) fun _ => yields_transitionRun mine) fun _ s₂ _ => ?_
  exact readOnly_mustRun.plain

theorem yields_blockRun {runId : RunId} {fingerprint : String} {now : IsoTimestamp} (mine : touched runId)
    (goals : ∀ run goalId, (s .runs).find? runId = some run → run.currentGoalId = some goalId →
      Owned touched s (.through .goals goalId))
    [Allows kinds (.goalStatus .blocked)] [Allows kinds (.transition .blocked)] :
    Yields (Moves touched kinds) (blockRunForProblemInternal runId fingerprint now) s fun _ _ => True := by
  unfold blockRunForProblemInternal
  refine .read readOnly_mustRun fun run got => ?_
  obtain ⟨row, found, rfl, -⟩ := mustRun_ok.mp got
  refine .seq (.given (fun _ => trivial) fun goalId current => ?_) fun _ s₁ _ =>
    .onlyIf (fun _ => trivial) fun _ => yields_transitionRun mine
  refine .read readOnly_mustGoal fun goal got => ?_
  obtain ⟨stored, present, rfl, -⟩ := mustGoal_ok.mp got
  obtain rfl := (Keyed.find?_eq_some.mp present).2
  refine .onlyIf (fun _ => trivial) fun blockable => ?_
  refine (yields_goalStatus (fun _ => by exact ⟨rfl, rfl⟩) present (fun other member => ?_) ?_ (.inr ⟨row, found, current⟩) mine
    ((goals row _ found current).found present rfl)).pair fun _ _ _ _ => .pure trivial
  · exact ⟨fun same => Keyed.eq_of_key member (Keyed.find?_eq_some.mp present).1 (eq_of_beq same),
      fun same => by simp [same]⟩
  · rcases blockable with active | waiting
    · simp [active]
      decide
    · simp [waiting]
      decide

end Core

end OttiliCoder
