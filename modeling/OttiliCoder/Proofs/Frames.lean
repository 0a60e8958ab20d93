import OttiliCoder.Proofs.Effects

/-! What effects leave alone: the tables each kind writes, and how the rows of
Runs, Goals and Agents change. -/

namespace OttiliCoder
open Relational Transaction

def Kind.writes : Kind → Table → Bool
  | .ledger table, t => t == table
  | .tasks, t => t == .tasks
  | .journal _, t | .event _, t | .transition _, t => t == .runs || t == .runEvents
  | .ensured, t | .claimed, t | .settled, t => t == .scheduledActions
  | .counters, t => t == .runs
  | .goalStatus _, t => t == .goals || t == .runs || t == .runEvents
  | .goalCounter, t => t == .goals
  | .agentStatus _, t => t == .agents || t == .runs || t == .runEvents
  | .agentStamp, t | .spawned, t => t == .agents
  | .created, t => t == .runs || t == .goals || t == .agents
  | .leases, t => t == .runLeases

/-- The type of the event an effect of a kind journals, if it journals one. -/
def Kind.eventType : Kind → Option RunEventType
  | .journal type | .event type => some type
  | .transition _ => some .runStatusChanged
  | .goalStatus _ => some .goalStatusChanged
  | .agentStatus _ => some .agentStatusChanged
  | _ => none

section Rows
variable {s s' : Store} {t : Table}

theorem journaled_other {row : RunEventRow} (runs : t ≠ .runs) (events : t ≠ .runEvents) :
    journaled s row t = s t := by
  rw [journaled, Db.set_other _ _ runs, Db.set_other _ _ events]

theorem journaled_runs {row : RunEventRow} {runId : RunId} :
    ((journaled s row) .runs).find? runId = ((s .runs).find? runId).map fun run =>
      if run.id == row.runId then
        { run with nextSequence := row.seq, revision := run.revision + 1, updatedAt := row.createdAt }
      else run := by
  rw [journaled, Db.set_same, Keyed.find?_update]

theorem journaled_events {row : RunEventRow} : (journaled s row) .runEvents = (s .runEvents).insert row := by
  rw [journaled, Db.set_other _ _ (by simp), Db.set_same]

theorem appended_other {runId : RunId} {type : RunEventType} {payload : JsonObject} {now : IsoTimestamp}
    {leaseGeneration : Option Nat} {event : RunEvent}
    (appended : appendEventInternal runId type payload now leaseGeneration s = .ok event s')
    (runs : t ≠ .runs) (events : t ≠ .runEvents) : s' t = s t := by
  obtain ⟨run, -, -, -, rfl⟩ := appendEventInternal_ok.mp appended
  exact journaled_other runs events

theorem ensured_other {runId : RunId} {now : IsoTimestamp}
    (moved : ensureContinuationInternal runId now s = .ok () s') (other : t ≠ .scheduledActions) : s' t = s t := by
  obtain ⟨run, -, ⟨-, rfl⟩ | ⟨-, rfl, -⟩⟩ := ensureContinuationInternal_ok.mp moved
  · rw [withAction, Db.set_other _ _ other]
  · rfl

theorem transitionRun_other {runId : RunId} {target : RunStatus} {now : IsoTimestamp} {reason : Option String}
    (moved : transitionRunInternal runId target now reason s = .ok () s')
    (runs : t ≠ .runs) (events : t ≠ .runEvents) : s' t = s t := by
  obtain ⟨run, event, -, -, appended⟩ := transitionRunInternal_ok.mp moved
  rw [appended_other appended runs events, withRunStatus, Db.set_other _ _ runs]

theorem transitionAgent_other {agentId : AgentId} {target : AgentStatus} {now : IsoTimestamp}
    {leaseGeneration : Option Nat} {agent : Agent}
    (moved : transitionAgentInternal agentId target now leaseGeneration s = .ok agent s')
    (agents : t ≠ .agents) (runs : t ≠ .runs) (events : t ≠ .runEvents) : s' t = s t := by
  obtain ⟨row, event, -, -, appended, -⟩ := transitionAgentInternal_ok.mp moved
  rw [appended_other appended runs events, withAgentStatus, Db.set_other _ _ agents]

end Rows

section Frame
variable {k : Kind} {s s' : Store} {t : Table} {touched : RunId → Prop} {kinds : Kind → Prop}

theorem ledger_apart (plain : isLedger t = true) {core : Table} (other : isLedger core = false) :
    (Kind.ledger t).writes core = false := by
  refine beq_eq_false_iff_ne.mpr fun same => ?_
  subst same
  rw [plain] at other
  cases other

theorem Effect.frame (effect : Effect k s s') (apart : k.writes t = false) : s' t = s t := by
  cases effect with
  | ledger _ | tasks | counters _ | goalCounter _ | agentStamp _ | spawned _ _ _ | claimed | settled | leases _ =>
    exact Db.set_other _ _ (by simpa [Kind.writes] using apart)
  | created inserted =>
    simp only [Kind.writes, Bool.or_eq_false_iff, beq_eq_false_iff_ne] at apart
    obtain ⟨-, -, -, rfl⟩ := insertRun_ok.mp inserted
    rw [Db.set_other _ _ apart.2, Db.set_other _ _ apart.1.2, Db.set_other _ _ apart.1.1]
  | journal _ appended | event appended =>
    simp only [Kind.writes, Bool.or_eq_false_iff, beq_eq_false_iff_ne] at apart
    exact appended_other appended apart.1 apart.2
  | transition moved =>
    simp only [Kind.writes, Bool.or_eq_false_iff, beq_eq_false_iff_ne] at apart
    exact transitionRun_other moved apart.1 apart.2
  | ensured moved => exact ensured_other moved (by simpa [Kind.writes] using apart)
  | goalStatus _ _ _ _ _ appended =>
    simp only [Kind.writes, Bool.or_eq_false_iff, beq_eq_false_iff_ne] at apart
    rw [appended_other appended apart.1.2 apart.2, Db.set_other _ _ apart.1.1]
  | agentStatus moved =>
    simp only [Kind.writes, Bool.or_eq_false_iff, beq_eq_false_iff_ne] at apart
    exact transitionAgent_other moved apart.1.1 apart.1.2 apart.2

theorem Moves.frame (moves : Moves touched kinds s s') (apart : ∀ k, kinds k → k.writes t = false) : s' t = s t := by
  induction moves with
  | refl => rfl
  | tail _ last ih =>
    obtain ⟨⟨k, can, effect⟩, -⟩ := last
    exact (effect.frame (apart k can)).trans ih

end Frame

/-! How the rows of Runs, Goals and Agents change. -/

/-- What can become of the row under one key: it is kept, or a fresh one is added. -/
inductive RowStep {ρ : Type} (kept : ρ → ρ → Prop) (fresh : ρ → Prop) : Option ρ → Option ρ → Prop
  | absent : RowStep kept fresh none none
  | fresh {row : ρ} (new : fresh row) : RowStep kept fresh none (some row)
  | kept {row row' : ρ} (same : kept row row') : RowStep kept fresh (some row) (some row')

/-- A Run keeps its goal, its journal only grows, and its status only moves along
an edge, to the target of the transition. -/
structure RunKept (k : Kind) (run run' : RunRow) : Prop where
  goal : run'.currentGoalId = run.currentGoalId
  sequence : run.nextSequence ≤ run'.nextSequence
  status : run'.status = run.status ∨ k = .transition run'.status ∧ canTransitionRun run.status run'.status = true
  budget : run'.budget = run.budget
  usage : run'.usage = run.usage ∨ k = .counters

structure GoalKept (k : Kind) (goal goal' : GoalRow) : Prop where
  run : goal'.runId = goal.runId
  status : goal'.status = goal.status ∨
    k = .goalStatus goal'.status ∧ canTransitionGoal goal.status goal'.status = true

structure AgentKept (k : Kind) (agent agent' : AgentRow) : Prop where
  run : agent'.runId = agent.runId
  status : agent'.status = agent.status ∨
    k = .agentStatus agent'.status ∧ canTransitionAgent agent.status agent'.status = true

section Steps
variable {k : Kind} {s s' : Store}

theorem RowStep.same {ρ : Type} {kept : ρ → ρ → Prop} {fresh : ρ → Prop} (refl : ∀ row, kept row row)
    (found : Option ρ) : RowStep kept fresh found found := by
  cases found with
  | none => exact .absent
  | some row => exact .kept (refl row)

theorem RowStep.map {ρ : Type} {kept : ρ → ρ → Prop} {fresh : ρ → Prop} {f : ρ → ρ} {found : Option ρ}
    (rewritten : ∀ row, found = some row → kept row (f row)) : RowStep kept fresh found (found.map f) := by
  cases found with
  | none => exact .absent
  | some row => exact .kept (rewritten row rfl)

theorem RowStep.earlier {ρ : Type} {kept : ρ → ρ → Prop} {fresh : ρ → Prop} {first last : Option ρ} {row' : ρ}
    (step : RowStep kept fresh first last) (found : last = some row') :
    (first = none ∧ fresh row') ∨ ∃ row, first = some row ∧ kept row row' := by
  cases step with
  | absent => cases found
  | fresh new => cases found; exact .inl ⟨rfl, new⟩
  | kept same => cases found; exact .inr ⟨_, rfl, same⟩

theorem RowStep.later {ρ : Type} {kept : ρ → ρ → Prop} {fresh : ρ → Prop} {first last : Option ρ} {row : ρ}
    (step : RowStep kept fresh first last) (found : first = some row) : ∃ row', last = some row' ∧ kept row row' := by
  cases step with
  | absent => cases found
  | fresh new => cases found
  | kept same => cases found; exact ⟨_, rfl, same⟩

theorem RunKept.refl (run : RunRow) : RunKept k run run := ⟨rfl, Nat.le_refl _, .inl rfl, rfl, .inl rfl⟩
theorem GoalKept.refl (goal : GoalRow) : GoalKept k goal goal := ⟨rfl, .inl rfl⟩
theorem AgentKept.refl (agent : AgentRow) : AgentKept k agent agent := ⟨rfl, .inl rfl⟩

theorem RunKept.journaled {run run' run'' : RunRow} (kept : RunKept k run run')
    (later : RunKept .ensured run' run'') : RunKept k run run'' := by
  have same : run''.status = run'.status := by simpa using later.status
  have usage : run''.usage = run'.usage := by simpa using later.usage
  exact ⟨later.goal.trans kept.goal, kept.sequence.trans later.sequence, same ▸ kept.status,
    later.budget.trans kept.budget, usage ▸ kept.usage⟩

theorem RowStep.journaled {fresh : RunRow → Prop} {first middle last : Option RunRow}
    (step : RowStep (RunKept k) (fun _ => False) first middle)
    (later : RowStep (RunKept .ensured) (fun _ => False) middle last) : RowStep (RunKept k) fresh first last := by
  cases step with
  | absent =>
    cases later with
    | absent => exact .absent
    | fresh impossible => exact impossible.elim
  | fresh impossible => exact impossible.elim
  | kept earlier =>
    cases later with
    | kept same => exact .kept (earlier.journaled same)

theorem appended_runs {fresh : RunRow → Prop} {runId : RunId} {type : RunEventType} {payload : JsonObject}
    {now : IsoTimestamp} {leaseGeneration : Option Nat} {event : RunEvent}
    (appended : appendEventInternal runId type payload now leaseGeneration s = .ok event s') (id : RunId) :
    RowStep (RunKept k) fresh ((s .runs).find? id) ((s' .runs).find? id) := by
  obtain ⟨run, found, -, -, rfl⟩ := appendEventInternal_ok.mp appended
  rw [journaled_runs]
  refine .map fun other stored => ?_
  split
  next same =>
    have equal : other = run := Keyed.eq_of_key (Keyed.find?_eq_some.mp stored).1
      (Keyed.find?_eq_some.mp found).1 (eq_of_beq same)
    subst equal
    exact ⟨rfl, Nat.le_succ _, .inl rfl, rfl, .inl rfl⟩
  next => exact .refl other

theorem Effect.runs (effect : Effect k s s') (id : RunId) :
    RowStep (RunKept k) (fun run => k = .created ∧ run.status = .queued ∧ run.usage = emptyBudgetUsage)
      ((s .runs).find? id) ((s' .runs).find? id) := by
  by_cases apart : k.writes .runs = false
  · rw [effect.frame apart]
    exact .same .refl _
  cases effect with
  | journal _ appended | event appended => exact appended_runs appended id
  | counters same =>
    rw [Db.set_same, Keyed.find?_update]
    refine .map fun run _ => ?_
    split
    next =>
      obtain ⟨status, goal, sequence, budget⟩ := same run
      exact ⟨goal, sequence.ge, .inl status, budget, .inr rfl⟩
    next => exact .refl run
  | transition moved =>
    obtain ⟨run, event, found, edge, appended⟩ := transitionRunInternal_ok.mp moved
    refine RowStep.journaled ?_ (appended_runs appended id)
    rw [withRunStatus, Db.set_same, Keyed.find?_update]
    refine .map fun other stored => ?_
    split
    next same =>
      have equal : other = run := Keyed.eq_of_key (Keyed.find?_eq_some.mp stored).1
        (Keyed.find?_eq_some.mp found).1 ((eq_of_beq same).trans (Keyed.find?_eq_some.mp found).2.symm)
      subst equal
      exact ⟨rfl, Nat.le_refl _, .inr ⟨rfl, edge⟩, rfl, .inl rfl⟩
    next => exact .refl other
  | goalStatus _ _ _ _ _ appended =>
    have later : RowStep (RunKept .ensured) (fun _ => False) _ _ := appended_runs appended id
    rw [Db.set_other _ _ (by simp)] at later
    exact RowStep.journaled (.same .refl _) later
  | agentStatus moved =>
    obtain ⟨row, event, -, -, appended, -⟩ := transitionAgentInternal_ok.mp moved
    have later : RowStep (RunKept .ensured) (fun _ => False) _ _ := appended_runs appended id
    rw [withAgentStatus, Db.set_other _ _ (by simp)] at later
    exact RowStep.journaled (.same .refl _) later
  | created inserted status _ _ _ _ _ unspent =>
    obtain ⟨fresh, -, -, runs, -, -⟩ := insertRun_fresh inserted
    rw [runs, Keyed.find?_insert fresh]
    split
    next same =>
      subst same
      rw [fresh]
      exact .fresh ⟨rfl, status, unspent⟩
    next => exact .same .refl _
  | ledger plain => exact absurd (ledger_apart plain rfl) apart
  | _ => exact absurd rfl apart

theorem Effect.goals (effect : Effect k s s') (id : GoalId) :
    RowStep (GoalKept k) (fun goal => k = .created ∧ goal.status = .active) ((s .goals).find? id)
      ((s' .goals).find? id) := by
  by_cases apart : k.writes .goals = false
  · rw [effect.frame apart]
    exact .same .refl _
  cases effect with
  | goalStatus found chosen edge _ sets appended =>
    rw [appended_other appended (by simp) (by simp), Db.set_same, Keyed.find?_update]
    refine .map fun other stored => ?_
    split
    next picked =>
      obtain rfl := (chosen other (Keyed.find?_eq_some.mp stored).1).mp picked
      refine ⟨(sets other).2, .inr ?_⟩
      rw [(sets other).1]
      exact ⟨rfl, edge⟩
    next => exact .refl other
  | goalCounter same =>
    rw [Db.set_same, Keyed.find?_update]
    refine .map fun goal _ => ?_
    split
    next => exact ⟨(same goal).2, .inl (same goal).1⟩
    next => exact .refl goal
  | created inserted _ _ _ active =>
    obtain ⟨-, fresh, -, -, goals, -⟩ := insertRun_fresh inserted
    rw [goals, Keyed.find?_insert fresh]
    split
    next same =>
      subst same
      rw [fresh]
      exact .fresh ⟨rfl, active⟩
    next => exact .same .refl _
  | ledger plain => exact absurd (ledger_apart plain rfl) apart
  | _ => exact absurd rfl apart

theorem Effect.agents (effect : Effect k s s') (id : AgentId) :
    RowStep (AgentKept k) (fun agent => k = .created ∧ agent.status = .queued ∨ k = .spawned ∧ agent.status = .created)
      ((s .agents).find? id) ((s' .agents).find? id) := by
  by_cases apart : k.writes .agents = false
  · rw [effect.frame apart]
    exact .same .refl _
  cases effect with
  | agentStatus moved =>
    obtain ⟨row, event, found, edge, appended, -⟩ := transitionAgentInternal_ok.mp moved
    rw [appended_other appended (by simp) (by simp), withAgentStatus, Db.set_same, Keyed.find?_update]
    refine .map fun other stored => ?_
    split
    next same =>
      have equal : other = row := Keyed.eq_of_key (Keyed.find?_eq_some.mp stored).1
        (Keyed.find?_eq_some.mp found).1 ((eq_of_beq same).trans (Keyed.find?_eq_some.mp found).2.symm)
      subst equal
      exact ⟨rfl, .inr ⟨rfl, edge⟩⟩
    next => exact .refl other
  | agentStamp same =>
    rw [Db.set_same, Keyed.find?_update]
    refine .map fun agent _ => ?_
    split
    next => exact ⟨(same agent).2, .inl (same agent).1⟩
    next => exact .refl agent
  | spawned fresh status =>
    rw [Db.set_same, Keyed.find?_insert fresh]
    split
    next same =>
      subst same
      rw [fresh]
      exact .fresh (.inr ⟨rfl, status⟩)
    next => exact .same .refl _
  | created inserted _ _ _ _ _ queued =>
    obtain ⟨-, -, fresh, -, -, agents⟩ := insertRun_fresh inserted
    rw [agents, Keyed.find?_insert fresh]
    split
    next same =>
      subst same
      rw [fresh]
      exact .fresh (.inl ⟨rfl, queued⟩)
    next => exact .same .refl _
  | ledger plain => exact absurd (ledger_apart plain rfl) apart
  | _ => exact absurd rfl apart

end Steps

section Chains
variable {s s' : Store} {touched : RunId → Prop} {kinds : Kind → Prop}

/-- No effect but a creation gives a Run another goal. -/
theorem Moves.currentGoal {id : RunId} {run' : RunRow} (moves : Moves touched kinds s s') (old : ¬ kinds .created)
    (found : (s' .runs).find? id = some run') :
    ∃ run, (s .runs).find? id = some run ∧ run.currentGoalId = run'.currentGoalId := by
  induction moves generalizing run' with
  | refl => exact ⟨run', found, rfl⟩
  | tail _ last ih =>
    obtain ⟨⟨k, can, effect⟩, -⟩ := last
    rcases (effect.runs id).earlier found with ⟨-, new⟩ | ⟨run, earlier, same⟩
    · exact absurd (new.1 ▸ can) old
    · obtain ⟨first, stored, goal⟩ := ih earlier
      exact ⟨first, stored, goal.trans same.goal.symm⟩

end Chains

end OttiliCoder
