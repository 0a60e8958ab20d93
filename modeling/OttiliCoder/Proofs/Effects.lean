import Mathlib.Logic.Relation
import OttiliCoder.Proofs.Lookups
import OttiliCoder.Proofs.Report

/-! The effects store operations are made of. An operation moves the store along a
chain of effects of listed kinds, each reported under touched Runs only. -/

namespace OttiliCoder
open Relational Transaction

/-- The tables that carry no status, lease, journal or continuation. -/
def isLedger : Table → Bool
  | .runs | .goals | .tasks | .agents | .runEvents | .runLeases | .scheduledActions => false
  | _ => true

def RunEventType.isStatus : RunEventType → Bool
  | .runStatusChanged | .goalStatusChanged | .agentStatusChanged => true
  | _ => false

inductive Kind where
  | ledger (t : Table) | tasks | journal (type : RunEventType) | event (type : RunEventType)
  | transition (target : RunStatus) | ensured | counters
  | goalStatus (target : GoalStatus) | goalCounter | agentStatus (target : AgentStatus) | agentStamp | spawned | created
  | claimed | settled | leases
deriving DecidableEq

inductive Effect : Kind → Store → Store → Prop
  | ledger {s : Store} {t : Table} {rows : Keyed (key t)} (plain : isLedger t = true) :
      Effect (.ledger t) s (s.set t rows)
  | tasks {s : Store} {rows : Keyed (key .tasks)} : Effect .tasks s (s.set .tasks rows)
  | journal {s s' : Store} {runId : RunId} {type : RunEventType} {payload : JsonObject} {now : IsoTimestamp}
      {leaseGeneration : Option Nat} {event : RunEvent} (plain : type.isStatus = false)
      (appended : appendEventInternal runId type payload now leaseGeneration s = .ok event s') :
      Effect (.journal type) s s'
  | event {s s' : Store} {runId : RunId} {type : RunEventType} {payload : JsonObject} {now : IsoTimestamp}
      {leaseGeneration : Option Nat} {event : RunEvent}
      (appended : appendEventInternal runId type payload now leaseGeneration s = .ok event s') :
      Effect (.event type) s s'
  | transition {s s' : Store} {runId : RunId} {target : RunStatus} {now : IsoTimestamp} {reason : Option String}
      (moved : transitionRunInternal runId target now reason s = .ok () s') : Effect (.transition target) s s'
  | ensured {s s' : Store} {runId : RunId} {now : IsoTimestamp}
      (moved : ensureContinuationInternal runId now s = .ok () s') : Effect .ensured s s'
  | counters {s : Store} {selected : RunRow → Bool} {f : RunRow → RunRow} {keeps : ∀ run, (f run).id = run.id}
      (same : ∀ run, (f run).status = run.status ∧ (f run).currentGoalId = run.currentGoalId ∧
        (f run).nextSequence = run.nextSequence ∧ (f run).budget = run.budget) :
      Effect .counters s (s.set .runs ((s .runs).update selected f keeps))
  /-- A goal moves along an edge and its Run journals the move. -/
  | goalStatus {s s' : Store} {runId : RunId} {goal : GoalRow} {target : GoalStatus} {now : IsoTimestamp}
      {selected : GoalRow → Bool} {f : GoalRow → GoalRow} {keeps : ∀ goal, (f goal).id = goal.id}
      {event : RunEvent} (found : (s .goals).find? goal.id = some goal)
      (chosen : ∀ other ∈ s .goals, selected other = true ↔ other = goal)
      (edge : canTransitionGoal goal.status target = true)
      (home : goal.runId = runId ∨
        ∃ run, (s .runs).find? runId = some run ∧ run.currentGoalId = some goal.id)
      (sets : ∀ goal, (f goal).status = target ∧ (f goal).runId = goal.runId)
      (appended : appendEventInternal runId .goalStatusChanged
        [("goalId", .string goal.id), ("to", .string target.text)] now none
        (s.set .goals ((s .goals).update selected f keeps)) = .ok event s') :
      Effect (.goalStatus target) s s'
  | goalCounter {s : Store} {selected : GoalRow → Bool} {f : GoalRow → GoalRow}
      {keeps : ∀ goal, (f goal).id = goal.id}
      (same : ∀ goal, (f goal).status = goal.status ∧ (f goal).runId = goal.runId) :
      Effect .goalCounter s (s.set .goals ((s .goals).update selected f keeps))
  | agentStatus {s s' : Store} {agentId : AgentId} {target : AgentStatus} {now : IsoTimestamp}
      {leaseGeneration : Option Nat} {agent : Agent}
      (moved : transitionAgentInternal agentId target now leaseGeneration s = .ok agent s') :
      Effect (.agentStatus target) s s'
  | agentStamp {s : Store} {selected : AgentRow → Bool} {f : AgentRow → AgentRow}
      {keeps : ∀ agent, (f agent).id = agent.id}
      (same : ∀ agent, (f agent).status = agent.status ∧ (f agent).runId = agent.runId) :
      Effect .agentStamp s (s.set .agents ((s .agents).update selected f keeps))
  | spawned {s : Store} {agent : AgentRow} (fresh : (s .agents).find? agent.id = none)
      (status : agent.status = .created) (home : s.has .runs agent.runId = true) :
      Effect .spawned s (s.set .agents ((s .agents).insert agent))
  /-- A Run is created with its first goal and its coordinator. -/
  | created {s s' : Store} {run : RunRow} {goal : GoalRow} {agent : AgentRow}
      (inserted : insertRun run goal agent s = .ok () s') (status : run.status = .queued)
      (current : run.currentGoalId = some goal.id) (home : goal.runId = run.id)
      (active : goal.status = .active) (coordinates : agent.runId = run.id) (queued : agent.status = .queued)
      (unspent : run.usage = emptyBudgetUsage) (silent : run.nextSequence = 0) :
      Effect .created s s'
  | claimed {s : Store} {selected : ScheduledActionRow → Bool} {f : ScheduledActionRow → ScheduledActionRow}
      {keeps : ∀ action, (f action).runId = action.runId} :
      Effect .claimed s (s.set .scheduledActions ((s .scheduledActions).update selected f keeps))
  | settled {s : Store} {removed : ScheduledActionRow → Bool} :
      Effect .settled s (s.set .scheduledActions ((s .scheduledActions).filter fun action => !removed action))
  | leases {s : Store} {rows : Keyed (key .runLeases)}
      (backed : ∀ lease ∈ rows, (∃ old ∈ s .runLeases, old.runId = lease.runId) ∨
        s.has .runs lease.runId = true) :
      Effect .leases s (s.set .runLeases rows)

section Moves
variable {touched : RunId → Prop} {kinds : Kind → Prop} {s s' : Store}

/-- A chain of effects of the given kinds, reported under touched Runs only. -/
def Moves (touched : RunId → Prop) (kinds : Kind → Prop) : Store → Store → Prop :=
  Relation.ReflTransGen fun s s' => (∃ k, kinds k ∧ Effect k s s') ∧ SameReport touched s s'

instance : IsPreorder Store (Moves touched kinds) where
  refl _ := Relation.ReflTransGen.refl
  trans _ _ _ := Relation.ReflTransGen.trans

theorem Moves.one {k : Kind} (can : kinds k) (effect : Effect k s s') (same : SameReport touched s s') :
    Moves touched kinds s s' := Relation.ReflTransGen.single ⟨⟨k, can, effect⟩, same⟩

theorem Moves.same (moves : Moves touched kinds s s') : SameReport touched s s' := by
  induction moves with
  | refl => exact Std.Refl.refl s
  | tail _ last ih => exact IsTrans.trans _ _ _ ih last.2

theorem Moves.owned (moves : Moves touched kinds s s') {o : Owner} (owned : Owned touched s o) :
    Owned touched s' o := moves.same.owned owned

theorem Moves.mono {wider : Kind → Prop} (implies : ∀ k, kinds k → wider k) (moves : Moves touched kinds s s') :
    Moves touched wider s s' := by
  induction moves with
  | refl => exact .refl
  | tail _ last ih =>
    obtain ⟨⟨k, can, effect⟩, same⟩ := last
    exact ih.tail ⟨⟨k, implies k can, effect⟩, same⟩

/-- What every effect of the listed kinds keeps, the whole chain keeps. -/
theorem Moves.keeps {inv : Store → Prop} (kept : ∀ k s s', kinds k → Effect k s s' → inv s → inv s')
    (moves : Moves touched kinds s s') (holds : inv s) : inv s' := by
  induction moves with
  | refl => exact holds
  | tail _ last ih =>
    obtain ⟨⟨k, can, effect⟩, -⟩ := last
    exact kept k _ _ can effect ih

end Moves

end OttiliCoder
