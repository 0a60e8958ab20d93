import Mathlib.Data.List.Sort
import OttiliCoder.Proofs.Sound

/-! The journal of a Run: its events are numbered from one without a gap, and it only grows. -/

namespace OttiliCoder
open Relational Transaction

/-- The rows of a Run's journal, in the order they were written. -/
def journalOf (s : Store) (runId : RunId) : List RunEventRow := (s .runEvents).rows.filter fun row => row.runId == runId

/-- The number of the last event, zero for a Run that has none. -/
def sequenceOf (s : Store) (runId : RunId) : Nat := (((s .runs).find? runId).map (·.nextSequence)).getD 0

/-- One event more for one Run, under the next number. -/
structure Appends (s s' : Store) (row : RunEventRow) : Prop where
  fresh : (s .runEvents).find? (row.runId, row.seq) = none
  events : s' .runEvents = (s .runEvents).insert row
  next : row.seq = sequenceOf s row.runId + 1
  counted : ∀ runId, sequenceOf s' runId = if runId = row.runId then row.seq else sequenceOf s runId

section Steps
variable {s s' middle : Store} {k : Kind} {runId : RunId}

theorem appended_appends {type : RunEventType} {payload : JsonObject} {now : IsoTimestamp} {leaseGeneration : Option Nat}
    {event : RunEvent} (appended : appendEventInternal runId type payload now leaseGeneration s = .ok event s') :
    ∃ row, Appends s s' row := by
  obtain ⟨run, found, fresh, -, left⟩ := appendEventInternal_ok.mp appended
  have same : run.id = runId := (Keyed.find?_eq_some.mp found).2
  have home : (nextEvent run type payload now leaseGeneration).runId = runId := same
  rw [left]
  refine ⟨_, ?_, journaled_events, ?_, fun id => ?_⟩
  · rw [home]
    exact fresh
  · rw [home, sequenceOf, found]
    rfl
  · rw [sequenceOf, journaled_runs, home]
    by_cases mine : id = runId
    · rw [if_pos mine, mine, found]
      simp [same]
    · rw [if_neg mine, sequenceOf]
      cases stored : (s .runs).find? id with
      | none => rfl
      | some other =>
        have apart : other.id ≠ runId := fun equal => mine ((Keyed.find?_eq_some.mp stored).2.symm.trans equal)
        simp [apart]

/-- The same event, seen from a store with the same journals so far. -/
theorem Appends.of_same {row : RunEventRow} (appends : Appends middle s' row) (events : middle .runEvents = s .runEvents)
    (counts : ∀ runId, sequenceOf middle runId = sequenceOf s runId) : Appends s s' row := by
  obtain ⟨fresh, written, next, counted⟩ := appends
  refine ⟨events ▸ fresh, events ▸ written, (counts _) ▸ next, fun runId => ?_⟩
  rw [counted, counts]

theorem sequenceOf_congr (same : s' .runs = s .runs) (runId : RunId) : sequenceOf s' runId = sequenceOf s runId := by
  rw [sequenceOf, sequenceOf, same]

theorem sequenceOf_update {selected : RunRow → Bool} {f : RunRow → RunRow} {keeps : ∀ run, (f run).id = run.id}
    (same : ∀ run, (f run).nextSequence = run.nextSequence) (runId : RunId) :
    sequenceOf (s.set .runs ((s .runs).update selected f keeps)) runId = sequenceOf s runId := by
  rw [sequenceOf, sequenceOf, Db.set_same, Keyed.find?_update, Option.map_map]
  congr 2
  funext run
  rw [Function.comp_apply]
  split
  · exact same run
  · rfl

/-- Every effect leaves all journals as they are, or appends one event to one of them. -/
theorem Effect.numbers (effect : Effect k s s') :
    (s' .runEvents = s .runEvents ∧ ∀ runId, sequenceOf s' runId = sequenceOf s runId) ∨ ∃ row, Appends s s' row := by
  by_cases apart : k.writes .runs = false ∧ k.writes .runEvents = false
  · exact .inl ⟨effect.frame apart.2, sequenceOf_congr (effect.frame apart.1)⟩
  cases effect with
  | journal _ appended | event appended => exact .inr (appended_appends appended)
  | transition moved =>
    obtain ⟨run, event, found, edge, appended⟩ := transitionRunInternal_ok.mp moved
    obtain ⟨row, appends⟩ := appended_appends appended
    refine .inr ⟨row, appends.of_same ?_ fun runId => ?_⟩
    · rw [withRunStatus, Db.set_other _ _ (by simp)]
    · rw [withRunStatus]
      refine sequenceOf_update (fun run => ?_) runId
      rfl
  | goalStatus _ _ _ _ _ appended =>
    obtain ⟨row, appends⟩ := appended_appends appended
    exact .inr ⟨row, appends.of_same (Db.set_other _ _ (by simp)) (sequenceOf_congr (Db.set_other _ _ (by simp)))⟩
  | agentStatus moved =>
    obtain ⟨agent, event, -, -, appended, -⟩ := transitionAgentInternal_ok.mp moved
    obtain ⟨row, appends⟩ := appended_appends appended
    rw [withAgentStatus] at appends
    exact .inr ⟨row, appends.of_same (Db.set_other _ _ (by simp)) (sequenceOf_congr (Db.set_other _ _ (by simp)))⟩
  | counters same =>
    refine .inl ⟨Db.set_other _ _ (by simp), sequenceOf_update fun run => ?_⟩
    exact (same run).2.2.1
  | created inserted _ _ _ _ _ _ _ silent =>
    obtain ⟨fresh, -, -, runs, -, -⟩ := insertRun_fresh inserted
    obtain ⟨-, -, -, left⟩ := insertRun_ok.mp inserted
    refine .inl ⟨?_, fun runId => ?_⟩
    · rw [left, Db.set_other _ _ (by simp), Db.set_other _ _ (by simp), Db.set_other _ _ (by simp)]
    · rw [sequenceOf, sequenceOf, runs, Keyed.find?_insert fresh]
      split
      next same =>
        rw [← same, fresh]
        exact silent
      next => rfl
  | ledger plain => exact absurd ⟨ledger_apart plain rfl, ledger_apart plain rfl⟩ apart
  | _ => exact absurd ⟨rfl, rfl⟩ apart

end Steps

/-- Every journal is numbered from one up to the count of its Run. -/
def Numbered (s : Store) : Prop :=
  ∀ runId, (journalOf s runId).map (·.seq) = List.range' 1 (sequenceOf s runId)

section Numbers
variable {s s' : Store} {k : Kind} {row : RunEventRow} {runId : RunId}

theorem Appends.journal (appends : Appends s s' row) (runId : RunId) :
    journalOf s' runId = journalOf s runId ++ if row.runId = runId then [row] else [] := by
  rw [journalOf, journalOf, appends.events, Keyed.insert_rows appends.fresh, List.filter_append]
  congr 1
  by_cases mine : row.runId = runId <;> simp [mine]

theorem Appends.numbered (appends : Appends s s' row) (numbered : Numbered s) : Numbered s' := by
  intro runId
  rw [appends.journal, List.map_append, numbered, appends.counted]
  by_cases mine : row.runId = runId
  · rw [if_pos mine, if_pos mine.symm, appends.next, mine, List.range'_1_concat, Nat.add_comm 1]
    simp [appends.next, mine]
  · rw [if_neg mine, if_neg (fun same => mine same.symm), List.map_nil, List.append_nil]

theorem Effect.numbered (effect : Effect k s s') (numbered : Numbered s) : Numbered s' := by
  rcases effect.numbers with ⟨events, counts⟩ | ⟨row, appends⟩
  · intro runId
    rw [journalOf, events, counts]
    exact numbered runId
  · exact appends.numbered numbered

theorem numbered_reached (reached : Reachable s) : Numbered s := by
  have step : ∀ (s : Store) (call : Call), Reachable s → Numbered s → True → Numbered (call.perform s) := by
    intro s call _ numbered _
    exact (Call.moves s call).keeps (fun _ _ _ _ effect => effect.numbered) numbered
  exact reached.invariant (fun _ => rfl) step

/-- Journals only grow. -/
theorem Effect.journal_prefix (effect : Effect k s s') (runId : RunId) : journalOf s runId <+: journalOf s' runId := by
  rcases effect.numbers with ⟨events, -⟩ | ⟨row, appends⟩
  · have same : journalOf s' runId = journalOf s runId := by rw [journalOf, journalOf, events]
    exact same ▸ List.prefix_rfl
  · rw [appends.journal]
    exact List.prefix_append ..

theorem Call.journal_prefix (call : Call) (runId : RunId) : journalOf s runId <+: journalOf (call.perform s) runId := by
  let Extends (s' : Store) : Prop := journalOf s runId <+: journalOf s' runId
  have kept : ∀ k s₁ s₂, k ∈ call.kinds → Effect k s₁ s₂ → Extends s₁ → Extends s₂ := by
    intro k s₁ s₂ _ effect before
    exact before.trans (effect.journal_prefix runId)
  exact (Call.moves s call).keeps kept List.prefix_rfl

theorem journal_sorted (numbered : Numbered s) (runId : RunId) :
    (journalOf s runId).Pairwise fun row other => row.seq ≤ other.seq := by
  rw [← List.pairwise_map, numbered]
  exact List.pairwise_le_range'

/-- Of rows numbered from `start`, those past the first `count` numbers are the rest of the list. -/
theorem filter_numbered {rows : List RunEventRow} {start : Nat} (numbers : rows.map (·.seq) = List.range' (start + 1) rows.length)
    (count : Nat) : (rows.filter fun row => start + count < row.seq) = rows.drop count := by
  induction rows generalizing start count with
  | nil => simp
  | cons first rest ih =>
    simp only [List.map_cons, List.length_cons, List.range'_succ, List.cons.injEq] at numbers
    obtain ⟨number, numbers⟩ := numbers
    cases count with
    | zero =>
      rw [List.drop_zero, List.filter_eq_self]
      intro row member
      rcases List.mem_cons.mp member with rfl | inside
      · simp [number]
      · have listed : row.seq ∈ List.range' (start + 1 + 1) rest.length := numbers ▸ List.mem_map_of_mem inside
        have bounds := List.mem_range'_1.mp listed
        exact decide_eq_true (by omega)
    | succ count =>
      rw [List.filter_cons_of_neg (by simp [number]), List.drop_succ_cons, ← ih numbers count]
      refine List.filter_congr fun row _ => decide_eq_decide.mpr ?_
      omega

/-- `listEvents` is the part of the journal after the given number, in order. -/
theorem listEvents_eq (numbered : Numbered s) (runId : RunId) (afterSequence : Nat) :
    listEvents s runId afterSequence = ((journalOf s runId).drop afterSequence).map eventFromRow := by
  have mine : ((s .runEvents).rows.filter fun row => row.runId == runId && afterSequence < row.seq) =
      (journalOf s runId).filter fun row => afterSequence < row.seq := by
    rw [journalOf, List.filter_filter]
    exact List.filter_congr fun row _ => Bool.and_comm ..
  have later : ((journalOf s runId).filter fun row => afterSequence < row.seq) = (journalOf s runId).drop afterSequence := by
    have numbers : (journalOf s runId).map (·.seq) = List.range' (0 + 1) (journalOf s runId).length := by
      have counted := numbered runId
      rw [counted, ← List.length_map (f := (·.seq)), counted, List.length_range']
    simpa only [Nat.zero_add] using filter_numbered numbers afterSequence
  rw [listEvents, mine, later, List.Pairwise.insertionSort_eq]
  exact (journal_sorted numbered runId).sublist (List.drop_sublist ..)

/-- The number at each place of a journal. -/
theorem listEvents_sequences (numbered : Numbered s) (runId : RunId) (afterSequence : Nat) :
    (listEvents s runId afterSequence).map (·.sequence) =
      List.range' (afterSequence + 1) (listEvents s runId afterSequence).length := by
  have counted := numbered runId
  have length := congrArg List.length counted
  rw [List.length_map, List.length_range'] at length
  have numbers : (listEvents s runId afterSequence).map (·.sequence) = ((journalOf s runId).map (·.seq)).drop afterSequence := by
    rw [listEvents_eq numbered, List.map_map, List.map_drop]
    rfl
  rw [numbers, counted, listEvents_eq numbered, List.length_map, List.length_drop, length, List.drop_range']
  rw [Nat.add_comm afterSequence, Nat.mul_one]

theorem listEvents_add (numbered : Numbered s) (runId : RunId) (afterSequence count : Nat) :
    listEvents s runId (afterSequence + count) = (listEvents s runId afterSequence).drop count := by
  rw [listEvents_eq numbered, listEvents_eq numbered, ← List.map_drop, List.drop_drop]

theorem Call.listEvents_prefix (call : Call) (reached : Reachable s) (runId : RunId) (afterSequence : Nat) :
    listEvents s runId afterSequence <+: listEvents (call.perform s) runId afterSequence := by
  rw [listEvents_eq (numbered_reached reached), listEvents_eq (numbered_reached (.step call reached trivial))]
  obtain ⟨more, grown⟩ := call.journal_prefix (s := s) runId
  rw [← grown, List.drop_append, List.map_append]
  exact List.prefix_append ..

end Numbers

end OttiliCoder
