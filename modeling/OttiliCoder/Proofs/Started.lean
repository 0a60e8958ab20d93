import OttiliCoder.Proofs.Admission
import OttiliCoder.Proofs.Takeover

/-! Which steps record a tool call as started, and in which statuses of its Run. -/

namespace OttiliCoder
open Relational Transaction

/-- The intent is recorded. -/
def Starts (s : Store) (input : ToolIntentInput) (uuid : String) (clock : Date) : Prop :=
  ∃ id s', recordToolIntent input uuid clock s = .ok id s'

/-- How many tool calls were ever recorded as started for the Run. -/
def started (s : Store) (runId : RunId) : ℕ := (s .toolCalls).rows.countP fun row => row.runId == runId

def Running (s : Store) (runId : RunId) : Prop := ∃ run, (s .runs).find? runId = some run ∧ run.status = .running

/-- Every tool call the step records as started belongs to a Run that is running. -/
def StartsWhileRunning (s : Store) (call : Call) : Prop :=
  ∀ row ∈ (call.perform s) .toolCalls, (s .toolCalls).find? row.id = none → Running s row.runId

/-- What a step makes of the tool calls: it records one, or rewrites some in their Runs. -/
inductive Recording (s : Store) (call : Call) : Prop
  | starts {input : ToolIntentInput} {uuid : String} {clock : Date} (intent : call = .recordToolIntent input uuid clock)
      (starts : Starts s input uuid clock) (fresh : (s .toolCalls).find? (toolCallId input uuid) = none)
      (recorded : (call.perform s) .toolCalls = (s .toolCalls).insert (newToolCall input uuid clock.toISOString))
  | rewrites {selected : ToolCallRow → Bool} {f : ToolCallRow → ToolCallRow}
      {keeps : ∀ row, key .toolCalls (f row) = key .toolCalls row} (home : ∀ row, (f row).runId = row.runId)
      (refused : ∀ input uuid clock, call = .recordToolIntent input uuid clock → ¬ Starts s input uuid clock)
      (rewritten : (call.perform s) .toolCalls = (s .toolCalls).update selected f keeps)

section Steps
variable {s s' : Store} {call : Call} {input : ToolIntentInput} {uuid : String} {clock : Date}

theorem recordToolIntent_rows {id : ToolCallId} (returned : recordToolIntent input uuid clock s = .ok id s') :
    (s .toolCalls).find? (toolCallId input uuid) = none ∧
      s' .toolCalls = (s .toolCalls).insert (newToolCall input uuid clock.toISOString) := by
  obtain ⟨-, -, run, charged, authorized, steps⟩ := recordToolIntent_ok.mp returned
  obtain ⟨event, journaled⟩ := steps.journaled
  have same : authorized .toolCalls = s .toolCalls :=
    (authorize_other (by simp) (by simp) (by simp) steps.authorize).trans (charged_other steps.charge (by simp) (by simp))
  have fresh := steps.admitted.fresh
  rw [same] at fresh
  refine ⟨fresh, ?_⟩
  rw [appended_other journaled (by simp) (by simp), Db.set_same, same]

private theorem recording_same (same : (call.perform s) .toolCalls = s .toolCalls)
    (refused : ∀ input uuid clock, call = .recordToolIntent input uuid clock → ¬ Starts s input uuid clock) :
    Recording s call := by
  have unmarked : (s .toolCalls).update (fun _ => false) id (fun _ => rfl) = s .toolCalls := Keyed.update_none
  exact .rewrites (fun _ => rfl) refused (same.trans unmarked.symm)

theorem Call.recording (s : Store) (call : Call) : Recording s call := by
  cases call with
  | recordToolIntent input uuid clock =>
    have performed : (Call.recordToolIntent input uuid clock).perform s =
        after (OttiliCoder.recordToolIntent input uuid clock) s := by
      rw [perform, run, discard, after_map]
    cases outcome : OttiliCoder.recordToolIntent input uuid clock s with
    | ok id s' =>
      obtain ⟨fresh, rows⟩ := recordToolIntent_rows outcome
      refine .starts rfl ⟨id, s', outcome⟩ fresh ?_
      rw [performed, after_ok outcome, rows]
    | error e s' =>
      refine recording_same ?_ ?_
      · rw [performed, after_error outcome]
        rcases recordToolIntent_error outcome with rfl | ⟨-, run, charge, -⟩
        · rfl
        · exact charged_other charge (by simp) (by simp)
      · rintro _ _ _ ⟨⟩ ⟨id, last, returned⟩
        cases outcome.symm.trans returned
  | completeToolCall input clock =>
    have atomic : Atomic (OttiliCoder.completeToolCall input clock) := .transaction _
    rcases atomic.cases (s := s) with ⟨result, returned⟩ | ⟨-, same⟩
    · obtain ⟨-, event, journaled⟩ := completeToolCall_ok.mp returned
      have rows : ((Call.completeToolCall input clock).perform s) .toolCalls =
          (s .toolCalls).update input.names (completed input clock.toISOString) completed_key :=
        (appended_other journaled (by simp) (by simp)).trans (Db.set_same _ _ _)
      exact .rewrites (f := completed input clock.toISOString) (fun _ => rfl) (fun _ _ _ other => by cases other) rows
    · exact recording_same (congrFun same _) fun _ _ _ other => by cases other
  | reconcileInterruptedToolCalls runId clock | recoverClaimedWork lease clock =>
    cases Call.reporting s _ with
    | @recovers _ now recovers =>
      exact .rewrites (f := markedUnknown now) (fun _ => rfl) (fun _ _ _ other => by cases other) recovers.marked
    | refused _ same => exact recording_same (congrFun same _) fun _ _ _ other => by cases other
    | silent _ plain => exact absurd (show true = false from plain rfl) (by decide)
  | appendFencedEvent input clock =>
    exact recording_same (Call.frame _ (Call.appendFencedEvent_writes rfl rfl)) fun _ _ _ other => by cases other
  | _ => exact recording_same (Call.frame _ rfl) fun _ _ _ other => by cases other

theorem Recording.startsWhileRunning (recording : Recording s call) :
    StartsWhileRunning s call ↔ ∀ input uuid clock, call = .recordToolIntent input uuid clock →
      Starts s input uuid clock → Running s input.lease.runId := by
  cases recording with
  | @starts input uuid clock intent starts fresh recorded =>
    subst intent
    constructor
    · rintro running _ _ _ ⟨⟩ -
      refine running (newToolCall input uuid clock.toISOString) ?_ fresh
      rw [recorded, Keyed.mem_insert fresh]
      exact .inr rfl
    · intro running row member new
      rw [recorded, Keyed.mem_insert fresh] at member
      rcases member with stored | rfl
      · exact absurd rfl (Keyed.find?_eq_none.mp new row stored)
      · exact running _ _ _ rfl starts
  | rewrites home refused rewritten =>
    refine iff_of_true (fun row member new => ?_) fun input uuid clock intent starts => ?_
    · rw [rewritten, Keyed.mem_update] at member
      obtain ⟨old, stored, rfl⟩ := member
      refine absurd ?_ (Keyed.find?_eq_none.mp new old stored)
      split
      next keeps _ => exact (keeps old).symm
      next => rfl
    · exact absurd starts (refused input uuid clock intent)

/-- A step records one tool call for the Run of an intent that starts, and no other. -/
theorem Recording.started (recording : Recording s call) (runId : RunId) :
    started (call.perform s) runId = started s runId ∨
      ∃ input uuid clock, call = .recordToolIntent input uuid clock ∧ Starts s input uuid clock ∧
        input.lease.runId = runId ∧ started (call.perform s) runId = started s runId + 1 := by
  cases recording with
  | @starts input uuid clock intent starts fresh recorded =>
    have count : OttiliCoder.started (call.perform s) runId = OttiliCoder.started s runId +
        if input.lease.runId = runId then 1 else 0 := by
      rw [OttiliCoder.started, recorded, Keyed.insert_rows fresh, List.countP_append, List.countP_singleton]
      simp [OttiliCoder.started, newToolCall]
    by_cases mine : input.lease.runId = runId
    · exact .inr ⟨input, uuid, clock, intent, starts, mine, by rw [count, if_pos mine]⟩
    · exact .inl (by rw [count, if_neg mine, Nat.add_zero])
  | rewrites home refused rewritten =>
    refine .inl ?_
    rw [OttiliCoder.started, rewritten, Keyed.update, List.countP_map, OttiliCoder.started]
    congr 1
    funext row
    simp only [Function.comp_apply]
    split
    next => rw [home]
    next => rfl

end Steps

/-! Histories. -/

/-- The Run of a history's intent, with the usage it has stored. -/
theorem intent_starts_iff {history : List Call} {input : ToolIntentInput} {uuid : String} {clock : Date} {run : RunRow}
    (found : ((storeAfter history) .runs).find? input.lease.runId = some run) :
    Starts (storeAfter history) input uuid clock ↔
      Admissible (storeAfter history) input uuid clock.toISOString ∧ ¬ run.status.isLimited ∧
        (run.status = .running → exhaustedLimits run.budget (run.usage.plus oneToolCall) = []) := by
  have stored : usageOf (storeAfter history) input.lease.runId = some run.usage := by
    rw [usageOf, found, Option.map_some]
  obtain ⟨valid, -⟩ := (accounted_storeAfter history).usage _ _ stored
  exact recordToolIntent_succeeds_iff (reachable_storeAfter history).sound found valid

/-- In a history every tool call is recorded as started while its Run is running exactly when
every intent on a Run that is neither running nor stopped by its limits is inadmissible. -/
theorem intents_start_while_running_iff (history : List Call) :
    (∀ before call rest, history = before ++ call :: rest → StartsWhileRunning (storeAfter before) call) ↔
      ∀ before input uuid clock rest run, history = before ++ .recordToolIntent input uuid clock :: rest →
        ((storeAfter before) .runs).find? input.lease.runId = some run → run.status ≠ .running →
        ¬ run.status.isLimited → ¬ Admissible (storeAfter before) input uuid clock.toISOString := by
  constructor
  · intro always before input uuid clock rest run split found stopped opened admissible
    have starts : Starts (storeAfter before) input uuid clock :=
      (intent_starts_iff found).mpr ⟨admissible, opened, fun running => absurd running stopped⟩
    obtain ⟨other, stored, running⟩ :=
      (Call.recording _ _).startsWhileRunning.mp (always before _ rest split) input uuid clock rfl starts
    obtain rfl := Option.some.inj (found.symm.trans stored)
    exact stopped running
  · intro inadmissible before call rest split
    refine (Call.recording _ _).startsWhileRunning.mpr ?_
    rintro input uuid clock rfl starts
    obtain ⟨id, s', returned⟩ := starts
    obtain ⟨run, found⟩ := (reachable_storeAfter before).sound.leased (recordToolIntent_ok.mp returned).2.1
    obtain ⟨admissible, opened, -⟩ := (intent_starts_iff found).mp ⟨id, s', returned⟩
    refine ⟨run, found, ?_⟩
    by_contra stopped
    exact inadmissible before input uuid clock rest run split found stopped opened admissible

/-- The operator pauses the Run under the executor. -/
def pausedHistory : List Call := [sampleRun, takeSample "first" .epoch, .pause sampleRunId none .epoch]

theorem paused_run_starts_a_tool_call :
    ¬ ∀ (history before : List Call) (call : Call) (rest : List Call), history = before ++ call :: rest →
      StartsWhileRunning (storeAfter before) call := by
  intro always
  have starts := always _ pausedHistory (.recordToolIntent sampleIntent "t1" .epoch) [] rfl
  have recorded : Starts (storeAfter pausedHistory) sampleIntent "t1" .epoch :=
    fails_eq_false.mp (by decide +kernel)
  obtain ⟨run, found, running⟩ := (Call.recording _ _).startsWhileRunning.mp starts _ _ _ rfl recorded
  have status : (((storeAfter pausedHistory) .runs).find? sampleRunId).map (·.status) = some .paused := by decide +kernel
  rw [show ((storeAfter pausedHistory) .runs).find? sampleRunId = some run from found] at status
  simp [running] at status

end OttiliCoder
