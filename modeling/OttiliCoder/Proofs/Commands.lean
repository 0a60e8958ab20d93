import OttiliCoder.Proofs.Scope

/-! Operator commands happen once: a receipt, once written, answers every replay. -/

namespace OttiliCoder
open Relational Transaction

section Receipts
variable {s s' : Store} {input : ExecuteCommandInput} {clock ensured recorded : Date} {result : Run}

/-- The store holds the receipt that answers the command of a Run. -/
def Answered (s : Store) (commandId : String) (runId : RunId) (result : Run) : Prop :=
  ∃ receipt, (s .commandReceipts).find? commandId = some receipt ∧ receipt.runId = runId ∧ receipt.result = result

private theorem prior_receipt {receipt : CommandReceiptRow} :
    (((s .commandReceipts).rows.filter fun row =>
      row.commandId == input.commandId && row.runId == input.runId).head? = some receipt) →
      (s .commandReceipts).find? input.commandId = some receipt ∧ receipt.runId = input.runId := by
  intro first
  obtain ⟨member, named⟩ := List.mem_filter.mp (List.mem_of_mem_head? first)
  simp only [Bool.and_eq_true, beq_iff_eq] at named
  exact ⟨Keyed.find?_eq_some.mpr ⟨member, named.1⟩, named.2⟩

/-- A command that is answered already returns its receipt and changes nothing. -/
theorem Answered.replayed (answered : Answered s input.commandId input.runId result) :
    executeCommand input clock ensured recorded s = .ok result s := by
  obtain ⟨receipt, found, mine, rfl⟩ := answered
  obtain ⟨member, named⟩ := Keyed.find?_eq_some.mp found
  unfold executeCommand
  rw [transaction_ok, bind_ok]
  refine ⟨_, s, select_ok.mpr ⟨rfl, rfl⟩, ?_⟩
  cases prior : ((s .commandReceipts).rows.filter fun row =>
      row.commandId == input.commandId && row.runId == input.runId).head? with
  | none =>
    have absent := List.head?_eq_none_iff.mp prior
    have present : receipt ∈ (s .commandReceipts).rows.filter fun row =>
        row.commandId == input.commandId && row.runId == input.runId :=
      List.mem_filter.mpr ⟨member, by simp [named, mine]⟩
    rw [absent] at present
    cases present
  | some first =>
    have same : first = receipt := Option.some.inj ((prior_receipt prior).1.symm.trans found)
    exact pure_ok.mpr ⟨by rw [same], rfl⟩

/-- An execution that returns either found its receipt or is the first to write one. -/
theorem executeCommand_cases (returned : executeCommand input clock ensured recorded s = .ok result s') :
    Answered s' input.commandId input.runId result ∧
      (s' = s ∨ ∃ row, (s .commandReceipts).find? (key .commandReceipts row) = none ∧
        s' .commandReceipts = (s .commandReceipts).insert row) := by
  simp only [executeCommand, transaction_ok, bind_ok] at returned
  obtain ⟨prior, s, selected, returned⟩ := returned
  obtain ⟨same, rfl⟩ := select_ok.mp selected
  rw [same] at returned
  cases first : ((s .commandReceipts).rows.filter fun row =>
      row.commandId == input.commandId && row.runId == input.runId).head? with
  | some receipt =>
    simp only [first] at returned
    obtain ⟨rfl, same⟩ := pure_ok.mp returned
    obtain ⟨found, mine⟩ := prior_receipt first
    exact ⟨⟨receipt, same ▸ found, mine, rfl⟩, .inl same⟩
  | none =>
    simp only [first] at returned
    simp only [bind_ok, insert_ok, pure_ok] at returned
    obtain ⟨run, _, got, result, middle, commanded, _, _, ⟨admitted, rfl⟩, rfl, rfl⟩ := returned
    obtain rfl := readOnly_mustRun.ok got
    have same := (@runCommand_moves (fun _ => True) _ _ _ _ _ trivial result middle commanded).1.frame
      (t := .commandReceipts) fun k can => by
        simp only [List.mem_cons, List.not_mem_nil, or_false] at can
        rcases can with rfl | rfl | rfl | rfl | rfl <;> rfl
    refine ⟨⟨⟨input.commandId, run.id, result, recorded.toISOString⟩, ?_, mustRun_id got, rfl⟩,
      .inr ⟨_, same ▸ admitted.fresh, ?_⟩⟩
    · rw [Db.set_same, Keyed.find?_insert admitted.fresh]
      exact if_pos rfl
    · rw [Db.set_same, same]

/-- No call takes a receipt back. -/
theorem Answered.kept {commandId : String} {runId : RunId} (answered : Answered s commandId runId result)
    (call : Call) : Answered (call.perform s) commandId runId result := by
  obtain ⟨receipt, found, mine, same⟩ := answered
  refine ⟨receipt, ?_, mine, same⟩
  by_cases plain : call.writes .commandReceipts = false
  · rwa [call.frame plain]
  cases call with
  | executeCommand input clock ensured recorded =>
    change (after (discard (executeCommand input clock ensured recorded)) s .commandReceipts).find? commandId = _
    rw [discard, after_map]
    have atomic : Atomic (executeCommand input clock ensured recorded) := .transaction _
    rcases atomic.cases (s := s) with ⟨answer, returned⟩ | ⟨-, unchanged⟩
    · rcases (executeCommand_cases returned).2 with unchanged | ⟨row, fresh, inserted⟩
      · rwa [unchanged]
      · rw [inserted, Keyed.find?_insert fresh]
        split
        next taken =>
          rw [show key .commandReceipts row = commandId from taken, found] at fresh
          cases fresh
        next => exact found
    · rwa [unchanged]
  | appendFencedEvent input clock => exact absurd (Call.appendFencedEvent_writes rfl rfl) plain
  | _ => exact absurd rfl plain

theorem Answered.later {commandId : String} {runId : RunId} (answered : Answered s commandId runId result)
    (history : List Call) : Answered (performAll Call.perform history s) commandId runId result := by
  induction history generalizing s with
  | nil => exact answered
  | cons call rest ih => exact ih (answered.kept call)

end Receipts

/-- An execution that throws changes nothing, its receipt included. One that returns is
answered from then on: after any further calls the same command id for the same Run
returns the snapshot of the first time and changes nothing. -/
theorem commands_exactly_once (s : Store) (input : ExecuteCommandInput) (clock ensured recorded : Date) :
    (∀ e s', executeCommand input clock ensured recorded s = .error e s' → s' = s) ∧
    ∀ result s', executeCommand input clock ensured recorded s = .ok result s' →
      ∀ (later : List Call) (replay : ExecuteCommandInput) (clock' ensured' recorded' : Date),
        replay.commandId = input.commandId → replay.runId = input.runId →
          executeCommand replay clock' ensured' recorded' (performAll Call.perform later s') =
            .ok result (performAll Call.perform later s') := by
  refine ⟨fun e s' failed => transaction_error failed, fun result s' returned later replay _ _ _ named mine => ?_⟩
  have answered := (executeCommand_cases returned).1.later later
  rw [← named, ← mine] at answered
  exact answered.replayed

end OttiliCoder
