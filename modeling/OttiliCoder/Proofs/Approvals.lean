import OttiliCoder.Proofs.Intents

/-! An approval authorizes one tool call, once, for its own Run. -/

namespace OttiliCoder
open Relational Transaction

/-- A pending approval is decided; an approved one is consumed. -/
def ApprovalStatus.transitions : ApprovalStatus → List ApprovalStatus
  | .pending => [.approved, .rejected, .expired]
  | .approved => [.consumed]
  | .consumed | .rejected | .expired => []

structure ApprovalKept (row row' : ApprovalRow) : Prop where
  run : row'.runId = row.runId
  status : row'.status = row.status ∨ row'.status ∈ row.status.transitions

/-- What a call makes of the approval under an id. -/
abbrev ApprovalStep (s s' : Store) (approvalId : ApprovalId) : Prop :=
  RowStep ApprovalKept (fun row => row.status = .pending) ((s .approvals).find? approvalId)
    ((s' .approvals).find? approvalId)

section Steps
variable {s s' : Store} {approvalId : ApprovalId} {now : IsoTimestamp} {clock : Date} {uuid : String}

theorem ApprovalKept.refl (row : ApprovalRow) : ApprovalKept row row := ⟨rfl, .inl rfl⟩

private theorem approvals_same (same : s' .approvals = s .approvals) : ApprovalStep s s' approvalId := by
  rw [ApprovalStep, same]
  exact .same .refl _

theorem requestApproval_step {input : RequestApprovalInput} {row : ApprovalRow}
    (returned : requestApproval input uuid clock s = .ok row s') : ApprovalStep s s' approvalId := by
  simp only [requestApproval, transaction_ok, bind_ok, insert_ok, mustApproval_ok] at returned
  obtain ⟨_, s, checked, _, _, ⟨admitted, rfl⟩, event, _, journaled, -, rfl⟩ := returned
  obtain rfl := (ReadOnly.given fun _ => readOnly_assertRunLeaseInternal).ok checked
  rw [ApprovalStep, appended_other journaled (by simp) (by simp), Db.set_same, Keyed.find?_insert admitted.fresh]
  split
  next same =>
    have fresh := admitted.fresh
    rw [same] at fresh
    rw [fresh]
    exact .fresh rfl
  next => exact .same .refl _

theorem resolveApproval_step {input : ResolveApprovalInput} {row : ApprovalRow}
    (returned : resolveApproval input clock s = .ok row s') : ApprovalStep s s' approvalId := by
  simp only [resolveApproval, transaction_ok, bind_ok, mustApproval_ok, require_ok, update_ok, select_ok, mustRun_ok,
    onlyIf_ok] at returned
  obtain ⟨existing, _, ⟨found, rfl⟩, _, _, ⟨pending, rfl⟩, _, _, rfl, event, _, journaled, _, _, ⟨-, rfl⟩, _, s₁,
    ⟨run, -, rfl, rfl⟩, _, s', woken, -, rfl⟩ := returned
  have same : s' .approvals = s₁ .approvals := by
    rcases woken with ⟨-, _, middle, moved, ensured⟩ | ⟨-, rfl⟩
    · rw [ensured_other ensured (by simp), transitionRun_other moved (by simp) (by simp)]
    · rfl
  rw [ApprovalStep, same, appended_other journaled (by simp) (by simp), Db.set_same, Keyed.find?_update]
  refine .map fun other _ => ?_
  split
  next chosen =>
    simp only [Bool.and_eq_true, beq_iff_eq] at chosen
    refine ⟨rfl, .inr ?_⟩
    rw [chosen.2]
    cases input.status <;> simp [ApprovalResolution.status, ApprovalStatus.transitions]
  next => exact .refl other

theorem consumeApproval_step {lease : FencedLease} {consumed : ApprovalId}
    (returned : consumeApproval consumed lease now s = .ok () s') : ApprovalStep s s' approvalId := by
  obtain ⟨approval, event, found, mine, approved, journaled⟩ := consumeApproval_ok.mp returned
  rw [ApprovalStep, appended_other journaled (by simp) (by simp), withConsumed, Db.set_same, Keyed.find?_update]
  refine .map fun other _ => ?_
  split
  next chosen =>
    simp only [Bool.and_eq_true, beq_iff_eq] at chosen
    refine ⟨rfl, .inr ?_⟩
    simp [chosen.2, ApprovalStatus.transitions]
  next => exact .refl other

end Steps

section Intents
variable {s s' charged authorized : Store} {input : ToolIntentInput} {uuid : String} {clock : Date} {now : IsoTimestamp}
  {run : Run}

/-- An intent that is recorded leaves the approvals as its authorization left them. -/
theorem IntentSteps.approvals (steps : IntentSteps input uuid now s s' run charged authorized) :
    charged .approvals = s .approvals ∧ s' .approvals = authorized .approvals := by
  obtain ⟨event, journaled⟩ := steps.journaled
  refine ⟨charged_other steps.charge (by simp) (by simp), ?_⟩
  rw [appended_other journaled (by simp) (by simp), Db.set_other _ _ (by simp)]

theorem recordToolIntent_step {id : ToolCallId} {approvalId : ApprovalId}
    (returned : recordToolIntent input uuid clock s = .ok id s') : ApprovalStep s s' approvalId := by
  obtain ⟨-, -, run, charged, authorized, steps⟩ := recordToolIntent_ok.mp returned
  obtain ⟨before, after⟩ := steps.approvals
  rw [ApprovalStep, ← before, after]
  rcases given_ok.mp steps.authorize with ⟨-, rfl⟩ | ⟨consumed, -, returned⟩
  · exact .same .refl _
  · exact consumeApproval_step returned

/-- An intent that throws consumes no approval. -/
theorem recordToolIntent_error_approvals {e : StoreError}
    (failed : recordToolIntent input uuid clock s = .error e s') : s' .approvals = s .approvals := by
  rcases recordToolIntent_error failed with rfl | ⟨-, run, charge, -⟩
  · rfl
  · exact charged_other charge (by simp) (by simp)

/-- The intent is recorded as a started tool call. -/
def Started (s : Store) (input : ToolIntentInput) (uuid : String) (clock : Date) : Prop :=
  ∃ id s', recordToolIntent input uuid clock s = .ok id s'

/-- A started call found its approval approved for its Run, and leaves it consumed. -/
theorem Started.consumes {approvalId : ApprovalId} (started : Started s input uuid clock)
    (named : input.approvalId = some approvalId) :
    (∃ row, (s .approvals).find? approvalId = some row ∧ row.runId = input.lease.runId ∧ row.status = .approved) ∧
    ∃ row, (((Call.recordToolIntent input uuid clock).perform s) .approvals).find? approvalId = some row ∧
      row.status = .consumed := by
  obtain ⟨id, s', returned⟩ := started
  rw [Call.perform, Call.run, discard, after_map, after_ok returned]
  obtain ⟨-, -, run, charged, authorized, steps⟩ := recordToolIntent_ok.mp returned
  obtain ⟨before, after⟩ := steps.approvals
  rcases given_ok.mp steps.authorize with ⟨absent, -⟩ | ⟨other, given, authorize⟩
  · rw [named] at absent
    cases absent
  · obtain rfl := Option.some.inj (named.symm.trans given)
    obtain ⟨approval, event, found, mine, approved, journaled⟩ := consumeApproval_ok.mp authorize
    refine ⟨⟨approval, before ▸ found, mine, approved⟩, ?_⟩
    rw [after, appended_other journaled (by simp) (by simp), withConsumed, Db.set_same, Keyed.find?_update, found]
    have same : approval.id = approvalId := (Keyed.find?_eq_some.mp found).2
    exact ⟨_, rfl, by simp [same, approved]⟩

end Intents

section Calls
variable {s : Store} {approvalId : ApprovalId}

/-- Whatever is called, an approval stays as it is or moves along its lifecycle. -/
theorem Call.approval_step (call : Call) : ApprovalStep s (call.perform s) approvalId := by
  by_cases plain : call.writes .approvals = false
  · exact approvals_same (call.frame plain)
  cases call with
  | requestApproval input uuid clock =>
    rw [perform, run, discard, after_map]
    have atomic : Atomic (OttiliCoder.requestApproval input uuid clock) := .transaction _
    rcases atomic.cases (s := s) with ⟨row, returned⟩ | ⟨-, same⟩
    · exact requestApproval_step returned
    · exact approvals_same (by rw [same])
  | resolveApproval input clock =>
    rw [perform, run, discard, after_map]
    have atomic : Atomic (OttiliCoder.resolveApproval input clock) := .transaction _
    rcases atomic.cases (s := s) with ⟨row, returned⟩ | ⟨-, same⟩
    · exact resolveApproval_step returned
    · exact approvals_same (by rw [same])
  | recordToolIntent input uuid clock =>
    rw [perform, run, discard, after_map]
    cases outcome : OttiliCoder.recordToolIntent input uuid clock s with
    | ok id s' =>
      rw [after_ok outcome]
      exact recordToolIntent_step outcome
    | error e s' =>
      rw [after_error outcome]
      exact approvals_same (recordToolIntent_error_approvals outcome)
  | appendFencedEvent input clock => exact absurd (Call.appendFencedEvent_writes rfl rfl) plain
  | _ => exact absurd rfl plain

/-- The approval is consumed: no further call can use it. -/
def Spent (s : Store) (approvalId : ApprovalId) : Prop :=
  ∃ row, (s .approvals).find? approvalId = some row ∧ row.status = .consumed

theorem Spent.kept (spent : Spent s approvalId) (call : Call) : Spent (call.perform s) approvalId := by
  obtain ⟨row, found, consumed⟩ := spent
  obtain ⟨row', found', kept⟩ := call.approval_step.later found
  refine ⟨row', found', ?_⟩
  rcases kept.status with same | moved
  · exact same.trans consumed
  · rw [consumed] at moved
    cases moved

theorem Spent.later (spent : Spent s approvalId) (history : List Call) :
    Spent (performAll Call.perform history s) approvalId := by
  induction history generalizing s with
  | nil => exact spent
  | cons call rest ih => exact ih (spent.kept call)

end Calls

/-- After every history: any call leaves an approval as it is, or moves it from pending to
approved, rejected or expired, or from approved to consumed; a tool call started with an
approval found it approved for its own Run, and no later intent starts with it again; and an
intent that throws leaves every approval as it was. -/
theorem approval_authorizes_once (history : List Call) (approvalId : ApprovalId) :
    (∀ call : Call, ApprovalStep (storeAfter history) (call.perform (storeAfter history)) approvalId) ∧
    (∀ before input uuid clock rest, history = before ++ .recordToolIntent input uuid clock :: rest →
      input.approvalId = some approvalId → Started (storeAfter before) input uuid clock →
        (∃ row, ((storeAfter before) .approvals).find? approvalId = some row ∧
          row.runId = input.lease.runId ∧ row.status = .approved) ∧
        ∀ middle input' uuid' clock' last, rest = middle ++ .recordToolIntent input' uuid' clock' :: last →
          input'.approvalId = some approvalId →
            ¬ Started (storeAfter (before ++ .recordToolIntent input uuid clock :: middle)) input' uuid' clock') ∧
    ∀ input uuid clock e s', recordToolIntent input uuid clock (storeAfter history) = .error e s' →
      s' .approvals = (storeAfter history) .approvals := by
  refine ⟨fun call => call.approval_step, ?_, fun input uuid clock e s' => recordToolIntent_error_approvals⟩
  intro before input uuid clock rest _ named started
  obtain ⟨approved, consumed⟩ := started.consumes named
  refine ⟨approved, fun middle input' uuid' clock' last _ named' again => ?_⟩
  have spent : Spent (storeAfter (before ++ .recordToolIntent input uuid clock :: middle)) approvalId := by
    rw [storeAfter_append]
    exact Spent.later consumed middle
  obtain ⟨row, found, status⟩ := spent
  obtain ⟨row', found', -, status'⟩ := (again.consumes named').1
  obtain rfl := Option.some.inj (found.symm.trans found')
  rw [status] at status'
  cases status'

end OttiliCoder
