import OttiliCoder.Proofs.Scope

/-! What a charge and a tool intent check, and the store they leave. -/

namespace OttiliCoder
open Relational Transaction

variable {s s' : Store} {now : IsoTimestamp}

/-! Charges. -/

/-- The store with a Run's new usage total. -/
def withUsage (s : Store) (runId : RunId) (usage : BudgetUsage) (now : IsoTimestamp) : Store :=
  s.set .runs ((s .runs).update (fun run => run.id == runId)
    (fun run => { run with usage := usage, updatedAt := now }) fun _ => rfl)

/-- A charge goes through for a known Run with valid numbers, and stops a running Run
whose budget it exhausts. -/
theorem recordUsageInternal_ok {runId : RunId} {delta : BudgetDelta} {run : Run} :
    recordUsageInternal runId delta now s = .ok run s' ↔
      ∃ row usage exhausted, (s .runs).find? runId = some row ∧ addBudgetUsage row.usage delta = .ok usage ∧
        evaluateBudget row.budget usage = .ok exhausted ∧
        (((exhausted ≠ [] ∧ row.status = .running) ∧
            transitionRunInternal runId .budgetLimited now none (withUsage s runId usage now) = .ok () s') ∨
          (¬ (exhausted ≠ [] ∧ row.status = .running) ∧ s' = withUsage s runId usage now)) ∧
        mustRun runId s' = .ok run s' := by
  simp only [recordUsageInternal, bind_ok, mustRun_ok, assertInvariant_ok, update_ok, onlyIf_ok]
  constructor
  · rintro ⟨_, _, ⟨row, found, rfl, rfl⟩, usage, _, ⟨added, rfl⟩, exhausted, _, ⟨assessed, rfl⟩, _, _, rfl, _, last,
      limited, row', found', rfl, rfl⟩
    obtain rfl := (Keyed.find?_eq_some.mp found).2
    exact ⟨row, usage, exhausted, found, added, assessed, limited, row', found', rfl, trivial⟩
  · rintro ⟨row, usage, exhausted, found, added, assessed, limited, row', found', rfl, -⟩
    obtain rfl := (Keyed.find?_eq_some.mp found).2
    exact ⟨_, _, ⟨row, found, rfl, rfl⟩, usage, _, ⟨added, rfl⟩, exhausted, _, ⟨assessed, rfl⟩, (), _, rfl, (), _,
      limited, row', found', rfl, rfl⟩

theorem charged_other {runId : RunId} {delta : BudgetDelta} {run : Run}
    (charged : recordUsageInternal runId delta now s = .ok run s') {t : Table}
    (runs : t ≠ .runs) (events : t ≠ .runEvents) : s' t = s t := by
  obtain ⟨row, usage, exhausted, -, -, -, ⟨-, moved⟩ | ⟨-, rfl⟩, -⟩ := recordUsageInternal_ok.mp charged
  · rw [transitionRun_other moved runs events, withUsage, Db.set_other _ _ runs]
  · rw [withUsage, Db.set_other _ _ runs]

/-! Consuming an approval. -/

def withConsumed (s : Store) (approvalId : ApprovalId) (now : IsoTimestamp) : Store :=
  s.set .approvals ((s .approvals).update (fun row => row.id == approvalId && row.status == .approved)
    (fun row => { row with status := .consumed, updatedAt := now }) fun row => (rfl : row.id = row.id))

theorem consumeApproval_ok {approvalId : ApprovalId} {lease : FencedLease} :
    consumeApproval approvalId lease now s = .ok () s' ↔
      ∃ approval event, (s .approvals).find? approvalId = some approval ∧ approval.runId = lease.runId ∧
        approval.status = .approved ∧
        appendEventInternal lease.runId .approvalResolved
          [("approvalId", .string approvalId), ("status", .string "consumed"),
            ("reason", .string "tool_call_authorized")]
          now (some lease.generation) (withConsumed s approvalId now) = .ok event s' := by
  simp only [consumeApproval, bind_ok, mustApproval_ok, require_ok, update_ok, pure_ok]
  constructor
  · rintro ⟨approval, _, ⟨found, rfl⟩, _, _, ⟨⟨mine, approved⟩, rfl⟩, _, _, rfl, event, _, appended, -, rfl⟩
    exact ⟨approval, event, found, mine, approved, appended⟩
  · rintro ⟨approval, event, found, mine, approved, appended⟩
    exact ⟨approval, _, ⟨found, rfl⟩, (), _, ⟨⟨mine, approved⟩, rfl⟩, (), _, rfl, event, _, appended, trivial, rfl⟩

/-! Tool intents. -/

def toolCallId (input : ToolIntentInput) (uuid : String) : ToolCallId :=
  createId .toolCall (input.lease.runId ++ ":" ++ uuid)

def newToolCall (input : ToolIntentInput) (uuid : String) (now : IsoTimestamp) : ToolCallRow where
  id := toolCallId input uuid
  runId := input.lease.runId
  agentId := input.agentId
  taskId := input.taskId
  name := input.definition.name
  sideEffectClass := input.definition.sideEffectClass
  idempotency := input.definition.idempotency
  recovery := input.definition.recovery
  status := .running
  input := input.input
  leaseGeneration := input.lease.generation
  startedAt := now

/-- A status in which a charge refuses further work. -/
def RunStatus.isLimited (status : RunStatus) : Prop := status = .budgetLimited ∨ status = .usageLimited

section Intents
variable {input : ToolIntentInput} {uuid : String} {clock : Date}

/-- The charge of one tool call an intent makes. -/
abbrev chargeIntent (input : ToolIntentInput) (now : IsoTimestamp) : StoreM Run :=
  recordUsageInternal input.lease.runId { toolCalls := some 1 } now

/-- The steps of an intent that is not refused: charged, authorized, recorded, journaled. -/
structure IntentSteps (input : ToolIntentInput) (uuid : String) (now : IsoTimestamp) (s s' : Store) (run : Run)
    (charged authorized : Store) : Prop where
  charge : chargeIntent input now s = .ok run charged
  opened : ¬ run.status.isLimited
  authorize : given input.approvalId (fun approvalId => consumeApproval approvalId input.lease now) charged =
    .ok () authorized
  admitted : schema.Admits authorized .toolCalls (newToolCall input uuid now)
  journaled : ∃ event, appendEventInternal input.lease.runId .toolCallStarted
    [("name", .string input.definition.name), ("toolCallId", .string (toolCallId input uuid))] now
    (some input.lease.generation)
    (authorized.set .toolCalls ((authorized .toolCalls).insert (newToolCall input uuid now))) = .ok event s'

theorem recordToolIntent_ok {id : ToolCallId} :
    recordToolIntent input uuid clock s = .ok id s' ↔
      id = toolCallId input uuid ∧ CurrentLease s input.lease clock.toISOString ∧
        ∃ run charged authorized, IntentSteps input uuid clock.toISOString s s' run charged authorized := by
  simp only [recordToolIntent, bind_ok, transaction_ok, assertLeaseInternal_ok, require_ok, pure_ok, ite_ok, insert_ok]
  constructor
  · rintro ⟨exhausted, _, ⟨_, _, ⟨current, rfl⟩, run, charged, charge, ⟨limited, rfl, rfl⟩ |
      ⟨opened, _, authorized, authorize, _, _, ⟨admitted, rfl⟩, event, _, journaled, rfl, rfl⟩⟩, _, _, ⟨allowed, rfl⟩,
      rfl, rfl⟩
    · cases allowed
    · exact ⟨rfl, current, run, charged, authorized, charge, opened, authorize, admitted, event, journaled⟩
  · rintro ⟨rfl, current, run, charged, authorized, charge, opened, authorize, admitted, event, journaled⟩
    exact ⟨false, _, ⟨(), _, ⟨current, rfl⟩, run, charged, charge, .inr ⟨opened, (), authorized, authorize, (), _,
      ⟨admitted, rfl⟩, event, _, journaled, rfl, rfl⟩⟩, (), _, ⟨rfl, rfl⟩, rfl, rfl⟩

/-- An intent that throws leaves the store as it was, or with the charge that refused it. -/
theorem recordToolIntent_error {e : StoreError} (failed : recordToolIntent input uuid clock s = .error e s') :
    s' = s ∨ (CurrentLease s input.lease clock.toISOString ∧
      ∃ run, chargeIntent input clock.toISOString s = .ok run s' ∧ run.status.isLimited) := by
  unfold recordToolIntent at failed
  rw [bind_apply] at failed
  split at failed
  next exhausted middle returned =>
    rw [bind_apply] at failed
    cases exhausted with
    | false => cases failed
    | true =>
      have same : s' = middle := by
        cases failed
        rfl
      subst same
      simp only [transaction_ok, bind_ok, assertLeaseInternal_ok, ite_ok, pure_ok] at returned
      obtain ⟨_, _, ⟨current, rfl⟩, run, charged, charge, ⟨limited, -, rfl⟩ | ⟨_, _, _, _, _, _, _, _, _, _, impossible, _⟩⟩ :=
        returned
      · exact .inr ⟨current, run, charge, limited⟩
      · cases impossible
  next other middle thrown =>
    cases failed
    exact .inl (transaction_error thrown)

end Intents

end OttiliCoder
