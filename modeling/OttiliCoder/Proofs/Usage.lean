import Mathlib.Data.List.Induction
import OttiliCoder.Library.Tally
import OttiliCoder.Proofs.Budget
import OttiliCoder.Proofs.Intents
import OttiliCoder.Proofs.LeaseFencing

/-! Usage is charged once: the stored total, the entries and the per-agent shares agree
with the charges a history made. -/

namespace OttiliCoder
open Relational Tally Transaction

/-- A charge a call made to a Run, with its entry when it was given one. -/
structure Charge where
  runId : RunId
  entry : Option UsageEntry
  delta : BudgetDelta

def Charge.key (charge : Charge) : Option String := charge.entry.map (·.key)

def Charge.ofEntry (row : UsageEntryRow) : Charge := ⟨row.runId, some ⟨row.agentId, row.entryKey⟩, row.delta⟩

/-- The fence accepts the intent and its charge finds or leaves the Run limited. -/
def exhausts (input : ToolIntentInput) (now : IsoTimestamp) (s : Store) : Bool :=
  match (do
    assertLeaseInternal input.lease now
    chargeIntent input now : StoreM Run) s with
  | .ok run _ => run.status == .budgetLimited || run.status == .usageLimited
  | .error _ _ => false

/-- What a call charges. An intent costs one tool call when it succeeds, and also when it
is refused for the exhausted budget. -/
def Call.charges (s : Store) : Call → List Charge
  | recordUsage runId delta clock =>
    if fails (OttiliCoder.recordUsage runId delta clock) s then [] else [⟨runId, none, delta⟩]
  | recordUsageFenced lease delta entry clock =>
    if fails (OttiliCoder.recordUsageFenced lease delta entry clock) s then [] else [⟨lease.runId, entry, delta⟩]
  | recordToolIntent input uuid clock =>
    if fails (OttiliCoder.recordToolIntent input uuid clock) s && !exhausts input clock.toISOString s then []
    else [⟨input.lease.runId, none, { toolCalls := some 1 }⟩]
  | _ => []

/-- Every charge the calls made. -/
def chargesBy : Store → List Call → List Charge := observed Call.perform fun s call => call.charges s

/-- The charges to a Run that count: the first of each entry key and those without one. -/
def counted (charges : List Charge) (runId : RunId) : List Charge :=
  firsts Charge.key (charges.filter fun charge => charge.runId == runId)

def total (charges : List Charge) : Metric → ℚ := (charges.map fun charge => charge.delta.amounts).sum

/-- The usage a Run has stored. -/
def usageOf (s : Store) (runId : RunId) : Option BudgetUsage := ((s .runs).find? runId).map (·.usage)

structure Accounted (s : Store) (charges : List Charge) : Prop where
  usage : ∀ runId usage, usageOf s runId = some usage → usage.Valid ∧ usage.amounts = total (counted charges runId)
  unborn : ∀ runId, usageOf s runId = none → (charges.filter fun charge => charge.runId == runId) = []
  valid : ∀ runId, ∀ charge ∈ counted charges runId, charge.delta.Valid
  entries : ∀ runId, ((s .usageEntries).rows.filter fun row => row.runId == runId).map Charge.ofEntry =
    keyed Charge.key (counted charges runId)

section Usage
variable {s s' : Store} {k : Kind} {runId : RunId} {now : IsoTimestamp} {delta : BudgetDelta}

/-- The Runs keep their usage; a new one starts with none. -/
def UsageKept (s s' : Store) : Prop := ∀ runId, usageOf s' runId = usageOf s runId ∨
  usageOf s runId = none ∧ usageOf s' runId = some emptyBudgetUsage

theorem UsageKept.trans {s'' : Store} (first : UsageKept s s') (second : UsageKept s' s'') : UsageKept s s'' := by
  intro runId
  rcases first runId with same | ⟨absent, new⟩
  · rw [← same]
    exact second runId
  · rcases second runId with same | ⟨missing, -⟩
    · exact .inr ⟨absent, same.trans new⟩
    · rw [new] at missing
      cases missing

private theorem RowStep.usage {fresh : RunRow → Prop} {first last : Option RunRow}
    (step : RowStep (RunKept k) fresh first last) (plain : k ≠ .counters)
    (unspent : ∀ run, fresh run → run.usage = emptyBudgetUsage) :
    last.map (·.usage) = first.map (·.usage) ∨
      first.map (·.usage) = none ∧ last.map (·.usage) = some emptyBudgetUsage := by
  cases step with
  | absent => exact .inl rfl
  | fresh new => exact .inr ⟨rfl, congrArg some (unspent _ new)⟩
  | kept same => exact .inl (congrArg some (same.usage.resolve_right plain))

private theorem RowStep.usage_same {fresh : RunRow → Prop} {first last : Option RunRow}
    (step : RowStep (RunKept k) fresh first last) (plain : k ≠ .counters) (old : ∀ run, ¬ fresh run) :
    last.map (·.usage) = first.map (·.usage) := by
  cases step with
  | absent => rfl
  | fresh new => exact absurd new (old _)
  | kept same => exact congrArg some (same.usage.resolve_right plain)

theorem Effect.usage_kept (effect : Effect k s s') (plain : k ≠ .counters) : UsageKept s s' :=
  fun runId => RowStep.usage (effect.runs runId) plain fun _ new => new.2.2

theorem Effect.usage_same (effect : Effect k s s') (plain : k ≠ .counters) (old : k ≠ .created) (runId : RunId) :
    usageOf s' runId = usageOf s runId := RowStep.usage_same (effect.runs runId) plain fun _ new => old new.1

/-- A call that is no charge and takes no lease keeps every usage. -/
theorem Call.usage_kept (s : Store) {call : Call} (plain : Kind.counters ∉ call.kinds) :
    UsageKept s (call.perform s) := by
  have moves := Call.moves s call
  generalize call.perform s = last at moves ⊢
  induction moves with
  | refl => exact fun _ => .inl rfl
  | tail _ last ih =>
    obtain ⟨⟨k, can, effect⟩, -⟩ := last
    exact ih.trans (effect.usage_kept fun same => plain (same ▸ can))

theorem appended_usage {type : RunEventType} {payload : JsonObject} {leaseGeneration : Option Nat} {event : RunEvent}
    {other : RunId} (appended : appendEventInternal runId type payload now leaseGeneration s = .ok event s') :
    usageOf s' other = usageOf s other :=
  (Effect.event appended).usage_same (by simp) (by simp) other

/-- A charge adds to the usage of its Run and to no other. -/
theorem recordUsageInternal_usage {run : Run} (charged : recordUsageInternal runId delta now s = .ok run s') :
    ∃ usage, usageOf s runId = some usage ∧ usage.Valid ∧ delta.Valid ∧
      ∀ other, usageOf s' other = if other = runId then some (usage.plus delta) else usageOf s other := by
  obtain ⟨row, usage, exhausted, found, added, -, limited, -⟩ := recordUsageInternal_ok.mp charged
  obtain ⟨valid, given, rfl⟩ := addBudgetUsage_ok.mp added
  have written : ∀ other, usageOf (withUsage s runId (row.usage.plus delta) now) other =
      if other = runId then some (row.usage.plus delta) else usageOf s other := by
    intro other
    rw [usageOf, withUsage, Db.set_same, Keyed.find?_update]
    split
    next same =>
      subst same
      rw [found]
      simp [(Keyed.find?_eq_some.mp found).2]
    next apart =>
      rw [usageOf]
      cases stored : (s .runs).find? other with
      | none => rfl
      | some old =>
        have differs : ¬ old.id = runId := fun same => apart ((Keyed.find?_eq_some.mp stored).2.symm.trans same)
        simp [differs]
  refine ⟨row.usage, by rw [usageOf, found, Option.map_some], valid, given, fun other => ?_⟩
  rcases limited with ⟨-, moved⟩ | ⟨-, rfl⟩
  · rw [← written]
    exact (Effect.transition moved).usage_same (by simp) (by simp) other
  · exact written other

end Usage

/-! What one call charges. -/

/-- A charge goes to one Run, and to its entries when it carries a key. -/
structure Charges (s s' : Store) (charge : Charge) : Prop where
  added : ∃ usage, usageOf s charge.runId = some usage ∧ usage.Valid ∧ charge.delta.Valid ∧
    ∀ other, usageOf s' other = if other = charge.runId then some (usage.plus charge.delta) else usageOf s other
  unkeyed : charge.entry = none → s' .usageEntries = s .usageEntries
  keyed : ∀ entry, charge.entry = some entry → ∃ row, Charge.ofEntry row = charge ∧
    (s .usageEntries).find? (charge.runId, entry.key) = none ∧ s' .usageEntries = (s .usageEntries).insert row

/-- What can come of a call: it charges nothing, makes one charge, or repeats an entry. -/
inductive Charging (s : Store) (call : Call) : Prop
  | free (none : call.charges s = []) (usage : UsageKept s (call.perform s))
      (entries : (call.perform s) .usageEntries = s .usageEntries)
  | charged {charge : Charge} (one : call.charges s = [charge]) (charges : Charges s (call.perform s) charge)
  | repeated {charge : Charge} {entry : UsageEntry} (one : call.charges s = [charge]) (given : charge.entry = some entry)
      (taken : ((s .usageEntries).find? (charge.runId, entry.key)).isSome = true) (same : call.perform s = s)

section Calls
variable {s s' : Store} {clock : Date} {delta : BudgetDelta}

theorem UsageKept.of_eq (same : s' = s) : UsageKept s s' := fun _ => .inl (by rw [same])

def newUsageEntry (lease : FencedLease) (entry : UsageEntry) (delta : BudgetDelta) (now : IsoTimestamp) :
    UsageEntryRow where
  runId := lease.runId
  entryKey := entry.key
  agentId := entry.agentId
  delta := delta
  leaseGeneration := lease.generation
  createdAt := now

/-- The store with one more usage entry. -/
def withEntry (s : Store) (row : UsageEntryRow) : Store := s.set .usageEntries ((s .usageEntries).insert row)

theorem recordUsageFenced_ok {lease : FencedLease} {entry : Option UsageEntry} {run : Run} :
    recordUsageFenced lease delta entry clock s = .ok run s' ↔
      CurrentLease s lease clock.toISOString ∧
        ((entry = none ∧ recordUsageInternal lease.runId delta clock.toISOString s = .ok run s') ∨
          ∃ given, entry = some given ∧
            ((((s .usageEntries).find? (lease.runId, given.key)).isSome = true ∧ mustRun lease.runId s = .ok run s') ∨
              (schema.Admits s .usageEntries (newUsageEntry lease given delta clock.toISOString) ∧
                recordUsageInternal lease.runId delta clock.toISOString
                  (withEntry s (newUsageEntry lease given delta clock.toISOString)) = .ok run s'))) := by
  have taken : ∀ given : UsageEntry,
      schema.Admits s .usageEntries (newUsageEntry lease given delta clock.toISOString) →
        ¬ ((s .usageEntries).find? (lease.runId, given.key)).isSome = true := by
    intro given admitted
    have fresh : (s .usageEntries).find? (lease.runId, given.key) = none := admitted.fresh
    rw [fresh]
    exact Bool.false_ne_true
  cases entry with
  | none =>
    simp only [recordUsageFenced, transaction_ok, bind_ok, assertLeaseInternal_ok]
    constructor
    · rintro ⟨_, _, ⟨current, rfl⟩, charged⟩
      exact ⟨current, .inl ⟨trivial, charged⟩⟩
    · rintro ⟨current, ⟨-, charged⟩ | ⟨_, impossible, -⟩⟩
      · exact ⟨(), _, ⟨current, rfl⟩, charged⟩
      · cases impossible
  | some given =>
    simp only [recordUsageFenced, transaction_ok, bind_ok, assertLeaseInternal_ok, find?_ok, ite_ok, insert_ok]
    constructor
    · rintro ⟨_, _, ⟨current, rfl⟩, _, _, ⟨rfl, rfl⟩, ⟨repeated, same⟩ | ⟨-, _, _, ⟨admitted, rfl⟩, charged⟩⟩
      · exact ⟨current, .inr ⟨given, rfl, .inl ⟨repeated, same⟩⟩⟩
      · exact ⟨current, .inr ⟨given, rfl, .inr ⟨admitted, charged⟩⟩⟩
    · rintro ⟨current, ⟨impossible, -⟩ | ⟨_, ⟨⟩, ⟨repeated, same⟩ | ⟨admitted, charged⟩⟩⟩
      · cases impossible
      · exact ⟨(), _, ⟨current, rfl⟩, _, _, ⟨rfl, rfl⟩, .inl ⟨repeated, same⟩⟩
      · exact ⟨(), _, ⟨current, rfl⟩, _, _, ⟨rfl, rfl⟩, .inr ⟨taken _ admitted, (), _, ⟨admitted, rfl⟩, charged⟩⟩

/-- A charge leaves the entries alone. -/
private theorem charged_entries {runId : RunId} {now : IsoTimestamp} {run : Run}
    (charged : recordUsageInternal runId delta now s = .ok run s') : s' .usageEntries = s .usageEntries :=
  charged_other charged (by simp) (by simp)

private theorem fails_of_ok {α : Type} {m : StoreM α} {a : α} (returned : m s = .ok a s') : fails m s = false := by
  rw [fails, returned]

private theorem fails_of_error {α : Type} {m : StoreM α} {e : StoreError} (failed : m s = .error e s') :
    fails m s = true := by
  rw [fails, failed]

private theorem performed {α : Type} {m : StoreM α} {call : Call} (runs : call.run = discard m) :
    call.perform s = after m s := by
  rw [Call.perform, runs, discard, after_map]

theorem recordUsage_charging (runId : RunId) : Charging s (.recordUsage runId delta clock) := by
  have after_call : (Call.recordUsage runId delta clock).perform s = after (recordUsage runId delta clock) s :=
    performed rfl
  cases outcome : recordUsage runId delta clock s with
  | error e s' =>
    have same : (Call.recordUsage runId delta clock).perform s = s := by
      rw [after_call, after_error outcome]
      exact transaction_error outcome
    refine .free ?_ (.of_eq same) (by rw [same])
    rw [Call.charges, fails_of_error outcome, if_pos rfl]
  | ok run s' =>
    have charged : recordUsageInternal runId delta clock.toISOString s = .ok run s' := transaction_ok.mp outcome
    have one : (Call.recordUsage runId delta clock).charges s = [⟨runId, none, delta⟩] := by
      rw [Call.charges, fails_of_ok outcome, if_neg Bool.false_ne_true]
    refine .charged one ?_
    rw [after_call, after_ok outcome]
    exact ⟨recordUsageInternal_usage charged, fun _ => charged_entries charged, fun _ impossible => by cases impossible⟩

theorem recordUsageFenced_charging (lease : FencedLease) (entry : Option UsageEntry) :
    Charging s (.recordUsageFenced lease delta entry clock) := by
  have after_call : (Call.recordUsageFenced lease delta entry clock).perform s =
      after (recordUsageFenced lease delta entry clock) s := performed rfl
  cases outcome : recordUsageFenced lease delta entry clock s with
  | error e s' =>
    have same : (Call.recordUsageFenced lease delta entry clock).perform s = s := by
      rw [after_call, after_error outcome]
      exact transaction_error outcome
    refine .free ?_ (.of_eq same) (by rw [same])
    rw [Call.charges, fails_of_error outcome, if_pos rfl]
  | ok run s' =>
    have one : (Call.recordUsageFenced lease delta entry clock).charges s = [⟨lease.runId, entry, delta⟩] := by
      rw [Call.charges, fails_of_ok outcome, if_neg Bool.false_ne_true]
    rw [after_ok outcome] at after_call
    obtain ⟨-, ⟨rfl, charged⟩ | ⟨given, rfl, ⟨taken, known⟩ | ⟨admitted, charged⟩⟩⟩ := recordUsageFenced_ok.mp outcome
    · refine .charged one ?_
      rw [after_call]
      exact ⟨recordUsageInternal_usage charged, fun _ => charged_entries charged, fun _ impossible => by cases impossible⟩
    · obtain ⟨row, -, -, same⟩ := mustRun_ok.mp known
      exact .repeated one rfl taken (after_call.trans same)
    · refine .charged one ?_
      rw [after_call]
      have runs : ∀ runId, usageOf (withEntry s (newUsageEntry lease given delta clock.toISOString)) runId =
          usageOf s runId := fun runId => by
        rw [usageOf, withEntry, Db.set_other _ _ (by simp), usageOf]
      obtain ⟨usage, stored, valid, positive, added⟩ := recordUsageInternal_usage charged
      refine ⟨⟨usage, (runs _).symm.trans stored, valid, positive, fun other => ?_⟩, fun impossible => ?_, ?_⟩
      · rw [added, runs]
      · cases impossible
      · rintro _ ⟨⟩
        refine ⟨newUsageEntry lease given delta clock.toISOString, rfl, admitted.fresh, ?_⟩
        rw [charged_entries charged, withEntry, Db.set_same]

theorem exhausts_iff {input : ToolIntentInput} {now : IsoTimestamp} :
    exhausts input now s = true ↔ CurrentLease s input.lease now ∧
      ∃ run charged, chargeIntent input now s = .ok run charged ∧ run.status.isLimited := by
  have checked : ∀ run charged, (do
      assertLeaseInternal input.lease now
      chargeIntent input now : StoreM Run) s = .ok run charged ↔
        CurrentLease s input.lease now ∧ chargeIntent input now s = .ok run charged := by
    intro run charged
    simp only [bind_ok, assertLeaseInternal_ok]
    constructor
    · rintro ⟨_, _, ⟨current, rfl⟩, charge⟩
      exact ⟨current, charge⟩
    · rintro ⟨current, charge⟩
      exact ⟨(), _, ⟨current, rfl⟩, charge⟩
  unfold exhausts
  split
  next run charged outcome =>
    obtain ⟨current, charge⟩ := (checked _ _).mp outcome
    simp only [Bool.or_eq_true, beq_iff_eq]
    constructor
    · exact fun limited => ⟨current, run, charged, charge, limited⟩
    · rintro ⟨-, _, _, again, limited⟩
      cases charge.symm.trans again
      exact limited
  next e charged outcome =>
    refine iff_of_false Bool.false_ne_true ?_
    rintro ⟨current, run, charged, charge, -⟩
    cases outcome.symm.trans ((checked _ _).mpr ⟨current, charge⟩)

/-- A refused intent is charged all the same. -/
theorem recordToolIntent_exhausted {input : ToolIntentInput} (uuid : String) {run : Run} {charged : Store}
    (current : CurrentLease s input.lease clock.toISOString)
    (charge : chargeIntent input clock.toISOString s = .ok run charged) (limited : run.status.isLimited) :
    ∃ e, recordToolIntent input uuid clock s = .error e charged := by
  have fenced := current.accepted
  have counted : recordUsageInternal input.lease.runId { toolCalls := some 1 } clock.toISOString s = .ok run charged :=
    charge
  refine ⟨.failure ("Run '" ++ input.lease.runId ++ "' cannot begin another tool call because its budget is exhausted."), ?_⟩
  have stopped : run.status = .budgetLimited ∨ run.status = .usageLimited := limited
  simp only [recordToolIntent, transaction, bind_apply, fenced, counted, if_pos stopped]
  rfl

theorem recordToolIntent_charging (input : ToolIntentInput) (uuid : String) :
    Charging s (.recordToolIntent input uuid clock) := by
  have after_call : (Call.recordToolIntent input uuid clock).perform s =
      after (recordToolIntent input uuid clock) s := performed rfl
  cases outcome : recordToolIntent input uuid clock s with
  | ok id s' =>
    obtain ⟨-, -, run, charged, authorized, steps⟩ := recordToolIntent_ok.mp outcome
    refine .charged (by rw [Call.charges, fails_of_ok outcome, Bool.false_and, if_neg Bool.false_ne_true]) ?_
    rw [after_call, after_ok outcome]
    obtain ⟨event, journaled⟩ := steps.journaled
    have authorize : authorized .usageEntries = charged .usageEntries ∧
        ∀ runId, usageOf authorized runId = usageOf charged runId := by
      rcases given_ok.mp steps.authorize with ⟨-, rfl⟩ | ⟨approvalId, -, consumed⟩
      · exact ⟨rfl, fun _ => rfl⟩
      · obtain ⟨approval, event, -, -, -, journaled⟩ := consumeApproval_ok.mp consumed
        refine ⟨?_, fun runId => ?_⟩
        · rw [appended_other journaled (by simp) (by simp), withConsumed, Db.set_other _ _ (by simp)]
        · rw [appended_usage journaled, usageOf, withConsumed, Db.set_other _ _ (by simp), usageOf]
    obtain ⟨usage, stored, valid, given, added⟩ := recordUsageInternal_usage steps.charge
    refine ⟨⟨usage, stored, valid, given, fun other => ?_⟩, fun _ => ?_, fun _ impossible => by cases impossible⟩
    · rw [← added, ← authorize.2, appended_usage journaled, usageOf, Db.set_other _ _ (by simp), usageOf]
    · rw [appended_other journaled (by simp) (by simp), Db.set_other _ _ (by simp), authorize.1,
        charged_entries steps.charge]
  | error e s' =>
    by_cases exhausted : exhausts input clock.toISOString s = true
    · obtain ⟨current, run, charged, charge, limited⟩ := exhausts_iff.mp exhausted
      obtain ⟨e, refused⟩ := recordToolIntent_exhausted uuid current charge limited
      refine .charged (by rw [Call.charges, exhausted, Bool.not_true, Bool.and_false, if_neg Bool.false_ne_true]) ?_
      rw [after_call, after_error refused]
      exact ⟨recordUsageInternal_usage charge, fun _ => charged_entries charge, fun _ impossible => by cases impossible⟩
    · have same : s' = s := by
        rcases recordToolIntent_error outcome with same | ⟨current, run, charge, limited⟩
        · exact same
        · exact absurd (exhausts_iff.mpr ⟨current, run, s', charge, limited⟩) exhausted
      have left : (Call.recordToolIntent input uuid clock).perform s = s := by rw [after_call, after_error outcome, same]
      refine .free ?_ (.of_eq left) (by rw [left])
      rw [Call.charges, fails_of_error outcome, Bool.eq_false_iff.mpr exhausted]
      rfl

theorem writeLease_runs {input : AcquireLeaseInput} {timestamp expiresAt : IsoTimestamp} {u : Unit}
    {existing : Option RunLeaseRow} (written : writeLease input timestamp expiresAt existing s = .ok u s') :
    s' .runs = s .runs := by
  cases existing with
  | some old =>
    obtain ⟨_, middle, allowed, updated⟩ := bind_ok.mp written
    rw [update_ok.mp updated, (require_ok.mp allowed).2, Db.set_other _ _ (by simp)]
  | none =>
    rw [(insert_ok.mp written).2, Db.set_other _ _ (by simp)]

/-- Taking a lease counts an epoch and no usage. -/
theorem acquireLease_usage (input : AcquireLeaseInput) :
    UsageKept s ((Call.acquireLease input clock).perform s) := by
  rw [Call.perform, Call.run, discard, after_map]
  cases outcome : acquireLease input clock s with
  | error e s' =>
    rw [after_error outcome]
    exact .of_eq (acquireLease_atomic _ _ _ outcome)
  | ok lease s' =>
    rw [after_ok outcome]
    simp only [acquireLease, takeLease, bind_ok, expect_ok, transaction_ok, find?_ok, update_ok, mustLease_ok]
      at outcome
    obtain ⟨expiry, _, ⟨-, rfl⟩, existing, _, ⟨-, rfl⟩, _, middle, written, _, last, updated, -, rfl⟩ := outcome
    refine fun runId => .inl ?_
    rw [usageOf, updated, Db.set_same, Keyed.find?_update, writeLease_runs written, usageOf, Option.map_map]
    congr 1
    funext run
    simp only [Function.comp_apply]
    split <;> rfl

theorem Call.charging (s : Store) (call : Call) : Charging s call := by
  have counters : ∀ {call : Call}, Kind.counters ∉ call.kinds → call.charges s = [] →
      call.writes .usageEntries = false → Charging s call := fun plain none apart =>
    .free none (Call.usage_kept s plain) (Call.frame _ apart)
  cases call with
  | recordUsage runId delta clock => exact recordUsage_charging runId
  | recordUsageFenced lease delta entry clock => exact recordUsageFenced_charging lease entry
  | recordToolIntent input uuid clock => exact recordToolIntent_charging input uuid
  | acquireLease input clock => exact .free rfl (acquireLease_usage input) (Call.frame _ rfl)
  | appendFencedEvent input clock =>
    refine counters ?_ rfl (Call.appendFencedEvent_writes rfl rfl)
    simp only [Call.kinds]
    split <;> simp
  | _ => exact counters (by simp [Call.kinds]) rfl rfl

end Calls

/-! The accounts of a history. -/

section Accounts
variable {s s' : Store} {charges : List Charge} {charge : Charge} {runId : RunId}

theorem total_concat : total (charges ++ [charge]) = total charges + charge.delta.amounts := by
  simp [total]

theorem counted_other (apart : charge.runId ≠ runId) : counted (charges ++ [charge]) runId = counted charges runId := by
  have dropped : [charge].filter (fun charge => charge.runId == runId) = [] := by simp [apart]
  rw [counted, List.filter_append, dropped, List.append_nil, counted]

theorem counted_mine : counted (charges ++ [charge]) charge.runId =
    if repeats Charge.key (counted charges charge.runId) charge then counted charges charge.runId
    else counted charges charge.runId ++ [charge] := by
  have kept : [charge].filter (fun other => other.runId == charge.runId) = [charge] := by simp
  rw [counted, List.filter_append, kept, firsts_concat, counted]

theorem Accounted.repeats_iff {entry : UsageEntry} (accounted : Accounted s charges)
    (given : charge.entry = some entry) :
    repeats Charge.key (counted charges charge.runId) charge =
      ((s .usageEntries).find? (charge.runId, entry.key)).isSome := by
  have keyed : charge.key = some entry.key := by rw [Charge.key, given, Option.map_some]
  rw [← repeats_keyed, ← accounted.entries, repeats, keyed, Option.any_some, Bool.eq_iff_iff, List.any_map,
    List.any_eq_true, Option.isSome_iff_exists]
  constructor
  · rintro ⟨row, inside, same⟩
    obtain ⟨member, mine⟩ := List.mem_filter.mp inside
    refine ⟨row, Keyed.find?_eq_some.mpr ⟨member, ?_⟩⟩
    simp only [Function.comp_apply, Charge.key, Charge.ofEntry, Option.map_some, beq_iff_eq, Option.some.injEq] at same
    exact Prod.ext (eq_of_beq mine) same
  · rintro ⟨row, found⟩
    obtain ⟨member, same⟩ := Keyed.find?_eq_some.mp found
    obtain ⟨mine, equal⟩ := Prod.mk.inj same
    refine ⟨row, List.mem_filter.mpr ⟨member, beq_iff_eq.mpr mine⟩, ?_⟩
    simp [Charge.key, Charge.ofEntry, equal]

theorem Accounted.free (accounted : Accounted s charges) (kept : UsageKept s s')
    (entries : s' .usageEntries = s .usageEntries) : Accounted s' charges := by
  refine ⟨fun runId usage stored => ?_, fun runId absent => ?_, accounted.valid, fun runId => ?_⟩
  · rcases kept runId with same | ⟨absent, new⟩
    · exact accounted.usage runId usage (same ▸ stored)
    · obtain rfl := Option.some.inj (new.symm.trans stored)
      have none : counted charges runId = [] := by rw [counted, accounted.unborn runId absent]; rfl
      exact ⟨emptyBudgetUsage_valid, by rw [none, emptyBudgetUsage_amounts]; rfl⟩
  · rcases kept runId with same | ⟨-, new⟩
    · exact accounted.unborn runId (same ▸ absent)
    · rw [new] at absent
      cases absent
  · rw [entries]
    exact accounted.entries runId

/-- A charge that repeats no entry adds up. -/
theorem Accounted.charged (accounted : Accounted s charges) (charged : Charges s s' charge) :
    Accounted s' (charges ++ [charge]) := by
  obtain ⟨⟨usage, stored, valid, given, added⟩, unkeyed, keyed⟩ := charged
  have first : repeats Charge.key (counted charges charge.runId) charge = false := by
    cases carried : charge.entry with
    | none => simp [repeats, Charge.key, carried]
    | some entry =>
      obtain ⟨row, -, fresh, -⟩ := keyed entry carried
      rw [accounted.repeats_iff carried, fresh]
      rfl
  have mine : counted (charges ++ [charge]) charge.runId = counted charges charge.runId ++ [charge] := by
    rw [counted_mine, first, if_neg Bool.false_ne_true]
  refine ⟨fun runId total stored' => ?_, fun runId absent => ?_, fun runId other member => ?_, fun runId => ?_⟩
  · rw [added] at stored'
    split at stored'
    next same =>
      subst same
      cases stored'
      obtain ⟨-, amounts⟩ := accounted.usage _ usage stored
      refine ⟨valid.plus given, ?_⟩
      rw [valid.amounts_plus given, amounts, mine, total_concat]
    next apart =>
      rw [counted_other (Ne.symm apart)]
      exact accounted.usage runId total stored'
  · rw [added] at absent
    split at absent
    next => cases absent
    next apart =>
      rw [List.filter_append, accounted.unborn runId absent]
      simp [Ne.symm apart]
  · by_cases same : charge.runId = runId
    · subst same
      rw [mine] at member
      rcases List.mem_append.mp member with earlier | now
      · exact accounted.valid _ other earlier
      · exact List.mem_singleton.mp now ▸ given
    · rw [counted_other same] at member
      exact accounted.valid runId other member
  · have before := accounted.entries runId
    cases carried : charge.entry with
    | none =>
      rw [unkeyed carried, before]
      by_cases same : charge.runId = runId
      · subst same
        rw [mine, keyed_concat]
        simp [Charge.key, carried]
      · rw [counted_other same]
    | some entry =>
      obtain ⟨row, rfl, fresh, inserted⟩ := keyed entry carried
      cases carried
      rw [inserted, Keyed.insert_rows fresh, List.filter_append, List.map_append, before]
      by_cases same : row.runId = runId
      · subst same
        have kept : [row].filter (fun other => other.runId == row.runId) = [row] := by simp
        change _ = Tally.keyed Charge.key (counted (charges ++ [Charge.ofEntry row]) (Charge.ofEntry row).runId)
        rw [mine, keyed_concat, kept]
        rfl
      · have dropped : [row].filter (fun other => other.runId == runId) = [] := by simp [same]
        have apart : (Charge.ofEntry row).runId ≠ runId := same
        rw [counted_other apart, dropped, List.map_nil, List.append_nil]

theorem Accounted.repeated {entry : UsageEntry} (accounted : Accounted s charges) (given : charge.entry = some entry)
    (taken : ((s .usageEntries).find? (charge.runId, entry.key)).isSome = true) :
    Accounted s (charges ++ [charge]) := by
  have again : repeats Charge.key (counted charges charge.runId) charge = true := by
    rw [accounted.repeats_iff given, taken]
  have same : ∀ runId, counted (charges ++ [charge]) runId = counted charges runId := by
    intro runId
    by_cases mine : charge.runId = runId
    · subst mine
      rw [counted_mine, if_pos again]
    · exact counted_other mine
  refine ⟨fun runId => ?_, fun runId absent => ?_, fun runId => ?_, fun runId => ?_⟩
  · rw [same]
    exact accounted.usage runId
  · have earlier := accounted.unborn runId absent
    by_cases mine : charge.runId = runId
    · subst mine
      have none : counted charges charge.runId = [] := by rw [counted, earlier]; rfl
      rw [none, repeats, Option.any_eq_true] at again
      obtain ⟨k, -, impossible⟩ := again
      cases impossible
    · rw [List.filter_append, earlier]
      simp [mine]
  · rw [same]
    exact accounted.valid runId
  · rw [same]
    exact accounted.entries runId

end Accounts

/-! Shares. -/

section Shares
variable {s : Store}

def sumOfShares (totals : List (String × BudgetUsage)) : Metric → ℚ := (totals.map fun share => share.2.amounts).sum

theorem addShare_adds (agentId : String) {delta : BudgetDelta} {totals : List (String × BudgetUsage)}
    (given : delta.Valid) (valid : ∀ share ∈ totals, share.2.Valid) :
    ∃ totals', addShare agentId delta totals = .ok totals' ∧ (∀ share ∈ totals', share.2.Valid) ∧
      sumOfShares totals' = sumOfShares totals + delta.amounts := by
  induction totals with
  | nil =>
    have added : addBudgetUsage emptyBudgetUsage delta = .ok (emptyBudgetUsage.plus delta) :=
      addBudgetUsage_ok.mpr ⟨emptyBudgetUsage_valid, given, rfl⟩
    refine ⟨[(agentId, emptyBudgetUsage.plus delta)], by rw [addShare, added]; rfl, ?_, ?_⟩
    · intro share member
      obtain rfl := List.mem_singleton.mp member
      exact emptyBudgetUsage_valid.plus given
    · simp [sumOfShares, emptyBudgetUsage_valid.amounts_plus given, emptyBudgetUsage_amounts]
  | cons share rest ih =>
    obtain ⟨other, usage⟩ := share
    have first : usage.Valid := valid (other, usage) (by simp)
    by_cases mine : other = agentId
    · have added : addBudgetUsage usage delta = .ok (usage.plus delta) := addBudgetUsage_ok.mpr ⟨first, given, rfl⟩
      refine ⟨(other, usage.plus delta) :: rest, by rw [addShare, if_pos mine, added]; rfl, ?_, ?_⟩
      · intro share member
        rcases List.mem_cons.mp member with rfl | later
        · exact first.plus given
        · exact valid share (List.mem_cons_of_mem _ later)
      · simp only [sumOfShares, List.map_cons, List.sum_cons, first.amounts_plus given]
        exact add_right_comm _ _ _
    · obtain ⟨totals', added, valid', sum⟩ := ih fun share member => valid share (List.mem_cons_of_mem _ member)
      refine ⟨(other, usage) :: totals', by rw [addShare, if_neg mine, added]; rfl, ?_, ?_⟩
      · intro share member
        rcases List.mem_cons.mp member with rfl | later
        · exact first
        · exact valid' share later
      · simp only [sumOfShares, List.map_cons, List.sum_cons] at sum ⊢
        rw [sum, add_assoc]

theorem addShares_add {rows : List UsageEntryRow} (totals : List (String × BudgetUsage))
    (given : ∀ row ∈ rows, row.delta.Valid) (valid : ∀ share ∈ totals, share.2.Valid) :
    ∃ totals', rows.foldlM (fun totals row => addShare (row.agentId.getD "") row.delta totals) totals = .ok totals' ∧
      sumOfShares totals' = sumOfShares totals + (rows.map fun row => row.delta.amounts).sum := by
  induction rows generalizing totals with
  | nil => exact ⟨totals, rfl, by simp⟩
  | cons row rest ih =>
    obtain ⟨middle, added, valid', sum⟩ := addShare_adds (row.agentId.getD "") (given row (by simp)) valid
    obtain ⟨totals', later, total⟩ := ih middle (fun row member => given row (List.mem_cons_of_mem _ member)) valid'
    refine ⟨totals', ?_, ?_⟩
    · rw [List.foldlM_cons, added]
      exact later
    · rw [total, sum, List.map_cons, List.sum_cons, add_assoc]

/-- The shares of a Run add up to its keyed charges. -/
theorem usageByAgent_sums {charges : List Charge} (accounted : Accounted s charges) (runId : RunId) :
    ∃ shares, usageByAgent runId s = .ok shares s ∧
      (shares.map fun share => share.2.amounts).sum = total (keyed Charge.key (counted charges runId)) := by
  let stored := (s .usageEntries).rows.filter fun row => row.runId == runId
  let rows := stored.insertionSort fun row other => row.createdAt ≤ other.createdAt
  have same : rows.Perm stored := List.perm_insertionSort _ _
  have given : ∀ row ∈ rows, row.delta.Valid := by
    intro row member
    have inside : Charge.ofEntry row ∈ keyed Charge.key (counted charges runId) := by
      rw [← accounted.entries]
      exact List.mem_map.mpr ⟨row, same.mem_iff.mp member, rfl⟩
    exact accounted.valid runId _ (List.mem_filter.mp inside).1
  obtain ⟨totals, added, sum⟩ := addShares_add [] given (by simp)
  refine ⟨totals.map fun share => (if share.1.isEmpty then none else some share.1, share.2), ?_, ?_⟩
  · simp only [usageByAgent, bind_ok, select_ok, assertInvariant_ok, pure_ok]
    exact ⟨_, _, ⟨rfl, rfl⟩, totals, _, ⟨added, rfl⟩, rfl, rfl⟩
  · have entries : (stored.map fun row => row.delta.amounts).sum = total (keyed Charge.key (counted charges runId)) := by
      rw [← accounted.entries, total, List.map_map]
      rfl
    rw [List.map_map, ← entries, ← (same.map _).sum_eq]
    refine (sum.trans ?_)
    simp [sumOfShares]

end Shares

/-- The computation throws and leaves the store as it was. -/
def Refuses {α : Type} (m : StoreM α) (s : Store) : Prop := Throws m s ∧ after m s = s

theorem Atomic.refuses {α : Type} {s : Store} {m : StoreM α} (atomic : Atomic m) (never : ∀ a s', m s ≠ .ok a s') :
    Refuses m s := by
  obtain ⟨e, s', failed⟩ := throws_iff.mpr never
  exact ⟨⟨e, s', failed⟩, (after_error failed).trans (atomic _ _ _ failed)⟩

theorem accounted_storeAfter (history : List Call) : Accounted (storeAfter history) (chargesBy Store.empty history) := by
  induction history using List.reverseRecOn with
  | nil =>
    refine ⟨fun runId usage stored => ?_, fun _ _ => rfl, fun _ charge member => ?_, fun _ => rfl⟩
    · cases stored
    · cases member
  | append_singleton history call ih =>
    rw [storeAfter_concat, chargesBy, observed_concat, ← chargesBy]
    change Accounted _ (chargesBy Store.empty history ++ call.charges (storeAfter history))
    cases Call.charging (storeAfter history) call with
    | free none usage entries =>
      rw [none, List.append_nil]
      exact ih.free usage entries
    | charged one charges =>
      rw [one]
      exact ih.charged charges
    | repeated one given taken same =>
      rw [one, same]
      exact ih.repeated given taken

/-- After every history: the stored usage of a Run is the sum of the charges that count, the
first of each entry key and those without one; the per-agent shares add up to the keyed
part; and a call with an invalid delta or a stale lease is refused and leaves nothing. -/
theorem usage_charged_once (history : List Call) (runId : RunId) :
    (∀ run metric, ((storeAfter history) .runs).find? runId = some run →
      run.usage.get metric = .finite (total (counted (chargesBy Store.empty history) runId) metric)) ∧
    (∃ shares, usageByAgent runId (storeAfter history) = .ok shares (storeAfter history) ∧
      (shares.map fun share => share.2.amounts).sum =
        total (keyed Charge.key (counted (chargesBy Store.empty history) runId))) ∧
    (∀ delta clock, ¬ delta.Valid → Refuses (recordUsage runId delta clock) (storeAfter history)) ∧
    (∀ lease delta entry clock,
      (¬ CurrentLease (storeAfter history) lease clock.toISOString ∨
        ¬ delta.Valid ∧ ∀ given, entry = some given →
          ((storeAfter history) .usageEntries).find? (lease.runId, given.key) = none) →
        Refuses (recordUsageFenced lease delta entry clock) (storeAfter history)) ∧
    ∀ input uuid clock, ¬ CurrentLease (storeAfter history) input.lease clock.toISOString →
      Refuses (recordToolIntent input uuid clock) (storeAfter history) := by
  have accounted := accounted_storeAfter history
  refine ⟨fun run metric found => ?_, usageByAgent_sums accounted runId, fun delta clock invalid => ?_, ?_, ?_⟩
  · obtain ⟨valid, amounts⟩ := accounted.usage runId run.usage (by rw [usageOf, found, Option.map_some])
    rw [← amounts]
    exact (valid metric).eq
  · refine Atomic.refuses (.transaction _) fun run s' returned => invalid ?_
    obtain ⟨row, usage, exhausted, -, added, -⟩ := recordUsageInternal_ok.mp (transaction_ok.mp returned)
    exact (addBudgetUsage_ok.mp added).2.1
  · intro lease delta entry clock rejected
    refine Atomic.refuses (.transaction _) fun run s' returned => ?_
    obtain ⟨current, charged⟩ := recordUsageFenced_ok.mp returned
    obtain ⟨invalid, fresh⟩ := rejected.resolve_left fun stale => stale current
    rcases charged with ⟨-, charged⟩ | ⟨given, carried, ⟨taken, -⟩ | ⟨-, charged⟩⟩
    · obtain ⟨row, usage, exhausted, -, added, -⟩ := recordUsageInternal_ok.mp charged
      exact invalid (addBudgetUsage_ok.mp added).2.1
    · rw [fresh given carried] at taken
      cases taken
    · obtain ⟨row, usage, exhausted, -, added, -⟩ := recordUsageInternal_ok.mp charged
      exact invalid (addBudgetUsage_ok.mp added).2.1
  · intro input uuid clock stale
    cases outcome : recordToolIntent input uuid clock (storeAfter history) with
    | ok id s' => exact absurd (recordToolIntent_ok.mp outcome).2.1 stale
    | error e s' =>
      refine ⟨⟨e, s', outcome⟩, (after_error outcome).trans ?_⟩
      rcases recordToolIntent_error outcome with same | ⟨current, -⟩
      · exact same
      · exact absurd current stale

end OttiliCoder
