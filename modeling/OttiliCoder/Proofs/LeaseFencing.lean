import OttiliCoder.Library.Fencing
import OttiliCoder.Proofs.Sound

/-! Lease generations are fencing tokens: over every history of store calls, by any
executors and under any clock readings. -/

namespace OttiliCoder
open Fencing Relational Transaction

/-- The token a Run is leased under. -/
def leaseToken (s : Store) (runId : RunId) : Option (Token String) :=
  ((s .runLeases).find? runId).map fun lease => ⟨lease.holderId, lease.generation⟩

structure Grant where
  runId : RunId
  token : Token String

/-- What a call grants its executor when it succeeds. -/
def Call.grant (s : Store) : Call → Option Grant
  | acquireLease input clock =>
    match OttiliCoder.acquireLease input clock s with
    | .ok lease _ => some ⟨input.runId, ⟨input.executorId, lease.generation⟩⟩
    | .error _ _ => none
  | renewLease lease ttlMs clock =>
    match OttiliCoder.renewLease lease ttlMs clock s with
    | .ok renewed _ => some ⟨lease.runId, ⟨lease.executorId, renewed.generation⟩⟩
    | .error _ _ => none
  | _ => none

/-- The store with every grant it has made so far. -/
structure Recorded where
  store : Store
  grants : List Grant

def Recorded.perform (before : Recorded) (call : Call) : Recorded :=
  { store := call.perform before.store, grants := (call.grant before.store).toList ++ before.grants }

def recorded (history : List Call) : Recorded :=
  performAll (fun call record => record.perform call) history { store := Store.empty, grants := [] }

/-! What acquiring and renewing do to the stored token. -/

section Acquire
variable {s s' : Store} {clock : Date}

/-- The generation an acquisition leaves: the holder of a live lease keeps it, any
other acquisition is a new ownership epoch. -/
def nextGeneration (input : AcquireLeaseInput) (timestamp : IsoTimestamp) : Option RunLeaseRow → Nat
  | some old => old.generation + if old.holderId = input.executorId ∧ ¬ old.expiresAt ≤ timestamp then 0 else 1
  | none => 1

theorem writeLease_ok {input : AcquireLeaseInput} {timestamp expiresAt : IsoTimestamp} {u : Unit}
    {existing : Option RunLeaseRow} (stored : (s .runLeases).find? input.runId = existing)
    (written : writeLease input timestamp expiresAt existing s = .ok u s') :
    (∃ lease, (s' .runLeases).find? input.runId = some lease ∧ lease.holderId = input.executorId ∧
      lease.generation = nextGeneration input timestamp existing) ∧
    ∀ runId, runId ≠ input.runId → (s' .runLeases).find? runId = (s .runLeases).find? runId := by
  cases existing with
  | some old =>
    obtain ⟨_, middle, allowed, updated⟩ := bind_ok.mp written
    obtain rfl := (require_ok.mp allowed).2
    obtain rfl := update_ok.mp updated
    have same : old.runId = input.runId := (Keyed.find?_eq_some.mp stored).2
    rw [Db.set_same]
    refine ⟨?_, fun runId other => ?_⟩
    · rw [Keyed.find?_update, stored]
      exact ⟨_, rfl, by simp [same], by simp [same, nextGeneration]⟩
    · rw [Keyed.find?_update]
      cases found : (middle .runLeases).find? runId with
      | none => rfl
      | some row =>
        have apart : ¬ row.runId = input.runId := fun equal =>
          other ((Keyed.find?_eq_some.mp found).2.symm.trans equal)
        simp [apart]
  | none =>
    obtain ⟨admitted, rfl⟩ := insert_ok.mp written
    rw [Db.set_same]
    refine ⟨?_, fun runId other => ?_⟩
    · rw [Keyed.find?_insert admitted.fresh]
      exact ⟨_, if_pos rfl, rfl, rfl⟩
    · rw [Keyed.find?_insert admitted.fresh]
      exact if_neg fun same => other same.symm

theorem acquireLease_ok {input : AcquireLeaseInput} {lease : RunLeaseRow}
    (acquired : acquireLease input clock s = .ok lease s') :
    (s' .runLeases).find? input.runId = some lease ∧ lease.holderId = input.executorId ∧
      lease.generation = nextGeneration input clock.toISOString ((s .runLeases).find? input.runId) ∧
      ∀ runId, runId ≠ input.runId → (s' .runLeases).find? runId = (s .runLeases).find? runId := by
  simp only [acquireLease, takeLease, bind_ok, expect_ok, transaction_ok, find?_ok, update_ok, mustLease_ok] at acquired
  obtain ⟨expiry, _, ⟨-, rfl⟩, existing, _, ⟨stored, rfl⟩, _, middle, written, _, last, updated, found, rfl⟩ := acquired
  have kept : s' .runLeases = middle .runLeases := by
    rw [updated]
    exact Db.set_other _ _ (by simp)
  rw [kept] at found ⊢
  obtain ⟨⟨row, there, holder, generation⟩, others⟩ := writeLease_ok stored.symm written
  have same : row = lease := Option.some.inj (there.symm.trans found)
  rw [← stored]
  exact ⟨found, same ▸ holder, same ▸ generation, others⟩

theorem renewLease_ok {lease : FencedLease} {ttlMs : Int} {renewed : RunLeaseRow}
    (extended : renewLease lease ttlMs clock s = .ok renewed s') :
    (∀ runId, leaseToken s' runId = leaseToken s runId) ∧
      leaseToken s' lease.runId = some ⟨lease.executorId, renewed.generation⟩ := by
  simp only [renewLease, extendLease, transaction_ok, bind_ok, assertLeaseInternal_ok, expect_ok, update_ok,
    mustLease_ok] at extended
  obtain ⟨_, _, ⟨current, rfl⟩, expiry, before, ⟨-, rfl⟩, _, _, updated, found, rfl⟩ := extended
  have kept : ∀ runId, leaseToken s' runId = leaseToken before runId := by
    intro runId
    rw [leaseToken, updated, Db.set_same, Keyed.find?_update, Option.map_map, leaseToken]
    congr 1
    funext row
    simp only [Function.comp_apply]
    split <;> rfl
  refine ⟨kept, ?_⟩
  obtain ⟨row, stored, holder, -, -⟩ := current
  have held := kept lease.runId
  simp only [leaseToken, found, stored, Option.map_some, Option.some.injEq, Token.mk.injEq] at held ⊢
  exact ⟨held.1.trans holder, trivial⟩

theorem acquireLease_follows {input : AcquireLeaseInput} {lease : RunLeaseRow}
    (acquired : acquireLease input clock s = .ok lease s') (runId : RunId) :
    Follows (leaseToken s runId) (leaseToken s' runId) := by
  obtain ⟨found, holder, generation, others⟩ := acquireLease_ok acquired
  by_cases mine : runId = input.runId
  · subst mine
    rw [leaseToken, leaseToken, found]
    cases stored : (s .runLeases).find? input.runId with
    | none => exact .first
    | some old =>
      simp only [stored, nextGeneration] at generation
      by_cases live : old.holderId = input.executorId ∧ ¬ old.expiresAt ≤ clock.toISOString
      · have same : (⟨lease.holderId, lease.generation⟩ : Token String) = ⟨old.holderId, old.generation⟩ := by
          simp [generation, holder, live]
        rw [Option.map_some, Option.map_some, same]
        exact .same
      · rw [if_neg live] at generation
        exact .taken (by change old.generation < lease.generation; omega)
  · rw [leaseToken, leaseToken, others runId mine]
    exact .same

end Acquire

theorem acquireLease_atomic {input : AcquireLeaseInput} {clock : Date} : Atomic (acquireLease input clock) :=
  (ReadOnly.expect _ _).atomic_bind fun _ => .transaction _

theorem renewLease_atomic {lease : FencedLease} {ttlMs : Int} {clock : Date} : Atomic (renewLease lease ttlMs clock) :=
  .transaction _

/-! Every call. -/

section Calls
variable {s : Store}

theorem Call.token_same (call : Call) (plain : call.writes .runLeases = false) (runId : RunId) :
    leaseToken (call.perform s) runId = leaseToken s runId := by
  rw [leaseToken, call.frame plain, leaseToken]

/-- A Run's token stays, or is replaced by a larger one. -/
theorem Call.follows (call : Call) (runId : RunId) :
    Follows (leaseToken s runId) (leaseToken (call.perform s) runId) := by
  by_cases plain : call.writes .runLeases = false
  · rw [call.token_same plain]
    exact .same
  cases call with
  | acquireLease input clock =>
    rw [perform, run, discard, after_map]
    rcases acquireLease_atomic.cases with ⟨lease, acquired⟩ | ⟨-, same⟩
    · exact acquireLease_follows acquired runId
    · rw [same]
      exact .same
  | renewLease lease ttlMs clock =>
    rw [perform, run, discard, after_map]
    rcases renewLease_atomic.cases with ⟨renewed, extended⟩ | ⟨-, same⟩
    · rw [(renewLease_ok extended).1]
      exact .same
    · rw [same]
      exact .same
  | appendFencedEvent input clock => exact absurd (Call.appendFencedEvent_writes rfl rfl) plain
  | _ => exact absurd rfl plain

theorem Call.granted {call : Call} {grant : Grant} (granted : call.grant s = some grant) :
    leaseToken (call.perform s) grant.runId = some grant.token := by
  cases call with
  | acquireLease input clock =>
    rw [perform, run, discard, after_map]
    simp only [Call.grant] at granted
    split at granted
    next lease s' acquired =>
      cases granted
      obtain ⟨found, holder, -, -⟩ := acquireLease_ok acquired
      rw [after_ok acquired, leaseToken, found, Option.map_some, holder]
    next => cases granted
  | renewLease lease ttlMs clock =>
    rw [perform, run, discard, after_map]
    simp only [Call.grant] at granted
    split at granted
    next renewed s' extended =>
      cases granted
      rw [after_ok extended]
      exact (renewLease_ok extended).2
    next => cases granted
  | _ => cases granted

end Calls

/-! Whole histories. -/

def Recorded.tokens (record : Recorded) (runId : RunId) : List (Token String) :=
  (record.grants.filter fun grant => grant.runId == runId).map (·.token)

/-- The grants on a Run are fenced by the token it is leased under. -/
def FencedRun (runId : RunId) (record : Recorded) : Prop :=
  Fenced (leaseToken record.store runId) (record.tokens runId)

theorem FencedRun.perform {record : Recorded} {runId : RunId} (fenced : FencedRun runId record) (call : Call) :
    FencedRun runId (record.perform call) := by
  unfold FencedRun at fenced ⊢
  have follows := call.follows (s := record.store) runId
  cases granted : call.grant record.store with
  | none => simpa [Recorded.perform, Recorded.tokens, granted] using fenced.follows follows
  | some grant =>
    by_cases mine : grant.runId = runId
    · have held := Call.granted granted
      rw [mine] at held
      rw [held] at follows
      simpa [Recorded.perform, Recorded.tokens, granted, mine, held] using fenced.granted follows
    · simpa [Recorded.perform, Recorded.tokens, granted, mine] using fenced.follows follows

theorem recorded_fenced (history : List Call) (runId : RunId) : FencedRun runId (recorded history) := by
  have reached : Reached { store := Store.empty, grants := [] } (fun call record => Recorded.perform record call)
      (fun _ _ => True) (recorded history) :=
    Reached.performAll .start (allAllowed_of_forall fun _ _ => trivial)
  have start : FencedRun runId { store := Store.empty, grants := [] } := fenced_nil
  exact reached.invariant start fun record call _ fenced _ => FencedRun.perform fenced call

theorem Recorded.mem_tokens {record : Recorded} {grant : Grant} (member : grant ∈ record.grants) :
    grant.token ∈ record.tokens grant.runId :=
  List.mem_map.mpr ⟨grant, List.mem_filter.mpr ⟨member, by simp⟩, rfl⟩

/-- After every history of calls and for every Run: no further call lowers the stored
generation; an acquisition that changes the holder or takes an expired lease raises it;
no generation was granted to two executors; and no fencing check, at any clock reading,
accepts a generation below a granted one, or a granted one for another holder. -/
theorem lease_generations_fence (history : List Call) (runId : RunId) :
    (∀ call row, ((recorded history).store .runLeases).find? runId = some row →
      ∃ later, (((recorded history).perform call).store .runLeases).find? runId = some later ∧
        row.generation ≤ later.generation) ∧
    (∀ input clock row lease s', input.runId = runId →
      ((recorded history).store .runLeases).find? runId = some row →
      acquireLease input clock (recorded history).store = .ok lease s' →
      row.holderId ≠ input.executorId ∨ row.expiresAt ≤ clock.toISOString →
        (s' .runLeases).find? runId = some lease ∧ row.generation < lease.generation) ∧
    (∀ first ∈ (recorded history).grants, ∀ second ∈ (recorded history).grants,
      first.runId = runId → second.runId = runId → first.token.generation = second.token.generation →
        first.token.holder = second.token.holder) ∧
    ∀ grant ∈ (recorded history).grants, ∀ lease now, grant.runId = runId → lease.runId = runId →
      assertLeaseInternal lease now (recorded history).store = .ok () (recorded history).store →
        grant.token.generation ≤ lease.generation ∧
        (lease.generation = grant.token.generation → lease.executorId = grant.token.holder) := by
  have fenced : Fenced _ _ := recorded_fenced history runId
  refine ⟨fun call row found => ?_, fun input clock row lease s' mine found acquired supersedes => ?_,
    fun first one second other mine yours same => ?_, fun grant member lease now mine yours accepted => ?_⟩
  · have held : leaseToken (recorded history).store runId = some ⟨row.holderId, row.generation⟩ := by
      rw [leaseToken, found, Option.map_some]
    obtain ⟨token, later, larger⟩ := (call.follows runId).generation held
    obtain ⟨row', stored, rfl⟩ := Option.map_eq_some_iff.mp later
    exact ⟨row', stored, larger⟩
  · subst mine
    obtain ⟨stored, -, generation, -⟩ := acquireLease_ok acquired
    have epoch : ¬ (row.holderId = input.executorId ∧ ¬ row.expiresAt ≤ clock.toISOString) := by tauto
    simp only [found, nextGeneration, if_neg epoch] at generation
    exact ⟨stored, by omega⟩
  · exact fenced.apart _ (mine ▸ Recorded.mem_tokens one) _ (yours ▸ Recorded.mem_tokens other) same
  · obtain ⟨⟨row, found, holder, generation, -⟩, -⟩ := assertLeaseInternal_ok.mp accepted
    have held : leaseToken (recorded history).store runId = some ⟨lease.executorId, lease.generation⟩ := by
      rw [leaseToken, ← yours, found, Option.map_some, holder, generation]
    rw [held] at fenced
    exact fenced.checked (mine ▸ Recorded.mem_tokens member)

end OttiliCoder
