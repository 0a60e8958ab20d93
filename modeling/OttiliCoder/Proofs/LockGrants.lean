import OttiliCoder.Proofs.ResourceLocks
import OttiliCoder.Proofs.Sound

/-! When resource locks are granted: an identity is made of an executor, a Run, a clock
reading and a place, so two acquisitions at one reading get in each other's way. -/

namespace OttiliCoder
open Relational Transaction

namespace AcquireResourceLocksInput
variable (input : AcquireResourceLocksInput)

def generation : Nat := (input.lease.map (·.generation)).getD 0

/-- The identity of the lock on the scope at a place. -/
def lockId (timestamp : IsoTimestamp) (index : Nat) : String :=
  "lock_" ++ deterministicHash (EntityKind.event.text ++ ":" ++ input.runId ++ ":" ++ input.executorId ++ ":" ++ timestamp ++ ":" ++
    toString index)

def lock (timestamp expiresAt : IsoTimestamp) (item : ResourceScope × Nat) : ResourceLockRow where
  id := input.lockId timestamp item.2
  runId := input.runId
  taskId := input.taskId
  holderId := input.executorId
  scope := item.1
  expiresAt := expiresAt
  createdAt := timestamp
  leaseGeneration := input.generation

/-- The locks an acquisition does not delete: those of other Runs and of no earlier generation, if they have not expired. -/
def Stands (timestamp : IsoTimestamp) (lock : ResourceLockRow) : Prop :=
  ¬ (lock.runId = input.runId ∧ lock.leaseGeneration < input.generation) ∧ ¬ lock.expiresAt ≤ timestamp

def standing (s : Store) (timestamp : IsoTimestamp) : Keyed (key .resourceLocks) :=
  ((s .resourceLocks).filter fun row => !(row.runId == input.runId && row.leaseGeneration < input.generation)).filter
    fun row => !decide (row.expiresAt ≤ timestamp)

end AcquireResourceLocksInput

section
variable {s s' : Store} {input : AcquireResourceLocksInput} {lease : FencedLease} {timestamp expiresAt : IsoTimestamp} {ids : List String}

theorem mem_standing {lock : ResourceLockRow} :
    lock ∈ input.standing s timestamp ↔ lock ∈ s .resourceLocks ∧ input.Stands timestamp lock := by
  simp [AcquireResourceLocksInput.standing, AcquireResourceLocksInput.Stands, and_assoc, imp_iff_not_or]

/-- The lease is current and the Run's own. -/
structure LeasedFor (s : Store) (input : AcquireResourceLocksInput) (timestamp : IsoTimestamp) (lease : FencedLease) : Prop where
  given : input.lease = some lease
  own : lease.runId = input.runId
  current : CurrentLease s lease timestamp

/-- The check of a scope against the locks that are left. -/
theorem any_conflict_eq_false {locks : List ResourceLockRow} {scope : ResourceScope} :
    (locks.any fun lock => !(lock.holderId == input.executorId && lock.runId == input.runId &&
        lock.leaseGeneration == input.generation) && resourceScopesConflict scope lock.scope) = false ↔
      ∀ lock ∈ locks, lock.holder ≠ input.holder → resourceScopesConflict scope lock.scope = false := by
  rw [List.any_eq_false]
  refine forall₂_congr fun lock _ => ?_
  have mine : (lock.holderId == input.executorId && lock.runId == input.runId && lock.leaseGeneration == input.generation) = true ↔
      lock.holder = input.holder := by
    simp only [Bool.and_eq_true, beq_iff_eq, ResourceLockRow.holder, AcquireResourceLocksInput.holder, Prod.mk.injEq]
    tauto
  rw [Bool.and_eq_true, Bool.not_eq_true', ← Bool.not_eq_true, mine, not_and, Bool.not_eq_true]

theorem lockScopes_ok (leased : LeasedFor s input timestamp lease) :
    lockScopes input timestamp expiresAt s = .ok ids s' ↔
      (∀ scope ∈ input.scopes, ∀ lock ∈ input.standing s timestamp, lock.holder ≠ input.holder →
        resourceScopesConflict scope lock.scope = false) ∧
      (input.scopes.zipIdx.mapM fun item => do
        insertInto .resourceLocks (input.lock timestamp expiresAt item)
        return input.lockId timestamp item.2 : StoreM (List String)) (s.set .resourceLocks (input.standing s timestamp)) = .ok ids s' := by
  obtain ⟨given, own, current⟩ := leased
  have opened (body : FencedLease → StoreM Unit) : Transaction.given input.lease body = body lease := by
    rw [given]
    rfl
  unfold lockScopes
  simp only [transaction_ok, bind_ok, opened, assertLeaseInternal_ok, require_ok, delete_ok, select_ok, forM_require_ok]
  constructor
  · rintro ⟨_, _, ⟨_, _, ⟨-, rfl⟩, _, _, ⟨-, rfl⟩, rfl⟩, _, _, rfl, _, _, ⟨rfl, rfl⟩, _, _, ⟨clear, rfl⟩, inserted⟩
    simp only [Db.set_same, Db.set_set, List.filter_true] at clear inserted
    refine ⟨fun scope requested lock member => ?_, inserted⟩
    exact any_conflict_eq_false.mp (clear scope requested) lock member
  · rintro ⟨clear, inserted⟩
    refine ⟨(), _, ⟨(), s, ⟨current, rfl⟩, (), s, ⟨own, rfl⟩, rfl⟩, (), _, rfl, _, _, ⟨rfl, rfl⟩, (), _, ⟨fun scope requested => ?_, rfl⟩, ?_⟩
    · simp only [Db.set_same, List.filter_true]
      exact any_conflict_eq_false.mpr (clear scope requested)
    · simp only [Db.set_same, Db.set_set]
      exact inserted

theorem references_lock (db : Store) (rows : Keyed (key .resourceLocks)) (item : ResourceScope × Nat) :
    schema.references (db.set .resourceLocks rows) .resourceLocks (input.lock timestamp expiresAt item) =
      schema.references db .resourceLocks (input.lock timestamp expiresAt item) := rfl

/-- The identities of an acquisition's locks. -/
theorem zipIdx_lockIds : (input.scopes.zipIdx.map fun item => key .resourceLocks (input.lock timestamp expiresAt item)) =
    (List.range input.scopes.length).map (input.lockId timestamp) := by
  rw [← List.zipIdx_map_snd 0 input.scopes |>.trans List.range_eq_range'.symm, List.map_map]
  rfl

end

/-- Every scope is locked for whoever asked, and nothing else changes but for the locks that are deleted first. -/
def Granted (input : AcquireResourceLocksInput) (clock : Date) (s : Store) : Prop :=
  ∃ ids s' locks, acquireResourceLocks input clock s = .ok ids s' ∧
    (s' .resourceLocks).rows = (input.standing s clock.toISOString).rows ++ locks ∧
    ids = locks.map ResourceLockRow.id ∧ locks.map ResourceLockRow.scope = input.scopes ∧
    ∀ lock ∈ locks, lock.holder = input.holder ∧ some lock.expiresAt = (clock.plusMs? input.ttlMs).map Date.toISOString

/-- The identities the locks would have are apart, and free of the locks that are left. -/
structure Grantable (input : AcquireResourceLocksInput) (clock : Date) (s : Store) : Prop where
  timely : (clock.plusMs? input.ttlMs).isSome = true
  known : input.scopes ≠ [] → s.hasOptional .tasks input.taskId = true
  apart : ((List.range input.scopes.length).map (input.lockId clock.toISOString)).Nodup
  free : ∀ index < input.scopes.length, ∀ lock ∈ s .resourceLocks, input.Stands clock.toISOString lock →
    lock.id ≠ input.lockId clock.toISOString index

section
variable {s s' : Store} {input : AcquireResourceLocksInput} {lease : FencedLease} {clock : Date}

/-- No lock that another holder has and that has not expired is in the way. -/
def Unopposed (s : Store) (input : AcquireResourceLocksInput) (timestamp : IsoTimestamp) : Prop :=
  ∀ scope ∈ input.scopes, ∀ lock ∈ s .resourceLocks, ¬ lock.expiresAt ≤ timestamp → lock.holder ≠ input.holder →
    resourceScopesConflict scope lock.scope = false

theorem granted_iff (sound : Sound s) (leased : LeasedFor s input clock.toISOString lease)
    (unopposed : Unopposed s input clock.toISOString) : Granted input clock s ↔ Grantable input clock s := by
  obtain ⟨run, found⟩ := sound.leased leased.current
  rw [leased.own] at found
  have clear : ∀ scope ∈ input.scopes, ∀ lock ∈ input.standing s clock.toISOString, lock.holder ≠ input.holder →
      resourceScopesConflict scope lock.scope = false := by
    intro scope requested lock member other
    obtain ⟨stored, -, unexpired⟩ := mem_standing.mp member
    exact unopposed scope requested lock stored unexpired other
  have knows (item : ResourceScope × Nat) (expiresAt : IsoTimestamp) :
      schema.references s .resourceLocks (input.lock clock.toISOString expiresAt item) = s.hasOptional .tasks input.taskId := by
    change (s.has .runs input.runId && s.hasOptional .tasks input.taskId) = _
    rw [Store.has, found]
    rfl
  constructor
  · rintro ⟨ids, s', locks, returned, -⟩
    obtain ⟨expiry, middle, expected, locked⟩ := bind_ok.mp returned
    obtain ⟨timely, rfl⟩ := expect_ok.mp expected
    obtain ⟨-, inserted⟩ := (lockScopes_ok leased).mp locked
    obtain ⟨each, distinct, -⟩ := (mapM_insert_ok (fun _ _ => rfl) references_lock).mp inserted
    refine ⟨by rw [timely]; rfl, fun some => ?_, zipIdx_lockIds ▸ distinct, fun index inside lock member stands same => ?_⟩
    · obtain ⟨item, listed⟩ := List.exists_mem_of_ne_nil input.scopes.zipIdx (by simpa using some)
      exact (knows item _).symm.trans (each item listed).2
    · have listed : (input.scopes[index], index) ∈ input.scopes.zipIdx := by
        rw [List.mk_mem_zipIdx_iff_getElem?]
        exact List.getElem?_eq_getElem inside
      have fresh := (each _ listed).1
      rw [Db.set_same] at fresh
      exact Keyed.find?_eq_none.mp fresh lock (mem_standing.mpr ⟨member, stands⟩) same
  · rintro ⟨timely, known, apart, free⟩
    obtain ⟨expiry, timely⟩ := Option.isSome_iff_exists.mp timely
    have each : ∀ item ∈ input.scopes.zipIdx,
        ((s.set .resourceLocks (input.standing s clock.toISOString)) .resourceLocks).find?
          (key .resourceLocks (input.lock clock.toISOString expiry.toISOString item)) = none ∧
        schema.references (s.set .resourceLocks (input.standing s clock.toISOString)) .resourceLocks
          (input.lock clock.toISOString expiry.toISOString item) = true := by
      intro item listed
      have inside : item.2 < input.scopes.length := by
        have indexed := (List.mem_zipIdx' listed).1
        exact indexed
      refine ⟨?_, (knows item _).trans (known ?_)⟩
      · rw [Db.set_same, Keyed.find?_eq_none]
        intro lock member
        obtain ⟨stored, stands⟩ := mem_standing.mp member
        exact free item.2 inside lock stored stands
      · exact List.ne_nil_of_length_pos (by omega)
    have distinct : (input.scopes.zipIdx.map fun item =>
        key .resourceLocks (input.lock clock.toISOString expiry.toISOString item)).Nodup := by
      rwa [zipIdx_lockIds]
    have fresh : ∀ lock ∈ input.scopes.zipIdx.map (input.lock clock.toISOString expiry.toISOString),
        (input.standing s clock.toISOString).find? (key .resourceLocks lock) = none := by
      intro lock added
      obtain ⟨item, listed, rfl⟩ := List.mem_map.mp added
      have free := (each item listed).1
      rw [Db.set_same] at free
      exact free
    obtain ⟨rows, appended⟩ := Keyed.exists_append (by rwa [List.map_map]) fresh
    have locked := (lockScopes_ok leased).mpr ⟨clear, (mapM_insert_ok (fun _ _ => rfl) references_lock).mpr
      ⟨each, distinct, rfl, rows, by rwa [Db.set_same], rfl⟩⟩
    refine ⟨_, _, input.scopes.zipIdx.map (input.lock clock.toISOString expiry.toISOString),
      bind_ok.mpr ⟨expiry, s, expect_ok.mpr ⟨timely, rfl⟩, locked⟩, ?_, ?_, ?_, ?_⟩
    · rwa [Db.set_same]
    · rw [List.map_map]
      rfl
    · rw [List.map_map]
      exact List.zipIdx_map_fst 0 input.scopes
    · intro lock added
      obtain ⟨item, listed, rfl⟩ := List.mem_map.mp added
      exact ⟨rfl, by rw [timely]; rfl⟩

/-- In every reachable store, scopes that no other holder's lock is in the way of are locked exactly when the
identities of the new locks are free. -/
theorem resource_locks_granted_iff (history : List Call) (leased : LeasedFor (storeAfter history) input clock.toISOString lease)
    (unopposed : Unopposed (storeAfter history) input clock.toISOString) :
    Granted input clock (storeAfter history) ↔ Grantable input clock (storeAfter history) :=
  granted_iff (reachable_storeAfter history).sound leased unopposed

end

def sampleLocks (identifier : String) : AcquireResourceLocksInput where
  executorId := "e"
  lease := some (sampleLease "e" 1)
  runId := sampleRunId
  scopes := [{ access := .write, identifier := identifier, kind := .file }]
  ttlMs := 1000

def leasedSample : List Call := [sampleRun, takeSample "e" .epoch]

theorem leasedSample_leases : LeasedFor (storeAfter leasedSample) (sampleLocks "a") Date.epoch.toISOString (sampleLease "e" 1) :=
  ⟨rfl, rfl, by decide +kernel⟩

theorem leasedSample_unlocked : ((storeAfter leasedSample) .resourceLocks).rows = [] := by decide +kernel

theorem first_locks_granted : Granted (sampleLocks "a") .epoch (storeAfter leasedSample) := by
  have none (lock : ResourceLockRow) : lock ∉ (storeAfter leasedSample) .resourceLocks := by
    rw [Keyed.mem_def, leasedSample_unlocked]
    exact List.not_mem_nil
  refine (resource_locks_granted_iff leasedSample leasedSample_leases fun _ _ lock member => absurd member (none lock)).mpr ?_
  exact ⟨by decide +kernel, fun _ => rfl, List.nodup_singleton _, fun _ _ lock member => absurd member (none lock)⟩

/-- What the executor locks next, in the same clock reading, is refused for the identity of its own lock. -/
theorem second_locks_refused : ¬∀ history input clock lease, LeasedFor (storeAfter history) input (Date.toISOString clock) lease →
    Unopposed (storeAfter history) input clock.toISOString → (clock.plusMs? input.ttlMs).isSome = true → input.taskId = none →
    Granted input clock (storeAfter history) := by
  intro granted
  let locked := leasedSample ++ [.acquireResourceLocks (sampleLocks "a") .epoch]
  obtain ⟨ours, current, refused⟩ :
      (((storeAfter locked) .resourceLocks).rows.all fun lock => lock.holder == (sampleLocks "b").holder) = true ∧
        CurrentLease (storeAfter locked) (sampleLease "e" 1) Date.epoch.toISOString ∧
          fails (acquireResourceLocks (sampleLocks "b") .epoch) (storeAfter locked) = true := by
    decide +kernel
  obtain ⟨ids, s', locks, returned, -⟩ := granted locked (sampleLocks "b") .epoch (sampleLease "e" 1) ⟨rfl, rfl, current⟩
    (fun scope _ lock member _ other => absurd (beq_iff_eq.mp (List.all_eq_true.mp ours lock member)) other) (by decide) rfl
  exact throws_iff.mp (fails_iff.mp refused) ids s' returned

end OttiliCoder
