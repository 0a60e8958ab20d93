import OttiliCoder.Store.Internal

/-! Run leases and resource locks. A lease names a holder and a generation; every
executor write is checked against both and against the expiry. -/

namespace OttiliCoder
open Relational Transaction

structure AcquireLeaseInput where
  executorId : String
  host : Option String := none
  processId : Option Int := none
  runId : RunId
  ttlMs : Int

/-- Overwrites the stored lease, or inserts the first one. A holder that returns
after its lease expired is a new ownership epoch even under the same executor id. -/
def writeLease (input : AcquireLeaseInput) (timestamp expiresAt : IsoTimestamp) : Option RunLeaseRow → StoreM Unit
  | some lease => do
    require (lease.holderId = input.executorId ∨ lease.expiresAt ≤ timestamp)
      (.leaseFenced input.runId
        ("Run is leased by '" ++ lease.holderId ++ "' until " ++ lease.expiresAt ++ "."))
    let generation := lease.generation +
      if lease.holderId = input.executorId ∧ ¬ lease.expiresAt ≤ timestamp then 0 else 1
    updateRow .runLeases input.runId fun row =>
      { row with
        holderId := input.executorId
        generation := generation
        expiresAt := expiresAt
        heartbeatAt := timestamp
        host := input.host
        processId := input.processId
        updatedAt := timestamp }
  | none =>
    insertInto .runLeases
      { runId := input.runId
        id := createId .lease (input.runId ++ ":" ++ input.executorId ++ ":" ++ timestamp)
        holderId := input.executorId, generation := 1, expiresAt := expiresAt, heartbeatAt := timestamp
        host := input.host, processId := input.processId, createdAt := timestamp, updatedAt := timestamp }

def takeLease (input : AcquireLeaseInput) (timestamp expiresAt : IsoTimestamp) : StoreM RunLeaseRow :=
  transaction do
    let existing ← findRow .runLeases input.runId
    writeLease input timestamp expiresAt existing
    updateRow .runs input.runId fun row => { row with runEpoch := row.runEpoch + 1, updatedAt := timestamp }
    mustLease input.runId

def acquireLease (input : AcquireLeaseInput) (clock : Date) : StoreM RunLeaseRow := do
  let expiry ← expect (clock.plusMs? input.ttlMs) .invalidTime
  takeLease input clock.toISOString expiry.toISOString

def extendLease (lease : FencedLease) (timestamp : IsoTimestamp) (expiry : Option Date) :
    StoreM RunLeaseRow :=
  transaction do
    assertLeaseInternal lease timestamp
    let expiry ← expect expiry .invalidTime
    updateRows .runLeases
      (fun row => row.runId == lease.runId && row.holderId == lease.executorId &&
        row.generation == lease.generation)
      fun row =>
        { row with expiresAt := expiry.toISOString, heartbeatAt := timestamp, updatedAt := timestamp }
    mustLease lease.runId

def renewLease (lease : FencedLease) (ttlMs : Int) (clock : Date) : StoreM RunLeaseRow :=
  extendLease lease clock.toISOString (clock.plusMs? ttlMs)

structure AppendFencedEventInput where
  lease : FencedLease
  payload : JsonObject
  type : RunEventType

def appendFencedEvent (input : AppendFencedEventInput) (clock : Date) : StoreM RunEvent :=
  transaction do
    assertLeaseInternal input.lease clock.toISOString
    appendEventInternal input.lease.runId input.type input.payload clock.toISOString
      (some input.lease.generation)

/-! Resource locks. -/

structure AcquireResourceLocksInput where
  executorId : String
  lease : Option FencedLease := none
  runId : RunId
  scopes : List ResourceScope
  taskId : Option TaskId := none
  ttlMs : Int

/-- Locks every scope, or none when another holder's live lock conflicts. Locks a
superseded generation of the same Run left behind are dropped first. -/
def lockScopes (input : AcquireResourceLocksInput) (timestamp expiresAt : IsoTimestamp) :
    StoreM (List String) :=
  let generation := (input.lease.map (·.generation)).getD 0
  transaction do
    given input.lease fun lease => do
      assertLeaseInternal lease timestamp
      require (lease.runId = input.runId)
        (.leaseFenced input.runId "Resource lock lease belongs to another Run.")
      deleteRows .resourceLocks fun row => row.runId == input.runId && row.leaseGeneration < generation
    deleteRows .resourceLocks fun row => row.expiresAt ≤ timestamp
    let existing ← selectRows .resourceLocks fun _ => true
    input.scopes.forM fun scope =>
      let conflicting := existing.any fun lock =>
        !(lock.holderId == input.executorId && lock.runId == input.runId &&
          lock.leaseGeneration == generation) && resourceScopesConflict scope lock.scope
      require (conflicting = false) (.resourceLockConflict scope)
    input.scopes.zipIdx.mapM fun (scope, index) => do
      let id := "lock_" ++ deterministicHash (EntityKind.event.text ++ ":" ++ input.runId ++ ":" ++
        input.executorId ++ ":" ++ timestamp ++ ":" ++ toString index)
      insertInto .resourceLocks
        { id := id, runId := input.runId, taskId := input.taskId, holderId := input.executorId
          scope := scope, expiresAt := expiresAt, createdAt := timestamp, leaseGeneration := generation }
      return id

def acquireResourceLocks (input : AcquireResourceLocksInput) (clock : Date) : StoreM (List String) := do
  let expiry ← expect (clock.plusMs? input.ttlMs) .invalidTime
  lockScopes input clock.toISOString expiry.toISOString

def releaseResourceLocks (executorId : String) (runId : RunId) (leaseGeneration : Nat := 0) : StoreM Unit :=
  deleteRows .resourceLocks fun row =>
    row.holderId == executorId && row.runId == runId && row.leaseGeneration == leaseGeneration

end OttiliCoder
