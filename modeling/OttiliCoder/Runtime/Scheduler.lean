import OttiliCoder.Runtime.Turn

/-! What the scheduler makes of an execution that has settled. -/

namespace OttiliCoder

/-- `error instanceof LeaseFencedError`. -/
def TurnError.isFenced : TurnError → Bool
  | .store (.leaseFenced _ _) => true
  | _ => false

/-- What the end of an execution meets. -/
structure Settlement where
  leaseTtlMs : Int
  /-- What a renewal threw meanwhile. -/
  heartbeatFailure : Option TurnError := none
  renewed : Date
  settled : Date
  resettled : Date

/-- A stale executor never alters a successor's work. Other failures become a fresh
continuation, and are thrown on. -/
def settleExecution (lease : FencedLease) (settlement : Settlement) (execution : TurnM Bool) : TurnM Unit :=
  tryCatch
    (do
      let requeue ← execution
      Transaction.given settlement.heartbeatFailure fun error => throw error
      let _ ← store (renewLease lease settlement.leaseTtlMs settlement.renewed)
      store (settleContinuation { lease := lease, requeue := requeue } settlement.settled))
    fun error =>
      Transaction.onlyIf (error.isFenced = false) do
        tryCatch (store (settleContinuation { lease := lease, requeue := true } settlement.resettled)) fun settleError =>
          Transaction.onlyIf (settleError.isFenced = false) (throw settleError)
        throw error

end OttiliCoder
