import OttiliCoder.Core.Policies

/-! When the observations of a problem allow a Run to be blocked. -/

namespace OttiliCoder

structure BlockerObservation where
  fingerprint : String
  occurredAt : IsoTimestamp
  meaningful : Bool
  externalDependency : Bool
  alternateActionAvailable : Bool
  note : Option String := none
deriving DecidableEq

def defaultBlockerAttemptThreshold : Number := 3

structure BlockerAssessment where
  fingerprint : String
  matchingMeaningfulAttempts : Nat
  requiredAttempts : Number
  externalDependencyConfirmed : Bool
  noAlternateActionRemains : Bool
  eligibleForBlocked : Bool
deriving DecidableEq

/-- The observations an assessment looks at. -/
def matchingObservations (observations : List BlockerObservation) (fingerprint : String) : List BlockerObservation :=
  observations.filter fun observation => observation.fingerprint == fingerprint && observation.meaningful

/-- A blocker must recur meaningfully, require external state, and have no useful alternate. -/
def assessBlocker (observations : List BlockerObservation) (fingerprint : String)
    (threshold : Number := defaultBlockerAttemptThreshold) : Except InvariantMessage BlockerAssessment :=
  if !threshold.isInteger || threshold.below 1 then
    throw "Blocker threshold must be a positive integer"
  else
    let matching := matchingObservations observations fingerprint
    let externalDependencyConfirmed := 0 < matching.length && matching.all (·.externalDependency)
    let noAlternateActionRemains := 0 < matching.length && matching.all fun observation =>
      !observation.alternateActionAvailable
    pure
      { fingerprint := fingerprint
        matchingMeaningfulAttempts := matching.length
        requiredAttempts := threshold
        externalDependencyConfirmed := externalDependencyConfirmed
        noAlternateActionRemains := noAlternateActionRemains
        eligibleForBlocked := threshold.atMost matching.length && externalDependencyConfirmed &&
          noAlternateActionRemains }

/-- A resume starts a fresh blocker audit instead of inheriting a stale count. -/
def resetBlockerAudit : List BlockerObservation := []

end OttiliCoder
