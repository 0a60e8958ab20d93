import OttiliCoder.Core.Values

/-! Stagnation, judged from the facts of past turns and never from what an agent says. -/

namespace OttiliCoder

/-- What a turn has come to. -/
structure ProgressAttempt where
  blockerFingerprint : Option String := none
  evidenceAdded : Bool := false
  meaningfulChange : Bool := false
deriving DecidableEq

inductive StagnationAction where
  | blocked | «continue» | freshAgent | replan
deriving DecidableEq

def StagnationAction.text : StagnationAction → String
  | .blocked => "blocked" | .continue => "continue" | .freshAgent => "fresh_agent" | .replan => "replan"

structure StagnationAssessment where
  action : StagnationAction
  repeatedBlockerCount : Nat
  reason : String
deriving DecidableEq

/-- The attempts at the end that all met this blocker and nothing else. -/
def repeatedBlockers (fingerprint : Option String) (attempts : List ProgressAttempt) : Nat :=
  (attempts.reverse.takeWhile fun attempt =>
    attempt.blockerFingerprint == fingerprint && !attempt.evidenceAdded && !attempt.meaningfulChange).length

def assessStagnation (attempts : List ProgressAttempt) : StagnationAssessment :=
  let progress : StagnationAssessment :=
    { action := .continue, reason := "Recent progress or no material blocker is recorded.", repeatedBlockerCount := 0 }
  match attempts.getLast? with
  | none => progress
  | some last =>
    if last.meaningfulChange || last.evidenceAdded || last.blockerFingerprint.isNone then progress
    else
      let repeatedBlockerCount := repeatedBlockers last.blockerFingerprint attempts
      if 3 ≤ repeatedBlockerCount then
        { action := .blocked
          reason := "The same material blocker recurred in three meaningful attempts with no recorded progress."
          repeatedBlockerCount := repeatedBlockerCount }
      else
        { action := if repeatedBlockerCount = 2 then .freshAgent else .replan
          reason := "Repeated failure requires a changed strategy before another attempt."
          repeatedBlockerCount := repeatedBlockerCount }

end OttiliCoder
