import OttiliCoder.Proofs.LeaseFencing
import OttiliCoder.Proofs.ProviderFailures

/-! Turns of one Run that all end in a provider failure: how each leaves the Run, and how
many of them only ask for the next one. -/

namespace OttiliCoder
open Host Relational Transaction

/-- The Run's continuation is the one this lease has claimed. -/
def Claims (s : Store) (lease : FencedLease) : Prop :=
  ∃ row, (s .scheduledActions).find? lease.runId = some row ∧ row.status = .claimed ∧
    row.claimedBy = some lease.executorId ∧ row.claimedEpoch = some lease.generation

instance (s : Store) (lease : FencedLease) : Decidable (Claims s lease) :=
  decidable_of_iff (((s .scheduledActions).find? lease.runId).any (fun row => row.status == .claimed &&
      row.claimedBy == some lease.executorId && row.claimedEpoch == some lease.generation) = true)
    (by simp only [Claims, Option.any_eq_true, Bool.and_eq_true, beq_iff_eq, and_assoc])

section Settling
variable {s s' : Store} {lease : FencedLease} {clock : Date} {world : TurnWorld} {settlement : Settlement}
  {execution : TurnM Bool}

theorem Claims.same (claims : Claims s lease) (same : s' .scheduledActions = s .scheduledActions) : Claims s' lease := by
  unfold Claims
  rwa [same]

/-- What a settled continuation leaves: a new one, where another turn is asked for and the Run goes on. -/
structure ContinuationSettled (lease : FencedLease) (requeue : Bool) (now : IsoTimestamp) (s s' : Store) : Prop where
  others : ∀ t, t ≠ .scheduledActions → s' t = s t
  requeued : requeue = true → Continues s lease.runId → (s' .scheduledActions).find? lease.runId = some (newAction lease.runId now)
  idle : requeue = false ∨ ¬ Continues s lease.runId → (s' .scheduledActions).find? lease.runId = none
  reached : Reachable s → Reachable s'

theorem settleContinuation_settles {requeue : Bool} (claims : Claims s lease)
    (settled : settleContinuation { lease := lease, requeue := requeue } clock s = .ok () s') :
    ContinuationSettled lease requeue clock.toISOString s s' := by
  have onward : Reachable s → Reachable s' := by
    intro reached
    have left : (Call.settleContinuation { lease := lease, requeue := requeue } clock).perform s = s' := after_ok settled
    exact left ▸ .step _ reached trivial
  simp only [settleContinuation, transaction_ok, bind_ok, assertLeaseInternal_ok, delete_ok] at settled
  obtain ⟨_, middle, ⟨-, rfl⟩, _, _, rfl, ensured⟩ := settled
  obtain ⟨action, found, status, holder, epoch⟩ := claims
  obtain ⟨inside, mine⟩ := Keyed.find?_eq_some.mp found
  let removed : ScheduledActionRow → Bool := fun row => row.runId == lease.runId && row.status == .claimed &&
    row.claimedBy == some lease.executorId && row.claimedEpoch == some lease.generation
  have gone : (((middle .scheduledActions).filter fun row => !removed row)).find? lease.runId = none := by
    apply Keyed.find?_eq_none.mpr
    intro row member same
    obtain ⟨there, left⟩ := Keyed.mem_filter.mp member
    have equal : row = action := Keyed.eq_of_key there inside (same.trans mine.symm)
    subst equal
    have runs : row.runId = lease.runId := mine
    simp [removed, runs, status, holder, epoch] at left
  have others : ∀ t, t ≠ .scheduledActions →
      (middle.set .scheduledActions ((middle .scheduledActions).filter fun row => !removed row)) t = middle t :=
    fun t apart => Db.set_other _ _ apart
  have continues : ∀ run, (middle .runs).find? lease.runId = some run →
      (Continuing (middle.set .scheduledActions ((middle .scheduledActions).filter fun row => !removed row)) run ↔
        Continues middle lease.runId) := by
    intro run stored
    have same : Continuing (middle.set .scheduledActions ((middle .scheduledActions).filter fun row => !removed row)) run ↔
        Continuing middle run := by rw [Continuing, others _ (by simp), Continuing]
    rw [same]
    constructor
    · exact fun continuing => ⟨run, stored, continuing⟩
    · rintro ⟨other, found, continuing⟩
      obtain rfl : run = other := Option.some.inj (stored.symm.trans found)
      exact continuing
  rcases onlyIf_ok.mp ensured with ⟨asked, ensured⟩ | ⟨unasked, rfl⟩
  · obtain ⟨run, stored, outcome⟩ := ensureContinuationInternal_ok.mp ensured
    rw [others _ (by simp)] at stored
    rcases outcome with ⟨continuing, rfl⟩ | ⟨stopped, rfl, -⟩
    · refine ⟨fun t apart => ?_, fun _ _ => ?_, fun idle => ?_, onward⟩
      · rw [withAction, Db.set_other _ _ apart]
        exact others t apart
      · rw [withAction, Db.set_same, Db.set_same, Keyed.find?_insert gone]
        exact if_pos rfl
      · rcases idle with unasked | stopped
        · exact absurd (asked.symm.trans unasked) (by simp)
        · exact absurd ((continues run stored).mp continuing) stopped
    · refine ⟨others, fun _ goes => absurd ((continues run stored).mpr goes) stopped, fun _ => ?_, onward⟩
      rw [Db.set_same]
      exact gone
  · refine ⟨others, fun asked => absurd asked unasked, fun _ => ?_, onward⟩
    rw [Db.set_same]
    exact gone

/-- The lease is renewed, and the continuation settled as the execution asks. -/
def settleAsked (lease : FencedLease) (settlement : Settlement) (execution : TurnM Bool) : TurnM Unit := do
  let requeue ← execution
  Transaction.given settlement.heartbeatFailure fun error => throw error
  let _ ← store (renewLease lease settlement.leaseTtlMs settlement.renewed)
  store (settleContinuation { lease := lease, requeue := requeue } settlement.settled)

/-- Another turn is asked for; where the lease was lost, nothing is. -/
def settleRetried (lease : FencedLease) (settlement : Settlement) : TurnM Unit :=
  tryCatch (store (settleContinuation { lease := lease, requeue := true } settlement.resettled)) fun settleError =>
    Transaction.onlyIf (settleError.isFenced = false) (throw settleError)

/-- Another turn is asked for, unless the lease was lost. -/
def settleThrown (lease : FencedLease) (settlement : Settlement) (error : TurnError) : TurnM Unit :=
  Transaction.onlyIf (error.isFenced = false) do
    settleRetried lease settlement
    throw error

theorem settleExecution_eq : settleExecution lease settlement execution =
    tryCatch (settleAsked lease settlement execution) (settleThrown lease settlement) := rfl

theorem renewLease_steady {runId : RunId} {ttlMs : Int} :
    Within (Stores (Steady runId)) (store (renewLease lease ttlMs clock)) world := within_steady (.renewLease _ _ _) rfl rfl

theorem settleAsked_ok {final : TurnWorld} (returned : settleAsked lease settlement execution world = .ok () final) :
    ∃ asked ended middle, execution world = .ok asked ended ∧ Steady lease.runId ended.store middle ∧
      settleContinuation { lease := lease, requeue := asked } settlement.settled middle = .ok () final.store := by
  simp only [settleAsked, bind_ok] at returned
  obtain ⟨asked, ended, executed, _, _, beats, renewal, renewed, extended, settled⟩ := returned
  rcases given_ok.mp beats with ⟨-, rfl⟩ | ⟨error, -, impossible⟩
  · obtain ⟨s', written, rfl⟩ := store_ok.mp settled
    exact ⟨asked, _, renewed.store, executed, renewLease_steady.returned extended, written⟩
  · cases impossible

theorem settleAsked_error {error : TurnError} {stopped : TurnWorld}
    (failed : settleAsked lease settlement execution world = .error error stopped) :
    ∃ ended, ((∃ asked, execution world = .ok asked ended) ∨ execution world = .error error ended) ∧
      Steady lease.runId ended.store stopped.store := by
  unfold settleAsked at failed
  rcases bind_error.mp failed with thrown | ⟨asked, ended, executed, failed⟩
  · exact ⟨stopped, .inr thrown, Std.Refl.refl _⟩
  refine ⟨ended, .inl ⟨asked, executed⟩, ?_⟩
  rcases bind_error.mp failed with beats | ⟨_, beating, beats, resumed⟩
  · cases given : settlement.heartbeatFailure with
    | none =>
      rw [given] at beats
      cases beats
    | some failure =>
      rw [given] at beats
      cases beats
      exact Std.Refl.refl _
  obtain rfl : beating = ended := by
    rcases given_ok.mp beats with ⟨-, same⟩ | ⟨_, -, impossible⟩
    · exact same
    · cases impossible
  rcases bind_error.mp resumed with refused | ⟨_, renewed, extended, refused⟩
  · exact renewLease_steady.failed refused
  · obtain ⟨e, s', thrown, -, rfl⟩ := store_error.mp refused
    have same : s' = renewed.store := transaction_error thrown
    rw [same]
    exact renewLease_steady.returned extended

/-- A continuation that is settled after an error was settled to be taken up again. -/
theorem settleThrown_settles {error : TurnError} (held : Claims world.store lease)
    (released : ¬ Claims (after (settleThrown lease settlement error) world).store lease) :
    error.isFenced = false ∧ settleContinuation { lease := lease, requeue := true } settlement.resettled world.store =
      .ok () (after (settleThrown lease settlement error) world).store := by
  have left : after (do settleRetried lease settlement; throw error : TurnM Unit) world = after (settleRetried lease settlement) world := by
    rw [after, bind_apply, after]
    cases settleRetried lease settlement world with
    | ok u last => rfl
    | error e last => rfl
  unfold settleThrown onlyIf at released ⊢
  split at released
  · next unfenced =>
    rw [if_pos unfenced, left]
    rw [left] at released
    refine ⟨unfenced, ?_⟩
    cases outcome : settleContinuation { lease := lease, requeue := true } settlement.resettled world.store with
    | ok u s' =>
      have settled : settleRetried lease settlement world = .ok () { world with store := s' } :=
        tryCatch_returned (store_returned outcome)
      rw [after_ok settled]
    | error e s' =>
      have same : s' = world.store := transaction_error outcome
      have unsettled : after (settleRetried lease settlement) world = { world with store := s' } := by
        rw [settleRetried, after, tryCatch_failed (store_failed outcome)]
        cases (TurnError.store e).isFenced with
        | true => rfl
        | false => rfl
      rw [unsettled, same] at released
      exact absurd held released
  · exact absurd held released

/-- The execution settles: it returned, or threw for another reason than the lease, and
its continuation was settled after it. -/
theorem settleExecution_settles (kept : Within (Stores (Handling lease.runId)) execution world) (held : Claims world.store lease)
    (released : ¬ Claims (after (settleExecution lease settlement execution) world).store lease) :
    ∃ requeue ended middle now,
      ((∃ asked, execution world = .ok asked ended ∧ (requeue = asked ∨ requeue = true)) ∨
        ∃ thrown, execution world = .error thrown ended ∧ thrown.isFenced = false ∧ requeue = true) ∧
      Steady lease.runId ended.store middle ∧ 
      ContinuationSettled lease requeue now middle (after (settleExecution lease settlement execution) world).store := by
  have claimed : ∀ ended middle, after execution world = ended → Steady lease.runId ended.store middle → Claims middle lease := by
    rintro _ middle rfl steady
    exact (held.same kept.actions).same steady.actions
  rw [settleExecution_eq] at released ⊢
  cases outcome : settleAsked lease settlement execution world with
  | ok u final =>
    obtain ⟨asked, ended, middle, executed, steady, settled⟩ := settleAsked_ok outcome
    rw [after_ok (tryCatch_returned outcome)]
    exact ⟨asked, ended, middle, _, .inl ⟨asked, executed, .inl rfl⟩, steady,
      settleContinuation_settles (claimed ended middle (after_ok executed) steady) settled⟩
  | error error stopped =>
    have later : after (tryCatch (settleAsked lease settlement execution) (settleThrown lease settlement)) world =
        after (settleThrown lease settlement error) stopped := by
      rw [after, tryCatch_failed outcome, after]
    rw [later] at released ⊢
    obtain ⟨ended, executed, steady⟩ := settleAsked_error outcome
    have there : after execution world = ended := by
      rcases executed with ⟨asked, executed⟩ | thrown
      · exact after_ok executed
      · exact after_error thrown
    have claims := claimed ended stopped.store there steady
    obtain ⟨unfenced, settled⟩ := settleThrown_settles claims released
    refine ⟨true, ended, stopped.store, _, ?_, steady, settleContinuation_settles claims settled⟩
    rcases executed with ⟨asked, executed⟩ | thrown
    · exact .inl ⟨asked, executed, .inr rfl⟩
    · exact .inr ⟨error, thrown, unfenced, rfl⟩

end Settling

/-! Turns. -/

section Execution
variable {settings : TurnSettings} {environment : TurnEnvironment} {lease : FencedLease} {settlement : Settlement}
  {world opened before : TurnWorld} {start : TurnStart} {error : TurnError}

/-- A turn that throws, and was neither aborted nor waits for an approval, is what `handleFailure` makes of the error. -/
theorem execute_failed (started : startTurn settings environment lease world = .ok (.ok start) opened)
    (failed : playTurn settings environment lease start opened = .error error before) (going : before.aborted = none)
    (outage : ∀ approvalId, error ≠ .approvalRequired approvalId) :
    execute settings environment lease world = handleFailure settings environment lease start.opening.epoch.id error before := by
  unfold execute
  rw [bind_returned started]
  change (tryCatch (playTurn settings environment lease start) (catchTurn settings environment lease start) : TurnM Bool) opened = _
  rw [tryCatch_failed failed]
  unfold catchTurn
  rw [bind_get, going]
  cases error with
  | approvalRequired approvalId => exact absurd rfl (outage approvalId)
  | _ => rfl

/-- What settles an execution depends on what it comes to. -/
theorem settleExecution_congr {execution other : TurnM Bool} (same : execution world = other before) :
    settleExecution lease settlement execution world = settleExecution lease settlement other before := by
  have asked : settleAsked lease settlement execution world = settleAsked lease settlement other before := by
    rw [settleAsked, settleAsked, bind_apply, bind_apply, same]
  rw [settleExecution_eq, settleExecution_eq]
  cases outcome : settleAsked lease settlement other before with
  | ok u final => rw [tryCatch_returned outcome, tryCatch_returned (asked.trans outcome)]
  | error e final => rw [tryCatch_failed outcome, tryCatch_failed (asked.trans outcome)]

end Execution

/-- A turn of the Run that fails with what the provider is blamed for, from the failure on: the executor
holds the Run's continuation, handles the failure, and still holds the lease to settle. -/
structure FailedTurn (runId : RunId) (maxProviderAttempts : Nat) where
  settings : TurnSettings
  attempts : settings.maxProviderAttempts = maxProviderAttempts
  environment : TurnEnvironment
  lease : FencedLease
  mine : lease.runId = runId
  epochId : SessionEpochId
  error : TurnError
  settlement : Settlement
  before : TurnWorld
  reached : Reachable before.store
  held : Claims before.store lease
  released : ¬ Claims (after (settleExecution lease settlement (handleFailure settings environment lease epochId error)) before).store lease

namespace FailedTurn
variable {runId : RunId} {maxProviderAttempts : Nat} (turn : FailedTurn runId maxProviderAttempts)

def start : Store := turn.before.store

/-- The store once the turn is settled. -/
def final : Store := (after (settleExecution turn.lease turn.settlement
  (handleFailure turn.settings turn.environment turn.lease turn.epochId turn.error)) turn.before).store

def failure : ProviderFailure := classifyProviderFailure turn.error

/-- The failures in a row, this one among them. -/
def count : Nat := consecutiveProviderFailures turn.start runId + 1

/-- The retry is scheduled through a wake of its own. -/
structure Retries : Prop where
  stopped : statusOf turn.final runId ≠ some .running
  idle : (turn.final .scheduledActions).find? runId = none
  wake : ∃ row, row.runId = runId ∧ row.status = .pending ∧ (turn.start .wakeConditions).find? row.id = none ∧
    turn.final .wakeConditions = (turn.start .wakeConditions).insert row

/-- The Run is left to an operator. -/
structure Parks : Prop where
  stopped : statusOf turn.final runId ≠ some .running
  idle : (turn.final .scheduledActions).find? runId = none
  unwoken : turn.final .wakeConditions = turn.start .wakeConditions

/-- The next turn is due at once. -/
def Requeues : Prop := ∃ now, (turn.final .scheduledActions).find? runId = some (newAction runId now)

/-- The failure is not put down: it is a context overflow, or what it is to leave cannot be written. -/
def Passes : Prop :=
  turn.failure.kind = .contextOverflow ∨
    ¬ Recordable maxProviderAttempts turn.environment runId turn.failure turn.count turn.start

/-- The failure is not put down, and the Run runs. -/
def Repeats : Prop := turn.Passes ∧ statusOf turn.start runId = some .running

theorem start_reached : Reachable turn.start := turn.reached

theorem settles : ∃ requeue ended middle now,
    ((∃ asked, handleFailure turn.settings turn.environment turn.lease turn.epochId turn.error turn.before = .ok asked ended ∧
        (requeue = asked ∨ requeue = true)) ∨
      ∃ thrown, handleFailure turn.settings turn.environment turn.lease turn.epochId turn.error turn.before = .error thrown ended ∧
        thrown.isFenced = false ∧ requeue = true) ∧
    Steady runId ended.store middle ∧ ContinuationSettled turn.lease requeue now middle turn.final := by
  obtain ⟨requeue, ended, middle, now, outcome, steady, settled⟩ :=
    settleExecution_settles handleFailure_within turn.held turn.released
  rw [turn.mine] at steady
  exact ⟨requeue, ended, middle, now, outcome, steady, settled⟩

theorem final_status {requeue : Bool} {now : IsoTimestamp} {middle : Store}
    (settled : ContinuationSettled turn.lease requeue now middle turn.final) : statusOf turn.final runId = statusOf middle runId := by
  rw [statusOf, settled.others _ (by simp), statusOf]

theorem final_idle {requeue : Bool} {now : IsoTimestamp} {middle : Store}
    (settled : ContinuationSettled turn.lease requeue now middle turn.final) (rests : ¬ Continues middle runId) :
    (turn.final .scheduledActions).find? runId = none := by
  have none := settled.idle (.inr (by rwa [turn.mine]))
  rwa [turn.mine] at none

theorem handled {ended : TurnWorld}
    (outcome : (∃ asked, handleFailure turn.settings turn.environment turn.lease turn.epochId turn.error turn.before = .ok asked ended) ∨
      ∃ thrown, handleFailure turn.settings turn.environment turn.lease turn.epochId turn.error turn.before = .error thrown ended) :
    Handling runId turn.start ended.store := by
  have handled : Handling turn.lease.runId turn.before.store ended.store := by
    rcases outcome with ⟨_, returned⟩ | ⟨_, failed⟩
    · exact handleFailure_within.returned returned
    · exact handleFailure_within.failed failed
  rwa [turn.mine] at handled

/-- A turn leaves a store that calls lead to, and produces nothing. -/
theorem final_handled : Quiet runId turn.start turn.final ∧ Reachable turn.final := by
  obtain ⟨requeue, ended, middle, now, outcome, steady, settled⟩ := turn.settles
  have handled : Handling runId turn.start ended.store := by
    apply turn.handled
    rcases outcome with ⟨asked, returned, _⟩ | ⟨thrown, failed, _⟩
    · exact .inl ⟨asked, returned⟩
    · exact .inr ⟨thrown, failed⟩
  have last : Quiet runId middle turn.final := .of_same (settled.others _ (by simp))
  exact ⟨IsTrans.trans _ _ _ (IsTrans.trans _ _ _ handled.quiet steady.quiet) last,
    settled.reached (steady.reached (handled.reached turn.reached))⟩

/-- A failure that is put down: its retry has a wake, or the Run is parked. -/
theorem put_down (put : ¬ turn.Passes) :
    (if RetryDue maxProviderAttempts turn.failure turn.count then turn.Retries else turn.Parks) ∧
      turn.count ≤ consecutiveProviderFailures turn.final runId := by
  obtain ⟨plain, recordable⟩ := not_or.mp put
  have recordable := not_not.mp recordable
  have counted : consecutiveProviderFailures turn.before.store turn.lease.runId + 1 = turn.count := by
    rw [turn.mine]
    rfl
  obtain ⟨requeue, ended, middle, now, ⟨asked, returned, -⟩ | ⟨thrown, failed, unfenced, -⟩, steady, settled⟩ := turn.settles
  · obtain ⟨-, -, stopped, wakes, handling, more⟩ := handleFailure_returned plain turn.reached counted returned
    rw [turn.mine] at stopped more
    rw [turn.attempts] at wakes
    have stoppedAfter : statusOf turn.final runId ≠ some .running := by
      rwa [turn.final_status settled, steady.status]
    have idle : (turn.final .scheduledActions).find? runId = none :=
      turn.final_idle settled fun continues => stopped (steady.status ▸ continues.running)
    have kept : turn.final .wakeConditions = ended.store .wakeConditions :=
      (settled.others _ (by simp)).trans steady.wakes
    have onward : Reachable ended.store := handling.reached turn.reached
    have numbered : Numbered turn.final := numbered_reached turn.final_handled.2
    refine ⟨?_, more.trans ?_⟩
    · split
      · next due =>
        rw [if_pos (show RetryDue maxProviderAttempts (classifyProviderFailure turn.error) turn.count from due)] at wakes
        obtain ⟨date, wakes⟩ := wakes
        unfold Recordable at recordable
        rw [if_pos due] at recordable
        exact ⟨stoppedAfter, idle, _, turn.mine, rfl, recordable.fresh, kept.trans wakes⟩
      · next spent =>
        rw [if_neg (show ¬ RetryDue maxProviderAttempts (classifyProviderFailure turn.error) turn.count from spent)] at wakes
        exact ⟨stoppedAfter, idle, kept.trans wakes⟩
    · have quiet : Quiet runId middle turn.final := .of_same (settled.others _ (by simp))
      exact (IsTrans.trans _ _ _ steady.quiet quiet : Quiet runId ended.store turn.final).failures (numbered_reached onward) numbered
  · have refused := (handleFailure_failed plain turn.reached counted failed unfenced).1
    rw [turn.attempts, turn.mine] at refused
    exact absurd recordable refused

/-- A failure that is passed over leaves the Run as it was and asks for the next turn. -/
theorem passed_over (passes : turn.Passes) :
    ∃ middle now, Steady runId turn.start middle ∧ ContinuationSettled turn.lease true now middle turn.final := by
  have counted : consecutiveProviderFailures turn.before.store turn.lease.runId + 1 = turn.count := by
    rw [turn.mine]
    rfl
  obtain ⟨requeue, ended, middle, now, outcome, steady, settled⟩ := turn.settles
  by_cases overflow : turn.failure.kind = .contextOverflow
  · have within : Within (Stores (Steady runId)) (handleFailure turn.settings turn.environment turn.lease turn.epochId turn.error)
        turn.before := handleFailure_overflow overflow
    rcases outcome with ⟨asked, returned, same⟩ | ⟨thrown, failed, -, rfl⟩
    · obtain rfl : requeue = true := by
        rcases same with same | same
        · rw [same, handleFailure_asks overflow returned]
        · exact same
      exact ⟨middle, now, IsTrans.trans _ _ _ (within.returned returned) steady, settled⟩
    · exact ⟨middle, now, IsTrans.trans _ _ _ (within.failed failed) steady, settled⟩
  · have refused := passes.resolve_left overflow
    rcases outcome with ⟨asked, returned, -⟩ | ⟨thrown, failed, unfenced, rfl⟩
    · obtain ⟨-, recordable, -⟩ := handleFailure_returned overflow turn.reached counted returned
      rw [turn.attempts, turn.mine] at recordable
      exact absurd recordable refused
    · obtain ⟨-, kept⟩ := handleFailure_failed overflow turn.reached counted failed unfenced
      rw [turn.mine] at kept
      exact ⟨middle, now, IsTrans.trans _ _ _ kept steady, settled⟩

theorem parks_of_stopped (passes : turn.Passes) (stopped : statusOf turn.start runId ≠ some .running) : turn.Parks := by
  obtain ⟨middle, now, steady, settled⟩ := turn.passed_over passes
  refine ⟨?_, ?_, (settled.others _ (by simp)).trans steady.wakes⟩
  · rwa [turn.final_status settled, steady.status]
  · exact turn.final_idle settled fun continues => stopped (steady.status ▸ continues.running)

theorem requeues_of_continues (passes : turn.Passes) (continues : Continues turn.start runId) : turn.Requeues := by
  obtain ⟨middle, now, steady, settled⟩ := turn.passed_over passes
  have requeued := settled.requeued rfl (by rw [turn.mine]; exact steady.continues.mpr continues)
  rw [turn.mine] at requeued
  exact ⟨now, requeued⟩

/-- A Run without an active goal is left running with nothing to take it up again. -/
theorem stranded (repeats : turn.Repeats) (stuck : ¬ Continues turn.start runId) :
    statusOf turn.final runId = some .running ∧ (turn.final .scheduledActions).find? runId = none := by
  obtain ⟨middle, now, steady, settled⟩ := turn.passed_over repeats.1
  refine ⟨?_, ?_⟩
  · rw [turn.final_status settled, steady.status]
    exact repeats.2
  · exact turn.final_idle settled fun continues => stuck (steady.continues.mp continues)

/-- A turn that leaves a continuation has passed its failure over, on a Run that goes on. -/
theorem busy (busy : (turn.final .scheduledActions).find? runId ≠ none) : turn.Repeats ∧ Continues turn.start runId := by
  have passes : turn.Passes := by
    by_contra put
    have outcome := (turn.put_down put).1
    split at outcome
    · exact busy outcome.idle
    · exact busy outcome.idle
  have running : statusOf turn.start runId = some .running := by
    by_contra stopped
    exact busy (turn.parks_of_stopped passes stopped).idle
  refine ⟨⟨passes, running⟩, ?_⟩
  by_contra stuck
  exact busy (turn.stranded ⟨passes, running⟩ stuck).2

theorem Requeues.pending {turn : FailedTurn runId maxProviderAttempts} (requeues : turn.Requeues) :
    (turn.final .scheduledActions).find? runId ≠ none := by
  obtain ⟨now, pending⟩ := requeues
  rw [pending]
  simp

/-- Exactly the turns that repeat, on a Run that goes on, ask for the next one. -/
theorem requeues_iff : turn.Requeues ↔ turn.Repeats ∧ Continues turn.start runId := by
  constructor
  · exact fun requeues => turn.busy requeues.pending
  · exact fun both => turn.requeues_of_continues both.1.1 both.2

/-- Between two turns of a row any party makes any calls, as long as the Run produces nothing. -/
def Precedes (next : FailedTurn runId maxProviderAttempts) : Prop :=
  (∃ calls, next.start = performAll Call.perform calls turn.final) ∧ Quiet runId turn.final next.start

variable {turn} {next : FailedTurn runId maxProviderAttempts}

theorem Precedes.count_le (precedes : turn.Precedes next) : turn.count ≤ next.count := by
  have quiet : Quiet runId turn.start next.start := IsTrans.trans _ _ _ turn.final_handled.1 precedes.2
  have grown := quiet.failures (numbered_reached turn.reached) (numbered_reached next.reached)
  unfold count
  omega

theorem Precedes.count_lt (precedes : turn.Precedes next) (put : ¬ turn.Passes) : turn.count < next.count := by
  have counted := (turn.put_down put).2
  have grown := precedes.2.failures (numbered_reached turn.final_handled.2) (numbered_reached next.reached)
  unfold count at counted ⊢
  omega

end FailedTurn

/-! Turns in a row. -/

/-- Consecutive turns of a Run that all end in a provider failure. -/
structure FailingTurns (runId : RunId) (maxProviderAttempts : Nat) where
  turns : List (FailedTurn runId maxProviderAttempts)
  row : turns.IsChain FailedTurn.Precedes

section Rows
variable {runId : RunId} {maxProviderAttempts : Nat} {turn last : FailedTurn runId maxProviderAttempts}
  {rest puts : List (FailedTurn runId maxProviderAttempts)}

/-- The failures that are put down are counted one by one. -/
theorem count_after (row : (turn :: rest).IsChain FailedTurn.Precedes) (listed : (puts ++ [last]).Sublist (turn :: rest))
    (put : ∀ turn ∈ puts, ¬ turn.Passes) : puts.length + turn.count ≤ last.count := by
  induction rest generalizing turn puts with
  | nil =>
    have single := listed.length_le
    have none : puts = [] := by
      apply List.length_eq_zero_iff.mp
      simpa using single
    subst none
    obtain rfl : last = turn := by simpa using listed
    simp
  | cons next rest ih =>
    obtain ⟨precedes, later⟩ := List.isChain_cons_cons.mp row
    cases puts with
    | nil =>
      rcases List.sublist_cons_iff.mp listed with skipped | ⟨tail, same, -⟩
      · have bound := ih later skipped put
        have grown := precedes.count_le
        simp only [List.length_nil] at bound ⊢
        omega
      · obtain ⟨rfl, -⟩ := List.cons.inj same
        simp
    | cons first puts =>
      rcases List.sublist_cons_iff.mp listed with skipped | ⟨tail, same, inside⟩
      · have bound := ih later skipped put
        have grown := precedes.count_le
        omega
      · obtain ⟨rfl, rfl⟩ := List.cons.inj same
        have bound := ih later inside fun turn member => put turn (List.mem_cons_of_mem _ member)
        have grown := precedes.count_lt (put first List.mem_cons_self)
        rw [List.length_cons]
        omega

end Rows

namespace FailingTurns
variable {runId : RunId} {maxProviderAttempts : Nat} (history : FailingTurns runId maxProviderAttempts)

/-- The provider is not called forever: every turn schedules its retry, parks the Run, or is one of at most
`maxProviderAttempts` turns that only ask for the next; and one of the first `enough` turns parks it. -/
structure Bounded (enough : Nat) : Prop where
  exits : ∀ turn ∈ history.turns, turn.Retries ∨ turn.Parks ∨ turn.Requeues
  requeued : ∀ again : List (FailedTurn runId maxProviderAttempts), again.Sublist history.turns →
    (∀ turn ∈ again, turn.Requeues) → again.length ≤ maxProviderAttempts
  parked : enough ≤ history.turns.length → ∃ turn ∈ history.turns.take enough, turn.Parks

variable {history}

/-- With few enough repeats, a failure past the attempts is put down, and parks the Run. -/
theorem parked_of_few (few : ∀ again : List (FailedTurn runId maxProviderAttempts), again.Sublist history.turns →
      (∀ turn ∈ again, turn.Repeats) → again.length ≤ maxProviderAttempts) (long : 2 * maxProviderAttempts + 1 ≤ history.turns.length) :
    ∃ turn ∈ history.turns.take (2 * maxProviderAttempts + 1), turn.Parks := by
  classical
  by_contra never
  let first := history.turns.take (2 * maxProviderAttempts + 1)
  have prefixed : first.Sublist history.turns := List.take_sublist ..
  have size : first.length = 2 * maxProviderAttempts + 1 := by
    rw [List.length_take]
    omega
  have repeated : (first.filter fun turn => decide turn.Repeats).length ≤ maxProviderAttempts := by
    apply few _ (List.filter_sublist.trans prefixed)
    intro turn member
    simpa using (List.mem_filter.mp member).2
  have split := List.length_eq_length_filter_add (l := first) fun turn => decide turn.Repeats
  generalize kept : (first.filter fun turn => !decide turn.Repeats) = others at split
  obtain ⟨puts, last, rfl⟩ : ∃ puts last, others = puts ++ [last] := by
    rcases List.eq_nil_or_concat others with rfl | ⟨puts, last, rfl⟩
    · rw [List.length_nil] at split
      omega
    · exact ⟨puts, last, List.concat_eq_append⟩
  have put : ∀ turn ∈ puts ++ [last], turn ∈ first ∧ ¬ turn.Passes := by
    intro turn member
    rw [← kept] at member
    obtain ⟨inside, once⟩ := List.mem_filter.mp member
    have once : ¬ turn.Repeats := by simpa using once
    refine ⟨inside, fun passes => never ⟨turn, inside, ?_⟩⟩
    exact turn.parks_of_stopped passes fun running => once ⟨passes, running⟩
  have listed : (puts ++ [last]).Sublist history.turns := by
    rw [← kept]
    exact List.filter_sublist.trans prefixed
  have counted : puts.length + 1 ≤ last.count := by
    obtain ⟨turn, rest, turns⟩ : ∃ turn rest, history.turns = turn :: rest := by
      apply List.exists_cons_of_length_pos
      omega
    have row := history.row
    rw [turns] at row listed
    have bound := count_after row listed fun turn member => (put turn (List.mem_append_left _ member)).2
    have positive : 1 ≤ turn.count := Nat.le_add_left ..
    omega
  have spent : ¬ RetryDue maxProviderAttempts last.failure last.count := by
    rintro ⟨_, due⟩
    rw [List.length_append, List.length_singleton] at split
    omega
  obtain ⟨inside, held⟩ := put last (List.mem_append_right _ List.mem_cons_self)
  have outcome := (last.put_down held).1
  rw [if_neg spent] at outcome
  exact never ⟨last, inside, outcome⟩

end FailingTurns

/-! A row of overflows. -/

section Overflows

def overflowLease : FencedLease := sampleLease "e" 1

/-- The Run is taken up again, in a new epoch. -/
def takenUp : List Call := [.claimContinuation overflowLease .epoch,
  .startSessionEpoch { agentId := sampleAgentId, lease := some overflowLease, model := "m", provider := "p" } .epoch]

def firstOverflow : Store := performAll Call.perform takenUp
  (storeAfter [sampleRun, .transitionRun { runId := sampleRunId, target := ⟨.running, running_open⟩ } .epoch, takeSample "e" .epoch])

def overflowEnvironment (uuid : String) : TurnEnvironment where
  clock := fun _ => .epoch
  uuid := fun _ => uuid
  sourceTools := { outcome := .ok [] }
  workspace := { outcome := .ok none }
  exchanges := fun _ => { response := { outcome := .error .unknown }, tools := fun _ => { outcome := .error .unknown } }
  snapshot := { outcome := .ok none }

def oneAttempt : TurnSettings where
  collation := .byWeight String.length
  maxProviderAttempts := 1
  model := "m"
  provider := "p"

def overflowError : TurnError := .providerFailure .contextOverflow "prompt is too long"

def promptSettlement : Settlement where
  leaseTtlMs := 1000
  renewed := .epoch
  settled := .epoch
  resettled := .epoch

def overflowEpoch (ordinal : String) : SessionEpochId := createId .sessionEpoch (sampleAgentId ++ ":" ++ ordinal)

def overflowTurn (start : Store) (ordinal : String) (reached : Reachable start) (held : Claims start overflowLease)
    (released : ¬ Claims (after (settleExecution overflowLease promptSettlement
      (handleFailure oneAttempt (overflowEnvironment ordinal) overflowLease (overflowEpoch ordinal) overflowError))
        { store := start, aborted := none }).store overflowLease) : FailedTurn sampleRunId 1 where
  settings := oneAttempt
  attempts := rfl
  environment := overflowEnvironment ordinal
  lease := overflowLease
  mine := rfl
  epochId := overflowEpoch ordinal
  error := overflowError
  settlement := promptSettlement
  before := { store := start, aborted := none }
  reached := reached
  held := held
  released := released

theorem overflowTurn_start (start : Store) (ordinal : String) (reached : Reachable start) (held : Claims start overflowLease)
    (released : ¬ Claims (after (settleExecution overflowLease promptSettlement
      (handleFailure oneAttempt (overflowEnvironment ordinal) overflowLease (overflowEpoch ordinal) overflowError))
        { store := start, aborted := none }).store overflowLease) :
    (overflowTurn start ordinal reached held released).start = start := rfl

theorem firstOverflow_reached : Reachable firstOverflow :=
  (reachable_storeAfter _).performAll (allAllowed_of_forall fun _ _ => trivial)

def firstTurn : FailedTurn sampleRunId 1 :=
  overflowTurn firstOverflow "1" firstOverflow_reached (by decide +kernel) (by decide +kernel)

def secondOverflow : Store := performAll Call.perform takenUp firstTurn.final

theorem secondOverflow_reached : Reachable secondOverflow :=
  firstTurn.final_handled.2.performAll (allAllowed_of_forall fun _ _ => trivial)

def secondTurn : FailedTurn sampleRunId 1 :=
  overflowTurn secondOverflow "2" secondOverflow_reached (by decide +kernel) (by decide +kernel)

theorem takenUp_quiet (s : Store) : Quiet sampleRunId s (performAll Call.perform takenUp s) := by
  have claimed : Quiet sampleRunId s ((Call.claimContinuation overflowLease .epoch).perform s) := Call.quiet _ rfl
  have opened : Quiet sampleRunId ((Call.claimContinuation overflowLease .epoch).perform s)
      (performAll Call.perform takenUp s) := Call.quiet (.startSessionEpoch _ .epoch) rfl
  exact IsTrans.trans _ _ _ claimed opened

theorem firstTurn_precedes : firstTurn.Precedes secondTurn := by
  have start : secondTurn.start = secondOverflow := overflowTurn_start ..
  unfold FailedTurn.Precedes
  rw [start]
  exact ⟨⟨takenUp, by unfold secondOverflow; rfl⟩, takenUp_quiet _⟩

def twoOverflows : FailingTurns sampleRunId 1 where
  turns := [firstTurn, secondTurn]
  row := List.isChain_cons_cons.mpr ⟨firstTurn_precedes, .singleton _⟩

end Overflows

/-- Consecutive failing turns are bounded exactly when at most `maxProviderAttempts` of them pass their failure
over on a Run that runs, each with an active goal: a context overflow, or a failure whose wake or problem
cannot be written. -/
theorem failing_turns_bounded_iff {runId : RunId} {maxProviderAttempts : Nat} (history : FailingTurns runId maxProviderAttempts) :
    history.Bounded (2 * maxProviderAttempts + 1) ↔
      (∀ turn ∈ history.turns, turn.Repeats → Continues turn.start runId) ∧
        ∀ again : List (FailedTurn runId maxProviderAttempts), again.Sublist history.turns → (∀ turn ∈ again, turn.Repeats) →
          again.length ≤ maxProviderAttempts := by
  constructor
  · intro bounded
    have goes : ∀ turn ∈ history.turns, turn.Repeats → Continues turn.start runId := by
      intro turn member repeats
      by_contra stuck
      obtain ⟨running, idle⟩ := turn.stranded repeats stuck
      rcases bounded.exits turn member with retries | parks | requeues
      · exact retries.stopped running
      · exact parks.stopped running
      · exact requeues.pending idle
    refine ⟨goes, fun again inside repeats => bounded.requeued again inside fun turn member => ?_⟩
    exact turn.requeues_iff.mpr ⟨repeats turn member, goes turn (inside.subset member) (repeats turn member)⟩
  · rintro ⟨goes, few⟩
    refine ⟨fun turn member => ?_, fun again inside requeues => ?_, FailingTurns.parked_of_few few⟩
    · by_cases passes : turn.Passes
      · by_cases running : statusOf turn.start runId = some .running
        · exact .inr (.inr (turn.requeues_of_continues passes (goes turn member ⟨passes, running⟩)))
        · exact .inr (.inl (turn.parks_of_stopped passes running))
      · have outcome := (turn.put_down passes).1
        split at outcome
        · exact .inl outcome
        · exact .inr (.inl outcome)
    · exact few again inside fun turn member => (turn.requeues_iff.mp (requeues turn member)).1

/-- Two overflows in a row, where one attempt is allowed, both only ask for the next turn. -/
theorem overflows_ask_again : ¬ ∃ enough : Nat → Nat, ∀ (runId : RunId) (maxProviderAttempts : Nat)
    (history : FailingTurns runId maxProviderAttempts), history.Bounded (enough maxProviderAttempts) := by
  rintro ⟨enough, bounded⟩
  have first : ((firstTurn.final .scheduledActions).find? sampleRunId).isSome = true := by decide +kernel
  have second : ((secondTurn.final .scheduledActions).find? sampleRunId).isSome = true := by decide +kernel
  have requeued : ∀ turn ∈ twoOverflows.turns, turn.Requeues := by
    intro turn member
    have pending : ((turn.final .scheduledActions).find? sampleRunId).isSome = true := by
      rcases List.mem_pair.mp member with rfl | rfl
      · exact first
      · exact second
    exact turn.requeues_iff.mpr (turn.busy (Option.isSome_iff_ne_none.mp pending))
  have few := (bounded sampleRunId 1 twoOverflows).requeued _ (List.Sublist.refl _) requeued
  have two : twoOverflows.turns.length = 2 := rfl
  omega

end OttiliCoder
