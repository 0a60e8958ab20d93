import OttiliCoder.Proofs.DateTexts
import OttiliCoder.Proofs.FailingTurns
import OttiliCoder.Runtime.RetryAfter

/-! The wake of a retry: the moment it is set for, and the readings of the clock that find
it due. -/

namespace OttiliCoder
open Host Relational Transaction

/-- The wakes a reading of the clock selects. -/
def dueWakes (s : Store) (now : IsoTimestamp) : List WakeConditionRow :=
  (s .wakeConditions).rows.filter fun row => row.status == .pending && row.wakeAt ≤ now

theorem wakeDueRuns_eq (clock : Date) (s : Store) : wakeDueRuns clock s =
    transaction ((dueWakes s clock.toISOString).mapM fun condition => wakeRun condition clock.toISOString) s := rfl

theorem mem_dueWakes {s : Store} {now : IsoTimestamp} {wake : WakeConditionRow} (found : (s .wakeConditions).find? wake.id = some wake)
    (pending : wake.status = .pending) : wake ∈ dueWakes s now ↔ wake.wakeAt ≤ now := by
  have inside : wake ∈ (s .wakeConditions).rows := (Keyed.find?_eq_some.mp found).1
  simp [dueWakes, inside, pending]

/-! Dates of delays. -/

theorem ofMs?_ms (date : Date) : Date.ofMs? date.ms = some date := by
  unfold Date.ofMs?
  rw [dif_pos date.valid]

/-- A delay that ends at a date is not rounded. -/
theorem wakeDate_of_ms {now date : Date} {delay : ℚ} (ends : now.ms + delay = date.ms) : wakeDate now (.finite delay) = some date := by
  obtain ⟨low, high⟩ := date.valid
  unfold maxDateMs at low high
  have small : |date.ms| < 2 ^ 53 := abs_lt.mpr ⟨by omega, by omega⟩
  let double : Binary64.Double := ⟨date.ms, Binary64.representable_intCast small⟩
  have rounded : Binary64.nearest (now.ms + delay) = some double := ends ▸ Binary64.nearest_value double
  have whole : (if 0 ≤ (date.ms : ℚ) then (date.ms : ℚ).floor else (date.ms : ℚ).ceil) = date.ms := by simp
  unfold wakeDate
  simp only [rounded, Option.bind_some]
  rw [show double.value = date.ms from rfl, whole, ofMs?_ms]

/-! Outages. -/

/-- A retryable failure of the provider, met by a running Run under a current lease, with attempts left. -/
structure Outage where
  settings : TurnSettings
  environment : TurnEnvironment
  lease : FencedLease
  epochId : SessionEpochId
  world : TurnWorld
  kind : ProviderFailureKind
  message : String
  /-- `Date.parse`. -/
  parseDate : JsString → Option Date
  received : Date
  header : Option JsString
  reached : Reachable world.store
  retryable : kind.retryable = true
  running : statusOf world.store lease.runId = some .running
  attempts : consecutiveProviderFailures world.store lease.runId + 1 ≤ settings.maxProviderAttempts
  current : ∀ reading ∈ [34, 35, 38, 39], CurrentLease world.store lease (environment.clock reading).toISOString
  epoch : epochRun world.store epochId = some lease.runId
  fresh : (world.store .wakeConditions).find? ("wake_" ++ environment.uuid 31) = none

namespace Outage
variable (outage : Outage)

def error : TurnError :=
  .providerFailure outage.kind outage.message (parseRetryAfterHeader outage.parseDate outage.received outage.header)

def count : Nat := consecutiveProviderFailures outage.world.store outage.lease.runId + 1

def handled : EStateM.Result TurnError TurnWorld Bool :=
  handleFailure outage.settings outage.environment outage.lease outage.epochId outage.error outage.world

/-- The present time of the failure. -/
def now : Date := outage.environment.clock 37

def delay : Number := retryDelayMs outage.environment.random outage.count (classifyProviderFailure outage.error).retryAfterMs

/-- The present time and the delay; none after a delay without end. -/
def due : Option ℚ :=
  match outage.delay with
  | .finite delay => some (outage.now.ms + delay)
  | .notFinite => none

def wakeId : String := "wake_" ++ outage.environment.uuid 31

/-- The failure is put down: the Run waits, for a wake that is stored for the moment due, and selected by a
reading of the clock exactly from that moment on, as long as it is pending. -/
def Settles (reading : Date) : Prop :=
  ∃ (asked : Bool) (left : TurnWorld) (wake : WakeConditionRow) (date : Date) (due : ℚ), outage.handled = .ok asked left ∧
    statusOf left.store outage.lease.runId = some .waitingExternal ∧
    (left.store .wakeConditions).find? outage.wakeId = some wake ∧ wake.runId = outage.lease.runId ∧ wake.status = .pending ∧
    outage.due = some due ∧ wake.wakeAt = date.toISOString ∧ date.ms = due ∧
    ∀ s : Store, (s .wakeConditions).find? outage.wakeId = some wake →
      (wake ∈ dueWakes s reading.toISOString ↔ due ≤ reading.ms)

theorem plain : (classifyProviderFailure outage.error).kind ≠ .contextOverflow := by
  intro overflow
  have retryable := outage.retryable
  rw [show outage.kind = .contextOverflow from overflow] at retryable
  cases retryable

theorem retries : RetryDue outage.settings.maxProviderAttempts (classifyProviderFailure outage.error) outage.count :=
  ⟨outage.retryable, outage.attempts⟩

/-- A failure whose delay ends at a date is put down. -/
theorem returns {date : Date} (dated : retryAt outage.environment (classifyProviderFailure outage.error) outage.count = some date) :
    ∃ asked left, outage.handled = .ok asked left ∧ statusOf left.store outage.lease.runId = some .waitingExternal ∧
      (left.store .wakeConditions).find? outage.wakeId =
        some (newWake outage.lease.runId date (outage.environment.uuid 31) (outage.environment.clock 38).toISOString) := by
  have held : ∀ {world : TurnWorld} (reading : Nat), world.store .runLeases = outage.world.store .runLeases →
      reading ∈ [34, 35, 38, 39] → CurrentLease world.store outage.lease (outage.environment.clock reading).toISOString := by
    intro world reading same listed
    have current := outage.current reading listed
    unfold CurrentLease at current ⊢
    rwa [same]
  have reached := outage.reached
  obtain ⟨_, ended, ends⟩ := store_called (endSessionEpoch_returns outage.epoch (held 34 rfl (by simp)) .failed)
  have first : Stores (Steady outage.lease.runId) outage.world ended := (within_steady (.endSessionEpoch _ _) rfl rfl).returned ends
  have leases := store_frame (.endSessionEpoch _ _) (t := .runLeases) rfl rfl ends
  obtain ⟨_, noted, notes⟩ := store_called (appendFencedEvent_returns (first.reached reached).sound (held 35 leases (by simp))
    [("kind", .string (classifyProviderFailure outage.error).kind.text),
      ("message", .string (classifyProviderFailure outage.error).message)] .providerFailed)
  obtain ⟨steady, counted⟩ := failure_counted reached ends notes
  have counted : consecutiveProviderFailures noted.store outage.lease.runId = outage.count := counted
  have leases := (store_frame (.appendFencedEvent _ _) (t := .runLeases) rfl rfl notes).trans leases
  have admitted : WakeAdmitted noted.store (some date) (outage.environment.uuid 31) := ⟨rfl, steady.wakes ▸ outage.fresh⟩
  obtain ⟨_, slept, schedules⟩ :=
    store_called (scheduleWake_returns (steady.reached reached).sound rfl admitted (held 38 leases (by simp)))
  obtain ⟨s', scheduled, same⟩ := store_ok.mp schedules
  obtain ⟨-, -, waits, wakeAt, dated', wakes⟩ := scheduleWake_returned scheduled
  obtain rfl : date = wakeAt := Option.some.inj dated'
  have leases := (store_frame (.scheduleWake _ _ _) (t := .runLeases) rfl rfl schedules).trans leases
  have handling : Stores (Handling outage.lease.runId) noted slept :=
    (within_handling (.scheduleWake _ _ _) rfl rfl rfl).returned schedules
  obtain ⟨_, left, journals⟩ := store_called (appendFencedEvent_returns (handling.reached (steady.reached reached)).sound
    (held 39 leases (by simp)) (retryPayload outage.environment (classifyProviderFailure outage.error) outage.count)
    .runRetryScheduled)
  have last : Stores (Steady outage.lease.runId) slept left := (within_steady (.appendFencedEvent _ _) rfl rfl).returned journals
  have stored : slept.store = s' := by rw [same]
  refine ⟨false, left, ?_, ?_, ?_⟩
  · unfold handled
    rw [handleFailure_plain outage.plain, bind_returned ends, bind_returned notes, retryFailure_due counted outage.retries, dated,
      bind_returned schedules, bind_returned journals]
    rfl
  · rw [last.status, stored]
    exact waits (steady.status.trans outage.running)
  · rw [last.wakes, stored, wakes, Keyed.find?_insert admitted.fresh]
    exact if_pos rfl

theorem retryAt_of_due {date : Date} (ends : outage.due = some (date.ms : ℚ)) :
    retryAt outage.environment (classifyProviderFailure outage.error) outage.count = some date := by
  change wakeDate outage.now outage.delay = some date
  unfold due at ends
  cases delay : outage.delay with
  | finite value =>
    rw [delay] at ends
    exact wakeDate_of_ms (Option.some.inj ends)
  | notFinite =>
    rw [delay] at ends
    cases ends

end Outage

/-- The handling of an outage settles, as a reading of the clock finds it, exactly when the delay ends at a date whose
year is written as that of the reading is. -/
theorem outage_settles_iff (outage : Outage) (reading : Date) :
    outage.Settles reading ↔ ∃ date : Date, outage.due = some (date.ms : ℚ) ∧ Date.Agree date reading := by
  constructor
  · rintro ⟨asked, left, wake, date, due, handled, waits, found, mine, pending, ends, stamped, same, selected⟩
    have named : wake.id = outage.wakeId := (Keyed.find?_eq_some.mp found).2
    refine ⟨date, same ▸ ends, (Date.toISOString_le_iff date reading).mp ?_⟩
    have chosen := selected left.store found
    rw [mem_dueWakes (named ▸ found) pending, stamped, ← same] at chosen
    exact chosen.trans (by norm_cast)
  · rintro ⟨date, ends, agree⟩
    obtain ⟨asked, left, handled, waits, found⟩ := outage.returns (outage.retryAt_of_due ends)
    refine ⟨asked, left, _, date, date.ms, handled, waits, found, rfl, rfl, ends, rfl, rfl, fun s stored => ?_⟩
    rw [mem_dueWakes stored rfl]
    exact ((Date.toISOString_le_iff date reading).mpr agree).trans (by norm_cast)

/-! A delay that ends past every date. -/

def farRetry : Outage where
  settings := oneAttempt
  environment := overflowEnvironment "1"
  lease := overflowLease
  epochId := overflowEpoch "1"
  world := { store := firstOverflow, aborted := none }
  kind := .rateLimited
  message := "rate limited"
  parseDate := fun _ => none
  received := .epoch
  header := some (units "9000000000000")
  reached := firstOverflow_reached
  retryable := rfl
  running := by decide +kernel
  attempts := by decide +kernel
  current := by decide +kernel
  epoch := by decide +kernel
  fresh := by decide +kernel

theorem farRetry_due : farRetry.due = some 9000000000000000 := by decide +kernel

/-- A header of nine trillion seconds is not put down. -/
theorem far_retry_not_settled : ¬ ∀ (outage : Outage) (reading : Date), outage.now.ms ≤ reading.ms → outage.Settles reading := by
  intro settles
  obtain ⟨_, _, _, date, due, -, -, -, -, -, ends, -, same, -⟩ := settles farRetry farRetry.now (le_refl _)
  obtain rfl : 9000000000000000 = due := Option.some.inj (farRetry_due.symm.trans ends)
  have whole : date.ms = 9000000000000000 := by exact_mod_cast same
  have bound := date.valid.2
  unfold maxDateMs at bound
  omega

end OttiliCoder
