import OttiliCoder.Library.Handlers
import OttiliCoder.Proofs.Admission
import OttiliCoder.Proofs.Problems
import OttiliCoder.Proofs.QuietJournals
import OttiliCoder.Runtime.Scheduler

/-! What the coordinator leaves of a Run whose provider failed, and what the scheduler makes
of it. -/

namespace OttiliCoder
open Host Relational Transaction

/-- The Run is there and runs, with an active goal. -/
def Continues (s : Store) (runId : RunId) : Prop := ∃ run, (s .runs).find? runId = some run ∧ Continuing s run

/-! What a step of the handling keeps. -/

/-- The step produces nothing and leaves the Run's continuation as it is. -/
structure Handling (runId : RunId) (s s' : Store) : Prop where
  quiet : Quiet runId s s'
  actions : s' .scheduledActions = s .scheduledActions
  reached : Reachable s → Reachable s'

instance {runId : RunId} : IsPreorder Store (Handling runId) where
  refl s := ⟨Std.Refl.refl s, rfl, id⟩
  trans _ _ _ first second := ⟨IsTrans.trans _ _ _ first.quiet second.quiet, second.actions.trans first.actions,
    fun reached => second.reached (first.reached reached)⟩

/-- What a continuation depends on in the row of a Run. -/
def runView (s : Store) (runId : RunId) : Option (RunStatus × Option GoalId) :=
  ((s .runs).find? runId).map fun run => (run.status, run.currentGoalId)

/-- The step also leaves what decides whether the failure can be put down and the Run go on. -/
structure Steady (runId : RunId) (s s' : Store) : Prop extends Handling runId s s' where
  view : runView s' runId = runView s runId
  goals : s' .goals = s .goals
  problems : s' .problems = s .problems
  observations : s' .problemObservations = s .problemObservations
  wakes : s' .wakeConditions = s .wakeConditions

instance {runId : RunId} : IsPreorder Store (Steady runId) where
  refl s := { Std.Refl.refl (r := Handling runId) s with view := rfl, goals := rfl, problems := rfl, observations := rfl, wakes := rfl }
  trans _ _ _ first second := { (IsTrans.trans _ _ _ first.toHandling second.toHandling : Handling runId _ _) with
    view := second.view.trans first.view
    goals := second.goals.trans first.goals
    problems := second.problems.trans first.problems
    observations := second.observations.trans first.observations
    wakes := second.wakes.trans first.wakes }

section Stores
variable {s s' : Store} {k : Kind} {runId : RunId}

theorem continues_iff : Continues s runId ↔ ∃ goalId goal, runView s runId = some (.running, some goalId) ∧
    (s .goals).find? goalId = some goal ∧ goal.status = .active := by
  constructor
  · rintro ⟨run, found, running, goalId, goal, current, stored, active⟩
    exact ⟨goalId, goal, by rw [runView, found, Option.map_some, running, current], stored, active⟩
  · rintro ⟨goalId, goal, view, stored, active⟩
    obtain ⟨run, found, same⟩ := Option.map_eq_some_iff.mp view
    simp only [Prod.mk.injEq] at same
    exact ⟨run, found, same.1, goalId, goal, same.2, stored, active⟩

theorem Steady.continues (steady : Steady runId s s') : Continues s' runId ↔ Continues s runId := by
  rw [continues_iff, continues_iff, steady.view, steady.goals]

theorem statusOf_view (s : Store) (runId : RunId) : statusOf s runId = (runView s runId).map (·.1) := by
  rw [statusOf, runView, Option.map_map]
  rfl

theorem Steady.status (steady : Steady runId s s') : statusOf s' runId = statusOf s runId := by
  rw [statusOf_view, statusOf_view, steady.view]

theorem Continues.running (continues : Continues s runId) : statusOf s runId = some .running := by
  obtain ⟨run, found, running, -⟩ := continues
  exact statusOf_eq_some.mpr ⟨run, found, running⟩

/-- The kinds that move the status of a Run, or bring a new one. -/
def Kind.movesRun : Kind → Bool
  | .transition _ | .created => true
  | _ => false

theorem Effect.view (effect : Effect k s s') (still : k.movesRun = false) : runView s' runId = runView s runId := by
  have step := effect.runs runId
  unfold runView
  revert step
  generalize (s .runs).find? runId = found
  generalize (s' .runs).find? runId = found'
  intro step
  cases step with
  | absent => rfl
  | fresh new =>
    rw [new.1] at still
    cases still
  | kept same =>
    rw [Option.map_some, Option.map_some, same.goal]
    rcases same.status with equal | ⟨moved, -⟩
    · rw [equal]
    · rw [moved] at still
      cases still

/-- The call produces nothing and keeps to the tables of the failure itself. -/
def Call.steady (call : Call) : Bool :=
  call.silent && (call.kinds.all fun k => !k.movesRun) &&
    [Table.scheduledActions, .goals, .problems, .problemObservations, .wakeConditions].all fun t => !call.writes t

theorem Call.steadily (call : Call) (calm : call.steady = true) : Steady runId s (call.perform s) := by
  rw [Call.steady, Bool.and_eq_true, Bool.and_eq_true] at calm
  obtain ⟨⟨silent, still⟩, apart⟩ := calm
  have frame : ∀ t ∈ [Table.scheduledActions, .goals, .problems, .problemObservations, .wakeConditions],
      (call.perform s) t = s t := by
    intro t listed
    exact call.frame (by simpa using List.all_eq_true.mp apart t listed)
  have kept : ∀ k middle last, k ∈ call.kinds → Effect k middle last →
      runView middle runId = runView s runId → runView last runId = runView s runId := by
    intro k middle last listed effect sofar
    exact (effect.view (by simpa using List.all_eq_true.mp still k listed)).trans sofar
  exact {
    quiet := call.quiet silent
    actions := frame _ (by simp)
    reached := fun reached => .step call reached trivial
    view := (Call.moves s call).keeps kept rfl
    goals := frame _ (by simp)
    problems := frame _ (by simp)
    observations := frame _ (by simp)
    wakes := frame _ (by simp) }

theorem Call.handling (call : Call) (silent : call.silent = true) (apart : call.writes .scheduledActions = false) :
    Handling runId s (call.perform s) := ⟨call.quiet silent, call.frame apart, fun reached => .step call reached trivial⟩

end Stores

/-! Store calls of a turn. -/

/-- The relation between the stores of two moments of a turn. -/
def Stores (rel : Store → Store → Prop) (world world' : TurnWorld) : Prop := rel world.store world'.store

instance {rel : Store → Store → Prop} [IsPreorder Store rel] : IsPreorder TurnWorld (Stores rel) where
  refl world := Std.Refl.refl (r := rel) world.store
  trans _ _ _ := IsTrans.trans (r := rel) _ _ _

/-- The error of a lease that is stale or another's. -/
def Fences (error : StoreError) : Prop := (TurnError.store error).isFenced = true

section StoreCalls
variable {α : Type} {m : StoreM α} {world world' : TurnWorld} {a : α} {error : TurnError}

theorem store_returned {s' : Store} (returned : m world.store = .ok a s') :
    store m world = .ok a { world with store := s' } := by
  unfold store
  rw [bind_get]
  simp only [returned]
  rfl

theorem store_called {post : α → Store → Prop} (returns : Returns m world.store post) : ∃ a world', store m world = .ok a world' := by
  obtain ⟨a, s', returned, -⟩ := returns
  exact ⟨a, _, store_returned returned⟩

theorem store_failed {e : StoreError} {s' : Store} (failed : m world.store = .error e s') :
    store m world = .error (.store e) { world with store := s' } := by
  unfold store
  rw [bind_get]
  simp only [failed]
  rfl

theorem store_ok : store m world = .ok a world' ↔ ∃ s', m world.store = .ok a s' ∧ world' = { world with store := s' } := by
  cases outcome : m world.store with
  | ok value s' =>
    rw [store_returned outcome]
    simp only [EStateM.Result.ok.injEq]
    constructor
    · rintro ⟨same, left⟩
      exact ⟨s', ⟨same, rfl⟩, left.symm⟩
    · rintro ⟨_, ⟨same, rfl⟩, left⟩
      exact ⟨same, left.symm⟩
  | error e s' =>
    rw [store_failed outcome]
    simp

theorem store_error : store m world = .error error world' ↔
    ∃ e s', m world.store = .error e s' ∧ error = .store e ∧ world' = { world with store := s' } := by
  cases outcome : m world.store with
  | ok value s' =>
    rw [store_returned outcome]
    simp
  | error e s' =>
    rw [store_failed outcome]
    simp only [EStateM.Result.error.injEq]
    constructor
    · rintro ⟨same, left⟩
      exact ⟨e, s', ⟨rfl, rfl⟩, same.symm, left.symm⟩
    · rintro ⟨_, _, ⟨rfl, rfl⟩, same, left⟩
      exact ⟨same.symm, left.symm⟩

theorem store_raises (raises : Raises Fences m world.store) :
    Raises (fun error => error.isFenced = true) (store m) world := by
  intro e world' failed
  rw [store_error] at failed
  obtain ⟨refusal, s', refused, rfl, -⟩ := failed
  exact raises refusal s' refused

theorem readStore_bind {β : Type} {f : Store → TurnM β} : (readStore >>= f) world = f world.store world := rfl

/-- A store call moves the store as it does alone. -/
theorem within_store {rel : Store → Store → Prop} :
    Within (Stores rel) (store m) world ↔ rel world.store (after m world.store) := by
  unfold Within Stores
  cases outcome : m world.store with
  | ok value s' => rw [after_ok (store_returned outcome), after_ok outcome]
  | error e s' => rw [after_error (store_failed outcome), after_error outcome]

theorem within_discard {rel : Store → Store → Prop} (within : Within (Stores rel) (store m) world) :
    Within (Stores rel) (store (discard m)) world := by
  rw [within_store] at within
  rwa [within_store, discard, after_map]

theorem Call.performs (call : Call) (runs : call.run = discard m) (s : Store) : call.perform s = after m s := by
  rw [Call.perform, runs, discard, after_map]

/-- A store call leaves what it does not write. -/
theorem store_frame (call : Call) {t : Table} (runs : call.run = discard m) (apart : call.writes t = false)
    (returned : store m world = .ok a world') : world'.store t = world.store t := by
  rw [store_ok] at returned
  obtain ⟨s', written, rfl⟩ := returned
  have performed := call.performs runs world.store
  rw [after_ok written] at performed
  exact performed ▸ call.frame apart

theorem within_steady (call : Call) {runId : RunId} (runs : call.run = discard m) (calm : call.steady = true) :
    Within (Stores (Steady runId)) (store m) world := by
  rw [within_store, ← call.performs runs]
  exact call.steadily calm

theorem within_handling (call : Call) {runId : RunId} (runs : call.run = discard m) (silent : call.silent = true)
    (apart : call.writes .scheduledActions = false) : Within (Stores (Handling runId)) (store m) world := by
  rw [within_store, ← call.performs runs]
  exact call.handling silent apart

theorem within_congr {β : Type} {rel : TurnWorld → TurnWorld → Prop} {m m' : TurnM β} (same : m world = m' world)
    (within : Within rel m' world) : Within rel m world := by
  unfold Within after at within ⊢
  rwa [same]

end StoreCalls

/-! What fenced calls throw. -/

section Fenced
variable {α : Type} {s : Store} {lease : FencedLease} {now : IsoTimestamp} {runId : RunId} {clock : Date}

theorem assertLease_raises : Raises Fences (assertLeaseInternal lease now) s := by
  refine Raises.bind (Raises.bind (raises_of_ok rfl) fun _ _ _ => .expect rfl) fun _ _ _ => ?_
  exact .require rfl

theorem assertRunLease_raises {message : String} : Raises Fences (assertRunLeaseInternal lease runId now message) s :=
  Raises.bind (.require rfl) fun _ _ _ => assertLease_raises

theorem Raises.transaction {errors : StoreError → Prop} {m : StoreM α} (raises : Raises errors m s) :
    Raises errors (transaction m) s := by
  intro e s' failed
  unfold Transaction.transaction at failed
  cases outcome : m s with
  | ok a middle => simp [outcome] at failed
  | error other middle =>
    simp only [outcome, EStateM.Result.error.injEq] at failed
    exact failed.1 ▸ raises other middle outcome

theorem endSessionEpoch_returns {epochId : SessionEpochId} (home : epochRun s epochId = some lease.runId)
    (current : CurrentLease s lease clock.toISOString) (reason : EndReason) :
    Returns (endSessionEpoch { id := epochId, lease := some lease, reason := reason } clock) s fun _ _ => True := by
  obtain ⟨epoch, found, -⟩ := Option.bind_eq_some_iff.mp home
  have checks : (do
      let s ← get
      require (epochRun s epochId = some lease.runId) (StoreError.leaseFenced lease.runId "Session epoch belongs to another Run.")
      assertLeaseInternal lease clock.toISOString) s = .ok () s :=
    bind_ok.mpr ⟨s, s, rfl, bind_ok.mpr ⟨(), s, require_ok.mpr ⟨home, rfl⟩, assertLeaseInternal_ok.mpr ⟨current, rfl⟩⟩⟩
  apply Returns.transaction
  apply Returns.step checks
  apply Returns.bind Returns.update
  intro _ last _ updated
  obtain ⟨row, stored⟩ : ∃ row, (last .sessionEpochs).find? epochId = some row := by
    rw [updated, Db.set_same, Keyed.find?_update, found]
    exact ⟨_, rfl⟩
  exact ⟨row, last, must_ok.mpr ⟨stored, rfl⟩, trivial⟩

theorem endSessionEpoch_raises {epochId : SessionEpochId} {reason : EndReason} :
    Raises Fences (endSessionEpoch { id := epochId, lease := some lease, reason := reason } clock) s := by
  by_cases held : epochRun s epochId = some lease.runId ∧ CurrentLease s lease clock.toISOString
  · obtain ⟨_, _, returned, -⟩ := endSessionEpoch_returns held.1 held.2 reason
    exact raises_of_ok returned
  · refine Raises.transaction (Raises.bind ?_ fun _ middle checked => ?_)
    · exact Raises.bind (raises_of_ok rfl) fun _ _ _ => Raises.bind (.require rfl) fun _ _ _ => assertLease_raises
    · simp only [given, bind_ok, get_ok, require_ok, assertLeaseInternal_ok] at checked
      obtain ⟨_, _, ⟨rfl, rfl⟩, _, _, ⟨home, rfl⟩, current, -⟩ := checked
      exact absurd ⟨home, current⟩ held

theorem appendFencedEvent_returns (sound : Sound s) (current : CurrentLease s lease clock.toISOString) (payload : JsonObject)
    (type : RunEventType) :
    Returns (appendFencedEvent { lease := lease, payload := payload, type := type } clock) s fun _ _ => True := by
  obtain ⟨run, found⟩ := sound.leased current
  apply Returns.transaction
  apply Returns.step (assertLeaseInternal_ok (u := ()).mpr ⟨current, rfl⟩)
  exact (appendEvent_returns sound found type payload _).weaken fun _ _ _ => trivial

theorem appendFencedEvent_raises (sound : Sound s) {payload : JsonObject} {type : RunEventType} :
    Raises Fences (appendFencedEvent { lease := lease, payload := payload, type := type } clock) s := by
  by_cases current : CurrentLease s lease clock.toISOString
  · obtain ⟨_, _, returned, -⟩ := appendFencedEvent_returns sound current payload type
    exact raises_of_ok returned
  · exact Raises.transaction (assertLease_raises.bind fun _ _ checked => absurd (assertLeaseInternal_ok.mp checked).1 current)

/-- The Run's wake can be put down. -/
structure WakeAdmitted (s : Store) (wakeAt : Option Date) (uuid : String) : Prop where
  dated : wakeAt.isSome = true
  fresh : (s .wakeConditions).find? ("wake_" ++ uuid) = none

def newWake (runId : RunId) (wakeAt : Date) (uuid : String) (now : IsoTimestamp) : WakeConditionRow where
  id := "wake_" ++ uuid
  runId := runId
  wakeAt := wakeAt.toISOString
  status := .pending
  createdAt := now
  updatedAt := now

theorem scheduleWake_returns (sound : Sound s) (mine : lease.runId = runId) {wakeAt : Option Date} {uuid : String}
    (admitted : WakeAdmitted s wakeAt uuid) (current : CurrentLease s lease clock.toISOString) :
    Returns (scheduleWake { lease := some lease, runId := runId, wakeAt := wakeAt } uuid clock) s fun _ _ => True := by
  obtain ⟨date, rfl⟩ := Option.isSome_iff_exists.mp admitted.dated
  obtain ⟨run, found⟩ := sound.leased current
  rw [mine] at found
  have inserts : schema.Admits s .wakeConditions (newWake runId date uuid clock.toISOString) :=
    ⟨admitted.fresh, by simp [schema, clash], by simp [schema, references, Store.has, newWake, found]⟩
  have sound' : Sound (s.set .wakeConditions ((s .wakeConditions).insert (newWake runId date uuid clock.toISOString))) :=
    (Effect.ledger rfl).sound sound
  have found' : ((s.set .wakeConditions ((s .wakeConditions).insert (newWake runId date uuid clock.toISOString))) .runs).find?
      runId = some run := by
    rw [Db.set_other _ _ (by simp)]
    exact found
  apply Returns.transaction
  apply Returns.step (assertRunLeaseInternal_ok (u := ()).mpr ⟨⟨mine, current⟩, rfl⟩)
  apply Returns.step (expect_ok.mpr ⟨rfl, rfl⟩)
  apply Returns.step (insert_ok (u := ()).mpr ⟨inserts, rfl⟩)
  apply Returns.step (mustRun_ok.mpr ⟨run, found', rfl, rfl⟩)
  by_cases running : run.status = .running
  · have edge : canTransitionRun run.status .waitingExternal = true := by
      rw [running]
      decide
    obtain rfl := (Keyed.find?_eq_some.mp found).2
    have waits : Returns (transitionRunInternal run.id .waitingExternal clock.toISOString) _ _ :=
      transitionRun_returns sound' found' edge none
    obtain ⟨_, last, moved, -⟩ := waits
    apply Returns.step (onlyIf_ok (u := ()).mpr (.inl ⟨running, moved⟩))
    exact .pure trivial
  · apply Returns.step (onlyIf_ok (u := ()).mpr (.inr ⟨running, rfl⟩))
    exact .pure trivial

theorem scheduleWake_raises (sound : Sound s) (mine : lease.runId = runId) {wakeAt : Option Date} {uuid : String}
    (admitted : WakeAdmitted s wakeAt uuid) :
    Raises Fences (scheduleWake { lease := some lease, runId := runId, wakeAt := wakeAt } uuid clock) s := by
  by_cases current : CurrentLease s lease clock.toISOString
  · obtain ⟨_, _, returned, -⟩ := scheduleWake_returns sound mine admitted current
    exact raises_of_ok returned
  · exact Raises.transaction (assertRunLease_raises.bind fun _ _ checked => absurd (assertRunLeaseInternal_ok.mp checked).1.2 current)

/-- What `handleFailure` asks of a Run that still runs. -/
theorem parking_raises (sound : Sound s) (running : statusOf s runId = some .running) {reason : Option String} :
    Raises Fences (transitionRun { lease := some lease, reason := reason, runId := runId, target := ⟨.waitingExternal, by decide⟩ } clock) s := by
  obtain ⟨run, found, status⟩ := statusOf_eq_some.mp running
  refine Raises.transaction (Raises.bind assertRunLease_raises fun _ middle checked => ?_)
  obtain ⟨-, rfl⟩ := assertRunLeaseInternal_ok.mp checked
  refine Raises.bind (raises_of_ok (mustRun_ok.mpr ⟨run, found, rfl, rfl⟩)) fun _ _ read => ?_
  obtain ⟨other, stored, rfl, rfl⟩ := mustRun_ok.mp read
  obtain rfl : run = other := Option.some.inj (found.symm.trans stored)
  refine Raises.bind (raises_of_ok rfl) fun _ same unasked => ?_
  obtain ⟨-, rfl⟩ := pure_ok.mp unasked
  have edge : canTransitionRun run.status .waitingExternal = true := by
    rw [status]
    decide
  obtain rfl := (Keyed.find?_eq_some.mp found).2
  have waits : Returns (transitionRunInternal run.id .waitingExternal clock.toISOString reason) _ _ :=
    transitionRun_returns sound found edge reason
  obtain ⟨_, last, moved, -⟩ := waits
  refine Raises.bind (raises_of_ok moved) fun _ after left => ?_
  refine Raises.bind (raises_of_ok rfl) fun _ after' idle => ?_
  obtain ⟨-, rfl⟩ := pure_ok.mp idle
  obtain ⟨parked, there, -⟩ := transitionRun_status left
  exact raises_of_ok (mustRun_ok.mpr ⟨parked, there, rfl, rfl⟩)

theorem scheduleWake_returned {s' : Store} {wakeAt : Option Date} {uuid id : String}
    (returned : scheduleWake { lease := some lease, runId := runId, wakeAt := wakeAt } uuid clock s = .ok id s') :
    WakeAdmitted s wakeAt uuid ∧ statusOf s' runId ≠ some .running ∧
      (statusOf s runId = some .running → statusOf s' runId = some .waitingExternal) ∧
      ∃ date, wakeAt = some date ∧ s' .wakeConditions = (s .wakeConditions).insert (newWake runId date uuid clock.toISOString) := by
  simp only [scheduleWake, transaction_ok, bind_ok, given, assertRunLeaseInternal_ok, expect_ok, insert_ok, mustRun_ok,
    pure_ok] at returned
  obtain ⟨_, _, ⟨-, rfl⟩, date, middle, ⟨rfl, rfl⟩, _, _, ⟨inserts, rfl⟩, _, _, ⟨run, found, rfl, rfl⟩, _, last, moved, -, rfl⟩ :=
    returned
  rcases onlyIf_ok.mp moved with ⟨-, waits⟩ | ⟨still, rfl⟩
  · obtain rfl := (Keyed.find?_eq_some.mp found).2
    have waiting : statusOf s' run.id = some .waitingExternal := statusOf_eq_some.mpr (transitionRun_status waits)
    refine ⟨⟨rfl, inserts.fresh⟩, by simp [waiting], fun _ => waiting, date, rfl, ?_⟩
    rw [transitionRun_other waits (by simp) (by simp), Db.set_same]
    rfl
  · have stopped : statusOf middle runId ≠ some .running := by
      intro running
      obtain ⟨other, stored, status⟩ := statusOf_eq_some.mp running
      obtain rfl : run = other := Option.some.inj (found.symm.trans stored)
      exact still status
    refine ⟨⟨rfl, inserts.fresh⟩, stopped, fun running => absurd running stopped, date, rfl, ?_⟩
    rw [Db.set_same]
    rfl

end Fenced

/-! Waiting for an operator. -/

section Parking
variable {s s' : Store} {lease : FencedLease} {runId : RunId} {reason : Option String} {clock : Date}

theorem parking_returned {run : Run} (returned : transitionRun
      { lease := some lease, reason := reason, runId := runId, target := ⟨.waitingExternal, by decide⟩ } clock s = .ok run s') :
    statusOf s' runId = some .waitingExternal ∧ ∀ t, t ≠ .runs → t ≠ .runEvents → s' t = s t := by
  simp only [transitionRun, transaction_ok, bind_ok, given, assertRunLeaseInternal_ok, mustRun_ok, pure_ok, onlyIf_ok] at returned
  obtain ⟨_, _, ⟨-, rfl⟩, _, _, ⟨row, found, rfl, rfl⟩, _, _, ⟨-, rfl⟩, _, middle, moved, _, _, idle, _, _, -, rfl⟩ := returned
  rcases idle with ⟨impossible, -⟩ | ⟨-, rfl⟩
  · cases impossible
  · obtain rfl := (Keyed.find?_eq_some.mp found).2
    exact ⟨statusOf_eq_some.mpr (transitionRun_status moved), fun t runs events => transitionRun_other moved runs events⟩

theorem parking_handling : Handling runId s (after (transitionRun
      { lease := some lease, reason := reason, runId := runId, target := ⟨.waitingExternal, by decide⟩ } clock) s) := by
  have atomic : Atomic (transitionRun { lease := some lease, reason := reason, runId := runId
                                        target := ⟨.waitingExternal, by decide⟩ } clock) := .transaction _
  rcases atomic.cases (s := s) with ⟨run, returned⟩ | ⟨-, same⟩
  · have performed := Call.performs (.transitionRun
      { lease := some lease, reason := reason, runId := runId, target := ⟨.waitingExternal, by decide⟩ } clock) rfl s
    refine ⟨performed ▸ Call.quiet _ rfl, (parking_returned returned).2 _ (by simp) (by simp), fun reached => ?_⟩
    exact performed ▸ .step _ reached trivial
  · rw [same]
    exact Std.Refl.refl s

end Parking

/-! A failure that is no context overflow. -/

/-- The failure, one of `count` in a row, is tried again later. -/
def RetryDue (maxProviderAttempts : Nat) (failure : ProviderFailure) (count : Nat) : Prop :=
  failure.kind.retryable = true ∧ count ≤ maxProviderAttempts

instance {maxProviderAttempts : Nat} {failure : ProviderFailure} {count : Nat} :
    Decidable (RetryDue maxProviderAttempts failure count) := inferInstanceAs (Decidable (_ ∧ _))

def retryAt (environment : TurnEnvironment) (failure : ProviderFailure) (count : Nat) : Option Date :=
  wakeDate (environment.clock 37) (retryDelayMs environment.random count failure.retryAfterMs)

/-- What is journaled of a retry. -/
def retryPayload (environment : TurnEnvironment) (failure : ProviderFailure) (count : Nat) : JsonObject :=
  [("consecutiveFailures", .nat count),
    ("delayMs", match retryDelayMs environment.random count failure.retryAfterMs with
      | .finite value => .number value
      | .notFinite => .null),
    ("kind", .string failure.kind.text)]

/-- What an operator finds of a failure that is not tried again. -/
def providerProblem (runId : RunId) (failure : ProviderFailure) (count : Nat) : RecordProblemInput where
  alternateActionAvailable := failure.kind.retryable
  externalDependency := true
  fingerprint := "provider:" ++ failure.kind.text
  meaningful := some true
  note := some (storedText ((utf16 failure.message).take 500))
  runId := runId
  summary := if failure.kind.retryable then
      "Provider kept failing with '" ++ failure.kind.text ++ "' after " ++ toString count ++ " consecutive attempts."
    else "Provider failure '" ++ failure.kind.text ++ "' needs operator or provider configuration input."

/-- What the failure leaves can be written: the wake of its retry, or its problem. -/
def Recordable (maxProviderAttempts : Nat) (environment : TurnEnvironment) (runId : RunId) (failure : ProviderFailure)
    (count : Nat) (s : Store) : Prop :=
  if RetryDue maxProviderAttempts failure count then WakeAdmitted s (retryAt environment failure count) (environment.uuid 31)
  else ProblemAdmitted s (providerProblem runId failure count) (environment.uuid 32) (environment.clock 40).toISOString

section Retrying
variable {settings : TurnSettings} {environment : TurnEnvironment} {lease : FencedLease} {failure : ProviderFailure}
  {world world' : TurnWorld} {count : Nat}

theorem retryFailure_due (counted : consecutiveProviderFailures world.store lease.runId = count)
    (due : RetryDue settings.maxProviderAttempts failure count) :
    retryFailure settings environment lease failure world = (do
      let _ ← store (scheduleWake { lease := some lease, runId := lease.runId, wakeAt := retryAt environment failure count }
        (environment.uuid 31) (environment.clock 38))
      let _ ← store (appendFencedEvent
        { lease := lease, payload := retryPayload environment failure count, type := .runRetryScheduled } (environment.clock 39))
      return false) world := by
  subst counted
  have chosen : (failure.kind.retryable &&
      decide (consecutiveProviderFailures world.store lease.runId ≤ settings.maxProviderAttempts)) = true := by
    simp [due.1, due.2]
  unfold retryFailure
  rw [readStore_bind]
  exact congrFun (if_pos chosen) world

/-- The Run is put down as waiting, where it still runs. -/
def parkRun (environment : TurnEnvironment) (lease : FencedLease) (failure : ProviderFailure) : TurnM Bool := do
  let s ← readStore
  Transaction.onlyIf ((getRun s lease.runId).any fun run => run.status == .running) do
    store (discard (transitionRun
      { lease := some lease, reason := some ("Provider failure: " ++ failure.kind.text), runId := lease.runId
        target := ⟨.waitingExternal, waitingExternal_open⟩ } (environment.clock 41)))
  return false

theorem retryFailure_spent (counted : consecutiveProviderFailures world.store lease.runId = count)
    (spent : ¬ RetryDue settings.maxProviderAttempts failure count) :
    retryFailure settings environment lease failure world = (do
      let _ ← store (recordProblem (providerProblem lease.runId failure count) (environment.uuid 32) (environment.clock 40))
      parkRun environment lease failure) world := by
  subst counted
  have chosen : ¬ (failure.kind.retryable &&
      decide (consecutiveProviderFailures world.store lease.runId ≤ settings.maxProviderAttempts)) = true := by
    simpa [RetryDue] using spent
  unfold retryFailure
  rw [readStore_bind]
  exact congrFun (if_neg chosen) world

theorem parkRun_within : Within (Stores (Handling lease.runId)) (parkRun environment lease failure) world := by
  unfold parkRun
  apply within_congr readStore_bind
  apply Within.bind
  · unfold onlyIf
    apply Within.ite
    · intro _
      exact within_discard (within_store.mpr parking_handling)
    · exact fun _ => Within.pure ()
  · exact fun _ _ _ => Within.pure false

theorem retryFailure_within : Within (Stores (Handling lease.runId)) (retryFailure settings environment lease failure) world := by
  by_cases due : RetryDue settings.maxProviderAttempts failure (consecutiveProviderFailures world.store lease.runId)
  · apply within_congr (retryFailure_due rfl due)
    apply (within_handling (.scheduleWake _ _ _) rfl rfl rfl).bind
    intro _ _ _
    apply (within_handling (.appendFencedEvent _ _) rfl rfl rfl).bind
    exact fun _ _ _ => Within.pure false
  · apply within_congr (retryFailure_spent rfl due)
    apply (within_handling (.recordProblem _ _ _) rfl rfl rfl).bind
    exact fun _ _ _ => parkRun_within

theorem parkRun_returned {asked : Bool} (returned : parkRun environment lease failure world = .ok asked world') :
    asked = false ∧ statusOf world'.store lease.runId ≠ some .running ∧
      ∀ t, t ≠ .runs → t ≠ .runEvents → world'.store t = world.store t := by
  unfold parkRun at returned
  rw [readStore_bind] at returned
  simp only [bind_ok, onlyIf_ok, pure_ok] at returned
  obtain ⟨_, _, ⟨running, parked⟩ | ⟨stopped, rfl⟩, rfl, rfl⟩ := returned
  · obtain ⟨s', moved, rfl⟩ := store_ok.mp parked
    obtain ⟨run, moved, -⟩ := map_ok.mp moved
    obtain ⟨waits, others⟩ := parking_returned moved
    refine ⟨rfl, ?_, others⟩
    rw [waits]
    simp
  · refine ⟨rfl, fun running => stopped ?_, fun _ _ _ => rfl⟩
    obtain ⟨run, found, status⟩ := statusOf_eq_some.mp running
    simp [getRun, found, status]

theorem parkRun_failed {error : TurnError} (sound : Sound world.store)
    (failed : parkRun environment lease failure world = .error error world') : error.isFenced = true := by
  unfold parkRun at failed
  rw [readStore_bind] at failed
  have waits : Raises (fun error => error.isFenced = true)
      (onlyIf ((getRun world.store lease.runId).any (fun run => run.status == .running) = true) (store (discard (transitionRun
        { lease := some lease, reason := some ("Provider failure: " ++ failure.kind.text), runId := lease.runId
          target := ⟨.waitingExternal, by decide⟩ } (environment.clock 41))))) world := by
    unfold onlyIf
    split
    · next running =>
      have still : statusOf world.store lease.runId = some .running := by
        rw [getRun, Option.any_map, Option.any_eq_true] at running
        obtain ⟨run, found, status⟩ := running
        exact statusOf_eq_some.mpr ⟨run, found, by simpa using status⟩
      exact store_raises (parking_raises sound still).map
    · exact raises_of_ok rfl
  exact (waits.bind fun _ _ _ => raises_of_ok rfl) error world' failed

/-- A failure that is put down leaves a Run that does not run, with the wake of its retry
or none. -/
theorem retryFailure_returned {asked : Bool} (counted : consecutiveProviderFailures world.store lease.runId = count)
    (reached : Reachable world.store) (returned : retryFailure settings environment lease failure world = .ok asked world') :
    asked = false ∧ Recordable settings.maxProviderAttempts environment lease.runId failure count world.store ∧
      statusOf world'.store lease.runId ≠ some .running ∧
      if RetryDue settings.maxProviderAttempts failure count then
        ∃ date, world'.store .wakeConditions = (world.store .wakeConditions).insert
          (newWake lease.runId date (environment.uuid 31) (environment.clock 38).toISOString)
      else world'.store .wakeConditions = world.store .wakeConditions := by
  unfold Recordable
  by_cases due : RetryDue settings.maxProviderAttempts failure count
  · rw [retryFailure_due counted due] at returned
    simp only [bind_ok, pure_ok] at returned
    obtain ⟨id, slept, scheduled, _, _, noted, rfl, rfl⟩ := returned
    obtain ⟨s₁, written, rfl⟩ := store_ok.mp scheduled
    obtain ⟨admitted, stopped, -, date, -, wakes⟩ := scheduleWake_returned written
    have steady : Stores (Steady lease.runId) { world with store := s₁ } world' :=
      (within_steady (.appendFencedEvent _ _) rfl rfl).returned noted
    rw [if_pos due, if_pos due, steady.status, steady.wakes]
    exact ⟨rfl, admitted, stopped, date, wakes⟩
  · rw [retryFailure_spent counted due] at returned
    simp only [bind_ok] at returned
    obtain ⟨row, noted, recorded, parked⟩ := returned
    obtain ⟨s₁, written, rfl⟩ := store_ok.mp recorded
    obtain ⟨rfl, stopped, others⟩ := parkRun_returned parked
    have wakes : s₁ .wakeConditions = world.store .wakeConditions := store_frame (.recordProblem _ _ _) rfl rfl recorded
    rw [if_neg due, if_neg due]
    exact ⟨rfl, (recordProblem_succeeds reached.sound (problemsHome_reached reached)).mp ⟨row, s₁, written⟩, stopped,
      (others _ (by simp) (by simp)).trans wakes⟩

/-- A failure that cannot be put down leaves everything as it is. -/
theorem retryFailure_failed {error : TurnError} (counted : consecutiveProviderFailures world.store lease.runId = count)
    (reached : Reachable world.store) (failed : retryFailure settings environment lease failure world = .error error world')
    (unfenced : error.isFenced = false) :
    ¬ Recordable settings.maxProviderAttempts environment lease.runId failure count world.store ∧ world' = world := by
  have stops : ¬ error.isFenced = true := fun fenced => by simp [fenced] at unfenced
  unfold Recordable
  by_cases due : RetryDue settings.maxProviderAttempts failure count
  · rw [retryFailure_due counted due] at failed
    rw [if_pos due]
    rcases bind_error.mp failed with refused | ⟨id, slept, scheduled, later⟩
    · obtain ⟨e, s', thrown, rfl, rfl⟩ := store_error.mp refused
      have same : s' = world.store := transaction_error thrown
      exact ⟨fun admitted => stops (scheduleWake_raises reached.sound rfl admitted e s' thrown), by rw [same]⟩
    · have handled : Stores (Handling lease.runId) world slept :=
        (within_handling (.scheduleWake _ _ _) rfl rfl rfl).returned scheduled
      have on : Reachable slept.store := handled.reached reached
      exact absurd (((store_raises (appendFencedEvent_raises on.sound)).bind fun _ _ _ => raises_of_ok rfl) error world' later) stops
  · rw [retryFailure_spent counted due] at failed
    rw [if_neg due]
    rcases bind_error.mp failed with refused | ⟨row, noted, recorded, later⟩
    · obtain ⟨e, s', thrown, rfl, rfl⟩ := store_error.mp refused
      have same : s' = world.store := transaction_error thrown
      refine ⟨fun admitted => ?_, by rw [same]⟩
      obtain ⟨row, s'', returned⟩ := (recordProblem_succeeds reached.sound (problemsHome_reached reached)).mpr admitted
      cases thrown.symm.trans returned
    · have handled : Stores (Handling lease.runId) world noted :=
        (within_handling (.recordProblem _ _ _) rfl rfl rfl).returned recorded
      have on : Reachable noted.store := handled.reached reached
      exact absurd (parkRun_failed on.sound later) stops

theorem Steady.known {s s' : Store} {runId : RunId} (steady : Steady runId s s') :
    (∃ run, (s' .runs).find? runId = some run) ↔ ∃ run, (s .runs).find? runId = some run := by
  have same := congrArg Option.isSome steady.view
  rw [runView, runView, Option.isSome_map, Option.isSome_map] at same
  rw [← Option.isSome_iff_exists, ← Option.isSome_iff_exists, same]

/-- What can be written does not depend on the steps before. -/
theorem Steady.recordable {s s' : Store} {runId : RunId} {maxProviderAttempts : Nat} (steady : Steady runId s s') :
    Recordable maxProviderAttempts environment runId failure count s' ↔
      Recordable maxProviderAttempts environment runId failure count s := by
  unfold Recordable
  split
  · constructor
    · exact fun both => ⟨both.1, steady.wakes ▸ both.2⟩
    · exact fun both => ⟨both.1, steady.wakes ▸ both.2⟩
  · have stored : storedProblems s' (providerProblem runId failure count) = storedProblems s (providerProblem runId failure count) := by
      rw [storedProblems, steady.problems, storedProblems]
    have present : s'.has .runs runId = s.has .runs runId := by
      have same := congrArg Option.isSome steady.view
      rwa [runView, runView, Option.isSome_map, Option.isSome_map] at same
    have named : observedProblem s' (providerProblem runId failure count) = observedProblem s (providerProblem runId failure count) := by
      rw [observedProblem, observedProblem, stored]
    have row : ∀ now, newProblem s' (providerProblem runId failure count) now = newProblem s (providerProblem runId failure count) now := by
      intro now
      rw [newProblem, newProblem, named]
    have admits : ∀ row, row.runId = runId → (schema.Admits s' .problems row ↔ schema.Admits s .problems row) := by
      intro row mine
      have same : schema.references s' .problems row = schema.references s .problems row := by
        simp only [schema, references, mine, present]
      constructor
      · rintro ⟨fresh, apart, there⟩
        exact ⟨steady.problems ▸ fresh, steady.problems ▸ apart, same ▸ there⟩
      · rintro ⟨fresh, apart, there⟩
        exact ⟨steady.problems ▸ fresh, steady.problems ▸ apart, same ▸ there⟩
    constructor
    · rintro ⟨known, opened, observed, _⟩
      refine ⟨steady.known.mp known, fun none => (admits _ rfl).mp (row _ ▸ opened (stored ▸ none)), ?_, fun _ named => by cases named⟩
      rwa [newObservation, named, steady.observations] at observed
    · rintro ⟨known, opened, observed, _⟩
      refine ⟨steady.known.mpr known, fun none => (admits _ rfl).mpr (row _ ▸ opened (stored ▸ none)), ?_, fun _ named => by cases named⟩
      rwa [newObservation, named, steady.observations]

end Retrying

/-! The whole of a failure. -/

section Handling
variable {settings : TurnSettings} {environment : TurnEnvironment} {lease : FencedLease} {epochId : SessionEpochId}
  {error : TurnError} {world world' : TurnWorld} {asked : Bool} {count : Nat}

/-- An overflow only asks for another turn, whatever the attempts before it. -/
theorem handleFailure_overflow {runId : RunId} (overflow : (classifyProviderFailure error).kind = .contextOverflow) :
    Within (Stores (Steady runId)) (handleFailure settings environment lease epochId error) world := by
  unfold handleFailure
  apply Within.bind
  · unfold onlyIf
    apply Within.ite
    · intro _
      apply within_congr readStore_bind
      exact within_discard (within_steady (.createContextSnapshot _ _ _) rfl rfl)
    · exact fun _ => Within.pure ()
  · intro _ _ _
    apply (within_steady (.endSessionEpoch _ _) rfl rfl).bind
    intro _ _ _
    apply (within_steady (.appendFencedEvent _ _) rfl rfl).bind
    intro _ _ _
    apply Within.ite
    · intro _
      apply (within_steady (.appendFencedEvent _ _) rfl rfl).bind
      exact fun _ _ _ => Within.pure true
    · intro plain
      exact absurd (decide_eq_true overflow) plain

theorem handleFailure_asks (overflow : (classifyProviderFailure error).kind = .contextOverflow)
    (returned : handleFailure settings environment lease epochId error world = .ok asked world') : asked = true := by
  unfold handleFailure at returned
  simp only [bind_ok, overflow, decide_true, if_true, pure_ok] at returned
  obtain ⟨_, _, -, _, _, -, _, _, -, _, _, -, same, -⟩ := returned
  exact same

theorem handleFailure_plain (plain : (classifyProviderFailure error).kind ≠ .contextOverflow) :
    handleFailure settings environment lease epochId error world = (do
      let _ ← store (endSessionEpoch { id := epochId, lease := some lease, reason := .failed } (environment.clock 34))
      let _ ← store (appendFencedEvent
        { lease := lease
          payload := [("kind", .string (classifyProviderFailure error).kind.text), ("message", .string (classifyProviderFailure error).message)]
          type := .providerFailed } (environment.clock 35))
      retryFailure settings environment lease (classifyProviderFailure error)) world := by
  unfold handleFailure onlyIf
  simp only [plain, decide_false, Bool.false_eq_true, if_false]
  rfl

theorem appended_failure {s s' : Store} {payload : JsonObject} {clock : Date} {event : RunEvent} (reached : Reachable s)
    (onward : Reachable s')
    (appended : appendFencedEvent { lease := lease, payload := payload, type := .providerFailed } clock s = .ok event s') :
    consecutiveProviderFailures s' lease.runId = consecutiveProviderFailures s lease.runId + 1 := by
  simp only [appendFencedEvent, transaction_ok, bind_ok, assertLeaseInternal_ok] at appended
  obtain ⟨_, middle, ⟨-, rfl⟩, appended⟩ := appended
  obtain ⟨row, journaled, mine, type, -⟩ := appended_journaled appended
  have grown : journalOf s' lease.runId = journalOf middle lease.runId ++ [row] := by
    rw [journalOf, journaled.events, Keyed.insert_rows journaled.fresh, List.filter_append]
    simp [journalOf, mine]
  have quiet : ∀ type ∈ [row].map (·.type), type.produces = false := by
    intro other member
    obtain rfl : other = row.type := by simpa using member
    rw [type]
    rfl
  rw [consecutiveProviderFailures_eq (numbered_reached onward), grown, List.map_append, trailingFailures_append quiet,
    ← consecutiveProviderFailures_eq (numbered_reached reached)]
  simp [type]

/-- The epoch is ended and the failure journaled, which counts it. -/
theorem failure_counted {ended : SessionEpochRow} {noted : RunEvent} {middle last : TurnWorld} {input : EndSessionEpochInput}
    {payload : JsonObject} {clock after : Date} (reached : Reachable world.store)
    (ends : store (endSessionEpoch input clock) world = .ok ended middle)
    (notes : store (appendFencedEvent { lease := lease, payload := payload, type := .providerFailed } after) middle = .ok noted last) :
    Steady lease.runId world.store last.store ∧
      consecutiveProviderFailures last.store lease.runId = consecutiveProviderFailures world.store lease.runId + 1 := by
  have first : Stores (Steady lease.runId) world middle := (within_steady (.endSessionEpoch _ _) rfl rfl).returned ends
  have second : Stores (Steady lease.runId) middle last := (within_steady (.appendFencedEvent _ _) rfl rfl).returned notes
  refine ⟨IsTrans.trans _ _ _ first second, ?_⟩
  obtain ⟨s₁, ended, rfl⟩ := store_ok.mp ends
  obtain ⟨s₂, appended, rfl⟩ := store_ok.mp notes
  have onward : Reachable s₁ := first.reached reached
  rw [appended_failure onward (second.reached onward) appended]
  have same : s₁ .runEvents = world.store .runEvents := store_frame (.endSessionEpoch _ _) rfl rfl ends
  rw [consecutiveProviderFailures_eq (numbered_reached onward), consecutiveProviderFailures_eq (numbered_reached reached),
    journalOf, journalOf, same]

/-- A failure that was put down: the Run does not run, and its retry has a wake or none is due. -/
theorem handleFailure_returned (plain : (classifyProviderFailure error).kind ≠ .contextOverflow) (reached : Reachable world.store)
    (counted : consecutiveProviderFailures world.store lease.runId + 1 = count)
    (returned : handleFailure settings environment lease epochId error world = .ok asked world') :
    asked = false ∧
      Recordable settings.maxProviderAttempts environment lease.runId (classifyProviderFailure error) count world.store ∧
      statusOf world'.store lease.runId ≠ some .running ∧
      (if RetryDue settings.maxProviderAttempts (classifyProviderFailure error) count then
        ∃ date, world'.store .wakeConditions = (world.store .wakeConditions).insert
          (newWake lease.runId date (environment.uuid 31) (environment.clock 38).toISOString)
      else world'.store .wakeConditions = world.store .wakeConditions) ∧
      Handling lease.runId world.store world'.store ∧ count ≤ consecutiveProviderFailures world'.store lease.runId := by
  rw [handleFailure_plain plain] at returned
  simp only [bind_ok] at returned
  obtain ⟨_, middle, ends, _, last, notes, later⟩ := returned
  obtain ⟨steady, more⟩ := failure_counted reached ends notes
  have onward := steady.reached reached
  obtain ⟨same, recordable, stopped, wakes⟩ := retryFailure_returned (more.trans counted) onward later
  have rest : Stores (Handling lease.runId) last world' := retryFailure_within.returned later
  refine ⟨same, steady.recordable.mp recordable, stopped, ?_, IsTrans.trans _ _ _ steady.toHandling rest, ?_⟩
  · rwa [steady.wakes] at wakes
  · rw [← counted, ← more]
    exact rest.quiet.failures (numbered_reached onward) (numbered_reached (rest.reached onward))

/-- A failure that is thrown on for another reason than the lease could not be put down. -/
theorem handleFailure_failed {thrown : TurnError} (plain : (classifyProviderFailure error).kind ≠ .contextOverflow)
    (reached : Reachable world.store) (counted : consecutiveProviderFailures world.store lease.runId + 1 = count)
    (failed : handleFailure settings environment lease epochId error world = .error thrown world') (unfenced : thrown.isFenced = false) :
    ¬ Recordable settings.maxProviderAttempts environment lease.runId (classifyProviderFailure error) count world.store ∧
      Steady lease.runId world.store world'.store := by
  have stops : ¬ thrown.isFenced = true := fun fenced => by simp [fenced] at unfenced
  rw [handleFailure_plain plain] at failed
  rcases bind_error.mp failed with refused | ⟨_, middle, ends, failed⟩
  · exact absurd (store_raises endSessionEpoch_raises thrown world' refused) stops
  have first : Stores (Steady lease.runId) world middle := (within_steady (.endSessionEpoch _ _) rfl rfl).returned ends
  rcases bind_error.mp failed with refused | ⟨_, last, notes, failed⟩
  · exact absurd (store_raises (appendFencedEvent_raises (first.reached reached).sound) thrown world' refused) stops
  obtain ⟨steady, more⟩ := failure_counted reached ends notes
  obtain ⟨refused, rfl⟩ := retryFailure_failed (more.trans counted) (steady.reached reached) failed unfenced
  exact ⟨fun recordable => refused (steady.recordable.mpr recordable), steady⟩

/-- Handling a failure never touches the continuation of the turn. -/
theorem handleFailure_within :
    Within (Stores (Handling lease.runId)) (handleFailure settings environment lease epochId error) world := by
  by_cases overflow : (classifyProviderFailure error).kind = .contextOverflow
  · exact (handleFailure_overflow overflow).mono fun _ steady => Steady.toHandling steady
  · apply within_congr (handleFailure_plain overflow)
    apply ((within_steady (.endSessionEpoch _ _) rfl rfl).mono fun _ steady => Steady.toHandling steady).bind
    intro _ _ _
    apply ((within_steady (.appendFencedEvent _ _) rfl rfl).mono fun _ steady => Steady.toHandling steady).bind
    exact fun _ _ _ => retryFailure_within

end Handling

end OttiliCoder
