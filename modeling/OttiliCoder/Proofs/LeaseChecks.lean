import OttiliCoder.Proofs.Admission

/-! Which operations check the lease they are given, against its own Run and against
the rows they are to write. -/

namespace OttiliCoder
open Relational Transaction

namespace Call

/-- The lease a call is given, and the clock reading it must be current at. -/
def lease : Call → Option (FencedLease × Date)
  | transitionRun input clock => input.lease.map (·, clock)
  | setGoalStatus input clock => input.lease.map (·, clock)
  | proposeCompletion input clock => input.lease.map (·, clock)
  | renewLease lease _ clock => some (lease, clock)
  | appendFencedEvent input clock => some (input.lease, clock)
  | acquireResourceLocks input clock => input.lease.map (·, clock)
  | claimTask input clock => some (input.lease, clock)
  | addTaskEvidence input clock => some (input.lease, clock)
  | createTask input _ clock => input.lease.map (·, clock)
  | transitionTask input clock => input.lease.map (·, clock)
  | recoverGraphWork lease clock => some (lease, clock)
  | markAgentActive input clock => some (input.lease, clock)
  | spawnAgent input _ clock => input.lease.map (·, clock)
  | transitionAgent input clock => input.lease.map (·, clock)
  | setAgentWorktree input clock => some (input.lease, clock)
  | sendAgentMessage input _ clock => some (input.lease, clock)
  | receiveAgentMessages input clock => some (input.lease, clock)
  | startSessionEpoch input clock => input.lease.map (·, clock)
  | endSessionEpoch input clock => input.lease.map (·, clock)
  | addRequirement input _ clock => input.lease.map (·, clock)
  | addEvidence input _ clock => input.lease.map (·, clock)
  | setRequirementStatus input clock _ => input.lease.map (·, clock)
  | recordValidation input _ clock => input.lease.map (·, clock)
  | requestApproval input _ clock => input.lease.map (·, clock)
  | recordProblem input _ clock => input.lease.map (·, clock)
  | createMilestone input _ clock => some (input.lease, clock)
  | recordDecision input _ clock => some (input.lease, clock)
  | addArtifact input _ _ checked => some (input.lease, checked)
  | recordGitChange input _ clock => some (input.lease, clock)
  | recordCost input _ clock => input.lease.map (·, clock)
  | setRecoveryState input clock => some (input.lease, clock)
  | createContextSnapshot input _ clock => input.lease.map (·, clock)
  | addMemoryEntry input _ _ checked => input.lease.map (·, checked)
  | recordUsageFenced lease _ _ clock => some (lease, clock)
  | recordToolIntent input _ clock => some (input.lease, clock)
  | completeToolCall input clock => some (input.lease, clock)
  | recoverClaimedWork lease clock => some (lease, clock)
  | createCheckpoint input _ clock => some (input.lease, clock)
  | scheduleWake input _ clock => input.lease.map (·, clock)
  | claimContinuation lease clock => some (lease, clock)
  | settleContinuation input clock => some (input.lease, clock)
  | _ => none

/-- The Runs a call writes for: the one it is given, and those of the rows it names. -/
def subjects (s : Store) : Call → List RunId
  | claimTask input _ => (rowRun s .tasks input.taskId).toList
  | addTaskEvidence input _ => (rowRun s .tasks input.taskId).toList
  | markAgentActive input _ => (rowRun s .agents input.agentId).toList
  | setAgentWorktree input _ => (rowRun s .agents input.agentId).toList
  | sendAgentMessage input _ _ => (rowRun s .agents input.toAgentId).toList
  | acquireResourceLocks input _ => [input.runId]
  | setRequirementStatus input _ _ => input.runId :: (rowRun s .requirements input.requirementId).toList
  | recordProblem input _ _ => [input.runId]
  | recordToolIntent input _ _ => input.lease.runId :: (input.approvalId.bind (rowRun s .approvals)).toList
  | completeToolCall input _ => (rowRun s .toolCalls input.toolCallId).toList
  | claimContinuation lease _ => [lease.runId]
  | call => call.concerns s

end Call

/-- The call is given a lease that is not current, or is of another Run than it writes for. -/
def Breaches (s : Store) (call : Call) : Prop :=
  ∃ lease clock, call.lease = some (lease, clock) ∧
    (¬ CurrentLease s lease clock.toISOString ∨ ∃ runId ∈ call.subjects s, runId ≠ lease.runId)

/-- A call that breaches its lease throws and changes nothing. -/
def Fenced (s : Store) (call : Call) : Prop := Breaches s call → Refuses call.run s

/-! Refusals. -/

section Refusals
variable {s : Store} {α β : Type} {m : StoreM α}

theorem Refuses.transaction (thrown : Throws m s) : Refuses (transaction m) s :=
  Atomic.refuses (.transaction m) (throws_iff.mp thrown.transaction)

theorem Refuses.bind (refused : Refuses m s) (f : α → StoreM β) : Refuses (m >>= f) s := by
  obtain ⟨⟨e, s', failed⟩, same⟩ := refused
  have bound : (m >>= f) s = .error e s' := by rw [bind_apply, failed]
  exact ⟨⟨e, s', bound⟩, by rw [after_error bound, ← after_error failed, same]⟩

/-- A transaction that opens with a refused check. -/
theorem Refuses.opening {f : α → StoreM β} (refused : Refuses m s) : Refuses (Transaction.transaction (m >>= f)) s :=
  .transaction (refused.1.bind_left f)

/-- Reading first, then refusing whatever was read. -/
theorem Refuses.read {f : α → StoreM β} (reads : ReadOnly m) (rest : ∀ a, Refuses (f a) s) : Refuses (m >>= f) s := by
  cases outcome : m s with
  | ok a middle =>
    cases reads.ok outcome
    have same : (m >>= f) s = f a s := by rw [bind_apply, outcome]
    obtain ⟨⟨e, last, failed⟩, kept⟩ := rest a
    have bound : (m >>= f) s = .error e last := same.trans failed
    exact ⟨⟨e, last, bound⟩, by rw [after_error bound, ← after_error failed, kept]⟩
  | error e middle =>
    cases reads.error outcome
    exact Refuses.bind ⟨⟨e, s, outcome⟩, after_error outcome⟩ f

theorem Refuses.map (refused : Refuses m s) (f : α → β) : Refuses (f <$> m) s := by
  refine ⟨throws_iff.mpr fun b s' returned => ?_, (after_map f).trans refused.2⟩
  obtain ⟨a, result, -⟩ := map_ok.mp returned
  exact throws_iff.mp refused.1 a s' result

theorem Refuses.given {value : Option β} {b : β} {body : β → StoreM Unit} (named : value = some b)
    (refused : Refuses (body b) s) : Refuses (Transaction.given value body) s := by
  rw [named]
  exact refused

end Refusals

/-! Checks that refuse. -/

section Checks
variable {s : Store} {lease : FencedLease} {now : IsoTimestamp} {runId : RunId} {message : String} {α : Type}

theorem refuses_stale (stale : ¬ CurrentLease s lease now) : Refuses (assertLeaseInternal lease now) s := by
  apply Atomic.refuses readOnly_assertLeaseInternal.atomic
  intro u s' returned
  exact stale (assertLeaseInternal_ok.mp returned).1

theorem refuses_runLease (breach : ¬ CurrentLease s lease now ∨ runId ≠ lease.runId) :
    Refuses (assertRunLeaseInternal lease runId now message) s := by
  apply Atomic.refuses readOnly_assertRunLeaseInternal.atomic
  intro u s' returned
  obtain ⟨⟨mine, current⟩, -⟩ := assertRunLeaseInternal_ok.mp returned
  exact breach.elim (· current) (· mine.symm)

theorem refuses_leaseOfRun (breach : ¬ CurrentLease s lease now ∨ runId ≠ lease.runId) :
    Refuses (assertLeaseOfRun lease runId now message) s := by
  apply Atomic.refuses readOnly_assertLeaseOfRun.atomic
  intro u s' returned
  obtain ⟨⟨mine, current⟩, -⟩ := assertLeaseOfRun_ok.mp returned
  exact breach.elim (· current) (· mine.symm)

theorem refuses_given_runLease {value : Option FencedLease} {rest : Unit → StoreM α} (carried : value = some lease)
    (breach : ¬ CurrentLease s lease now ∨ runId ≠ lease.runId) :
    Refuses (transaction (given value (fun lease => assertRunLeaseInternal lease runId now message) >>= rest)) s :=
  .opening (.given carried (refuses_runLease breach))

theorem refuses_given_leaseOfRun {value : Option FencedLease} {rest : Unit → StoreM α} (carried : value = some lease)
    (breach : ¬ CurrentLease s lease now ∨ runId ≠ lease.runId) :
    Refuses (transaction (given value (fun lease => assertLeaseOfRun lease runId now message) >>= rest)) s :=
  .opening (.given carried (refuses_leaseOfRun breach))

theorem throws_task {taskId : TaskId} {rest : Task → Unit → StoreM α} {e : StoreError}
    (breach : ¬ CurrentLease s lease now ∨ ∃ runId ∈ (rowRun s .tasks taskId).toList, runId ≠ lease.runId) :
    Throws (do
      assertLeaseInternal lease now
      let task ← mustTask taskId
      let u ← require (task.runId = lease.runId) e
      rest task u) s := by
  apply throws_iff.mpr
  intro a s' returned
  simp only [bind_ok, assertLeaseInternal_ok, mustTask_ok, require_ok] at returned
  obtain ⟨_, _, ⟨current, rfl⟩, _, _, ⟨task, found, rfl, rfl⟩, _, _, ⟨home, rfl⟩, -⟩ := returned
  rcases breach with stale | ⟨runId, member, other⟩
  · exact stale current
  · simp only [rowRun, found, Option.mem_toList] at member
    exact other ((Option.some.inj member).symm.trans home)

theorem throws_agent {agentId : AgentId} {rest : Agent → StoreM α}
    (breach : ¬ CurrentLease s lease now ∨ ∃ runId ∈ (rowRun s .agents agentId).toList, runId ≠ lease.runId) :
    Throws (do
      assertLeaseInternal lease now
      let agent ← mustAgentOfLease agentId lease message
      rest agent) s := by
  apply throws_iff.mpr
  intro a s' returned
  simp only [bind_ok, assertLeaseInternal_ok, mustAgentOfLease_ok] at returned
  obtain ⟨_, _, ⟨current, rfl⟩, _, _, ⟨agent, found, home, rfl, rfl⟩, -⟩ := returned
  rcases breach with stale | ⟨runId, member, other⟩
  · exact stale current
  · simp only [rowRun, found, Option.mem_toList] at member
    exact other ((Option.some.inj member).symm.trans home)

end Checks

/-- The calls that ask for every row they write whether it is of the leased Run. -/
def Call.checksLease : Call → Bool
  | setGoalStatus _ _ | recordProblem _ _ _ | addEvidence _ _ _ | setRequirementStatus _ _ _
  | createContextSnapshot _ _ _ | recordToolIntent _ _ _ | completeToolCall _ _ => false
  | _ => true

theorem Call.refuses {s : Store} {call : Call} (checks : call.checksLease = true) (breaches : Breaches s call) :
    Refuses call.run s := by
  obtain ⟨lease, clock, given, breach⟩ := breaches
  cases call with
  | setGoalStatus | recordProblem | addEvidence | setRequirementStatus | createContextSnapshot | recordToolIntent
  | completeToolCall => cases checks
  | transitionRun | proposeCompletion | recordValidation | requestApproval | scheduleWake =>
    simp only [Call.lease, Option.map_eq_some_iff, Prod.mk.injEq] at given
    obtain ⟨_, carried, rfl, rfl⟩ := given
    simp only [subjects, concerns, List.mem_singleton, exists_eq_left] at breach
    exact (refuses_given_runLease carried breach).map _
  | createTask | spawnAgent | addRequirement =>
    simp only [Call.lease, Option.map_eq_some_iff, Prod.mk.injEq] at given
    obtain ⟨_, carried, rfl, rfl⟩ := given
    simp only [subjects, concerns, List.mem_singleton, exists_eq_left] at breach
    exact (refuses_given_leaseOfRun carried breach).map _
  | renewLease | appendFencedEvent | recoverGraphWork | receiveAgentMessages | recordUsageFenced | recoverClaimedWork
  | claimContinuation =>
    cases given
    simp only [subjects, concerns, List.mem_singleton, exists_eq_left, ne_eq, not_true_eq_false, or_false] at breach
    exact (Refuses.opening (refuses_stale breach)).map _
  | settleContinuation =>
    cases given
    simp only [subjects, concerns, List.mem_singleton, exists_eq_left, ne_eq, not_true_eq_false, or_false] at breach
    exact .opening (refuses_stale breach)
  | createMilestone | createCheckpoint =>
    cases given
    simp only [subjects, concerns, List.mem_singleton, exists_eq_left] at breach
    exact (Refuses.opening (refuses_runLease breach)).map _
  | recordDecision | recordGitChange | setRecoveryState =>
    cases given
    simp only [subjects, concerns, List.mem_singleton, exists_eq_left] at breach
    exact ((refuses_runLease breach).bind _).map _
  | addArtifact =>
    cases given
    simp only [subjects, concerns, List.mem_singleton, exists_eq_left] at breach
    exact (Refuses.read (.require _ _) fun _ => (refuses_runLease breach).bind _).map _
  | recordCost =>
    simp only [Call.lease, Option.map_eq_some_iff, Prod.mk.injEq] at given
    obtain ⟨_, carried, rfl, rfl⟩ := given
    simp only [subjects, concerns, List.mem_singleton, exists_eq_left] at breach
    exact (Refuses.read (.require _ _) fun _ => refuses_given_runLease carried breach).map _
  | addMemoryEntry =>
    simp only [Call.lease, Option.map_eq_some_iff, Prod.mk.injEq] at given
    obtain ⟨_, carried, rfl, rfl⟩ := given
    simp only [subjects, concerns, List.mem_singleton, exists_eq_left] at breach
    exact (Refuses.read (.require _ _) fun _ => (Refuses.given carried (refuses_runLease breach)).bind _).map _
  | acquireResourceLocks input clock =>
    simp only [Call.lease, Option.map_eq_some_iff, Prod.mk.injEq] at given
    obtain ⟨_, carried, rfl, rfl⟩ := given
    simp only [subjects, List.mem_singleton, exists_eq_left] at breach
    refine (Refuses.read (.expect _ _) fun expiry => Refuses.transaction (Throws.bind_left (throws_iff.mpr ?_) _)).map _
    intro u s' returned
    simp only [given_ok, carried, bind_ok, assertLeaseInternal_ok, require_ok] at returned
    obtain ⟨impossible, -⟩ | ⟨_, ⟨⟩, _, _, ⟨current, rfl⟩, _, _, ⟨home, rfl⟩, -⟩ := returned
    · cases impossible
    · exact breach.elim (· current) (· home.symm)
  | claimTask =>
    cases given
    exact (Refuses.transaction (throws_task breach)).map _
  | addTaskEvidence =>
    cases given
    exact Refuses.transaction (throws_task breach)
  | transitionTask =>
    simp only [Call.lease, Option.map_eq_some_iff, Prod.mk.injEq] at given
    obtain ⟨_, carried, rfl, rfl⟩ := given
    refine (Refuses.transaction (throws_iff.mpr ?_)).map _
    intro a s' returned
    simp only [bind_ok, given_ok, carried, assertLeaseInternal_ok, mustTask_ok, require_ok] at returned
    obtain ⟨_, _, ⟨impossible, -⟩ | ⟨_, ⟨⟩, current, rfl⟩, _, _, ⟨task, found, rfl, rfl⟩, _, _,
      ⟨impossible, -⟩ | ⟨_, ⟨⟩, home, rfl⟩, -⟩ := returned
    · cases impossible
    · cases impossible
    · cases impossible
    · rcases breach with stale | ⟨runId, member, other⟩
      · exact stale current
      · simp only [subjects, concerns, rowRun, found, Option.mem_toList] at member
        exact other ((Option.some.inj member).symm.trans home)
  | markAgentActive =>
    cases given
    exact Refuses.transaction (throws_agent breach)
  | setAgentWorktree | sendAgentMessage =>
    cases given
    exact (Refuses.transaction (throws_agent breach)).map _
  | transitionAgent =>
    simp only [Call.lease, Option.map_eq_some_iff, Prod.mk.injEq] at given
    obtain ⟨_, carried, rfl, rfl⟩ := given
    refine (Refuses.transaction (Throws.bind_left ?_ _)).map _
    rw [carried]
    exact throws_agent breach
  | startSessionEpoch =>
    simp only [Call.lease, Option.map_eq_some_iff, Prod.mk.injEq] at given
    obtain ⟨_, carried, rfl, rfl⟩ := given
    refine (Refuses.transaction (throws_iff.mpr ?_)).map _
    intro a s' returned
    simp only [bind_ok, given_ok, carried, assertLeaseInternal_ok, mustAgent_ok, require_ok] at returned
    obtain ⟨_, _, ⟨agent, found, rfl, rfl⟩, _, _, ⟨impossible, -⟩ | ⟨_, ⟨⟩, _, _, ⟨home, rfl⟩, current, rfl⟩, -⟩ := returned
    · cases impossible
    · rcases breach with stale | ⟨runId, member, other⟩
      · exact stale current
      · simp only [subjects, concerns, rowRun, found, Option.mem_toList] at member
        exact other ((Option.some.inj member).symm.trans home)
  | endSessionEpoch =>
    simp only [Call.lease, Option.map_eq_some_iff, Prod.mk.injEq] at given
    obtain ⟨_, carried, rfl, rfl⟩ := given
    refine (Refuses.transaction (throws_iff.mpr ?_)).map _
    intro a s' returned
    simp only [bind_ok, given_ok, carried, assertLeaseInternal_ok, get_ok, require_ok] at returned
    obtain ⟨_, _, ⟨impossible, -⟩ | ⟨_, ⟨⟩, _, _, ⟨rfl, rfl⟩, _, _, ⟨home, rfl⟩, current, rfl⟩, -⟩ := returned
    · cases impossible
    · rcases breach with stale | ⟨runId, member, other⟩
      · exact stale current
      · simp only [subjects, concerns, home, Option.mem_toList] at member
        exact other (Option.some.inj member).symm
  | _ => cases given

end OttiliCoder
