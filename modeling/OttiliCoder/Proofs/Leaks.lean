import OttiliCoder.Proofs.LeaseChecks
import OttiliCoder.Proofs.ToolCalls

/-! The operations that do not check their lease against all they write, and when they
go through. -/

namespace OttiliCoder
open Relational Transaction

/-- The computation goes through. -/
def Succeeds {α : Type} (m : StoreM α) (s : Store) : Prop := ∃ a s', m s = .ok a s'

/-- A lease that is given is current and of the Run. -/
def OwnLease (s : Store) (lease : Option FencedLease) (runId : RunId) (now : IsoTimestamp) : Prop :=
  ∀ given, lease = some given → given.runId = runId ∧ CurrentLease s given now

theorem Succeeds.of_returns {α : Type} {m : StoreM α} {s : Store} {post : α → Store → Prop}
    (returns : Returns m s post) : Succeeds m s := by
  obtain ⟨a, s', returned, -⟩ := returns
  exact ⟨a, s', returned⟩

section Leaks
variable {s : Store} {clock : Date} {uuid : String} {now : IsoTimestamp}

theorem refuses_iff {α : Type} {m : StoreM α} (atomic : Atomic m) : Refuses m s ↔ ¬ Succeeds m s := by
  constructor
  · intro refused succeeds
    obtain ⟨a, s', returned⟩ := succeeds
    exact throws_iff.mp refused.1 a s' returned
  · intro fails
    exact Atomic.refuses atomic fun a s' returned => fails ⟨a, s', returned⟩

theorem succeeds_discard {α : Type} {m : StoreM α} : Succeeds (discard m) s ↔ Succeeds m s := by
  constructor
  · rintro ⟨u, s', returned⟩
    obtain ⟨a, result, -⟩ := map_ok.mp returned
    exact ⟨a, s', result⟩
  · rintro ⟨a, s', returned⟩
    exact ⟨(), s', map_ok.mpr ⟨a, returned, rfl⟩⟩

theorem refuses_discard {α : Type} {m : StoreM α} : Refuses (discard m) s ↔ Refuses m s := by
  constructor
  · intro refused
    refine ⟨throws_iff.mpr fun a s' returned => ?_, (after_map _).symm.trans refused.2⟩
    exact throws_iff.mp refused.1 () s' (map_ok.mpr ⟨a, returned, rfl⟩)
  · intro refused
    exact refused.map _

theorem givenRunLease_ok {lease : Option FencedLease} {runId : RunId} {message : String} {s' : Store} {u : Unit} :
    given lease (fun lease => assertRunLeaseInternal lease runId now message) s = .ok u s' ↔
      OwnLease s lease runId now ∧ s' = s := by
  rw [given_ok]
  cases lease with
  | none => simp [OwnLease]
  | some lease => simp [OwnLease]

theorem givenLeaseOfRun_ok {lease : Option FencedLease} {runId : RunId} {message : String} {s' : Store} {u : Unit} :
    given lease (fun lease => assertLeaseOfRun lease runId now message) s = .ok u s' ↔
      OwnLease s lease runId now ∧ s' = s := by
  rw [given_ok]
  cases lease with
  | none => simp [OwnLease]
  | some lease => simp [OwnLease]

/-! Goals. -/

/-- The goal is at the expected version and can move to the target. -/
def GoalMovable (s : Store) (input : SetGoalStatusInput) : Prop :=
  ∃ goal, (s .goals).find? input.goalId = some goal ∧ goal.goalVersion = input.expectedGoalVersion ∧
    canTransitionGoal goal.status input.target = true

def movedGoal (input : SetGoalStatusInput) (now : IsoTimestamp) (goal : GoalRow) : GoalRow :=
  { goal with
    status := input.target
    completedAt := if input.target = .complete then some now else none
    updatedAt := now }

theorem movedGoal_key {input : SetGoalStatusInput} (goal : GoalRow) :
    key .goals (movedGoal input now goal) = key .goals goal := rfl

theorem setGoalStatus_succeeds {input : SetGoalStatusInput} (sound : Sound s) :
    Succeeds (setGoalStatus input clock) s ↔ GoalMovable s input := by
  constructor
  · rintro ⟨goal, s', returned⟩
    simp only [setGoalStatus, transaction_ok, bind_ok, must_ok, require_ok, assertGoalTransition_ok] at returned
    obtain ⟨row, _, ⟨found, rfl⟩, _, _, ⟨expected, rfl⟩, _, _, ⟨edge, rfl⟩, -⟩ := returned
    exact ⟨row, found, expected, edge⟩
  · rintro ⟨goal, found, expected, edge⟩
    obtain ⟨member, same⟩ := Keyed.find?_eq_some.mp found
    obtain ⟨run, there⟩ := sound.goals goal member
    have chosen : ∀ other ∈ s .goals,
        (other.id == goal.id && other.goalVersion == input.expectedGoalVersion) = true ↔ other = goal := by
      intro other inside
      simp only [Bool.and_eq_true, beq_iff_eq]
      constructor
      · intro picked
        exact Keyed.eq_of_key inside member picked.1
      · intro equal
        rw [equal]
        exact ⟨rfl, expected⟩
    have stored : (s .goals).find? goal.id = some goal := Keyed.find?_key member
    obtain ⟨event, s₁, appended, sound₁, run₁, there₁, -⟩ : ∃ event s₁, appendEventInternal goal.runId .goalStatusChanged
        [("goalId", .string goal.id), ("to", .string input.target.text)] clock.toISOString none
        (s.set .goals ((s .goals).update (fun other => other.id == goal.id && other.goalVersion == input.expectedGoalVersion)
          (movedGoal input clock.toISOString) movedGoal_key)) = .ok event s₁ ∧ Sound s₁ ∧
        ∃ run', (s₁ .runs).find? goal.runId = some run' ∧ run'.status = run.status :=
      goalStatus_returns sound there stored chosen edge (.inl rfl) fun _ => ⟨rfl, rfl⟩
    obtain ⟨_, s₂, continued, goals⟩ : Returns (onlyIf (shouldContinueGoal input.target = true)
        (ensureContinuationInternal goal.runId clock.toISOString)) s₁ fun _ s₂ => s₂ .goals = s₁ .goals := by
      by_cases active : shouldContinueGoal input.target = true
      · obtain ⟨u, s₂, ensured, -⟩ : Returns (ensureContinuationInternal goal.runId clock.toISOString) s₁ fun _ s' =>
            Sound s' := ensureContinuation_returns sound₁ there₁
        exact ⟨u, s₂, onlyIf_ok.mpr (.inl ⟨active, ensured⟩), ensured_other ensured (by simp)⟩
      · exact ⟨(), s₁, onlyIf_ok.mpr (.inr ⟨active, rfl⟩), rfl⟩
    have last : ((s₂ .goals).find? goal.id).isSome = true := by
      rw [goals, appended_other appended (by simp) (by simp), Db.set_same, Keyed.find?_update, stored]
      rfl
    obtain ⟨row, stored₂⟩ := Option.isSome_iff_exists.mp last
    refine ⟨row.toGoal, s₂, ?_⟩
    simp only [setGoalStatus, transaction_ok, bind_ok, must_ok, require_ok, assertGoalTransition_ok, update_ok, mustGoal_ok]
    exact ⟨goal, s, ⟨found, rfl⟩, (), s, ⟨expected, rfl⟩, (), s, ⟨edge, rfl⟩, (), _, rfl, event, s₁, appended, (), s₂,
      continued, row, stored₂, rfl, rfl⟩

/-! Requirements and evidence. -/

/-- A requirement is proven only with strong evidence for it. -/
def RequirementSettable (s : Store) (input : SetRequirementStatusInput) (now : IsoTimestamp) : Prop :=
  OwnLease s input.lease input.runId now ∧
    (input.status = .proven → ∃ evidence ∈ s .evidence, evidence.requirementId = input.requirementId ∧
      evidence.strength = .strong)

theorem setRequirementStatus_succeeds {input : SetRequirementStatusInput} {updated : Date} :
    Succeeds (setRequirementStatus input clock updated) s ↔ RequirementSettable s input clock.toISOString := by
  have strong : (((s .evidence).rows.filter fun row => row.requirementId == input.requirementId && row.strength == .strong).isEmpty
      = false) ↔ ∃ evidence ∈ s .evidence, evidence.requirementId = input.requirementId ∧ evidence.strength = .strong := by
    simp [Keyed.mem_def]
  constructor
  · rintro ⟨u, s', returned⟩
    simp only [setRequirementStatus, transaction_ok, bind_ok, givenLeaseOfRun_ok, onlyIf_ok, select_ok, require_ok] at returned
    obtain ⟨_, _, ⟨own, rfl⟩, _, _, ⟨proven, _, _, ⟨rfl, rfl⟩, supported, -⟩ | ⟨other, -⟩, -⟩ := returned
    · exact ⟨own, fun _ => strong.mp supported⟩
    · exact ⟨own, fun proven => absurd proven other⟩
  · rintro ⟨own, supported⟩
    unfold Succeeds
    simp only [setRequirementStatus, transaction_ok, bind_ok, givenLeaseOfRun_ok, onlyIf_ok, select_ok, require_ok, update_ok]
    refine ⟨(), _, (), s, ⟨own, rfl⟩, (), s, ?_, rfl⟩
    by_cases proven : input.status = .proven
    · exact .inl ⟨proven, _, _, ⟨rfl, rfl⟩, strong.mpr (supported proven), rfl⟩
    · exact .inr ⟨proven, rfl⟩

def evidenceId (uuid : String) : EvidenceId := "evidence_" ++ uuid

def newEvidence (input : AddEvidenceInput) (uuid : String) (now : IsoTimestamp) : EvidenceRow where
  id := evidenceId uuid
  runId := input.runId
  requirementId := input.requirementId
  taskId := input.taskId
  kind := input.kind
  strength := input.strength
  summary := input.summary
  createdAt := now

/-- The evidence can be recorded, whatever Run its requirement belongs to. -/
structure EvidenceAdmitted (s : Store) (input : AddEvidenceInput) (uuid : String) (now : IsoTimestamp) : Prop where
  own : OwnLease s input.lease input.runId now
  admitted : schema.Admits s .evidence (newEvidence input uuid now)
  task : ∀ taskId, input.taskId = some taskId → rowRun s .tasks taskId = some input.runId
  artifacts : ∀ artifactId ∈ input.artifactIds, rowRun s .artifacts artifactId = some input.runId

theorem rowRun_eq_some {t : Table} {k : Key t} {runId : RunId} :
    rowRun s t k = some runId ↔ ∃ row, (s t).find? k = some row ∧ (owner t row).direct = some runId := by
  rw [rowRun, Option.bind_eq_some_iff]

theorem insertOrIgnore_other {t other : Table} {row : Row t} {s₁ s' : Store} {u : Unit}
    (inserted : insertOrIgnoreInto t row s₁ = .ok u s') (apart : other ≠ t) : s' other = s₁ other := by
  rcases insertOrIgnore_ok.mp inserted with ⟨-, rfl⟩ | ⟨-, rfl⟩
  · rfl
  · exact Db.set_other _ _ apart

theorem insertOrIgnore_succeeds {t : Table} {row : Row t} (apart : ((s t).rows.any (schema.clash t row)) = false)
    (present : schema.references s t row = true) : Succeeds (insertOrIgnoreInto t row) s := by
  by_cases taken : ((s t).find? (key t row)).isSome
  · exact ⟨(), s, insertOrIgnore_ok.mpr (.inl ⟨taken, rfl⟩)⟩
  · exact ⟨(), _, insertOrIgnore_ok.mpr (.inr ⟨⟨Option.not_isSome_iff_eq_none.mp taken, apart, present⟩, rfl⟩)⟩

/-- Linking an artifact goes through for an artifact of the Run. -/
private theorem link_succeeds {s₁ : Store} {runId : RunId} {artifactId : ArtifactId} {id : EvidenceId} {e : StoreError}
    (artifacts : s₁ .artifacts = s .artifacts) (recorded : s₁.has .evidence id = true) :
    Succeeds (do
      let artifact ← mustRow .artifacts artifactId (notFound "Artifact" artifactId)
      require (artifact.runId = runId) e
      insertOrIgnoreInto .evidenceArtifacts { evidenceId := id, artifactId := artifactId }) s₁ ↔
      rowRun s .artifacts artifactId = some runId := by
  rw [rowRun_eq_some, ← artifacts]
  constructor
  · rintro ⟨u, s', returned⟩
    simp only [bind_ok, must_ok, require_ok] at returned
    obtain ⟨artifact, _, ⟨found, rfl⟩, _, _, ⟨home, rfl⟩, -⟩ := returned
    exact ⟨artifact, found, congrArg some home⟩
  · rintro ⟨artifact, found, home⟩
    have linked : Succeeds (insertOrIgnoreInto .evidenceArtifacts { evidenceId := id, artifactId := artifactId }) s₁ := by
      apply insertOrIgnore_succeeds
      · simp [schema, clash]
      · simpa [schema, references, Store.has, found] using recorded
    obtain ⟨u, s', inserted⟩ := linked
    exact ⟨u, s', bind_ok.mpr ⟨artifact, s₁, must_ok.mpr ⟨found, rfl⟩, bind_ok.mpr ⟨(), s₁,
      require_ok.mpr ⟨Option.some.inj home, rfl⟩, inserted⟩⟩⟩

/-- A task that is named is of the Run. -/
theorem givenTask_ok {runId : RunId} {named : Option TaskId} {e : StoreError} {link : TaskId → StoreM Unit} {s' : Store}
    {u : Unit} :
    given named (fun taskId => do
      let task ← mustTask taskId
      require (task.runId = runId) e
      link taskId) s = .ok u s' ↔
      (named = none ∧ s' = s) ∨
        ∃ taskId, named = some taskId ∧ rowRun s .tasks taskId = some runId ∧ link taskId s = .ok u s' := by
  simp only [given_ok, bind_ok, mustTask_ok, require_ok, rowRun_eq_some, Owner.direct]
  constructor
  · rintro (⟨rfl, rfl⟩ | ⟨taskId, rfl, _, _, ⟨task, found, rfl, rfl⟩, _, _, ⟨home, rfl⟩, linked⟩)
    · exact .inl ⟨rfl, rfl⟩
    · exact .inr ⟨taskId, rfl, ⟨task, found, congrArg some home⟩, linked⟩
  · rintro (⟨rfl, rfl⟩ | ⟨taskId, rfl, ⟨task, found, home⟩, linked⟩)
    · exact .inl ⟨rfl, rfl⟩
    · exact .inr ⟨taskId, rfl, _, _, ⟨task, found, rfl, rfl⟩, (), _, ⟨Option.some.inj home, rfl⟩, linked⟩

/-- The artifacts are those of `s`, and the evidence is recorded. -/
private def Linking (s : Store) (id : EvidenceId) (s' : Store) : Prop := s' .artifacts = s .artifacts ∧ s'.has .evidence id = true

private theorem Linking.inserted {id : EvidenceId} {s₁ s₂ : Store} {t : Table} {row : Row t} {u : Unit}
    (linking : Linking s id s₁) (artifacts : .artifacts ≠ t) (evidence : .evidence ≠ t)
    (inserted : insertOrIgnoreInto t row s₁ = .ok u s₂) : Linking s id s₂ := by
  refine ⟨(insertOrIgnore_other inserted artifacts).trans linking.1, ?_⟩
  rw [Store.has, insertOrIgnore_other inserted evidence]
  exact linking.2

private theorem links_succeed {s₁ : Store} {runId : RunId} {artifactIds : List ArtifactId} {id : EvidenceId}
    {e : StoreError} (linking : Linking s id s₁) :
    Succeeds (artifactIds.forM fun artifactId => do
      let artifact ← mustRow .artifacts artifactId (notFound "Artifact" artifactId)
      require (artifact.runId = runId) e
      insertOrIgnoreInto .evidenceArtifacts { evidenceId := id, artifactId := artifactId }) s₁ ↔
      ∀ artifactId ∈ artifactIds, rowRun s .artifacts artifactId = some runId := by
  refine forM_succeeds (Linking s id) ?_ ?_ linking
  · intro artifactId s₂ before
    exact link_succeeds before.1 before.2
  · intro artifactId s₂ u s' before linked
    simp only [bind_ok, must_ok, require_ok] at linked
    obtain ⟨artifact, _, ⟨-, rfl⟩, _, _, ⟨-, rfl⟩, inserted⟩ := linked
    exact before.inserted (by simp) (by simp) inserted

theorem addEvidence_succeeds {input : AddEvidenceInput} :
    Succeeds (addEvidence input uuid clock) s ↔ EvidenceAdmitted s input uuid clock.toISOString := by
  have start (admitted : schema.Admits s .evidence (newEvidence input uuid clock.toISOString)) : Linking s (evidenceId uuid)
      (s.set .evidence ((s .evidence).insert (newEvidence input uuid clock.toISOString))) := by
    refine ⟨Db.set_other _ _ (by simp), ?_⟩
    rw [Store.has, Db.set_same, Keyed.find?_insert admitted.fresh]
    simp [newEvidence]
  have tasks : ∀ taskId, rowRun (s.set .evidence ((s .evidence).insert (newEvidence input uuid clock.toISOString))) .tasks
      taskId = rowRun s .tasks taskId := by
    intro taskId
    rw [rowRun, Db.set_other _ _ (by simp), rowRun]
  constructor
  · rintro ⟨id, s', returned⟩
    simp only [addEvidence, transaction_ok, bind_ok, givenLeaseOfRun_ok, insert_ok] at returned
    obtain ⟨_, _, ⟨own, rfl⟩, _, _, ⟨admitted, rfl⟩, _, s₂, named, _, s₃, linked, -⟩ := returned
    rcases givenTask_ok.mp named with ⟨absent, rfl⟩ | ⟨taskId, given, home, inserted⟩
    · refine ⟨own, admitted, fun taskId given => ?_, (links_succeed (start admitted)).mp ⟨_, _, linked⟩⟩
      cases absent.symm.trans given
    · have linking := (start admitted).inserted (by simp) (by simp) inserted
      refine ⟨own, admitted, fun other same => ?_, (links_succeed linking).mp ⟨_, _, linked⟩⟩
      cases given.symm.trans same
      exact (tasks taskId).symm.trans home
  · rintro ⟨own, admitted, task, artifacts⟩
    have names : ∃ u s₂, given input.taskId (fun taskId => do
        let task ← mustTask taskId
        require (task.runId = input.runId) (.failure "Evidence task must belong to the same Run.")
        insertOrIgnoreInto .taskEvidence { taskId := taskId, evidenceId := evidenceId uuid })
          (s.set .evidence ((s .evidence).insert (newEvidence input uuid clock.toISOString))) = .ok u s₂ ∧
        Linking s (evidenceId uuid) s₂ := by
      cases named : input.taskId with
      | none => exact ⟨(), _, rfl, start admitted⟩
      | some taskId =>
        have home := (tasks taskId).trans (task taskId named)
        obtain ⟨row, found, -⟩ := rowRun_eq_some.mp (task taskId named)
        obtain ⟨u, s₂, inserted⟩ : Succeeds (insertOrIgnoreInto .taskEvidence { taskId := taskId, evidenceId := evidenceId uuid })
            (s.set .evidence ((s .evidence).insert (newEvidence input uuid clock.toISOString))) := by
          apply insertOrIgnore_succeeds
          · simp [schema, clash]
          · simpa [schema, references, Store.has, found] using (start admitted).2
        exact ⟨u, s₂, givenTask_ok.mpr (.inr ⟨taskId, rfl, home, inserted⟩),
          (start admitted).inserted (by simp) (by simp) inserted⟩
    obtain ⟨_, s₂, named, linking⟩ := names
    obtain ⟨_, s₃, linked⟩ := (links_succeed linking).mpr artifacts
    have returns : Returns (addEvidence input uuid clock) s fun _ _ => True := by
      refine .transaction (.step (a := ()) (givenLeaseOfRun_ok.mpr ⟨own, rfl⟩) ?_)
      refine .step (a := ()) (insert_ok.mpr ⟨admitted, rfl⟩) (.step named (.step linked ?_))
      exact .step (a := ()) (update_ok.mpr rfl) (.pure trivial)
    exact .of_returns returns

/-! Context snapshots. -/

def newSnapshot (input : CreateContextSnapshotInput) (uuid : String) (now : IsoTimestamp) : ContextSnapshotRow where
  id := createId .contextSnapshot (input.runId ++ ":" ++ uuid)
  runId := input.runId
  agentId := input.agentId
  sessionEpochId := input.sessionEpochId
  summary := input.summary
  tokenCount := input.tokenCount
  checkpointId := input.checkpointId
  createdAt := now
  updatedAt := now

/-- The snapshot can be recorded, whatever Run its session epoch belongs to. -/
structure SnapshotAdmitted (s : Store) (input : CreateContextSnapshotInput) (uuid : String) (now : IsoTimestamp) : Prop where
  counted : input.tokenCount.isSafeInteger = true ∧ input.tokenCount.below 0 = false
  own : OwnLease s input.lease input.runId now
  admitted : schema.Admits s .contextSnapshots (newSnapshot input uuid now)

theorem createContextSnapshot_succeeds {input : CreateContextSnapshotInput} :
    Succeeds (createContextSnapshot input uuid clock) s ↔ SnapshotAdmitted s input uuid clock.toISOString := by
  constructor
  · rintro ⟨row, s', returned⟩
    simp only [createContextSnapshot, bind_ok, require_ok, transaction_ok, givenRunLease_ok, insert_ok] at returned
    obtain ⟨_, _, ⟨counted, rfl⟩, _, _, ⟨own, rfl⟩, _, _, ⟨admitted, rfl⟩, -⟩ := returned
    exact ⟨counted, own, admitted⟩
  · rintro ⟨counted, own, admitted⟩
    have updates : Returns (given input.sessionEpochId fun sessionEpochId =>
          updateRow .sessionEpochs sessionEpochId fun row =>
            { row with
              handoffContextSnapshotId := some (newSnapshot input uuid clock.toISOString).id
              updatedAt := clock.toISOString })
        (s.set .contextSnapshots ((s .contextSnapshots).insert (newSnapshot input uuid clock.toISOString)))
        fun _ s' => (s' .contextSnapshots).find? (newSnapshot input uuid clock.toISOString).id =
          some (newSnapshot input uuid clock.toISOString) := by
      have inserted := Keyed.find?_insert admitted.fresh (newSnapshot input uuid clock.toISOString).id
      rw [if_pos rfl] at inserted
      cases named : input.sessionEpochId with
      | none => exact ⟨(), _, given_ok.mpr (.inl ⟨rfl, rfl⟩), by simp only [Db.set_same, inserted]⟩
      | some sessionEpochId =>
        refine ⟨(), _, given_ok.mpr (.inr ⟨sessionEpochId, rfl, update_ok.mpr rfl⟩), ?_⟩
        simp only [Db.set_other _ _ (show Table.contextSnapshots ≠ .sessionEpochs by simp), Db.set_same, inserted]
    have returns : Returns (createContextSnapshot input uuid clock) s fun _ _ => True := by
      refine .step (a := ()) (require_ok.mpr ⟨counted, rfl⟩) (.transaction ?_)
      refine .step (a := ()) (givenRunLease_ok.mpr ⟨own, rfl⟩) (.step (a := ()) (insert_ok.mpr ⟨admitted, rfl⟩) ?_)
      refine .bind updates fun _ s' _ stored => ?_
      exact ⟨_, s', must_ok.mpr ⟨stored, rfl⟩, trivial⟩
    exact .of_returns returns

/-! Tool calls. -/

theorem completeToolCall_succeeds {input : CompleteToolCallInput} (sound : Sound s) :
    Succeeds (completeToolCall input clock) s ↔ CurrentLease s input.lease clock.toISOString := by
  constructor
  · rintro ⟨u, s', returned⟩
    exact (completeToolCall_ok.mp returned).1
  · intro current
    obtain ⟨run, found⟩ := sound.leased current
    have kept : ((withCompleted s input clock.toISOString) .runs).find? input.lease.runId = some run := by
      rw [withCompleted, Db.set_other _ _ (by simp)]
      exact found
    have updated : Sound (withCompleted s input clock.toISOString) := (Effect.ledger (t := .toolCalls) rfl).sound sound
    obtain ⟨event, s', journaled, -⟩ := appendEvent_returns updated kept .toolCallFinished (finishPayload input)
      (some input.lease.generation)
    exact ⟨(), s', completeToolCall_ok.mpr ⟨current, event, journaled⟩⟩

end Leaks

end OttiliCoder
