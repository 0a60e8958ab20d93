import OttiliCoder.Proofs.Leaks

/-! When a problem can be recorded. -/

namespace OttiliCoder
open Relational Transaction

section Sound
variable {s s' : Store}

/-- Only the tables of Runs, Goals, Agents, leases and events decide whether a store is sound. -/
theorem Sound.of_same (sound : Sound s) (same : ∀ t, isLedger t = false → s' t = s t) : Sound s' := by
  obtain ⟨events, leases, goals, agents, current⟩ := sound
  refine ⟨?_, ?_, ?_, ?_, ?_⟩
  · rwa [same .runEvents rfl, same .runs rfl]
  · rwa [same .runLeases rfl, same .runs rfl]
  · rwa [same .goals rfl, same .runs rfl]
  · rwa [same .agents rfl, same .runs rfl]
  · rwa [same .runs rfl, same .goals rfl]

end Sound

section Blocking
variable {s : Store} {now : IsoTimestamp} {runId : RunId} {run : RunRow} {fingerprint : String}

def blockedGoal (fingerprint : String) (now : IsoTimestamp) (goal : GoalRow) : GoalRow :=
  { goal with
    status := .blocked
    blockerFingerprint := some fingerprint
    blockerAuditEpoch := goal.blockerAuditEpoch + 1
    updatedAt := now }

theorem blockedGoal_key (goal : GoalRow) : key .goals (blockedGoal fingerprint now goal) = key .goals goal := rfl

/-- Blocking a Run of a sound store goes through, and leaves the ledger. -/
theorem blockRun_returns (sound : Sound s) (found : (s .runs).find? runId = some run) :
    Returns (blockRunForProblemInternal runId fingerprint now) s fun _ s' => ∀ t, isLedger t = true → s' t = s t := by
  obtain ⟨member, same⟩ := Keyed.find?_eq_some.mp found
  have goalBlocked : Returns (given run.currentGoalId fun goalId => do
      let goal ← mustGoal goalId
      onlyIf (goal.status = .active ∨ goal.status = .waitingExternal) do
        updateRow .goals goal.id (blockedGoal fingerprint now) blockedGoal_key
        let _ ← appendEventInternal runId .goalStatusChanged
          [("goalId", .string goal.id), ("to", .string GoalStatus.blocked.text)] now) s fun _ s' =>
        Sound s' ∧ (∃ run', (s' .runs).find? runId = some run' ∧ run'.status = run.status) ∧
          ∀ t, isLedger t = true → s' t = s t := by
    cases current : run.currentGoalId with
    | none => exact ⟨(), s, rfl, sound, ⟨run, found, rfl⟩, fun _ _ => rfl⟩
    | some goalId =>
      obtain ⟨goal, stored, home⟩ := sound.current run member goalId current
      obtain ⟨inside, named⟩ := Keyed.find?_eq_some.mp stored
      by_cases blockable : goal.status = .active ∨ goal.status = .waitingExternal
      · have edge : canTransitionGoal goal.status .blocked = true := by
          rcases blockable with active | waiting
          · rw [active]
            decide
          · rw [waiting]
            decide
        have chosen : ∀ other ∈ s .goals, (other.id == goal.id) = true ↔ other = goal := by
          intro other there
          rw [beq_iff_eq]
          constructor
          · intro picked
            exact Keyed.eq_of_key there inside picked
          · intro equal
            rw [equal]
        obtain ⟨event, s₁, appended, sound₁, kept⟩ : ∃ event s₁, appendEventInternal runId .goalStatusChanged
            [("goalId", .string goal.id), ("to", .string GoalStatus.blocked.text)] now none
            (s.set .goals ((s .goals).update (fun other => other.id == goal.id) (blockedGoal fingerprint now)
              blockedGoal_key)) = .ok event s₁ ∧ Sound s₁ ∧
            ∃ run', (s₁ .runs).find? runId = some run' ∧ run'.status = run.status :=
          goalStatus_returns sound found (Keyed.find?_key inside) chosen edge (.inl (home.trans same)) fun _ => ⟨rfl, rfl⟩
        refine ⟨(), s₁, ?_, sound₁, kept, fun t plain => ?_⟩
        · refine bind_ok.mpr ⟨goal.toGoal, s, mustGoal_ok.mpr ⟨goal, stored, rfl, rfl⟩, onlyIf_ok.mpr (.inl ⟨blockable, ?_⟩)⟩
          exact bind_ok.mpr ⟨(), _, update_ok.mpr rfl, bind_ok.mpr ⟨event, s₁, appended, rfl⟩⟩
        · have apart : t ≠ .runs ∧ t ≠ .runEvents ∧ t ≠ .goals := by
            refine ⟨?_, ?_, ?_⟩ <;> rintro rfl <;> cases plain
          rw [appended_other appended apart.1 apart.2.1, Db.set_other _ _ apart.2.2]
      · refine ⟨(), s, ?_, sound, ⟨run, found, rfl⟩, fun _ _ => rfl⟩
        exact bind_ok.mpr ⟨goal.toGoal, s, mustGoal_ok.mpr ⟨goal, stored, rfl, rfl⟩, onlyIf_ok.mpr (.inr ⟨blockable, rfl⟩)⟩
  unfold blockRunForProblemInternal
  refine .step (mustRun_ok.mpr ⟨run, found, rfl, rfl⟩) (.bind goalBlocked fun _ s₁ _ after => ?_)
  obtain ⟨sound₁, ⟨run₁, found₁, status⟩, ledger⟩ := after
  by_cases active : run.status = .running ∨ run.status = .waitingExternal ∨ run.status = .recovering
  · have edge : canTransitionRun run₁.status .blocked = true := by
      rw [status]
      rcases active with status | status | status <;> rw [status] <;> decide
    obtain ⟨_, s₂, moved, -⟩ := transitionRun_returns sound₁ found₁ edge (some ("Repeated blocker: " ++ fingerprint))
    refine ⟨(), s₂, onlyIf_ok.mpr (.inl ⟨active, moved⟩), fun t plain => ?_⟩
    have apart : t ≠ .runs ∧ t ≠ .runEvents := by
      refine ⟨?_, ?_⟩ <;> rintro rfl <;> cases plain
    rw [transitionRun_other moved apart.1 apart.2, ledger t plain]
  · exact ⟨(), s₁, onlyIf_ok.mpr (.inr ⟨active, rfl⟩), ledger⟩

end Blocking

/-! Recording a problem. -/

def storedProblems (s : Store) (input : RecordProblemInput) : List ProblemRow :=
  (s .problems).rows.filter fun row => row.runId == input.runId && row.fingerprint == input.fingerprint

/-- The problem an observation is recorded for. -/
def observedProblem (s : Store) (input : RecordProblemInput) : ProblemId :=
  problemId (storedProblems s input) input.runId input.fingerprint

def newProblem (s : Store) (input : RecordProblemInput) (now : IsoTimestamp) : ProblemRow where
  id := observedProblem s input
  runId := input.runId
  fingerprint := input.fingerprint
  summary := input.summary
  externalDependency := input.externalDependency
  alternateActionAvailable := input.alternateActionAvailable
  meaningfulAttempts := 0
  status := .opened
  createdAt := now
  updatedAt := now

def newObservation (s : Store) (input : RecordProblemInput) (uuid : String) (now : IsoTimestamp) :
    ProblemObservationRow where
  id := createId .event ("problem-observation:" ++ observedProblem s input ++ ":" ++ uuid)
  problemId := observedProblem s input
  meaningful := input.meaningful != some false
  externalDependency := input.externalDependency
  alternateActionAvailable := input.alternateActionAvailable
  note := input.note
  occurredAt := now

/-- The problem can be recorded, whoever records it. -/
structure ProblemAdmitted (s : Store) (input : RecordProblemInput) (uuid : String) (now : IsoTimestamp) : Prop where
  run : ∃ run, (s .runs).find? input.runId = some run
  opened : storedProblems s input = [] → schema.Admits s .problems (newProblem s input now)
  observed : (s .problemObservations).find? (newObservation s input uuid now).id = none
  task : ∀ taskId, input.taskId = some taskId → rowRun s .tasks taskId = some input.runId

/-- Every problem belongs to a Run. -/
def ProblemsHome (s : Store) : Prop := ∀ problem ∈ s .problems, ∃ run, (s .runs).find? problem.runId = some run

section Recording
variable {s s' : Store} {input : RecordProblemInput} {uuid : String} {clock : Date} {now : IsoTimestamp} {u : Unit}

theorem mem_storedProblems {problem : ProblemRow} : problem ∈ storedProblems s input ↔
    problem ∈ s .problems ∧ problem.runId = input.runId ∧ problem.fingerprint = input.fingerprint := by
  simp [storedProblems, Keyed.mem_def]

/-- Opening a problem leaves one under its id, of the same Run. -/
theorem openProblem_ok : openProblem input (storedProblems s input) now s = .ok u s' ↔
    (storedProblems s input = [] → schema.Admits s .problems (newProblem s input now)) ∧
      s' = if storedProblems s input = [] then s.set .problems ((s .problems).insert (newProblem s input now)) else s := by
  simp only [openProblem, onlyIf_ok, insert_ok, List.isEmpty_iff]
  by_cases none : storedProblems s input = []
  · rw [if_pos none]
    constructor
    · intro opened
      obtain ⟨-, admitted, left⟩ | ⟨other, -⟩ := opened
      · exact ⟨fun _ => admitted, left⟩
      · exact absurd none other
    · rintro ⟨admitted, left⟩
      exact .inl ⟨none, admitted none, left⟩
  · rw [if_neg none]
    constructor
    · intro opened
      obtain ⟨other, -⟩ | ⟨-, left⟩ := opened
      · exact absurd other none
      · exact ⟨fun other => absurd other none, left⟩
    · rintro ⟨_, left⟩
      exact .inr ⟨none, left⟩

theorem opened_problem (admitted : storedProblems s input = [] → schema.Admits s .problems (newProblem s input now))
    (opened : s' = if storedProblems s input = [] then s.set .problems ((s .problems).insert (newProblem s input now)) else s) :
    ∃ problem, (s' .problems).find? (observedProblem s input) = some problem ∧ problem.runId = input.runId := by
  by_cases none : storedProblems s input = []
  · have named : key .problems (newProblem s input now) = observedProblem s input := rfl
    rw [opened, if_pos none, Db.set_same, Keyed.find?_insert (admitted none).fresh, if_pos named]
    exact ⟨_, rfl, rfl⟩
  · obtain ⟨problem, rest, stored⟩ := List.exists_cons_of_ne_nil none
    have member : problem ∈ storedProblems s input := by rw [stored]; exact List.mem_cons_self ..
    obtain ⟨inside, home, -⟩ := mem_storedProblems.mp member
    rw [opened, if_neg none, observedProblem, stored]
    exact ⟨problem, Keyed.find?_key inside, home⟩

/-- The steps of a problem that is recorded, up to the blocker. -/
theorem recordProblem_steps {row : ProblemRow} (returned : recordProblem input uuid clock s = .ok row s') :
    ∃ s₁ s₂ s₃ u, (storedProblems s input = [] → schema.Admits s .problems (newProblem s input clock.toISOString)) ∧
      s₁ = (if storedProblems s input = [] then s.set .problems ((s .problems).insert (newProblem s input clock.toISOString))
        else s) ∧
      schema.Admits s₁ .problemObservations (newObservation s input uuid clock.toISOString) ∧
      s₂ = s₁.set .problemObservations ((s₁ .problemObservations).insert (newObservation s input uuid clock.toISOString)) ∧
      (given input.taskId fun taskId => do
        let task ← mustTask taskId
        require (task.runId = input.runId) (.failure "Problem task must belong to the same Run.")
        insertOrIgnoreInto .taskProblems { taskId := taskId, problemId := observedProblem s input }) s₂ = .ok u s₃ := by
  simp only [recordProblem, transaction_ok, bind_ok, select_ok, insert_ok] at returned
  obtain ⟨_, _, ⟨rfl, rfl⟩, _, s₁, opened, _, _, ⟨observed, rfl⟩, u, s₃, named, -⟩ := returned
  obtain ⟨admitted, left⟩ := openProblem_ok.mp opened
  exact ⟨s₁, _, s₃, u, admitted, left, observed, rfl, named⟩

/-- Naming the task goes through and leaves every table but the links. -/
private theorem recordsTask {id : ProblemId} (task : ∀ taskId, input.taskId = some taskId → rowRun s .tasks taskId = some input.runId)
    (known : s.has .problems id = true) :
    Returns (given input.taskId fun taskId => do
      let task ← mustTask taskId
      require (task.runId = input.runId) (.failure "Problem task must belong to the same Run.")
      insertOrIgnoreInto .taskProblems { taskId := taskId, problemId := id }) s
      fun _ s' => ∀ t, t ≠ .taskProblems → s' t = s t := by
  cases named : input.taskId with
  | none => exact ⟨(), s, rfl, fun _ _ => rfl⟩
  | some taskId =>
    have home := task taskId named
    obtain ⟨row, found, -⟩ := rowRun_eq_some.mp home
    obtain ⟨u, s', inserted⟩ : Succeeds (insertOrIgnoreInto .taskProblems { taskId := taskId, problemId := id }) s := by
      apply insertOrIgnore_succeeds
      · simp [schema, clash]
      · simpa [schema, references, Store.has, found] using known
    exact ⟨u, s', givenTask_ok.mpr (.inr ⟨taskId, rfl, home, inserted⟩), fun t apart => insertOrIgnore_other inserted apart⟩

theorem recordProblem_succeeds (sound : Sound s) (home : ProblemsHome s) :
    Succeeds (recordProblem input uuid clock) s ↔ ProblemAdmitted s input uuid clock.toISOString := by
  constructor
  · rintro ⟨row, s', returned⟩
    obtain ⟨s₁, s₂, s₃, u, opened, left, observed, recorded, named⟩ := recordProblem_steps returned
    have others : ∀ t, t ≠ .problems → s₁ t = s t := by
      intro t apart
      rw [left]
      split
      · exact Db.set_other _ _ apart
      · rfl
    refine ⟨?_, opened, ?_, ?_⟩
    · by_cases none : storedProblems s input = []
      · have present := (opened none).present
        exact Option.isSome_iff_exists.mp present
      · obtain ⟨problem, rest, stored⟩ := List.exists_cons_of_ne_nil none
        have member : problem ∈ storedProblems s input := by
          rw [stored]
          exact List.mem_cons_self ..
        obtain ⟨inside, mine, -⟩ := mem_storedProblems.mp member
        obtain ⟨run, found⟩ := home problem inside
        exact ⟨run, mine ▸ found⟩
    · have fresh := observed.fresh
      rwa [others _ (by simp)] at fresh
    · intro taskId given
      rcases givenTask_ok.mp named with ⟨absent, -⟩ | ⟨other, same, mine, -⟩
      · cases absent.symm.trans given
      · cases given.symm.trans same
        rwa [recorded, rowRun, Db.set_other _ _ (by simp), others _ (by simp)] at mine
  · rintro ⟨⟨run, found⟩, opened, fresh, task⟩
    obtain ⟨s₁, left⟩ : ∃ s₁, s₁ = if storedProblems s input = [] then
      s.set .problems ((s .problems).insert (newProblem s input clock.toISOString)) else s := ⟨_, rfl⟩
    have others : ∀ t, t ≠ .problems → s₁ t = s t := by
      intro t apart
      rw [left]
      split
      · exact Db.set_other _ _ apart
      · rfl
    obtain ⟨problem, stored, mine⟩ := opened_problem opened left
    have observed : schema.Admits s₁ .problemObservations (newObservation s input uuid clock.toISOString) := by
      refine ⟨?_, by simp [schema, clash], ?_⟩
      · rw [others _ (by simp)]
        exact fresh
      · simp [schema, references, Store.has, newObservation, stored]
    obtain ⟨s₂, recorded⟩ : ∃ s₂, s₂ = s₁.set .problemObservations
        ((s₁ .problemObservations).insert (newObservation s input uuid clock.toISOString)) := ⟨_, rfl⟩
    have others₂ : ∀ t, t ≠ .problems → t ≠ .problemObservations → s₂ t = s t := by
      intro t problems observations
      rw [recorded, Db.set_other _ _ observations, others t problems]
    have stored₂ : (s₂ .problems).find? (observedProblem s input) = some problem := by
      rw [recorded, Db.set_other _ _ (by simp)]
      exact stored
    have names : Returns (given input.taskId fun taskId => do
        let task ← mustTask taskId
        require (task.runId = input.runId) (.failure "Problem task must belong to the same Run.")
        insertOrIgnoreInto .taskProblems { taskId := taskId, problemId := observedProblem s input }) s₂
        fun _ s' => ∀ t, t ≠ .taskProblems → s' t = s₂ t := by
      apply recordsTask
      · intro taskId given
        rw [rowRun, others₂ _ (by simp) (by simp)]
        exact task taskId given
      · rw [Store.has, stored₂]
        rfl
    have returns : Returns (recordProblem input uuid clock) s fun _ _ => True := by
      refine .transaction (.step (select_ok.mpr ⟨rfl, rfl⟩) ?_)
      refine .step (a := ()) (openProblem_ok.mpr ⟨opened, left⟩) (.step (a := ()) (insert_ok.mpr ⟨observed, recorded⟩) ?_)
      refine .bind names fun _ s₃ _ kept => .step (select_ok.mpr ⟨rfl, rfl⟩) (.bind Returns.update fun _ s₄ _ updated => ?_)
      have core : ∀ t, isLedger t = false → s₄ t = s t := by
        intro t plain
        have apart : t ≠ .problems ∧ t ≠ .problemObservations ∧ t ≠ .taskProblems := by
          refine ⟨?_, ?_, ?_⟩ <;> rintro rfl <;> cases plain
        rw [updated, Db.set_other _ _ apart.1, kept t apart.2.2, others₂ t apart.1 apart.2.1]
      have known : ∃ row, (s₄ .problems).find? (observedProblem s input) = some row := by
        have stored₃ : (s₃ .problems).find? (observedProblem s input) = some problem := by
          rw [kept .problems (by simp)]
          exact stored₂
        rw [updated, Db.set_same, Keyed.find?_update, stored₃]
        exact ⟨_, rfl⟩
      obtain ⟨row, known⟩ := known
      have foundLast : (s₄ .runs).find? input.runId = some run := by
        rw [core .runs rfl]
        exact found
      have blocks : Returns (onlyIf (isBlocking ((s₃ .problemObservations).rows.filter
          fun row => row.problemId == observedProblem s input) = true)
          (blockRunForProblemInternal input.runId input.fingerprint clock.toISOString)) s₄
          fun _ s' => s' .problems = s₄ .problems := by
        by_cases eligible : isBlocking ((s₃ .problemObservations).rows.filter
            fun row => row.problemId == observedProblem s input) = true
        · obtain ⟨u, s', blocked, ledger⟩ := blockRun_returns (sound.of_same core) foundLast
          exact ⟨u, s', onlyIf_ok.mpr (.inl ⟨eligible, blocked⟩), ledger _ rfl⟩
        · exact ⟨(), s₄, onlyIf_ok.mpr (.inr ⟨eligible, rfl⟩), rfl⟩
      refine .bind blocks fun _ s' _ same => ?_
      rw [← same] at known
      exact ⟨row, s', must_ok.mpr ⟨known, rfl⟩, trivial⟩
    exact .of_returns returns

end Recording

/-! Problems keep their Runs. -/

/-- Runs stay known, and every problem is of a Run that had one or is known. -/
structure KeepsHome (s s' : Store) : Prop where
  runs : ∀ id, (∃ run, (s .runs).find? id = some run) → ∃ run, (s' .runs).find? id = some run
  problems : ∀ problem ∈ s' .problems, (∃ old ∈ s .problems, old.runId = problem.runId) ∨
    ∃ run, (s' .runs).find? problem.runId = some run

instance : IsPreorder Store KeepsHome where
  refl _ := ⟨fun _ known => known, fun problem member => .inl ⟨problem, member, rfl⟩⟩
  trans := by
    intro s s' s'' first second
    refine ⟨fun id known => second.runs id (first.runs id known), fun problem member => ?_⟩
    rcases second.problems problem member with ⟨middle, inside, same⟩ | known
    · rcases first.problems middle inside with ⟨old, there, home⟩ | known
      · exact .inl ⟨old, there, home.trans same⟩
      · exact .inr (same ▸ second.runs _ known)
    · exact .inr known

section Homes
variable {s s' : Store} {runId : RunId} {clock : Date}

theorem KeepsHome.home (keeps : KeepsHome s s') (home : ProblemsHome s) : ProblemsHome s' := by
  intro problem member
  rcases keeps.problems problem member with ⟨old, inside, same⟩ | known
  · exact same ▸ keeps.runs _ (home old inside)
  · exact known

theorem KeepsHome.set {t : Table} {rows : Keyed (key t)} (runs : t ≠ .runs) (problems : t ≠ .problems) :
    KeepsHome s (s.set t rows) := by
  refine ⟨fun id known => ?_, fun problem member => .inl ⟨problem, ?_, rfl⟩⟩
  · rw [Db.set_other _ _ runs.symm]
    exact known
  · rwa [Db.set_other _ _ problems.symm] at member

theorem KeepsHome.of_moves {touched : RunId → Prop} {kinds : Kind → Prop} (moves : Moves touched kinds s s')
    (apart : ∀ k, kinds k → k.writes .problems = false) : KeepsHome s s' := by
  refine ⟨fun id known => ?_, fun problem member => .inl ⟨problem, ?_, rfl⟩⟩
  · let Known (s : Store) : Prop := ∃ run, (s .runs).find? id = some run
    have step : ∀ k s s', kinds k → Effect k s s' → Known s → Known s' := by
      rintro k s s' _ effect ⟨run, found⟩
      exact (effect.runs_found found).imp fun _ kept => kept.1
    exact moves.keeps step known
  · rwa [moves.frame apart] at member

theorem recordProblem_keepsHome {input : RecordProblemInput} {uuid : String} :
    Within KeepsHome (recordProblem input uuid clock) s := by
  unfold recordProblem
  refine Yields.within ?_
  refine .read readOnly_selectRows fun stored _ => ?_
  refine .seq (.onlyIf (fun _ => trivial) fun _ => (Yields.insert fun admitted => ?_).plain) fun _ s₁ _ => ?_
  · refine ⟨fun id known => by rwa [Db.set_other _ _ (by simp)], fun problem member => ?_⟩
    rw [Db.set_same, Keyed.mem_insert admitted.fresh] at member
    rcases member with inside | rfl
    · exact .inl ⟨problem, inside, rfl⟩
    · have present := admitted.present
      rw [Db.set_other _ _ (by simp)]
      exact .inr (Option.isSome_iff_exists.mp present)
  refine .seq (Yields.insert fun _ => .set (by simp) (by simp)).plain fun _ s₂ _ => ?_
  refine .seq (.given (fun _ => trivial) fun taskId _ => ?_) fun _ s₃ _ => ?_
  · refine .read readOnly_mustTask fun task _ => .read (.require _ _) fun _ _ => ?_
    exact (Yields.insertOrIgnore fun _ => .set (by simp) (by simp)).plain
  refine .read readOnly_selectRows fun observations _ => ?_
  have updates (f : ProblemRow → ProblemRow) (keeps : ∀ row, key .problems (f row) = key .problems row)
      (home : ∀ row, (f row).runId = row.runId) (selected : ProblemRow → Bool) :
      KeepsHome s₃ (s₃.set .problems ((s₃ .problems).update selected f keeps)) := by
    refine ⟨fun id known => by rwa [Db.set_other _ _ (by simp)], fun problem member => ?_⟩
    rw [Db.set_same] at member
    obtain ⟨old, inside, rfl⟩ := Keyed.mem_update.mp member
    refine .inl ⟨old, inside, ?_⟩
    split
    · exact (home old).symm
    · rfl
  refine .seq (Yields.update (updates _ _ ?_ _)).plain fun _ s₄ _ => ?_
  · intro row
    rfl
  refine .seq (.onlyIf (fun _ => trivial) fun _ => ?_) fun _ s₅ _ => readOnly_mustRow.plain
  have blocks : Yields (Moves (fun _ => True) (· ∈ [.goalStatus .blocked, .transition .blocked]))
      (blockRunForProblemInternal input.runId input.fingerprint clock.toISOString) s₄ fun _ _ => True :=
    yields_blockRun trivial fun _ _ _ _ _ _ => trivial
  exact blocks.mono fun _ moves => .of_moves moves (by simp [Kind.writes])

theorem Call.keepsHome (call : Call) : KeepsHome s (call.perform s) := by
  by_cases plain : call.writes .problems = false
  · refine .of_moves (Call.moves s call) fun k can => ?_
    have none := List.any_eq_false.mp plain k can
    simpa using none
  cases call with
  | recordProblem input uuid clock => exact recordProblem_keepsHome.map _
  | appendFencedEvent input clock => exact absurd (Call.appendFencedEvent_writes rfl rfl) plain
  | _ => exact absurd rfl plain

theorem problemsHome_reached (reached : Reachable s) : ProblemsHome s :=
  reached.invariant (fun _ member => absurd member Keyed.not_mem_empty) fun _ call _ home _ => call.keepsHome.home home

end Homes

end OttiliCoder
