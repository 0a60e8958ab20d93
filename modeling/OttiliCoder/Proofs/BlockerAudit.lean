import Mathlib.Data.List.Induction
import OttiliCoder.Core.Blockers
import OttiliCoder.Proofs.Admission
import OttiliCoder.Proofs.Problems

/-! The blocker audit of a Run: what the store keeps of the observations, against the
list that a resume empties. -/

namespace OttiliCoder
open Relational Transaction

/-! The audit a history of calls calls for. -/

inductive AuditEntry where
  | resumed
  | observed (observation : BlockerObservation)

/-- The Run a call asks to resume. -/
def Call.resumedRun : Call → Option RunId
  | .resume runId _ _ => some runId
  | .executeCommand input _ _ _ => if input.command = .resume then some input.runId else none
  | _ => none

/-- The call resumes the Run: it asks for that, and the Run moves. -/
def Call.resumes (runId : RunId) (s : Store) (call : Call) : Bool :=
  call.resumedRun == some runId && statusOf (call.perform s) runId != statusOf s runId

def RecordProblemInput.observation (input : RecordProblemInput) (now : IsoTimestamp) : BlockerObservation where
  fingerprint := input.fingerprint
  occurredAt := now
  meaningful := input.meaningful != some false
  externalDependency := input.externalDependency
  alternateActionAvailable := input.alternateActionAvailable
  note := input.note

/-- The observation of the Run that a call records. -/
def Call.observes (runId : RunId) (s : Store) : Call → List BlockerObservation
  | .recordProblem input uuid clock =>
    if input.runId = runId ∧ fails (OttiliCoder.recordProblem input uuid clock) s = false then
      [input.observation clock.toISOString]
    else []
  | _ => []

def Call.audits (runId : RunId) (s : Store) (call : Call) : List AuditEntry :=
  (if call.resumes runId s then [.resumed] else []) ++ (call.observes runId s).map .observed

def auditLog (history : List Call) (runId : RunId) : List AuditEntry :=
  observed Call.perform (Call.audits runId) Store.empty history

/-- The observations since the last resume: each resume starts the audit afresh. -/
def freshAudit (log : List AuditEntry) : List BlockerObservation :=
  log.foldl (fun audit entry =>
    match entry with
    | .resumed => resetBlockerAudit
    | .observed observation => audit ++ [observation]) []

def everObserved (log : List AuditEntry) : List BlockerObservation :=
  log.filterMap fun entry =>
    match entry with
    | .resumed => none
    | .observed observation => some observation

/-- The observations from before the last resume. -/
def staleAudit (log : List AuditEntry) : List BlockerObservation :=
  (everObserved log).take ((everObserved log).length - (freshAudit log).length)

section Log
variable {log : List AuditEntry} {observation : BlockerObservation}

theorem freshAudit_concat_observed :
    freshAudit (log ++ [.observed observation]) = freshAudit log ++ [observation] := by
  simp [freshAudit]

theorem freshAudit_concat_resumed : freshAudit (log ++ [.resumed]) = [] := by
  simp [freshAudit, resetBlockerAudit]

theorem everObserved_append (log later : List AuditEntry) :
    everObserved (log ++ later) = everObserved log ++ everObserved later := List.filterMap_append ..

theorem everObserved_observed (observations : List BlockerObservation) :
    everObserved (observations.map .observed) = observations := by
  simp [everObserved, List.filterMap_map]

/-- What was observed since the last resume ends what was ever observed. -/
theorem freshAudit_suffix : freshAudit log <:+ everObserved log := by
  induction log using List.reverseRecOn with
  | nil => exact List.suffix_rfl
  | append_singleton log entry ih =>
    obtain ⟨stale, split⟩ := ih
    cases entry with
    | resumed =>
      rw [freshAudit_concat_resumed]
      exact List.nil_suffix
    | observed observation =>
      refine ⟨stale, ?_⟩
      rw [freshAudit_concat_observed, everObserved_append, ← split, List.append_assoc]
      rfl

theorem staleAudit_append_freshAudit (log : List AuditEntry) : staleAudit log ++ freshAudit log = everObserved log := by
  obtain ⟨stale, split⟩ : freshAudit log <:+ everObserved log := freshAudit_suffix
  rw [staleAudit, ← split, List.length_append, Nat.add_sub_cancel, List.take_left]

end Log

/-! What the store keeps. -/

def ProblemRow.named (problem : ProblemRow) : ProblemId × RunId × String :=
  (problem.id, problem.runId, problem.fingerprint)

/-- The problems of the store, as their ids, Runs and fingerprints. -/
def named (s : Store) : List (ProblemId × RunId × String) := (s .problems).rows.map ProblemRow.named

def ProblemObservationRow.observation (row : ProblemObservationRow) (fingerprint : String) : BlockerObservation where
  fingerprint := fingerprint
  occurredAt := row.occurredAt
  meaningful := row.meaningful
  externalDependency := row.externalDependency
  alternateActionAvailable := row.alternateActionAvailable
  note := row.note

/-- The observations stored for a fingerprint of a Run. -/
def keptObservations (s : Store) (runId : RunId) (fingerprint : String) : List BlockerObservation :=
  ((s .problemObservations).rows.filter fun row => (row.problemId, runId, fingerprint) ∈ named s).map
    (·.observation fingerprint)

/-- A recorded problem: what the call leaves of problems and observations, and what it decides. -/
structure Records (s s' : Store) (input : RecordProblemInput) (uuid : String) (now : IsoTimestamp) (row : ProblemRow) :
    Prop where
  fresh : (s .problemObservations).find? (newObservation s input uuid now).id = none
  unnamed : storedProblems s input = [] → (s .problems).find? (observedProblem s input) = none
  observations : s' .problemObservations = (s .problemObservations).insert (newObservation s input uuid now)
  problems : named s' = named s ++
    if storedProblems s input = [] then [(observedProblem s input, input.runId, input.fingerprint)] else []
  status : row.status =
    if isBlocking ((s' .problemObservations).rows.filter fun other => other.problemId == observedProblem s input) then
      .blocked else .opened
  home : row.runId = input.runId
  blocks : row.status = .blocked → ∀ run, (s .runs).find? input.runId = some run →
    run.status = .running ∨ run.status = .waitingExternal ∨ run.status = .recovering →
      statusOf s' input.runId = some .blocked
  spares : row.status = .opened → s' .runs = s .runs ∧ s' .goals = s .goals

section Recording
variable {s s' : Store} {input : RecordProblemInput} {uuid : String} {clock : Date} {now : IsoTimestamp} {row : ProblemRow}
  {u : Unit}

/-- An update that keeps the ids, the Runs and the fingerprints keeps the names. -/
theorem named_update {selected : ProblemRow → Bool} {f : ProblemRow → ProblemRow}
    {keeps : ∀ problem, key .problems (f problem) = key .problems problem} (same : ∀ problem, (f problem).named = problem.named) :
    named (s.set .problems ((s .problems).update selected f keeps)) = named s := by
  rw [named, named, Db.set_same, Keyed.update, List.map_map]
  refine List.map_congr_left fun problem _ => ?_
  rw [Function.comp_apply]
  split
  · exact same problem
  · rfl

theorem named_congr (same : s' .problems = s .problems) : named s' = named s := by
  rw [named, named, same]

/-- Naming the task touches its links only. -/
theorem givenTask_other {taskId : Option TaskId} {id : ProblemId}
    (linked : (given taskId fun taskId => do
      let task ← mustTask taskId
      require (task.runId = input.runId) (.failure "Problem task must belong to the same Run.")
      insertOrIgnoreInto .taskProblems { taskId := taskId, problemId := id }) s = .ok u s') (t : Table)
    (apart : t ≠ .taskProblems) : s' t = s t := by
  rcases givenTask_ok.mp linked with ⟨-, rfl⟩ | ⟨_, _, _, inserted⟩
  · rfl
  · exact insertOrIgnore_other inserted apart

/-- A blocker stops an executing Run, and changes nothing but Runs, Goals and events. -/
theorem blockRun_stops {runId : RunId} {fingerprint : String}
    (blocked : blockRunForProblemInternal runId fingerprint now s = .ok u s') :
    (∀ t, isLedger t = true → s' t = s t) ∧ ∀ run, (s .runs).find? runId = some run →
      run.status = .running ∨ run.status = .waitingExternal ∨ run.status = .recovering →
        statusOf s' runId = some .blocked := by
  simp only [blockRunForProblemInternal, bind_ok, mustRun_ok] at blocked
  obtain ⟨run, start, ⟨row, found, named, unchanged⟩, _, s₁, goal, stopped⟩ := blocked
  subst unchanged named
  have ledger : ∀ t, t ≠ .runs ∧ t ≠ .runEvents ∧ t ≠ .goals → s₁ t = start t := by
    intro t apart
    rcases given_ok.mp goal with ⟨-, left⟩ | ⟨goalId, -, marked⟩
    · rw [left]
    · simp only [bind_ok, mustGoal_ok] at marked
      obtain ⟨_, same, ⟨_, _, _, unchanged⟩, marks⟩ := marked
      rw [unchanged] at marks
      rcases onlyIf_ok.mp marks with ⟨-, updated⟩ | ⟨-, left⟩
      · simp only [bind_ok, update_ok, pure_ok] at updated
        obtain ⟨_, s₂, marked, event, s₃, appended, -, left⟩ := updated
        rw [← left] at appended
        rw [appended_other appended apart.1 apart.2.1, marked, Db.set_other _ _ apart.2.2]
      · rw [left]
  rcases onlyIf_ok.mp stopped with ⟨-, moved⟩ | ⟨idle, left⟩
  · refine ⟨fun t plain => ?_, fun _ _ _ => ?_⟩
    · have apart : t ≠ .runs ∧ t ≠ .runEvents ∧ t ≠ .goals := by
        refine ⟨?_, ?_, ?_⟩ <;> rintro rfl <;> cases plain
      rw [transitionRun_other moved apart.1 apart.2.1, ledger t apart]
    · obtain ⟨run', there, status⟩ := transitionRun_status moved
      rw [statusOf, there, Option.map_some, status]
  · refine ⟨fun t plain => ?_, fun run found' active => absurd ?_ idle⟩
    · rw [left, ledger t]
      refine ⟨?_, ?_, ?_⟩ <;> rintro rfl <;> cases plain
    · rw [← Option.some.inj (found.symm.trans found')] at active
      exact active

theorem recordProblem_records (returned : recordProblem input uuid clock s = .ok row s') :
    Records s s' input uuid clock.toISOString row := by
  simp only [recordProblem, transaction_ok, bind_ok, select_ok, insert_ok, update_ok, must_ok] at returned
  obtain ⟨_, start, ⟨rfl, same⟩, _, s₁, opened, _, s₂, ⟨observed, left₂⟩, _, s₃, linked, _, same₃, ⟨rfl, unchanged⟩, _, s₄,
    updated, _, s₅, blocked, found, last⟩ := returned
  obtain rfl : s = start := same.symm
  obtain rfl : s₃ = same₃ := unchanged.symm
  rw [← last] at found blocked
  obtain ⟨admitted, left₁⟩ := openProblem_ok.mp opened
  have others₁ : ∀ t, t ≠ .problems → s₁ t = s t := by
    intro t apart
    rw [left₁]
    split
    · exact Db.set_other _ _ apart
    · rfl
  have named₁ : named s₁ = named s ++
      if storedProblems s input = [] then [(observedProblem s input, input.runId, input.fingerprint)] else [] := by
    rw [left₁]
    split
    next none =>
      rw [named, Db.set_same, Keyed.insert_rows (admitted none).fresh, List.map_append]
      rfl
    next => rw [List.append_nil]
  have others₃ : ∀ t, t ≠ .problems → t ≠ .problemObservations → t ≠ .taskProblems → s₃ t = s t := by
    intro t problems observations links
    rw [givenTask_other linked t links, left₂, Db.set_other _ _ observations, others₁ t problems]
  have problems₃ : s₃ .problems = s₁ .problems := by
    rw [givenTask_other linked _ (by simp), left₂, Db.set_other _ _ (by simp)]
  have observations₃ : s₃ .problemObservations = (s .problemObservations).insert
      (newObservation s input uuid clock.toISOString) := by
    rw [givenTask_other linked _ (by simp), left₂, Db.set_same, others₁ _ (by simp)]
    rfl
  have ledger : ∀ t, isLedger t = true → s' t = s₄ t := by
    intro t plain
    rcases onlyIf_ok.mp blocked with ⟨-, stops⟩ | ⟨-, left⟩
    · exact (blockRun_stops stops).1 t plain
    · rw [left]
  have observations : s' .problemObservations = (s .problemObservations).insert
      (newObservation s input uuid clock.toISOString) := by
    rw [ledger _ rfl, updated, Db.set_other _ _ (by simp), observations₃]
  have fresh := observed.fresh
  rw [others₁ _ (by simp)] at fresh
  obtain ⟨old, stored, home⟩ := opened_problem admitted left₁
  have stored₃ : (s₃ .problems).find? (observedProblem s input) = some old := by rw [problems₃, stored]
  rw [ledger _ rfl, updated, Db.set_same, Keyed.find?_update] at found
  obtain ⟨before, there, made⟩ := Option.map_eq_some_iff.mp found
  obtain rfl := Option.some.inj (stored₃.symm.trans there)
  have chosen : (old.id == observedProblem s input) = true := beq_iff_eq.mpr (Keyed.find?_eq_some.mp stored₃).2
  replace made := (if_pos chosen).symm.trans made
  have status : row.status = if isBlocking ((s' .problemObservations).rows.filter fun other =>
      other.problemId == observedProblem s input) then .blocked else .opened := by
    rw [observations, ← observations₃, ← made]
    rfl
  have active : ∀ run, (s .runs).find? input.runId = some run → (s₄ .runs).find? input.runId = some run := by
    intro run known
    rw [updated, Db.set_other _ _ (by simp), others₃ _ (by simp) (by simp) (by simp), known]
  have problems : named s' = named s₁ := by
    rw [named_congr (ledger .problems rfl), updated, named_update]
    · exact named_congr problems₃
    · intro problem
      rfl
  refine ⟨fresh, fun none => (admitted none).fresh, observations, problems.trans named₁, status, ?_, ?_, ?_⟩
  · rw [← made]
    exact home
  · intro decided run known executing
    rcases onlyIf_ok.mp blocked with ⟨-, stops⟩ | ⟨refused, -⟩
    · exact (blockRun_stops stops).2 run (active run known) executing
    · rw [← made] at decided
      simp [refused] at decided
  · intro decided
    rcases onlyIf_ok.mp blocked with ⟨eligible, -⟩ | ⟨-, left⟩
    · rw [← made] at decided
      simp [eligible] at decided
    · rw [left, updated, Db.set_other _ _ (by simp), Db.set_other _ _ (by simp)]
      exact ⟨others₃ _ (by simp) (by simp) (by simp), others₃ _ (by simp) (by simp) (by simp)⟩

end Recording

/-! The store keeps everything that was ever observed. -/

structure Audited (s : Store) (log : RunId → List AuditEntry) : Prop where
  homed : ∀ row ∈ s .problemObservations, ∃ runId fingerprint, (row.problemId, runId, fingerprint) ∈ named s
  unique : ∀ id other runId fingerprint, (id, runId, fingerprint) ∈ named s → (other, runId, fingerprint) ∈ named s → id = other
  kept : ∀ runId fingerprint, keptObservations s runId fingerprint =
    (everObserved (log runId)).filter fun observation => observation.fingerprint == fingerprint

section Keeping
variable {s s' : Store} {input : RecordProblemInput} {uuid : String} {now : IsoTimestamp} {row : ProblemRow}
  {log : RunId → List AuditEntry} {id : ProblemId} {runId : RunId} {fingerprint : String}

theorem mem_named : (id, runId, fingerprint) ∈ named s ↔
    ∃ problem ∈ s .problems, problem.id = id ∧ problem.runId = runId ∧ problem.fingerprint = fingerprint := by
  simp only [named, ProblemRow.named, List.mem_map, Prod.mk.injEq, Keyed.mem_def]

/-- A problem has one Run and one fingerprint. -/
theorem named_key {otherRun : RunId} {otherFingerprint : String} (one : (id, runId, fingerprint) ∈ named s)
    (other : (id, otherRun, otherFingerprint) ∈ named s) : runId = otherRun ∧ fingerprint = otherFingerprint := by
  obtain ⟨first, inside, same, rfl, rfl⟩ := mem_named.mp one
  obtain ⟨second, there, same', rfl, rfl⟩ := mem_named.mp other
  obtain rfl := Keyed.eq_of_key inside there (same.trans same'.symm)
  exact ⟨rfl, rfl⟩

theorem Records.names (records : Records s s' input uuid now row) :
    (observedProblem s input, input.runId, input.fingerprint) ∈ named s' := by
  rw [records.problems, List.mem_append]
  by_cases none : storedProblems s input = []
  · rw [if_pos none]
    exact .inr (List.mem_singleton_self _)
  · obtain ⟨problem, rest, stored⟩ := List.exists_cons_of_ne_nil none
    have member : problem ∈ storedProblems s input := by
      rw [stored]
      exact List.mem_cons_self ..
    obtain ⟨inside, home, same⟩ := mem_storedProblems.mp member
    have named : problem.id = observedProblem s input := by rw [observedProblem, stored, problemId, List.head?_cons]
    exact .inl (mem_named.mpr ⟨problem, inside, named, home, same⟩)

/-- A name is new only for the problem that is opened. -/
theorem Records.named_of (records : Records s s' input uuid now row) (member : (id, runId, fingerprint) ∈ named s') :
    (id, runId, fingerprint) ∈ named s ∨
      (storedProblems s input = [] ∧ id = observedProblem s input ∧ runId = input.runId ∧ fingerprint = input.fingerprint) := by
  rw [records.problems, List.mem_append] at member
  rcases member with before | opened
  · exact .inl before
  · split at opened
    next none =>
      obtain ⟨rfl, rfl, rfl⟩ : id = _ ∧ runId = _ ∧ fingerprint = _ := by simpa using opened
      exact .inr ⟨none, rfl, rfl, rfl⟩
    next => cases opened

theorem Records.named_mono (records : Records s s' input uuid now row) (member : (id, runId, fingerprint) ∈ named s) :
    (id, runId, fingerprint) ∈ named s' := by
  rw [records.problems]
  exact List.mem_append_left _ member

theorem unnamed_of_none (none : storedProblems s input = []) : (id, input.runId, input.fingerprint) ∉ named s := by
  intro member
  obtain ⟨problem, inside, -, home, same⟩ := mem_named.mp member
  have stored : problem ∈ storedProblems s input := mem_storedProblems.mpr ⟨inside, home, same⟩
  rw [none] at stored
  cases stored

/-- A recorded observation joins the observations of its Run and fingerprint. -/
theorem Records.kept (records : Records s s' input uuid now row) (audited : Audited s log) :
    keptObservations s' runId fingerprint = keptObservations s runId fingerprint ++
      if input.runId = runId ∧ input.fingerprint = fingerprint then [input.observation now] else [] := by
  have before : ((s .problemObservations).rows.filter fun row => (row.problemId, runId, fingerprint) ∈ named s') =
      (s .problemObservations).rows.filter fun row => (row.problemId, runId, fingerprint) ∈ named s := by
    refine List.filter_congr fun other member => decide_eq_decide.mpr ⟨fun after => ?_, records.named_mono⟩
    rcases records.named_of after with before | ⟨none, same, -, -⟩
    · exact before
    · obtain ⟨home, name, there⟩ := audited.homed other member
      obtain ⟨problem, inside, named, -, -⟩ := mem_named.mp there
      have found := Keyed.find?_key inside
      have key : key .problems problem = observedProblem s input := named.trans same
      rw [key, records.unnamed none] at found
      cases found
  rw [keptObservations, keptObservations, records.observations, Keyed.insert_rows records.fresh, List.filter_append,
    List.map_append, before]
  congr 1
  by_cases mine : input.runId = runId ∧ input.fingerprint = fingerprint
  · obtain ⟨rfl, rfl⟩ := mine
    have names : ((newObservation s input uuid now).problemId, input.runId, input.fingerprint) ∈ named s' := records.names
    rw [if_pos ⟨rfl, rfl⟩, List.filter_singleton, decide_eq_true names]
    rfl
  · have other : ((newObservation s input uuid now).problemId, runId, fingerprint) ∉ named s' := by
      intro named
      exact mine (named_key records.names named)
    rw [if_neg mine, List.filter_singleton, decide_eq_false other]
    rfl

theorem Records.audited (records : Records s s' input uuid now row) (audited : Audited s log) :
    Audited s' fun runId => log runId ++ if input.runId = runId then [.observed (input.observation now)] else [] := by
  refine ⟨fun other member => ?_, fun one other home name first second => ?_, fun runId fingerprint => ?_⟩
  · rw [records.observations, Keyed.mem_insert records.fresh] at member
    rcases member with before | rfl
    · obtain ⟨home, name, there⟩ := audited.homed other before
      exact ⟨home, name, records.named_mono there⟩
    · exact ⟨_, _, records.names⟩
  · rcases records.named_of first with before | ⟨none, rfl, rfl, rfl⟩
    · rcases records.named_of second with before' | ⟨none, rfl, rfl, rfl⟩
      · exact audited.unique one other home name before before'
      · exact absurd before (unnamed_of_none none)
    · rcases records.named_of second with before' | ⟨-, rfl, -, -⟩
      · exact absurd before' (unnamed_of_none none)
      · rfl
  · rw [records.kept audited, audited.kept, everObserved_append, List.filter_append]
    congr 1
    by_cases mine : input.runId = runId
    · rw [if_pos mine]
      by_cases same : input.fingerprint = fingerprint <;> simp [mine, same, everObserved, RecordProblemInput.observation]
    · simp [mine, everObserved]

/-- The stored observations of the recorded problem are those of its Run and fingerprint. -/
theorem Records.decides (records : Records s s' input uuid now row) (audited : Audited s' log) :
    ((s' .problemObservations).rows.filter fun other => other.problemId == observedProblem s input).map
      (·.observation input.fingerprint) = keptObservations s' input.runId input.fingerprint := by
  rw [keptObservations]
  congr 1
  refine List.filter_congr fun other _ => ?_
  rw [Bool.eq_iff_iff, beq_iff_eq, decide_eq_true_eq]
  constructor
  · intro same
    rw [same]
    exact records.names
  · intro member
    exact audited.unique _ _ _ _ member records.names

theorem Audited.congr {log' : RunId → List AuditEntry} (audited : Audited s log) (problems : s' .problems = s .problems)
    (observations : s' .problemObservations = s .problemObservations)
    (same : ∀ runId, everObserved (log' runId) = everObserved (log runId)) : Audited s' log' := by
  have names : named s' = named s := named_congr problems
  refine ⟨?_, ?_, fun runId fingerprint => ?_⟩
  · rw [names, observations]
    exact audited.homed
  · rw [names]
    exact audited.unique
  · rw [keptObservations, names, observations, same]
    exact audited.kept runId fingerprint

end Keeping

section Runs
variable {s : Store} {log : RunId → List AuditEntry}

theorem everObserved_audits (call : Call) (runId : RunId) :
    everObserved (call.audits runId s) = call.observes runId s := by
  rw [Call.audits, everObserved_append, everObserved_observed]
  split <;> rfl

/-- One call keeps the audit. -/
theorem Call.audited (call : Call) (audited : Audited s log) :
    Audited (call.perform s) fun runId => log runId ++ call.audits runId s := by
  have quiet : (∀ runId, call.observes runId s = []) → ∀ runId,
      everObserved (log runId ++ call.audits runId s) = everObserved (log runId) := by
    intro nothing runId
    rw [everObserved_append, everObserved_audits, nothing, List.append_nil]
  cases call with
  | recordProblem input uuid clock =>
    have atomic : Atomic (OttiliCoder.recordProblem input uuid clock) := .transaction _
    have done : (Call.recordProblem input uuid clock).perform s = after (OttiliCoder.recordProblem input uuid clock) s :=
      after_map _
    rcases atomic.cases (s := s) with ⟨row, returned⟩ | ⟨thrown, same⟩
    · have goes : fails (OttiliCoder.recordProblem input uuid clock) s = false := fails_eq_false.mpr ⟨_, _, returned⟩
      rw [done]
      refine ((recordProblem_records returned).audited audited).congr rfl rfl fun runId => ?_
      rw [everObserved_append, everObserved_audits, Call.observes, everObserved_append]
      by_cases mine : input.runId = runId <;> simp [mine, goes, everObserved]
    · have fails := fails_iff.mpr thrown
      rw [done, same]
      refine audited.congr rfl rfl (quiet fun runId => ?_)
      rw [Call.observes, if_neg]
      simp [fails]
  | appendFencedEvent input clock =>
    refine audited.congr (Call.frame _ ?_) (Call.frame _ ?_) (quiet fun runId => rfl)
    · exact Call.appendFencedEvent_writes rfl rfl
    · exact Call.appendFencedEvent_writes rfl rfl
  | _ => exact audited.congr (Call.frame _ rfl) (Call.frame _ rfl) (quiet fun runId => rfl)

theorem auditLog_concat (history : List Call) (call : Call) (runId : RunId) :
    auditLog (history ++ [call]) runId = auditLog history runId ++ call.audits runId (storeAfter history) :=
  observed_concat history call _

/-- After every history, the store keeps all observations of its log. -/
theorem audited_after (history : List Call) : Audited (storeAfter history) (auditLog history) := by
  induction history using List.reverseRecOn with
  | nil =>
    refine ⟨fun row none => absurd none Keyed.not_mem_empty, fun id other runId fingerprint none => ?_, fun _ _ => rfl⟩
    cases none
  | append_singleton before call ih =>
    rw [storeAfter_concat]
    have logged : auditLog (before ++ [call]) = fun runId => auditLog before runId ++ call.audits runId (storeAfter before) :=
      funext (auditLog_concat before call)
    rw [logged]
    exact call.audited ih

end Runs

/-! What the observations decide. -/

/-- The observation rests on external state, with no alternative left. -/
def BlockerObservation.stuck (observation : BlockerObservation) : Prop :=
  observation.externalDependency = true ∧ observation.alternateActionAvailable = false

/-- Enough observations, all of them stuck. -/
def Convincing (matching : List BlockerObservation) : Prop :=
  3 ≤ matching.length ∧ ∀ observation ∈ matching, observation.stuck

/-- Observations from before the resume make up the number that is missing. -/
def MakesUp (stale fresh : List BlockerObservation) : Prop :=
  fresh.length < 3 ∧ Convincing (stale ++ fresh)

/-- An observation from before the resume speaks against the fresh ones. -/
def Vetoes (stale fresh : List BlockerObservation) : Prop :=
  Convincing fresh ∧ ∃ observation ∈ stale, ¬ observation.stuck

/-- The observation blocks the Run: it makes its problem a blocker, and stops the Run when it executes. -/
def BlocksRun (s s' : Store) (problem : ProblemRow) : Prop :=
  problem.status = .blocked ∧ ∀ run, (s .runs).find? problem.runId = some run →
    run.status = .running ∨ run.status = .waitingExternal ∨ run.status = .recovering →
      statusOf s' problem.runId = some .blocked

section Decisions
variable {stale fresh : List BlockerObservation} {fingerprint : String}

/-- Stale observations change the decision only by making up the number or by a veto. -/
theorem convincing_append_iff : (Convincing (stale ++ fresh) ↔ Convincing fresh) ↔
    ¬ MakesUp stale fresh ∧ ¬ Vetoes stale fresh := by
  constructor
  · intro agree
    refine ⟨fun ⟨few, made⟩ => ?_, fun ⟨enough, observation, member, loose⟩ => ?_⟩
    · have enough := (agree.mp made).1
      omega
    · exact loose ((agree.mpr enough).2 observation (List.mem_append_left _ member))
  · rintro ⟨alone, unopposed⟩
    constructor
    · intro made
      by_cases few : fresh.length < 3
      · exact absurd ⟨few, made⟩ alone
      · exact ⟨not_lt.mp few, fun observation member => made.2 observation (List.mem_append_right _ member)⟩
    · intro enough
      refine ⟨?_, fun observation member => ?_⟩
      · rw [List.length_append]
        have := enough.1
        omega
      · rcases List.mem_append.mp member with before | since
        · by_contra loose
          exact unopposed ⟨enough, observation, before, loose⟩
        · exact enough.2 observation since

theorem isBlocking_iff {rows : List ProblemObservationRow} : isBlocking rows = true ↔
    Convincing ((rows.map (·.observation fingerprint)).filter (·.meaningful)) := by
  have mapped : (rows.map (·.observation fingerprint)).filter (·.meaningful) =
      (rows.filter (·.meaningful)).map (·.observation fingerprint) := List.filter_map
  rw [mapped, Convincing, List.length_map, List.forall_mem_map]
  simp only [isBlocking, Bool.and_eq_true, decide_eq_true_eq, List.all_eq_true, Bool.not_eq_true', and_assoc,
    BlockerObservation.stuck, ProblemObservationRow.observation, forall_and]

/-- The core's assessment, with the default threshold. -/
theorem assessBlocker_convincing (observations : List BlockerObservation) (fingerprint : String) :
    ∃ assessment, assessBlocker observations fingerprint = .ok assessment ∧
      (assessment.eligibleForBlocked = true ↔ Convincing (matchingObservations observations fingerprint)) := by
  have admitted : (!defaultBlockerAttemptThreshold.isInteger || defaultBlockerAttemptThreshold.below 1) = false := by decide
  have attempts (count : Nat) : defaultBlockerAttemptThreshold.atMost count = decide (3 ≤ count) := by
    rw [Bool.eq_iff_iff, decide_eq_true_eq]
    exact Iff.trans decide_eq_true_iff (by exact_mod_cast Iff.rfl)
  rw [assessBlocker, admitted, if_neg Bool.false_ne_true]
  refine ⟨_, rfl, ?_⟩
  simp only [attempts, Convincing, BlockerObservation.stuck, Bool.and_eq_true, decide_eq_true_eq, List.all_eq_true,
    Bool.not_eq_true', forall_and]
  constructor
  · rintro ⟨⟨enough, _, external⟩, _, unavailable⟩
    exact ⟨enough, external, unavailable⟩
  · rintro ⟨enough, external, unavailable⟩
    exact ⟨⟨enough, by omega, external⟩, by omega, unavailable⟩

theorem matchingObservations_eq (observations : List BlockerObservation) (fingerprint : String) :
    matchingObservations observations fingerprint =
      (observations.filter fun observation => observation.fingerprint == fingerprint).filter (·.meaningful) := by
  rw [matchingObservations, List.filter_filter]
  simp only [Bool.and_comm]

end Decisions

/-- An observation blocks the Run exactly when the core says so of the observations since the
last resume, unless the ones from before that resume make up the number or veto. One that does
not block leaves the Run. -/
theorem audit_restarts_unless_stale {history : List Call} {input : RecordProblemInput} {uuid : String} {clock : Date}
    {problem : ProblemRow} {s' : Store}
    (returned : recordProblem input uuid clock (storeAfter history) = .ok problem s') :
    let log := auditLog (history ++ [.recordProblem input uuid clock]) input.runId
    (∃ assessment, assessBlocker (freshAudit log) input.fingerprint = .ok assessment ∧
      ((BlocksRun (storeAfter history) s' problem ↔ assessment.eligibleForBlocked = true) ↔
        ¬ MakesUp (matchingObservations (staleAudit log) input.fingerprint)
            (matchingObservations (freshAudit log) input.fingerprint) ∧
          ¬ Vetoes (matchingObservations (staleAudit log) input.fingerprint)
            (matchingObservations (freshAudit log) input.fingerprint))) ∧
      (¬ BlocksRun (storeAfter history) s' problem → s' .runs = (storeAfter history) .runs) := by
  intro log
  have records := recordProblem_records returned
  have audited : Audited s' (auditLog (history ++ [.recordProblem input uuid clock])) := by
    have after := audited_after (history ++ [.recordProblem input uuid clock])
    have left : storeAfter (history ++ [.recordProblem input uuid clock]) = s' := by
      rw [storeAfter_concat]
      exact (after_map _).trans (after_ok returned)
    rwa [left] at after
  have decided : problem.status = .blocked ↔ Convincing (matchingObservations (staleAudit log) input.fingerprint ++
      matchingObservations (freshAudit log) input.fingerprint) := by
    have split : matchingObservations (staleAudit log) input.fingerprint ++
        matchingObservations (freshAudit log) input.fingerprint = matchingObservations (everObserved log) input.fingerprint := by
      rw [← staleAudit_append_freshAudit log]
      exact (List.filter_append ..).symm
    rw [split, matchingObservations_eq, ← audited.kept, ← records.decides audited, ← isBlocking_iff, records.status]
    split <;> simp [*]
  have blocks : BlocksRun (storeAfter history) s' problem ↔ problem.status = .blocked := by
    refine ⟨And.left, fun blocked => ⟨blocked, ?_⟩⟩
    rw [records.home]
    exact records.blocks blocked
  constructor
  · obtain ⟨assessment, assessed, eligible⟩ := assessBlocker_convincing (freshAudit log) input.fingerprint
    refine ⟨assessment, assessed, ?_⟩
    rw [blocks, decided, eligible]
    exact convincing_append_iff
  · intro spared
    rw [blocks] at spared
    have opened : problem.status = .opened := by
      have status := records.status
      split at status
      · exact absurd status spared
      · exact status
    exact (records.spares opened).1

/-! A Run whose operator fixes what blocked it. -/

def missingCredential : RecordProblemInput where
  alternateActionAvailable := false
  externalDependency := true
  fingerprint := "credential"
  runId := sampleRunId
  summary := "The CI credential is missing."

def startSample : Call := .transitionRun { runId := sampleRunId, target := ⟨.running, running_open⟩ } .epoch

/-- The Run is blocked by three observations, resumed, and started again. -/
def resumedAfterBlock : List Call :=
  [sampleRun, .recordProblem missingCredential "a" .epoch, .recordProblem missingCredential "b" .epoch,
    .recordProblem missingCredential "c" .epoch,
    .executeCommand { command := .resume, commandId := "fixed", runId := sampleRunId } .epoch .epoch .epoch, startSample]

theorem first_observation_assessed : ∃ problem s', recordProblem missingCredential "a" .epoch
      (storeAfter [sampleRun]) = .ok problem s' ∧
    (¬ BlocksRun (storeAfter [sampleRun]) s' problem → s' .runs = (storeAfter [sampleRun]) .runs) := by
  have goes : fails (recordProblem missingCredential "a" .epoch) (storeAfter [sampleRun]) = false := by
    decide +kernel
  obtain ⟨problem, s', returned⟩ := fails_eq_false.mp goes
  exact ⟨problem, s', returned, (audit_restarts_unless_stale returned).2⟩

/-- The first observation after the resume blocks the running Run again, though the core asks for three. -/
theorem resumed_run_blocked_at_once :
    statusOf (storeAfter resumedAfterBlock) sampleRunId = some .running ∧
      statusOf (storeAfter (resumedAfterBlock ++ [.recordProblem missingCredential "d" .epoch])) sampleRunId = some .blocked ∧
      (assessBlocker (freshAudit (auditLog (resumedAfterBlock ++ [.recordProblem missingCredential "d" .epoch]) sampleRunId))
        missingCredential.fingerprint).toOption.map
          (fun assessment => (assessment.matchingMeaningfulAttempts, assessment.eligibleForBlocked)) = some (1, false) := by
  decide +kernel

end OttiliCoder
