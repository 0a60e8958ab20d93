import OttiliCoder.Store.Calls

/-! What the store reports about each Run: the rows of every table that belong to
it, directly or through the row they hang on. -/

namespace OttiliCoder
open Relational Transaction

/-- Whom a row belongs to: a Run, the Run of another row, or both. -/
inductive Owner where
  | nobody
  | run (id : RunId)
  | through (t : Table) (k : Key t)
  | either (id : RunId) (t : Table) (k : Key t)

def Owner.direct : Owner → Option RunId
  | .run id => some id
  | .either id _ _ => some id
  | _ => none

/-- Missions and resource locks are shared by all Runs. Evidence is reported under
its own Run and under the Run of the requirement it speaks for. -/
@[reducible] def owner : (t : Table) → Row t → Owner
  | .missions => fun _ => .nobody
  | .resourceLocks => fun _ => .nobody
  | .runs => fun row => .run row.id
  | .goals => fun row => .run row.runId
  | .tasks => fun row => .run row.runId
  | .taskDependencies => fun row => .through .tasks row.taskId
  | .taskResourceScopes => fun row => .through .tasks row.taskId
  | .agents => fun row => .run row.runId
  | .agentEdges => fun row => .through .agents row.childAgentId
  | .sessionEpochs => fun row => .through .agents row.agentId
  | .requirements => fun row => .run row.runId
  | .evidence => fun row => .either row.runId .requirements row.requirementId
  | .validations => fun row => .run row.runId
  | .runEvents => fun row => .run row.runId
  | .runLeases => fun row => .run row.runId
  | .commandReceipts => fun row => .run row.runId
  | .scheduledActions => fun row => .run row.runId
  | .wakeConditions => fun row => .run row.runId
  | .toolCalls => fun row => .run row.runId
  | .checkpoints => fun row => .run row.runId
  | .milestones => fun row => .run row.runId
  | .milestoneTasks => fun row => .through .milestones row.milestoneId
  | .decisions => fun row => .run row.runId
  | .problems => fun row => .run row.runId
  | .problemObservations => fun row => .through .problems row.problemId
  | .taskProblems => fun row => .through .tasks row.taskId
  | .taskRequirements => fun row => .through .tasks row.taskId
  | .taskEvidence => fun row => .through .tasks row.taskId
  | .artifacts => fun row => .run row.runId
  | .evidenceArtifacts => fun row => .through .evidence row.evidenceId
  | .gitChanges => fun row => .run row.runId
  | .costRecords => fun row => .run row.runId
  | .recoveryStates => fun row => .run row.runId
  | .contextSnapshots => fun row => .run row.runId
  | .memoryEntries => fun row => .run row.runId
  | .approvals => fun row => .run row.runId
  | .agentMessages => fun row => .run row.runId
  | .usageEntries => fun row => .run row.runId

variable {s s' : Store} {runId : RunId} {t : Table}

def shown (s : Store) (runId : RunId) : Owner → Bool
  | .nobody => false
  | .run id => id == runId
  | .through t k => ((s t).find? k).any fun row => (owner t row).direct == some runId
  | .either id t k => id == runId || ((s t).find? k).any fun row => (owner t row).direct == some runId

def report (s : Store) (runId : RunId) (t : Table) : List (Row t) :=
  (s t).rows.filter fun row => shown s runId (owner t row)

theorem shown_direct {o : Owner} (direct : o.direct = some runId) : shown s runId o = true := by
  cases o with
  | nobody => simp [Owner.direct] at direct
  | run id => simpa [Owner.direct, shown] using direct
  | through t k => simp [Owner.direct] at direct
  | either id t k => simp only [Owner.direct, Option.some.injEq] at direct; simp [shown, direct]

theorem mem_report {row : Row t} : row ∈ report s runId t ↔ row ∈ s t ∧ shown s runId (owner t row) = true := by
  simp [report, Keyed.mem_def]

/-! Writes that only concern some Runs. -/

section Touched
variable {touched : RunId → Prop}

/-- A row of this owner is reported under touched Runs only. -/
def Owned (touched : RunId → Prop) (s : Store) (o : Owner) : Prop :=
  ∀ runId, shown s runId o = true → touched runId

/-- The report of every Run that is not touched is the same. -/
def SameReport (touched : RunId → Prop) (s s' : Store) : Prop :=
  ∀ runId, ¬ touched runId → ∀ t, report s' runId t = report s runId t

instance : IsPreorder Store (SameReport touched) where
  refl _ _ _ _ := rfl
  trans _ _ _ first second runId other t := (second runId other t).trans (first runId other t)

theorem Owned.run {id : RunId} (mine : touched id) : Owned touched s (.run id) := by
  intro runId shows
  have same : id = runId := by simpa [shown] using shows
  exact same ▸ mine

theorem Owned.nobody : Owned touched s .nobody := fun _ shows => by simp [shown] at shows

theorem Owned.through {k : Key t}
    (mine : ∀ row runId, (s t).find? k = some row → (owner t row).direct = some runId → touched runId) :
    Owned touched s (.through t k) := by
  intro runId shows
  simp only [shown, Option.any_eq_true, beq_iff_eq] at shows
  obtain ⟨row, found, direct⟩ := shows
  exact mine row runId found direct

theorem Owned.either {id : RunId} {k : Key t} (mine : touched id) (other : Owned touched s (.through t k)) :
    Owned touched s (.either id t k) := by
  intro runId shows
  simp only [shown, Bool.or_eq_true, beq_iff_eq] at shows
  rcases shows with rfl | shows
  · exact mine
  · exact other runId (by simpa [shown] using shows)

theorem Owned.direct {o : Owner} (owned : Owned touched s o) (direct : o.direct = some runId) : touched runId :=
  owned runId (shown_direct direct)

theorem Owned.of_member {row : Row t} (member : row ∈ s t)
    (mine : ∀ runId, (owner t row).direct = some runId → touched runId) :
    Owned touched s (.through t (key t row)) := by
  refine Owned.through fun other runId found direct => ?_
  have same : other = row := Option.some.inj (found.symm.trans (Keyed.find?_key member))
  exact mine runId (same ▸ direct)

theorem Owned.member {k : Key t} (owned : Owned touched s (.through t k)) {row : Row t} (member : row ∈ s t)
    (keyed : key t row = k) (direct : (owner t row).direct = some runId) : touched runId := by
  have found := Keyed.find?_key member
  rw [keyed] at found
  exact owned runId (by simp [shown, found, direct])

theorem Owned.found {k : Key t} (owned : Owned touched s (.through t k)) {row : Row t}
    (found : (s t).find? k = some row) (direct : (owner t row).direct = some runId) : touched runId :=
  owned.member (Keyed.find?_eq_some.mp found).1 (Keyed.find?_eq_some.mp found).2 direct

theorem owned_iff {k : Key t} {row : Row t} (found : (s t).find? k = some row)
    (direct : (owner t row).direct = some runId) : Owned touched s (.through t k) ↔ touched runId := by
  constructor
  · exact fun owned => owned.found found direct
  · intro mine
    refine Owned.through fun other runId' found' direct' => ?_
    obtain rfl := Option.some.inj (found.symm.trans found')
    exact Option.some.inj (direct.symm.trans direct') ▸ mine

theorem Owned.inserted {row : Row t} (fresh : (s t).find? (key t row) = none)
    (mine : ∀ runId, (owner t row).direct = some runId → touched runId) :
    Owned touched (s.set t ((s t).insert row)) (.through t (key t row)) := by
  refine Owned.of_member (t := t) ?_ mine
  rw [Db.set_same, Keyed.mem_insert fresh]
  exact .inr rfl

private theorem found_of_report (same : report s' runId t = report s runId t) {k : Key t} {row : Row t}
    (found : (s' t).find? k = some row) (direct : (owner t row).direct = some runId) :
    (s t).find? k = some row := by
  obtain ⟨member, keyed⟩ := Keyed.find?_eq_some.mp found
  have reported : row ∈ report s' runId t := mem_report.mpr ⟨member, shown_direct direct⟩
  rw [same, mem_report] at reported
  exact Keyed.find?_eq_some.mpr ⟨reported.1, keyed⟩

theorem SameReport.found (same : SameReport touched s s') (other : ¬ touched runId) {k : Key t} {row : Row t}
    (direct : (owner t row).direct = some runId) : (s' t).find? k = some row ↔ (s t).find? k = some row :=
  ⟨fun found => found_of_report (same runId other t) found direct,
    fun found => found_of_report (same runId other t).symm found direct⟩

/-- Whom an untouched row belongs to cannot change behind the report. -/
theorem SameReport.owned (same : SameReport touched s s') {o : Owner} (owned : Owned touched s o) :
    Owned touched s' o := by
  have through : ∀ (u : Table) (k : Key u), Owned touched s (.through u k) → Owned touched s' (.through u k) := by
    intro u k before
    refine Owned.through fun row runId found direct => ?_
    by_contra other
    have earlier := found_of_report (same runId other u) found direct
    exact other (before runId (by simp [shown, earlier, direct]))
  cases o with
  | nobody => exact Owned.nobody
  | run id => exact Owned.run (owned id (by simp [shown]))
  | through u k => exact through u k owned
  | either id u k =>
    refine Owned.either (owned id (by simp [shown])) (through u k ?_)
    intro runId shows
    exact owned runId (by simp only [shown] at shows; simp [shown, shows])

/-- Rewriting one table changes no untouched report when it keeps the rows of
untouched Runs and finds them under the keys they had. -/
private theorem SameReport.of_table {rows : Keyed (key t)}
    (found : ∀ runId, ¬ touched runId → ∀ k,
      (rows.find? k).any (fun row => (owner t row).direct == some runId) =
        ((s t).find? k).any fun row => (owner t row).direct == some runId)
    (kept : ∀ runId, ¬ touched runId →
      rows.rows.filter (fun row => shown s runId (owner t row)) = report s runId t) :
    SameReport touched s (s.set t rows) := by
  intro runId other u
  have shows : ∀ o, shown (s.set t rows) runId o = shown s runId o := by
    have through : ∀ (u : Table) (k : Key u),
        (((s.set t rows) u).find? k).any (fun row => (owner u row).direct == some runId) =
          ((s u).find? k).any fun row => (owner u row).direct == some runId := by
      intro u k
      by_cases same : u = t
      · subst same
        rw [Db.set_same]
        exact found runId other k
      · rw [Db.set_other _ _ same]
    intro o
    cases o <;> simp only [shown, through]
  unfold report
  simp only [shows]
  by_cases same : u = t
  · subst same
    rw [Db.set_same]
    exact kept runId other
  · rw [Db.set_other _ _ same]

theorem SameReport.insert {row : Row t} (fresh : (s t).find? (key t row) = none)
    (owned : Owned touched s (owner t row)) : SameReport touched s (s.set t ((s t).insert row)) := by
  have apart : ∀ runId, ¬ touched runId → (owner t row).direct ≠ some runId :=
    fun runId other direct => other (owned.direct direct)
  refine SameReport.of_table (fun runId other k => ?_) fun runId other => ?_
  · rw [Keyed.find?_insert fresh]
    split
    next same => subst same; simp [fresh, apart runId other]
    next => rfl
  · have absent : shown s runId (owner t row) = false := by
      by_contra shows
      exact other (owned runId (by simpa using shows))
    rw [Keyed.insert_rows fresh, List.filter_append]
    simp [report, absent]

theorem SameReport.update {selected : Row t → Bool} {f : Row t → Row t} {keeps : ∀ row, key t (f row) = key t row}
    (owned : ∀ row ∈ s t, selected row = true → Owned touched s (owner t row))
    (same : ∀ row, owner t (f row) = owner t row) :
    SameReport touched s (s.set t ((s t).update selected f keeps)) := by
  refine SameReport.of_table (fun runId _ k => ?_) fun runId other => ?_
  · rw [Keyed.find?_update]
    cases (s t).find? k with
    | none => rfl
    | some row =>
      simp only [Option.map_some, Option.any_some]
      split <;> simp [same]
  · have kept : ∀ row ∈ (s t).rows, shown s runId (owner t row) = true →
        (if selected row = true then f row else row) = row := by
      intro row member shows
      split
      next chosen => exact absurd (owned row member chosen runId shows) other
      next => rfl
    have passes : (fun row => shown s runId (owner t row)) ∘
        (fun row => if selected row = true then f row else row) = fun row => shown s runId (owner t row) := by
      funext row
      simp only [Function.comp_apply]
      split <;> simp [same]
    unfold report Keyed.update
    rw [List.filter_map, passes]
    conv_rhs => rw [← List.map_id (List.filter _ _)]
    refine List.map_congr_left fun row member => ?_
    obtain ⟨inside, shows⟩ := List.mem_filter.mp member
    exact kept row inside shows

theorem SameReport.delete {removed : Row t → Bool}
    (owned : ∀ row ∈ s t, removed row = true → Owned touched s (owner t row)) :
    SameReport touched s (s.set t ((s t).filter fun row => !removed row)) := by
  refine SameReport.of_table (fun runId other k => ?_) fun runId other => ?_
  · rw [Keyed.find?_filter]
    cases found : (s t).find? k with
    | none => rfl
    | some row =>
      by_cases gone : removed row = true
      · have apart : (owner t row).direct ≠ some runId := fun direct =>
          other ((owned row (Keyed.find?_eq_some.mp found).1 gone).direct direct)
        simp [Option.filter, gone, apart]
      · simp [Option.filter, gone]
  · unfold report Keyed.filter
    rw [List.filter_filter]
    refine List.filter_congr fun row member => ?_
    by_cases gone : removed row = true
    · have hidden : shown s runId (owner t row) = false := by
        by_contra shows
        exact other (owned row member gone runId (by simpa using shows))
      simp [hidden]
    · simp [gone]

end Touched

end OttiliCoder
