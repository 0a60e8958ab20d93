import OttiliCoder.Proofs.MemoryCalls

/-! The gates of a project's memory: what the run and the project remember has passed them, whatever is captured
and in whatever order, and nothing else is recalled. -/

namespace OttiliCoder.Memory
open Host Relational Transaction Results

/-! Merging takes nothing back. -/

theorem Confidence.le_max_left (first second : Confidence) : first.value ≤ (first.max second).value := by
  unfold Confidence.max
  split
  next less => exact Rat.le_of_lt less
  next => exact Rat.le_refl

theorem Confidence.le_max_right (first second : Confidence) : second.value ≤ (first.max second).value := by
  unfold Confidence.max
  split
  next => exact Rat.le_refl
  next notLess => exact Rat.not_lt.mp notLess

/-- What the gate of a scope asks of a record. -/
def Passes (gates : Gates) : MemoryScope → MemoryRecord → Prop
  | .ephemeral, _ => True
  | .run, record => gates.minimumRunConfidence.value ≤ record.confidence.value
  | .project, record =>
    gates.minimumProjectConfidence.value ≤ record.confidence.value ∧ record.validated = true ∧ record.reusable = true

/-- Every record has passed the gate of its scope. -/
def Guarded (gates : Gates) (s : Scopes) : Prop :=
  ∀ scope, ∀ record ∈ s.of scope, Passes gates scope record

section Gates
variable {platform : Platform} {gates : Gates} {admits : MemoryCandidate → Prop} {s s' : Scopes}

/-- A candidate that no gate refuses gives a record that passes, whatever it is merged with. -/
theorem passes_merged {target : PromotionTarget} {candidate : NormalizedCandidate} (opened : refusal gates candidate target = none)
    (existing : Option MemoryRecord) (id : JsString) (now : String) :
    Passes gates target.scope (mergedRecord platform target.scope candidate existing id now) := by
  have raised := Confidence.le_max_right ((existing.map (·.confidence)).getD .zero) candidate.confidence
  cases target with
  | run =>
    dsimp only [refusal] at opened
    split at opened
    next => cases opened
    next enough => exact Rat.le_trans (Rat.not_lt.mp enough) raised
  | project =>
    dsimp only [refusal] at opened
    split at opened
    next => cases opened
    next enough =>
      split at opened
      next => cases opened
      next validated =>
        split at opened
        next => cases opened
        next reusable =>
          refine ⟨Rat.le_trans (Rat.not_lt.mp enough) raised, ?_, ?_⟩
          · exact Bool.or_eq_true_iff.mpr (.inr (by simpa using validated))
          · exact Bool.or_eq_true_iff.mpr (.inr (by simpa using reusable))

theorem guarded_upserted {scope : MemoryScope} {candidate : NormalizedCandidate} {now : String} {existing : Option MemoryRecord}
    {record : MemoryRecord} (guarded : Guarded gates s) (upserted : Upserted platform scope candidate now s existing record s')
    (passes : Passes gates scope record) : Guarded gates s' := by
  obtain rfl := upserted.stored
  intro other stored listed
  rw [Scopes.of_with] at listed
  split at listed
  next same =>
    subst same
    rcases Keyed.mem_put.mp listed with rfl | ⟨old, -⟩
    · exact passes
    · exact guarded _ stored old
  next => exact guarded other stored listed

theorem guarded_written (guarded : Guarded gates s) (written : Written platform gates admits s s') : Guarded gates s' := by
  cases written with
  | captured admitted normalized upserted => exact guarded_upserted guarded upserted trivial
  | promoted found normalized counted opened upserted =>
    apply guarded_upserted guarded upserted
    rw [upserted.merged]
    exact passes_merged opened _ _ _

theorem guarded_empty (gates : Gates) : Guarded gates .empty := by
  intro scope record listed
  rw [Scopes.of_empty] at listed
  exact absurd listed Keyed.not_mem_empty

end Gates

/-! What is no successful promotion. -/

/-- The call is a promotion, and it succeeds. -/
def Promotes (platform : Platform) (gates : Gates) (s : Scopes) : Call → Prop
  | .capture _ _ => False
  | .promote promoting target captured promoted =>
    ∃ record s', promote platform gates promoting target captured promoted s = .ok (.promoted record) s'

/-- What the run and the project remember. -/
def Scopes.durable (s : Scopes) : Records × Records := (s.run, s.project)

section Frames
variable {platform : Platform} {gates : Gates} {s s' : Scopes}

theorem capture_durable (raw : MemoryCandidate) (now : String) (s : Scopes) :
    (after (capture platform raw now) s).durable = s.durable := by
  cases outcome : capture platform raw now s with
  | ok record last =>
    rw [after_ok outcome]
    obtain ⟨candidate, middle, read, stored⟩ := bind_ok.mp outcome
    obtain ⟨-, rfl⟩ := raise_ok.mp read
    obtain ⟨existing, upserted⟩ := upsert_ok stored
    rw [upserted.stored]
    rfl
  | error failure last =>
    rw [after_error outcome]
    rcases bind_error.mp outcome with early | ⟨candidate, middle, read, failed⟩
    · rw [(raise_reads _).error early]
    · obtain ⟨-, rfl⟩ := raise_ok.mp read
      rw [upsert_failed failed]

/-- A fact that is not promoted leaves the maps as they are. -/
theorem promoteStaged_keeps {target : Option PromotionTarget} {now : String} {id : JsString}
    (stays : ¬∃ record s', promoteStaged platform gates target now id s = .ok (.promoted record) s') :
    after (promoteStaged platform gates target now id) s = s := by
  cases outcome : promoteStaged platform gates target now id s with
  | ok result last =>
    rw [after_ok outcome]
    obtain ⟨found, middle, read, rest⟩ := bind_ok.mp outcome
    obtain rfl := (findCandidate_reads id).ok read
    cases found with
    | none => exact (pure_ok.mp rest).2
    | some candidate =>
      rcases promoteFound_ok rest with ⟨_, _, rfl⟩ | ⟨_, _, record, _, rfl, _⟩
      · rfl
      · exact absurd ⟨record, last, outcome⟩ stays
  | error failure last =>
    rw [after_error outcome]
    rcases bind_error.mp outcome with early | ⟨found, middle, read, failed⟩
    · exact (findCandidate_reads id).error early
    · obtain rfl := (findCandidate_reads id).ok read
      exact promoteFound_failed failed

/-- A call that promotes nothing leaves the run and the project as they are. -/
theorem perform_durable {call : Call} (stays : ¬Promotes platform gates s call) :
    (perform platform gates call s).durable = s.durable := by
  cases call with
  | capture candidate now => exact capture_durable candidate now s
  | promote promoting target captured promoted =>
    cases promoting with
    | staged id => exact congrArg Scopes.durable (promoteStaged_keeps stays)
    | candidate candidate =>
      have kept := @capture_durable platform candidate captured s
      unfold perform
      cases outcome : capture platform candidate captured s with
      | ok record middle =>
        have named : ((·.id) <$> capture platform candidate captured : MemoryM JsString) s = .ok record.id middle :=
          map_ok.mpr ⟨record, outcome, rfl⟩
        have same : promote platform gates (.candidate candidate) target captured promoted s =
            promoteStaged platform gates target promoted record.id middle := bind_returned named
        rw [after_ok outcome] at kept
        have later : after (promoteStaged platform gates target promoted record.id) middle = middle := by
          apply promoteStaged_keeps
          intro succeeds
          obtain ⟨stored, last, returned⟩ := succeeds
          exact stays ⟨stored, last, same.trans returned⟩
        have ended : after (promote platform gates (.candidate candidate) target captured promoted) s =
            after (promoteStaged platform gates target promoted record.id) middle := by
          unfold after
          rw [same]
        dsimp only
        rw [ended, later, kept]
      | error failure middle =>
        have named : ((·.id) <$> capture platform candidate captured : MemoryM JsString) s = .error failure middle :=
          map_failed.mpr outcome
        have failed : promote platform gates (.candidate candidate) target captured promoted s = .error failure middle :=
          bind_failed named
        rw [after_error outcome] at kept
        dsimp only
        rw [after_error failed, kept]

end Frames

/-! Recall. -/

section Recall
variable {platform : Platform} {s : Scopes} {query : JsString} {options : MemoryRecallOptions} {results : List MemoryRecallResult}

theorem recallScore_pos {terms : List JsString} {record : MemoryRecord} (positive : 0 < recallScore platform terms record) :
    ∃ term ∈ terms, term <:+: corpus platform record := by
  unfold recallScore at positive
  dsimp only at positive
  split at positive
  next => exact absurd positive Rat.lt_irrefl
  next some =>
    obtain ⟨term, listed⟩ := List.exists_mem_of_length_pos (Nat.pos_of_ne_zero some)
    obtain ⟨known, inside⟩ := List.mem_filter.mp listed
    exact ⟨term, known, of_decide_eq_true inside⟩

theorem mem_ranked {targets : List PromotionTarget} {minimum : Confidence} {terms : List JsString} {result : MemoryRecallResult}
    (listed : result ∈ ranked platform s targets minimum terms) :
    (∃ target ∈ targets, result.record ∈ s.of target.scope) ∧ minimum.value ≤ result.record.confidence.value ∧
      ∃ term ∈ terms, term <:+: corpus platform result.record := by
  obtain ⟨scored, positive⟩ := List.mem_filter.mp ((List.mem_insertionSort _).mp listed)
  obtain ⟨record, eligible, rfl⟩ := List.mem_map.mp scored
  obtain ⟨inside, confident⟩ := List.mem_filter.mp eligible
  obtain ⟨target, asked, stored⟩ := List.mem_flatMap.mp inside
  exact ⟨⟨target, asked, stored⟩, of_decide_eq_true confident, recallScore_pos (of_decide_eq_true positive)⟩

/-- What is recalled: records of the scopes asked about, each with the confidence asked for and with a word of the query. -/
structure Recalled (platform : Platform) (s : Scopes) (query : JsString) (options : MemoryRecallOptions)
    (results : List MemoryRecallResult) : Prop where
  bounded : ∀ limit, options.limit.getD 12 = .finite limit → results.length ≤ limit.num.toNat
  held : ∀ result ∈ results, ∃ target ∈ options.scopes, result.record ∈ s.of target.scope
  confident : ∀ minimum, options.minimumConfidence.getD 0 = .finite minimum → ∀ result ∈ results,
    minimum ≤ result.record.confidence.value
  matching : ∀ result ∈ results, ∃ term ∈ recallTerms platform query, term <:+: corpus platform result.record

theorem recalled_nothing : Recalled platform s query options [] where
  bounded _ _ := Nat.zero_le _
  held _ listed := absurd listed List.not_mem_nil
  confident _ _ _ listed := absurd listed List.not_mem_nil
  matching _ listed := absurd listed List.not_mem_nil

theorem recall_ok (returned : recallRecords platform s query options = .ok results) : Recalled platform s query options results := by
  obtain ⟨confidence, valid, returned⟩ := except_bind_ok.mp returned
  have given := validateConfidence_ok valid
  split at returned
  next limit limited =>
    split at returned
    next =>
      split at returned
      next =>
        obtain rfl := except_pure_ok.mp returned
        exact recalled_nothing
      next =>
        obtain rfl := except_pure_ok.mp returned
        have source : ∀ result ∈ (ranked platform s options.scopes confidence (recallTerms platform query)).take limit.num.toNat,
            (∃ target ∈ options.scopes, result.record ∈ s.of target.scope) ∧ confidence.value ≤ result.record.confidence.value ∧
              ∃ term ∈ recallTerms platform query, term <:+: corpus platform result.record :=
          fun result listed => mem_ranked (List.mem_of_mem_take listed)
        refine ⟨?_, fun result listed => (source result listed).1, ?_, fun result listed => (source result listed).2.2⟩
        · intro other same
          obtain rfl := Number.finite.inj (limited.symm.trans same)
          exact List.length_take_le _ _
        · intro minimum same result listed
          obtain rfl := Number.finite.inj (given.symm.trans same)
          exact (source result listed).2.1
    next => cases returned
  next => cases returned

end Recall

/-! Runs. -/

/-- A memory whose gates have held: what it remembers for longer than the session has passed them, and only a promotion that
succeeds adds to that or changes it; nothing else is recalled. -/
structure GatesHold (platform : Platform) (gates : Gates) (s : Scopes) : Prop where
  guarded : Guarded gates s
  closed : ∀ call, ¬Promotes platform gates s call → (perform platform gates call s).durable = s.durable
  recalled : ∀ query options results, recallRecords platform s query options = .ok results →
    Recalled platform s query options results ∧
      ∀ result ∈ results, ∃ target ∈ options.scopes, Passes gates target.scope result.record

/-- Whatever is captured and promoted, and in whatever order, successfully or not. -/
theorem memory_gates_hold (platform : Platform) (gates : Gates) (calls : List Call) :
    GatesHold platform gates (performAll (perform platform gates) calls .empty) := by
  have guarded : Guarded gates (performAll (perform platform gates) calls .empty) := by
    refine @run_keeps platform gates (fun _ => True) .empty (Guarded gates) (fun _ _ => guarded_written) calls ?_ (guarded_empty gates)
    intro call _
    cases call with
    | capture => trivial
    | promote promoting => cases promoting <;> trivial
  refine ⟨guarded, fun call => perform_durable, ?_⟩
  intro query options results returned
  have recalled := recall_ok returned
  refine ⟨recalled, ?_⟩
  intro result listed
  obtain ⟨target, asked, stored⟩ := recalled.held result listed
  exact ⟨target, asked, guarded _ _ stored⟩

end OttiliCoder.Memory
