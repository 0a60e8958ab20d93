import OttiliCoder.Proofs.MemoryFacts

/-! What becomes of a promotion. Every record can be read again, so the promotion of a fact that is there never
throws: its gate decides. -/

namespace OttiliCoder.Memory
open Host Host.Pattern Relational Transaction Results

/-! Texts that are not blank stay so. -/

theorem blank_eq_false {text : JsString} : blank text = false ↔ ∃ u ∈ text, isWhiteSpace u = false := by
  have empty : blank text = true ↔ ∀ u ∈ text, isWhiteSpace u = true := by
    unfold blank trim trimStart
    rw [List.isEmpty_iff, List.rdropWhile_eq_nil_iff]
    constructor
    · intro ends u listed
      by_contra solid
      obtain ⟨rest, split⟩ : ∃ rest, text = text.takeWhile isWhiteSpace ++ rest ∧ rest = text.dropWhile isWhiteSpace :=
        ⟨_, List.takeWhile_append_dropWhile.symm, rfl⟩
      rw [split.1] at listed
      rcases List.mem_append.mp listed with leading | later
      · exact solid (List.mem_takeWhile_imp leading)
      · exact solid (ends u (split.2 ▸ later))
    · intro white u listed
      exact white u ((List.dropWhile_suffix isWhiteSpace).mem listed)
  rw [← Bool.not_eq_true, empty]
  push Not
  simp only [Bool.not_eq_true]

theorem blank_sublist {part text : JsString} (filled : blank part = false) (sublist : part.Sublist text) : blank text = false := by
  rw [blank_eq_false] at filled ⊢
  obtain ⟨u, listed, solid⟩ := filled
  exact ⟨u, sublist.mem listed, solid⟩

/-- What a rule puts in the place of a match is not blank. -/
theorem replacement_filled : ∀ rule ∈ redactionRules, ∀ found, blank (rule.replacement found) = false := by
  have bracket : ∀ text : String, unit '[' ∈ units text → ∀ before : JsString, blank (before ++ units text) = false := by
    intro text listed before
    rw [blank_eq_false]
    exact ⟨unit '[', List.mem_append_right _ listed, by decide⟩
  intro rule listed found
  simp only [redactionRules, List.mem_cons, List.not_mem_nil, or_false] at listed
  rcases listed with rfl | rfl | rfl | rfl | rfl | rfl | rfl
  · exact bracket "[REDACTED:private_key]" (by decide) []
  · exact bracket "[REDACTED:openai_key]" (by decide) []
  · exact bracket "[REDACTED:github_token]" (by decide) []
  · exact bracket "[REDACTED:aws_access_key]" (by decide) []
  · exact bracket " [REDACTED:bearer_token]" (by decide) _
  · exact bracket "[REDACTED:credential]" (by decide) _
  · exact bracket "[REDACTED:credential]@" (by decide) _

theorem replaceAll_filled {pattern : Pattern} {replacement : Match → JsString} (solid : ∀ found, blank (replacement found) = false)
    {text : JsString} (filled : blank text = false) : blank (pattern.replaceAll replacement text) = false := by
  cases found : pattern.matchAll text with
  | nil => rwa [replaceAll_of_no_match found]
  | cons first rest =>
    unfold replaceAll
    rw [found]
    exact blank_sublist (solid first) (replacement_sublist List.mem_cons_self)

theorem redactSecrets_filled {localeCompare : JsString → JsString → Ordering} {text : JsString} (filled : blank text = false) :
    blank (redactSecrets localeCompare text).text = false := by
  have kept : ∀ (rules : List RedactionRule), (∀ rule ∈ rules, ∀ found, blank (rule.replacement found) = false) →
      ∀ state : JsString × Counts, blank state.1 = false → blank (rules.foldl applyRule state).1 = false := by
    intro rules
    induction rules with
    | nil => exact fun _ _ filled => filled
    | cons rule rest ih =>
      intro solid state filled
      rw [List.foldl_cons]
      apply ih fun other listed => solid other (List.mem_cons_of_mem _ listed)
      exact replaceAll_filled (solid rule List.mem_cons_self) filled
  unfold redactSecrets
  dsimp only
  exact kept redactionRules replacement_filled (text, .empty) filled

/-! Records that can be read again. -/

def Readable (s : Scopes) : Prop := ∀ scope, ∀ record ∈ s.of scope, blank record.content = false ∧ blank record.id = false

section Reading
variable {platform : Platform} {gates : Gates} {admits : MemoryCandidate → Prop} {s s' : Scopes} {scope : MemoryScope}
  {candidate : NormalizedCandidate} {now : String} {existing : Option MemoryRecord} {record : MemoryRecord}

/-- A record that is read again: its text is redacted, and so are its source and its tags. -/
theorem normalizeCandidate_record (readable : blank record.content = false ∧ blank record.id = false) :
    normalizeCandidate platform (toCandidate record) = .ok (redactedCandidate platform (toCandidate record) record.confidence) := by
  apply normalizeCandidate_ok.mpr
  exact ⟨record.confidence, ⟨readable.1, readable.2, rfl⟩, rfl⟩

theorem recordKey_readable (readable : blank record.content = false ∧ blank record.id = false) :
    ∃ key, recordKey platform record = .ok key := by
  unfold recordKey
  rw [normalizeCandidate_record readable]
  exact ⟨_, rfl⟩

theorem findExisting_returns {key : JsString} {records : List MemoryRecord}
    (readable : ∀ record ∈ records, blank record.content = false ∧ blank record.id = false) :
    ∃ found, findExisting platform key records = .ok found := by
  induction records with
  | nil => exact ⟨none, rfl⟩
  | cons first rest ih =>
    obtain ⟨own, keyed⟩ := @recordKey_readable platform first (readable first List.mem_cons_self)
    obtain ⟨found, later⟩ := ih fun record listed => readable record (List.mem_cons_of_mem _ listed)
    by_cases same : own = key
    · exact ⟨some first, except_bind_ok.mpr ⟨own, keyed, if_pos same⟩⟩
    · exact ⟨found, except_bind_ok.mpr ⟨own, keyed, (if_neg same).trans later⟩⟩

/-- A candidate whose text is not blank, under an id that is not blank. -/
def Presentable (candidate : NormalizedCandidate) : Prop := blank candidate.content = false ∧ candidate.id.any blank = false

theorem readable_upserted (readable : Readable s) (presentable : Presentable candidate)
    (upserted : Upserted platform scope candidate now s existing record s') : Readable s' := by
  obtain rfl := upserted.stored
  have merged := upserted.merged
  intro other row listed
  rw [Scopes.of_with] at listed
  split at listed
  next same =>
    subst same
    rcases Keyed.mem_put.mp listed with rfl | ⟨stored, -⟩
    · refine ⟨?_, ?_⟩
      · rw [merged]
        exact presentable.1
      · rw [merged]
        change blank (recordId platform _ candidate existing) = false
        cases chosen : existing with
        | some first =>
          have found := upserted.found
          rw [chosen] at found
          exact (readable _ first (findExisting_some found).1).2
        | none =>
          unfold recordId
          cases named : candidate.id with
          | some id =>
            have solid := presentable.2
            rw [named] at solid
            exact solid
          | none =>
            rw [blank_eq_false]
            refine ⟨unit 'm', List.mem_append_left _ ?_, ?_⟩
            · decide
            · decide
    · exact readable _ row stored
  next => exact readable other row listed

theorem readable_written (readable : Readable s) (written : Written platform gates admits s s') : Readable s' := by
  cases written with
  | captured admitted normalized upserted =>
    obtain ⟨confidence, checked, rfl⟩ := normalizeCandidate_ok.mp normalized
    refine readable_upserted readable ⟨?_, checked.named⟩ upserted
    rw [redactedCandidate_content]
    exact redactSecrets_filled checked.filled
  | promoted found normalized counted opened upserted =>
    obtain ⟨confidence, checked, plain⟩ := normalizeCandidate_ok.mp normalized
    refine readable_upserted readable ⟨?_, ?_⟩ upserted
    · rw [counted, plain]
      change blank (redactedCandidate platform _ confidence).content = false
      rw [redactedCandidate_content]
      exact redactSecrets_filled checked.filled
    · rw [counted, plain]
      exact checked.named

theorem readable_empty : Readable .empty := by
  intro scope record listed
  rw [Scopes.of_empty] at listed
  exact absurd listed Keyed.not_mem_empty

end Reading

/-! Outcomes. -/

section Outcomes
variable {platform : Platform} {gates : Gates} {s : Scopes} {id : JsString} {source : MemoryRecord}

theorem firstFound_stored (found : s.firstFound id = some source) : ∃ scope, source ∈ s.of scope ∧ source.id = id := by
  unfold Scopes.firstFound at found
  rcases Option.or_eq_some_iff.mp found with first | ⟨-, later⟩
  · exact ⟨.ephemeral, Keyed.find?_eq_some.mp first⟩
  · rcases Option.or_eq_some_iff.mp later with first | ⟨-, last⟩
    · exact ⟨.run, Keyed.find?_eq_some.mp first⟩
    · exact ⟨.project, Keyed.find?_eq_some.mp last⟩

/-- What is promoted of a record. -/
def promotedCandidate (platform : Platform) (source : MemoryRecord) : NormalizedCandidate :=
  let plain := redactedCandidate platform (toCandidate source) source.confidence
  { plain with redactions := mergeRedactions platform.localeCompare [source.redactions, plain.redactions] }

theorem findCandidate_found (readable : Readable s) (found : s.firstFound id = some source) :
    findCandidate platform id s = .ok (some (promotedCandidate platform source)) s := by
  obtain ⟨scope, stored, -⟩ := firstFound_stored found
  unfold findCandidate
  rw [bind_get, found]
  dsimp only
  rw [normalizeCandidate_record (readable scope source stored)]
  rfl

theorem findCandidate_absent (absent : s.firstFound id = none) : findCandidate platform id s = .ok none s := by
  unfold findCandidate
  rw [bind_get, absent]
  rfl

/-- The gate looks at nothing but the record. -/
theorem refusal_eq_none {target : PromotionTarget} :
    refusal gates (promotedCandidate platform source) target = none ↔ Passes gates target.scope source := by
  have confidence : (promotedCandidate platform source).confidence = source.confidence := rfl
  have validated : (promotedCandidate platform source).validated = source.validated := rfl
  have reusable : (promotedCandidate platform source).reusable = source.reusable := rfl
  cases target with
  | run =>
    dsimp only [refusal, PromotionTarget.scope, Passes]
    rw [confidence]
    split
    next less => simp [Rat.not_le.mpr less]
    next enough => simp [Rat.not_lt.mp enough]
  | project =>
    dsimp only [refusal, PromotionTarget.scope, Passes]
    rw [confidence, validated, reusable]
    split
    next less => simp [Rat.not_le.mpr less]
    next enough =>
      cases source.validated <;> cases source.reusable <;> simp [Rat.not_lt.mp enough]

/-- A fact that one redaction settled finds its id free, or its own, in every scope. -/
theorem upsert_returns (identified : Identified platform s) (readable : Readable s) {from_ : MemoryScope} (stored : source ∈ s.of from_)
    (scope : MemoryScope) (now : String) :
    ∃ record s', upsert platform scope (promotedCandidate platform source) now s = .ok record s' ∧ record ∈ s'.of scope ∧
      record.id = source.id ∧ fact platform record = fact platform source := by
  have content : (promotedCandidate platform source).content = source.content :=
    (redactedCandidate_content (toCandidate source) source.confidence).trans (identified.settled from_ source stored)
  have key : memoryKey platform (promotedCandidate platform source) = fact platform source := by
    unfold memoryKey fact
    rw [content]
    rfl
  obtain ⟨existing, found⟩ := @findExisting_returns platform (memoryKey platform (promotedCandidate platform source)) (s.of scope).rows
    fun record listed => readable scope record listed
  have named : recordId platform scope (promotedCandidate platform source) existing = source.id := by
    cases existing with
    | none => rfl
    | some first =>
      obtain ⟨member, keyed⟩ := findExisting_some found
      have same := (recordKey_settled (identified.settled scope first member) keyed).symm.trans key
      -- the session knows the fact once, so both have the id that it has there
      obtain ⟨mate, here, matched, alike⟩ := identified.staged scope first member
      obtain ⟨other, there, called, likewise⟩ := identified.staged from_ source stored
      obtain rfl := identified.once .ephemeral mate here other there (alike.trans (same.trans likewise.symm))
      exact matched.symm.trans called
  have passed : checkColliding platform scope (s.of scope) (memoryKey platform (promotedCandidate platform source)) existing
      source.id = .ok () := by
    unfold checkColliding
    cases taken : (s.of scope).find? source.id with
    | none => rfl
    | some colliding =>
      obtain ⟨member, called⟩ := Keyed.find?_eq_some.mp taken
      dsimp only
      split
      next => rfl
      next apart =>
        have alike := identified.same_fact member stored called
        obtain ⟨own, keyed⟩ := @recordKey_readable platform colliding (readable scope colliding member)
        have known := recordKey_settled (identified.settled scope colliding member) keyed
        rw [keyed]
        change (if own = _ then _ else _) = _
        rw [if_pos (known.trans (alike.trans key.symm))]
        rfl
  refine ⟨mergedRecord platform scope (promotedCandidate platform source) existing source.id now,
    s.with_ scope ((s.of scope).put (mergedRecord platform scope (promotedCandidate platform source) existing source.id now)),
    ?_, ?_, rfl, ?_⟩
  · unfold upsert
    rw [bind_get]
    dsimp only
    rw [found]
    change (do
      raise (checkColliding platform scope (s.of scope) (memoryKey platform (promotedCandidate platform source)) existing
        (recordId platform scope (promotedCandidate platform source) existing))
      modify fun scopes => scopes.with_ scope ((s.of scope).put (mergedRecord platform scope (promotedCandidate platform source) existing
        (recordId platform scope (promotedCandidate platform source) existing) now))
      return mergedRecord platform scope (promotedCandidate platform source) existing
        (recordId platform scope (promotedCandidate platform source) existing) now : MemoryM MemoryRecord) s = _
    rw [named, passed]
    rfl
  · rw [Scopes.of_with, if_pos rfl]
    exact Keyed.mem_put.mpr (.inl rfl)
  · change memoryKey platform (promotedCandidate platform source) = _
    exact key

/-- What a promotion by id does in a state: nothing where no fact has the id; else the gate of the target decides, by what is
known of the fact where it is found first, and a fact that is promoted keeps its id. -/
structure GateDecides (platform : Platform) (gates : Gates) (s : Scopes) (id : JsString) (target : Option PromotionTarget)
    (captured promoted : String) : Prop where
  unknown : s.firstFound id = none →
    promote platform gates (.staged id) target captured promoted s = .ok (.refused (.notStaged id)) s
  opened : ∀ source, s.firstFound id = some source →
    Passes gates (target.getD (if source.reusable then .project else .run)).scope source →
    ∃ record s', promote platform gates (.staged id) target captured promoted s = .ok (.promoted record) s' ∧
      record ∈ s'.of (target.getD (if source.reusable then .project else .run)).scope ∧ record.id = id ∧
      fact platform record = fact platform source
  closed : ∀ source, s.firstFound id = some source →
    ¬Passes gates (target.getD (if source.reusable then .project else .run)).scope source →
    ∃ reason, promote platform gates (.staged id) target captured promoted s = .ok (.refused reason) s

theorem promote_decided (identified : Identified platform s) (readable : Readable s) (id : JsString) (target : Option PromotionTarget)
    (captured promoted : String) : GateDecides platform gates s id target captured promoted := by
  have start : promote platform gates (.staged id) target captured promoted s = promoteStaged platform gates target promoted id s := rfl
  refine ⟨?_, ?_, ?_⟩
  · intro absent
    rw [start]
    exact bind_returned (findCandidate_absent absent)
  · intro source found passes
    obtain ⟨scope, stored, rfl⟩ := firstFound_stored found
    obtain ⟨record, last, returned, there, named, alike⟩ := upsert_returns identified readable stored
      (target.getD (if source.reusable then .project else .run)).scope promoted
    refine ⟨record, last, ?_, there, named, alike⟩
    rw [start]
    refine (bind_returned (findCandidate_found readable found)).trans ?_
    unfold promoteFound
    dsimp only
    have opened : refusal gates (promotedCandidate platform source)
        (target.getD (if (promotedCandidate platform source).reusable then .project else .run)) = none := refusal_eq_none.mpr passes
    rw [opened]
    exact map_ok.mpr ⟨record, returned, rfl⟩
  · intro source found fails
    have shut : refusal gates (promotedCandidate platform source)
        (target.getD (if (promotedCandidate platform source).reusable then .project else .run)) ≠ none :=
      fun opened => fails (refusal_eq_none.mp opened)
    obtain ⟨reason, refused⟩ := Option.ne_none_iff_exists'.mp shut
    refine ⟨reason, ?_⟩
    rw [start]
    refine (bind_returned (findCandidate_found readable found)).trans ?_
    unfold promoteFound
    dsimp only
    rw [refused]
    rfl

/-- After any captures and promotions, a promotion by id never throws: the gate of the target decides, for any id, as long as one
redaction settles each text that is captured. -/
theorem promotion_is_decided_by_its_gate (platform : Platform) (gates : Gates) (calls : List Call)
    (settled : ∀ call ∈ calls, call.Admits (SettlesAtOnce platform)) (id : JsString) (target : Option PromotionTarget)
    (captured promoted : String) :
    GateDecides platform gates (performAll (perform platform gates) calls .empty) id target captured promoted := by
  obtain ⟨identified, -⟩ := @identified_run platform gates .empty (identified_empty platform) calls settled
  have readable : Readable (performAll (perform platform gates) calls .empty) :=
    @run_keeps platform gates (SettlesAtOnce platform) .empty Readable (fun _ _ => readable_written) calls settled readable_empty
  exact promote_decided identified readable id target captured promoted

theorem sample_promotion_decided : GateDecides samplePlatform sampleGates
    (performAll (perform samplePlatform sampleGates) sampleCalls .empty) (units "memory_ephemeral:repository") none "3" "4" := by
  apply promotion_is_decided_by_its_gate
  intro call listed
  rcases List.mem_cons.mp listed with rfl | listed
  · exact sampleFact_settles.1
  · obtain rfl := List.mem_singleton.mp listed
    exact sampleFact_settles.2

end Outcomes

end OttiliCoder.Memory
