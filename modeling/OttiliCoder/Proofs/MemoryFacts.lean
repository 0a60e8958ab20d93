import OttiliCoder.Proofs.MemoryGates

/-! What a fact is to a project's memory: its category and its text. Facts keep their ids, in every scope and for
ever, and what is known of them only grows. -/

namespace OttiliCoder.Memory
open Host Relational Transaction Results

/-! Identity. -/

/-- The category and the normalized text of a record. -/
def fact (platform : Platform) (record : MemoryRecord) : JsString :=
  record.category.text ++ units ":" ++ normalizeText platform record.content

/-- A text that another redaction leaves as it is. -/
def Settled (platform : Platform) (text : JsString) : Prop := (redactSecrets platform.localeCompare text).text = text

/-- A candidate whose text is settled by one redaction. -/
def SettlesAtOnce (platform : Platform) (raw : MemoryCandidate) : Prop :=
  Settled platform (redactSecrets platform.localeCompare raw.content).text

/-- The ids of the session know all facts, and each scope has a fact once. -/
structure Identified (platform : Platform) (s : Scopes) : Prop where
  settled : ∀ scope, ∀ record ∈ s.of scope, Settled platform record.content
  once : ∀ scope, ∀ first ∈ s.of scope, ∀ second ∈ s.of scope, fact platform first = fact platform second → first = second
  staged : ∀ scope, ∀ record ∈ s.of scope, ∃ known ∈ s.ephemeral, known.id = record.id ∧ fact platform known = fact platform record

section Identity
variable {platform : Platform} {gates : Gates} {s s' : Scopes} {scope : MemoryScope} {candidate : NormalizedCandidate} {now : String}
  {existing : Option MemoryRecord} {record : MemoryRecord}

/-- One id, one fact, whatever the scopes. -/
theorem Identified.same_fact (identified : Identified platform s) {other : MemoryScope} {first second : MemoryRecord}
    (one : first ∈ s.of scope) (two : second ∈ s.of other) (same : first.id = second.id) :
    fact platform first = fact platform second := by
  obtain ⟨known, stored, named, alike⟩ := identified.staged scope first one
  obtain ⟨mate, here, called, likewise⟩ := identified.staged other second two
  obtain rfl : known = mate := Keyed.eq_of_key stored here (named.trans (same.trans called.symm))
  exact alike.symm.trans likewise

theorem recordKey_settled {key : JsString} (settled : Settled platform record.content) (keyed : recordKey platform record = .ok key) :
    key = fact platform record := by
  obtain ⟨candidate, normalized, rfl⟩ := except_map_ok.mp keyed
  obtain ⟨-, category, -, -, -, content⟩ := toCandidate_normalized normalized
  unfold memoryKey fact
  rw [category, content, settled]

/-- What a write of a settled candidate does to a scope that has each fact once. -/
structure Placed (platform : Platform) (scope : MemoryScope) (candidate : NormalizedCandidate) (s : Scopes) (record : MemoryRecord)
    (s' : Scopes) : Prop where
  stored : s' = s.with_ scope ((s.of scope).put record)
  content : record.content = candidate.content
  keyed : fact platform record = memoryKey platform candidate
  /-- A record under the same id is of the same fact, and so is only it. -/
  replaced : ∀ old ∈ s.of scope, old.id = record.id ↔ fact platform old = memoryKey platform candidate

theorem Upserted.placed (upserted : Upserted platform scope candidate now s existing record s')
    (settled : ∀ old ∈ s.of scope, Settled platform old.content)
    (once : ∀ first ∈ s.of scope, ∀ second ∈ s.of scope, fact platform first = fact platform second → first = second) :
    Placed platform scope candidate s record s' := by
  have merged := upserted.merged
  refine ⟨upserted.stored, by rw [merged]; rfl, by rw [merged]; rfl, ?_⟩
  intro old stored
  cases chosen : existing with
  | none =>
    have found := upserted.found
    rw [chosen] at found
    obtain ⟨own, keyed, apart⟩ := findExisting_none found stored
    constructor
    · intro same
      exact absurd same (Keyed.find?_eq_none.mp (upserted.free chosen) old stored)
    · intro same
      exact absurd ((recordKey_settled (settled old stored) keyed).trans same) apart
  | some first =>
    have found := upserted.found
    rw [chosen] at found
    obtain ⟨member, keyed⟩ := findExisting_some found
    have known := recordKey_settled (settled first member) keyed
    have named : record.id = first.id := by
      rw [merged, chosen]
      rfl
    constructor
    · intro same
      obtain rfl : old = first := Keyed.eq_of_key stored member (same.trans named)
      exact known.symm
    · intro same
      obtain rfl := once old stored first member (same.trans known)
      exact named.symm

/-- A record that keeps the fact of its id takes nothing from the facts that the session knows. -/
theorem Placed.identified (placed : Placed platform scope candidate s record s') (identified : Identified platform s)
    (settled : Settled platform candidate.content)
    (known : scope ≠ .ephemeral → ∃ mate ∈ s.ephemeral, mate.id = record.id ∧ fact platform mate = fact platform record) :
    Identified platform s' := by
  obtain rfl := placed.stored
  have inside : ∀ {other : MemoryScope} {row : MemoryRecord}, row ∈ (s.with_ scope ((s.of scope).put record)).of other →
      (row = record ∧ other = scope) ∨ (row ∈ s.of other ∧ (other = scope → row.id ≠ record.id)) := by
    intro other row listed
    rw [Scopes.of_with] at listed
    split at listed
    next same =>
      subst same
      rcases Keyed.mem_put.mp listed with rfl | ⟨old, apart⟩
      · exact .inl ⟨rfl, rfl⟩
      · exact .inr ⟨old, fun _ => apart⟩
    next different => exact .inr ⟨listed, fun same => absurd same.symm different⟩
  refine ⟨?_, ?_, ?_⟩
  · intro other row listed
    rcases inside listed with ⟨rfl, -⟩ | ⟨old, -⟩
    · rw [placed.content]
      exact settled
    · exact identified.settled other row old
  · intro other first one second two same
    rcases inside one with ⟨rfl, here⟩ | ⟨old, apart⟩
    · rcases inside two with ⟨rfl, -⟩ | ⟨stored, distinct⟩
      · rfl
      · subst here
        exact absurd ((placed.replaced second stored).mpr (same.symm.trans placed.keyed)) (distinct rfl)
    · rcases inside two with ⟨rfl, here⟩ | ⟨stored, -⟩
      · subst here
        exact absurd ((placed.replaced first old).mpr (same.trans placed.keyed)) (apart rfl)
      · exact identified.once other first old second stored same
  · -- the session's record of an id is either untouched or gives way to one of the same fact
    have mated : ∀ {mate row : MemoryRecord}, mate ∈ s.ephemeral → mate.id = row.id → fact platform mate = fact platform row →
        ∃ staged ∈ (s.with_ scope ((s.of scope).put record)).of .ephemeral, staged.id = row.id ∧ fact platform staged = fact platform row := by
      intro mate row stored named alike
      by_cases there : scope = .ephemeral
      · subst there
        rw [Scopes.of_with, if_pos rfl]
        by_cases same : mate.id = record.id
        · refine ⟨record, Keyed.mem_put.mpr (.inl rfl), same.symm.trans named, ?_⟩
          exact placed.keyed.trans (((placed.replaced mate stored).mp same).symm.trans alike)
        · exact ⟨mate, Keyed.mem_put.mpr (.inr ⟨stored, same⟩), named, alike⟩
      · rw [Scopes.of_with, if_neg there]
        exact ⟨mate, stored, named, alike⟩
    intro other row listed
    rcases inside listed with ⟨rfl, rfl⟩ | ⟨old, -⟩
    · by_cases there : other = .ephemeral
      · exact ⟨row, there ▸ listed, rfl, rfl⟩
      · obtain ⟨mate, stored, named, alike⟩ := known there
        exact mated stored named alike
    · obtain ⟨mate, stored, named, alike⟩ := identified.staged other row old
      exact mated stored named alike

theorem Identified.written (identified : Identified platform s) (written : Written platform gates (SettlesAtOnce platform) s s') :
    Identified platform s' := by
  cases written with
  | captured admitted normalized upserted =>
    obtain ⟨confidence, -, rfl⟩ := normalizeCandidate_ok.mp normalized
    refine (upserted.placed (identified.settled _) (identified.once _)).identified identified ?_ (fun different => absurd rfl different)
    rw [redactedCandidate_content]
    exact admitted
  | @promoted source plain candidate id target now existing record found normalized counted opened upserted =>
    obtain ⟨from_, stored, named⟩ : ∃ scope, source ∈ s.of scope ∧ source.id = id := by
      unfold Scopes.firstFound at found
      rcases Option.or_eq_some_iff.mp found with first | ⟨-, later⟩
      · exact ⟨.ephemeral, Keyed.find?_eq_some.mp first⟩
      · rcases Option.or_eq_some_iff.mp later with first | ⟨-, last⟩
        · exact ⟨.run, Keyed.find?_eq_some.mp first⟩
        · exact ⟨.project, Keyed.find?_eq_some.mp last⟩
    obtain ⟨called, category, -, -, -, content⟩ := toCandidate_normalized normalized
    have settled := identified.settled from_ source stored
    have same : plain.content = source.content := content.trans settled
    have placed := upserted.placed (identified.settled _) (identified.once _)
    have alike : memoryKey platform candidate = fact platform source := by
      rw [counted]
      unfold memoryKey fact
      rw [category, same]
    apply placed.identified identified
    · rw [counted]
      change Settled platform plain.content
      rw [same]
      exact settled
    · intro _
      have merged := upserted.merged
      cases chosen : existing with
      | none =>
        obtain ⟨mate, here, matched, likewise⟩ := identified.staged from_ source stored
        refine ⟨mate, here, ?_, likewise.trans (alike.symm.trans placed.keyed.symm)⟩
        rw [matched, merged, chosen, counted]
        unfold mergedRecord recordId
        simp [called]
      | some first =>
        have searched := upserted.found
        rw [chosen] at searched
        obtain ⟨member, keyed⟩ := findExisting_some searched
        obtain ⟨mate, here, matched, likewise⟩ := identified.staged _ first member
        have known := recordKey_settled (identified.settled _ first member) keyed
        refine ⟨mate, here, ?_, likewise.trans (known.symm.trans placed.keyed.symm)⟩
        rw [matched, merged, chosen]
        rfl

theorem identified_empty (platform : Platform) : Identified platform .empty := by
  have nothing : ∀ {scope : MemoryScope} {record : MemoryRecord}, record ∉ Scopes.empty.of scope := by
    intro scope record listed
    rw [Scopes.of_empty] at listed
    exact Keyed.not_mem_empty listed
  exact ⟨fun _ _ listed => absurd listed nothing, fun _ _ listed => absurd listed nothing, fun _ _ listed => absurd listed nothing⟩

end Identity

/-! Growth. -/

/-- How often a kind was redacted, by a list of counts. -/
def countOf (kind : JsString) (redactions : List MemoryRedaction) : Nat :=
  ((redactions.filter fun redaction => decide (redaction.kind = kind)).map (·.count)).sum

section Counts
variable {kind : JsString} {first second redactions : List MemoryRedaction}

theorem countOf_append : countOf kind (first ++ second) = countOf kind first + countOf kind second := by
  unfold countOf
  rw [List.filter_append, List.map_append, List.sum_append]

theorem countOf_perm (perm : first.Perm second) : countOf kind first = countOf kind second :=
  ((perm.filter _).map _).sum_eq

theorem countOf_sortedCounts (localeCompare : JsString → JsString → Ordering) (counts : Counts) :
    countOf kind (sortedCounts localeCompare counts) = counts.amount kind := by
  unfold sortedCounts
  rw [countOf_perm (List.perm_insertionSort _ _)]
  unfold countOf
  rw [List.filter_map, List.map_map]
  exact Amounts.sum_under counts kind

theorem amount_foldl_addCount (counts : Counts) : (redactions.foldl addCount counts).amount kind = counts.amount kind + countOf kind redactions := by
  induction redactions generalizing counts with
  | nil => rfl
  | cons redaction rest ih =>
    have own : countOf kind (redaction :: rest) = (if redaction.kind = kind then redaction.count else 0) + countOf kind rest := by
      unfold countOf
      rw [List.filter_cons]
      by_cases same : redaction.kind = kind
      · simp [same]
      · simp [same]
    have raised : (addCount counts redaction).amount kind = counts.amount kind + (if redaction.kind = kind then redaction.count else 0) := by
      unfold addCount
      rw [Amounts.amount_raise]
      split
      next same => rw [same]
      next => rfl
    rw [List.foldl_cons, ih, own, raised, Nat.add_assoc]

/-- Merging adds the counts of each kind. -/
theorem countOf_mergeRedactions (localeCompare : JsString → JsString → Ordering) :
    countOf kind (mergeRedactions localeCompare [first, second]) = countOf kind first + countOf kind second := by
  unfold mergeRedactions
  rw [countOf_sortedCounts, amount_foldl_addCount, List.flatten_cons, List.flatten_cons, List.flatten_nil, List.append_nil,
    countOf_append]
  exact Nat.zero_add _

end Counts

theorem mem_stableUnique {localeCompare : JsString → JsString → Ordering} {values : List JsString} {value : JsString} :
    value ∈ stableUnique localeCompare values ↔ ∃ given ∈ values, trim given = value ∧ value ≠ [] := by
  unfold stableUnique
  rw [List.mem_insertionSort, List.mem_eraseDups, List.mem_filter, List.mem_map, decide_eq_true_iff, List.length_pos_iff]
  constructor
  · rintro ⟨⟨given, listed, same⟩, filled⟩
    exact ⟨given, listed, same, filled⟩
  · rintro ⟨given, listed, same, filled⟩
    exact ⟨⟨given, listed, same⟩, filled⟩

/-- What is in a list that was made unique stays, whatever is added to it. -/
theorem stableUnique_keeps {localeCompare : JsString → JsString → Ordering} {values added : List JsString}
    (tidy : ∀ value ∈ values, trim value = value ∧ value ≠ []) : values ⊆ stableUnique localeCompare (values ++ added) := by
  intro value listed
  obtain ⟨trimmed, filled⟩ := tidy value listed
  rw [mem_stableUnique]
  exact ⟨value, List.mem_append_left _ listed, trimmed, filled⟩

theorem stableUnique_tidy {localeCompare : JsString → JsString → Ordering} {values : List JsString} :
    ∀ value ∈ stableUnique localeCompare values, trim value = value ∧ value ≠ [] := by
  intro value listed
  rw [mem_stableUnique] at listed
  obtain ⟨given, -, rfl, filled⟩ := listed
  exact ⟨trim_trim given, filled⟩

/-- What is known of a fact under its id has become no less. -/
structure Grows (old new : MemoryRecord) : Prop where
  id : new.id = old.id
  scope : new.scope = old.scope
  confidence : old.confidence.value ≤ new.confidence.value
  validated : old.validated = true → new.validated = true
  reusable : old.reusable = true → new.reusable = true
  source : old.source ≠ none → new.source ≠ none
  sourceEvidenceIds : old.sourceEvidenceIds ⊆ new.sourceEvidenceIds
  tags : old.tags ⊆ new.tags
  redactions : ∀ kind, countOf kind old.redactions ≤ countOf kind new.redactions
  occurrences : old.occurrences ≤ new.occurrences
  createdAt : new.createdAt = old.createdAt

theorem Grows.refl (record : MemoryRecord) : Grows record record :=
  ⟨rfl, rfl, Rat.le_refl, fun known => known, fun known => known, fun known => known, List.Subset.refl _, List.Subset.refl _, fun _ => Nat.le_refl _, Nat.le_refl _, rfl⟩

theorem Grows.trans {first second third : MemoryRecord} (one : Grows first second) (two : Grows second third) : Grows first third :=
  ⟨two.id.trans one.id, two.scope.trans one.scope, Rat.le_trans one.confidence two.confidence,
    fun known => two.validated (one.validated known), fun known => two.reusable (one.reusable known),
    fun known => two.source (one.source known), List.Subset.trans one.sourceEvidenceIds two.sourceEvidenceIds, List.Subset.trans one.tags two.tags,
    fun kind => (one.redactions kind).trans (two.redactions kind), one.occurrences.trans two.occurrences,
    two.createdAt.trans one.createdAt⟩

/-- Records stand in their scope, with lists as they are kept. -/
def Tidy (s : Scopes) : Prop := ∀ scope, ∀ record ∈ s.of scope, record.scope = scope ∧
  (∀ value ∈ record.sourceEvidenceIds, trim value = value ∧ value ≠ []) ∧ ∀ value ∈ record.tags, trim value = value ∧ value ≠ []

/-- Every record is still there, with what was known of it. -/
def Remembers (s s' : Scopes) : Prop := ∀ scope, ∀ old ∈ s.of scope, ∃ new ∈ s'.of scope, Grows old new

section Growth
variable {platform : Platform} {gates : Gates} {admits : MemoryCandidate → Prop} {s s' : Scopes} {scope : MemoryScope}
  {candidate : NormalizedCandidate} {now : String} {existing : Option MemoryRecord} {record old : MemoryRecord}

/-- Merging a candidate into a record takes nothing from it. -/
theorem grows_merged (tidy : (∀ value ∈ old.sourceEvidenceIds, trim value = value ∧ value ≠ []) ∧
    ∀ value ∈ old.tags, trim value = value ∧ value ≠ []) (here : old.scope = scope) :
    Grows old (mergedRecord platform scope candidate (some old) (recordId platform scope candidate (some old)) now) where
  id := rfl
  scope := here.symm
  confidence := Confidence.le_max_left _ _
  validated known := by simp [mergedRecord, known]
  reusable known := by simp [mergedRecord, known]
  source known := by
    unfold mergedRecord
    cases candidate.source with
    | some source => simp
    | none => exact known
  sourceEvidenceIds := stableUnique_keeps tidy.1
  tags := stableUnique_keeps tidy.2
  redactions kind := by
    unfold mergedRecord
    dsimp only
    rw [countOf_mergeRedactions]
    exact Nat.le_add_right _ _
  occurrences := Nat.le_succ _
  createdAt := rfl

theorem remembers_upserted (tidy : Tidy s) (upserted : Upserted platform scope candidate now s existing record s') :
    Tidy s' ∧ Remembers s s' := by
  obtain rfl := upserted.stored
  have merged := upserted.merged
  constructor
  · intro other row listed
    rw [Scopes.of_with] at listed
    split at listed
    next same =>
      subst same
      rcases Keyed.mem_put.mp listed with rfl | ⟨stored, -⟩
      · rw [merged]
        exact ⟨rfl, stableUnique_tidy, stableUnique_tidy⟩
      · exact tidy _ row stored
    next => exact tidy other row listed
  · intro other row stored
    rw [Scopes.of_with]
    split
    next same =>
      subst same
      by_cases named : row.id = record.id
      · refine ⟨record, Keyed.mem_put.mpr (.inl rfl), ?_⟩
        have found := upserted.found
        cases chosen : existing with
        | none => exact absurd named (Keyed.find?_eq_none.mp (upserted.free chosen) row stored)
        | some first =>
          rw [chosen] at found merged
          obtain ⟨member, -⟩ := findExisting_some found
          obtain ⟨here, lists⟩ := tidy _ first member
          obtain rfl : row = first := Keyed.eq_of_key stored member (named.trans (by rw [merged]; rfl))
          rw [merged]
          exact grows_merged lists here
      · exact ⟨row, Keyed.mem_put.mpr (.inr ⟨stored, named⟩), .refl row⟩
    next => exact ⟨row, stored, .refl row⟩

theorem remembers_written (tidy : Tidy s) (written : Written platform gates admits s s') : Tidy s' ∧ Remembers s s' := by
  cases written with
  | captured admitted normalized upserted => exact remembers_upserted tidy upserted
  | promoted found normalized counted opened upserted => exact remembers_upserted tidy upserted

theorem tidy_empty : Tidy .empty := by
  intro scope record listed
  rw [Scopes.of_empty] at listed
  exact absurd listed Keyed.not_mem_empty

/-- A run forgets nothing of what it starts with. -/
theorem remembers_run (tidy : Tidy s) {calls : List Call} (admitted : ∀ call ∈ calls, call.Admits admits) :
    Tidy (performAll (perform platform gates) calls s) ∧ Remembers s (performAll (perform platform gates) calls s) := by
  have writes : Writes platform gates admits s (performAll (perform platform gates) calls s) := run_writes admitted s
  generalize performAll (perform platform gates) calls s = last at writes
  induction writes with
  | refl => exact ⟨tidy, fun _ row stored => ⟨row, stored, .refl row⟩⟩
  | tail _ written ih =>
    obtain ⟨between, kept⟩ := ih
    obtain ⟨after, onward⟩ := remembers_written between written
    refine ⟨after, ?_⟩
    intro scope old stored
    obtain ⟨middle, here, grown⟩ := kept scope old stored
    obtain ⟨new, there, more⟩ := onward scope middle here
    exact ⟨new, there, grown.trans more⟩

end Growth

/-! Runs. -/

/-- Captures and promotions in two parts, the second after the first. In each scope a fact is there once; a record is still
there afterwards, under its id; and whoever has its id afterwards, in whatever scope, is of the same fact. -/
structure IdsDenoteFacts (platform : Platform) (s s' : Scopes) : Prop where
  once : ∀ scope, ∀ first ∈ s.of scope, ∀ second ∈ s.of scope, fact platform first = fact platform second → first = second
  stays : ∀ scope, ∀ record ∈ s.of scope, ∃ later ∈ s'.of scope, later.id = record.id
  forever : ∀ scope other, ∀ record ∈ s.of scope, ∀ later ∈ s'.of other, later.id = record.id →
    fact platform later = fact platform record

section Runs
variable {platform : Platform} {gates : Gates} {s s' : Scopes}

/-- A write leaves every id its fact. -/
theorem Identified.kept (identified : Identified platform s) (written : Written platform gates (SettlesAtOnce platform) s s') :
    ∀ known ∈ s.ephemeral, ∃ later ∈ s'.ephemeral, later.id = known.id ∧ fact platform later = fact platform known := by
  intro known stored
  have upserting : ∀ {scope : MemoryScope} {candidate : NormalizedCandidate} {now : String} {existing : Option MemoryRecord}
      {record : MemoryRecord}, Upserted platform scope candidate now s existing record s' →
      ∃ later ∈ s'.ephemeral, later.id = known.id ∧ fact platform later = fact platform known := by
    intro scope candidate now existing record upserted
    have placed := upserted.placed (identified.settled _) (identified.once _)
    obtain rfl := placed.stored
    change ∃ later ∈ (s.with_ scope ((s.of scope).put record)).of .ephemeral, _
    rw [Scopes.of_with]
    split
    next there =>
      subst there
      by_cases same : known.id = record.id
      · exact ⟨record, Keyed.mem_put.mpr (.inl rfl), same.symm, placed.keyed.trans ((placed.replaced known stored).mp same).symm⟩
      · exact ⟨known, Keyed.mem_put.mpr (.inr ⟨stored, same⟩), rfl, rfl⟩
    next => exact ⟨known, stored, rfl, rfl⟩
  cases written with
  | captured admitted normalized upserted => exact upserting upserted
  | promoted found normalized counted opened upserted => exact upserting upserted

theorem identified_run (identified : Identified platform s) {calls : List Call}
    (settled : ∀ call ∈ calls, call.Admits (SettlesAtOnce platform)) :
    Identified platform (performAll (perform platform gates) calls s) ∧
      ∀ known ∈ s.ephemeral, ∃ later ∈ (performAll (perform platform gates) calls s).ephemeral,
        later.id = known.id ∧ fact platform later = fact platform known := by
  have writes : Writes platform gates (SettlesAtOnce platform) s (performAll (perform platform gates) calls s) := run_writes settled s
  generalize performAll (perform platform gates) calls s = last at writes
  induction writes with
  | refl => exact ⟨identified, fun known stored => ⟨known, stored, rfl, rfl⟩⟩
  | tail _ written ih =>
    obtain ⟨between, kept⟩ := ih
    refine ⟨between.written written, ?_⟩
    intro known stored
    obtain ⟨middle, here, named, alike⟩ := kept known stored
    obtain ⟨later, there, called, likewise⟩ := between.kept written middle here
    exact ⟨later, there, called.trans named, likewise.trans alike⟩

/-- However facts are captured and promoted, an id denotes one fact in every scope and for ever, as long as one redaction
settles each text that is captured. -/
theorem memory_ids_denote_facts (platform : Platform) (gates : Gates) (earlier later : List Call)
    (settled : ∀ call ∈ earlier ++ later, call.Admits (SettlesAtOnce platform)) :
    IdsDenoteFacts platform (performAll (perform platform gates) earlier .empty)
      (performAll (perform platform gates) later (performAll (perform platform gates) earlier .empty)) := by
  obtain ⟨before, -⟩ := @identified_run platform gates .empty (identified_empty platform) earlier
    fun call listed => settled call (List.mem_append_left _ listed)
  obtain ⟨tidy, -⟩ := @remembers_run platform gates (SettlesAtOnce platform) .empty tidy_empty earlier
    fun call listed => settled call (List.mem_append_left _ listed)
  generalize performAll (perform platform gates) earlier .empty = s at before tidy
  obtain ⟨after, kept⟩ := @identified_run platform gates s before later
    fun call listed => settled call (List.mem_append_right _ listed)
  obtain ⟨-, remembers⟩ := @remembers_run platform gates (SettlesAtOnce platform) s tidy later
    fun call listed => settled call (List.mem_append_right _ listed)
  refine ⟨before.once, ?_, ?_⟩
  · intro scope record stored
    obtain ⟨new, there, grown⟩ := remembers scope record stored
    exact ⟨new, there, grown.id⟩
  · intro scope other record stored last there same
    obtain ⟨mate, here, named, alike⟩ := before.staged scope record stored
    obtain ⟨now, still, called, likewise⟩ := kept mate here
    have one : last.id = now.id := same.trans (named.symm.trans called.symm)
    have staged : now ∈ (performAll (perform platform gates) later s).of .ephemeral := still
    exact (after.same_fact there staged one).trans (likewise.trans alike)

/-- Nothing that is known of a fact is ever taken back, whatever is captured. -/
theorem memory_only_grows (platform : Platform) (gates : Gates) (earlier later : List Call) :
    Remembers (performAll (perform platform gates) earlier .empty)
      (performAll (perform platform gates) later (performAll (perform platform gates) earlier .empty)) := by
  have anything : ∀ calls : List Call, ∀ call ∈ calls, call.Admits fun _ => True := by
    intro calls call _
    cases call with
    | capture => trivial
    | promote promoting => cases promoting <;> trivial
  obtain ⟨tidy, -⟩ := @remembers_run platform gates (fun _ => True) .empty tidy_empty earlier (anything earlier)
  exact (@remembers_run platform gates (fun _ => True) _ tidy later (anything later)).2

end Runs

/-! A fact captured twice, and promoted. -/

def samplePlatform : Platform where
  normalize text := text
  toLowerCase := Host.toLowerCase
  localeCompare := compare
  sha256 text := text

theorem sample_bounds : (0 ≤ (1 / 2 : Rat) ∧ (1 / 2 : Rat) ≤ 1) ∧ (0 ≤ (3 / 4 : Rat) ∧ (3 / 4 : Rat) ≤ 1) ∧ (1 / 2 : Rat) ≤ 3 / 4 := by
  grind

def sampleGates : Gates := ⟨⟨1 / 2, sample_bounds.1⟩, ⟨3 / 4, sample_bounds.2.1⟩, sample_bounds.2.2⟩

def sampleFact (content : String) : MemoryCandidate :=
  { content := units content, confidence := some (.finite (4 / 5)), validated := some true, reusable := some true }

def sampleCalls : List Call := [.capture (sampleFact "Use pnpm") "1", .capture (sampleFact "use  PNPM") "2"]

theorem sampleFact_settles : SettlesAtOnce samplePlatform (sampleFact "Use pnpm") ∧ SettlesAtOnce samplePlatform (sampleFact "use  PNPM") := by
  unfold SettlesAtOnce Settled
  decide +kernel

theorem sample_ids_denote_facts : IdsDenoteFacts samplePlatform (performAll (perform samplePlatform sampleGates) sampleCalls .empty)
    (performAll (perform samplePlatform sampleGates) [.promote (.candidate (sampleFact "Use pnpm")) none "3" "4"]
      (performAll (perform samplePlatform sampleGates) sampleCalls .empty)) := by
  apply memory_ids_denote_facts
  intro call listed
  rcases List.mem_cons.mp listed with rfl | listed
  · exact sampleFact_settles.1
  · rcases List.mem_cons.mp listed with rfl | listed
    · exact sampleFact_settles.2
    · obtain rfl := List.mem_singleton.mp listed
      exact sampleFact_settles.1

end OttiliCoder.Memory
