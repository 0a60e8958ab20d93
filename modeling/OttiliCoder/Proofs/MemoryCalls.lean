import OttiliCoder.Context.Memory
import OttiliCoder.Library.Handlers
import OttiliCoder.Library.Reached
import OttiliCoder.Library.Results

/-! What the calls of a project's memory write. A call writes one record after the other, and each write is of one
kind: the record of a normalized candidate takes the place of the record with its key, or a free id. -/

namespace OttiliCoder.Memory
open Host Relational Transaction Results

/-! Scopes. -/

namespace Scopes
variable {scopes : Scopes} {records : Records} {scope other : MemoryScope}

@[simp] theorem of_with (scopes : Scopes) (scope other : MemoryScope) (records : Records) :
    (scopes.with_ scope records).of other = if scope = other then records else scopes.of other := by
  cases scope <;> cases other <;> rfl

@[simp] theorem of_empty (scope : MemoryScope) : empty.of scope = Keyed.empty := by
  cases scope <;> rfl

end Scopes

section Raising
variable {α : Type} {outcome : Checking α} {value : α} {s s' : Scopes}

theorem raise_ok : raise outcome s = .ok value s' ↔ outcome = .ok value ∧ s' = s := by
  cases outcome with
  | ok given =>
    rw [raise, pure_ok]
    simp [eq_comm]
  | error failure =>
    unfold raise
    simp

theorem raise_reads (outcome : Checking α) : ReadOnly (raise outcome) := by
  cases outcome with
  | ok given => exact ReadOnly.pure given
  | error failure => exact ReadOnly.throw failure

end Raising

/-! Candidates. -/

section Candidates
variable {platform : Platform} {raw : MemoryCandidate} {candidate : NormalizedCandidate} {record : MemoryRecord}

theorem Confidence.ext {first second : Confidence} (same : first.value = second.value) : first = second := by
  cases first
  cases second
  cases same
  rfl

theorem validateConfidence_ok {value : Number} {label : String} {confidence : Confidence}
    (valid : validateConfidence value label = .ok confidence) : value = .finite confidence.value := by
  unfold validateConfidence at valid
  split at valid
  next number =>
    split at valid
    next bounds =>
      obtain rfl := Except.ok.inj valid
      rfl
    next => cases valid
  next => cases valid

theorem validateConfidence_value (confidence : Confidence) (label : String) :
    validateConfidence (.finite confidence.value) label = .ok confidence := by
  unfold validateConfidence
  exact dif_pos confidence.valid

/-- What has been checked of a candidate that is normalized. -/
structure Checked (raw : MemoryCandidate) (confidence : Confidence) : Prop where
  filled : blank raw.content = false
  named : raw.id.any blank = false
  confidence : raw.confidence.getD defaultConfidence = .finite confidence.value

theorem normalizeCandidate_ok : normalizeCandidate platform raw = .ok candidate ↔
    ∃ confidence, Checked raw confidence ∧ candidate = redactedCandidate platform raw confidence := by
  unfold normalizeCandidate
  constructor
  · intro normalized
    split at normalized
    next => cases normalized
    next filled =>
      split at normalized
      next => cases normalized
      next named =>
        obtain ⟨confidence, valid, made⟩ := except_bind_ok.mp normalized
        exact ⟨confidence, ⟨Bool.eq_false_iff.mpr filled, Bool.eq_false_iff.mpr named, validateConfidence_ok valid⟩,
          (except_pure_ok.mp made).symm⟩
  · rintro ⟨confidence, checked, rfl⟩
    rw [if_neg (by simp [checked.filled]), if_neg (by simp [checked.named]), checked.confidence, validateConfidence_value]
    rfl

theorem redactedCandidate_content (raw : MemoryCandidate) (confidence : Confidence) :
    (redactedCandidate platform raw confidence).content = (redactSecrets platform.localeCompare raw.content).text := by
  simp only [redactedCandidate]

theorem redactedCandidate_tags (raw : MemoryCandidate) (confidence : Confidence) :
    (redactedCandidate platform raw confidence).tags =
      stableUnique platform.localeCompare (raw.tags.map fun tag => (redactSecrets platform.localeCompare tag).text) := by
  simp only [redactedCandidate, List.map_map]
  rfl

/-- A record that is read again as a candidate is what it was, but for another redaction. -/
theorem toCandidate_normalized (normalized : normalizeCandidate platform (toCandidate record) = .ok candidate) :
    candidate.id = some record.id ∧ candidate.category = record.category ∧ candidate.confidence = record.confidence ∧
      candidate.validated = record.validated ∧ candidate.reusable = record.reusable ∧
      candidate.content = (redactSecrets platform.localeCompare record.content).text := by
  obtain ⟨confidence, checked, rfl⟩ := normalizeCandidate_ok.mp normalized
  refine ⟨rfl, rfl, ?_, rfl, rfl, redactedCandidate_content _ _⟩
  have same : record.confidence.value = confidence.value := Number.finite.inj checked.confidence
  exact Confidence.ext same.symm

end Candidates

/-! Writes. -/

section Writing
variable {platform : Platform} {gates : Gates} {scope : MemoryScope} {candidate : NormalizedCandidate} {now : String}
  {s s' : Scopes} {record : MemoryRecord}

theorem findExisting_some {key : JsString} {records : List MemoryRecord}
    (found : findExisting platform key records = .ok (some record)) : record ∈ records ∧ recordKey platform record = .ok key := by
  induction records with
  | nil => cases found
  | cons first rest ih =>
    obtain ⟨own, keyed, chosen⟩ := except_bind_ok.mp found
    split at chosen
    next same =>
      obtain rfl := Option.some.inj (except_pure_ok.mp chosen)
      exact ⟨List.mem_cons_self, same ▸ keyed⟩
    next =>
      obtain ⟨listed, known⟩ := ih chosen
      exact ⟨List.mem_cons_of_mem _ listed, known⟩

theorem findExisting_none {key : JsString} {records : List MemoryRecord}
    (absent : findExisting platform key records = .ok none) {record : MemoryRecord} (listed : record ∈ records) :
    ∃ own, recordKey platform record = .ok own ∧ own ≠ key := by
  induction records with
  | nil => cases listed
  | cons first rest ih =>
    obtain ⟨own, keyed, chosen⟩ := except_bind_ok.mp absent
    split at chosen
    next => cases except_pure_ok.mp chosen
    next apart =>
      cases List.mem_cons.mp listed with
      | inl same => exact ⟨own, same ▸ keyed, apart⟩
      | inr later => exact ih chosen later

/-- What a call of `upsert` that returns has done. -/
structure Upserted (platform : Platform) (scope : MemoryScope) (candidate : NormalizedCandidate) (now : String) (s : Scopes)
    (existing : Option MemoryRecord) (record : MemoryRecord) (s' : Scopes) : Prop where
  found : findExisting platform (memoryKey platform candidate) (s.of scope).rows = .ok existing
  merged : record = mergedRecord platform scope candidate existing (recordId platform scope candidate existing) now
  stored : s' = s.with_ scope ((s.of scope).put record)
  free : existing = none → (s.of scope).find? record.id = none

/-- A fact that is not there yet takes a free id. -/
theorem checkColliding_free {entries : Records} {key id : JsString} (absent : findExisting platform key entries.rows = .ok none)
    (passed : checkColliding platform scope entries key none id = .ok ()) : entries.find? id = none := by
  unfold checkColliding at passed
  split at passed
  next free => exact free
  next colliding taken =>
    obtain ⟨member, -⟩ := Keyed.find?_eq_some.mp taken
    obtain ⟨own, keyed, apart⟩ := findExisting_none absent member
    rw [if_neg (by simp), keyed] at passed
    change (if own = key then _ else _) = _ at passed
    rw [if_neg apart] at passed
    cases passed

theorem upsert_ok (returned : upsert platform scope candidate now s = .ok record s') :
    ∃ existing, Upserted platform scope candidate now s existing record s' := by
  unfold upsert at returned
  rw [bind_get] at returned
  obtain ⟨existing, middle, found, returned⟩ := bind_ok.mp returned
  obtain ⟨found, rfl⟩ := raise_ok.mp found
  obtain ⟨_, last, checked, returned⟩ := bind_ok.mp returned
  obtain ⟨checked, rfl⟩ := raise_ok.mp checked
  obtain ⟨_, written, moved, ended⟩ := bind_ok.mp returned
  obtain rfl := modify_ok.mp moved
  obtain ⟨rfl, rfl⟩ := pure_ok.mp ended
  refine ⟨existing, found, rfl, rfl, ?_⟩
  rintro rfl
  exact checkColliding_free found checked

theorem upsert_failed {failure : MemoryError} (failed : upsert platform scope candidate now s = .error failure s') : s' = s := by
  unfold upsert at failed
  rw [bind_get] at failed
  rcases bind_error.mp failed with early | ⟨existing, middle, found, failed⟩
  · exact (raise_reads _).error early
  obtain ⟨-, rfl⟩ := raise_ok.mp found
  rcases bind_error.mp failed with early | ⟨_, last, checked, failed⟩
  · exact (raise_reads _).error early
  obtain ⟨-, rfl⟩ := raise_ok.mp checked
  rcases bind_error.mp failed with impossible | ⟨_, _, _, impossible⟩
  · cases impossible
  · cases impossible

end Writing

/-! Calls. -/

inductive Call where
  | capture (candidate : MemoryCandidate) (now : String)
  | promote (promoting : Promoting) (target : Option PromotionTarget) (captured promoted : String)

/-- What holds of the candidate that a call captures, if it captures one. -/
def Call.Admits (admits : MemoryCandidate → Prop) : Call → Prop
  | .capture candidate _ => admits candidate
  | .promote (.candidate candidate) _ _ _ => admits candidate
  | .promote (.staged _) _ _ _ => True

/-- The maps after a call, whether it returns or throws. -/
def perform (platform : Platform) (gates : Gates) : Call → Scopes → Scopes
  | .capture candidate now => after (capture platform candidate now)
  | .promote promoting target captured promoted => after (promote platform gates promoting target captured promoted)

/-- One write: a capture of an admitted candidate, or a promotion of a fact that is there through an open gate. -/
inductive Written (platform : Platform) (gates : Gates) (admits : MemoryCandidate → Prop) (s s' : Scopes) : Prop where
  | captured {raw : MemoryCandidate} {candidate : NormalizedCandidate} {now : String} {existing : Option MemoryRecord}
      {record : MemoryRecord} (admitted : admits raw) (normalized : normalizeCandidate platform raw = .ok candidate)
      (upserted : Upserted platform .ephemeral candidate now s existing record s')
  | promoted {source : MemoryRecord} {plain candidate : NormalizedCandidate} {id : JsString} {target : PromotionTarget} {now : String}
      {existing : Option MemoryRecord} {record : MemoryRecord} (found : s.firstFound id = some source)
      (normalized : normalizeCandidate platform (toCandidate source) = .ok plain)
      (counted : candidate = { plain with
        redactions := mergeRedactions platform.localeCompare [source.redactions, plain.redactions] })
      (opened : refusal gates candidate target = none)
      (upserted : Upserted platform target.scope candidate now s existing record s')

/-- Any number of writes. -/
abbrev Writes (platform : Platform) (gates : Gates) (admits : MemoryCandidate → Prop) : Scopes → Scopes → Prop :=
  Relation.ReflTransGen (Written platform gates admits)

section Calls
variable {platform : Platform} {gates : Gates} {admits : MemoryCandidate → Prop} {s s' : Scopes}

theorem capture_writes {raw : MemoryCandidate} (admitted : admits raw) (now : String) (s : Scopes) :
    Within (Writes platform gates admits) (capture platform raw now) s := by
  apply Within.read (raise_reads _)
  intro candidate normalized
  obtain ⟨normalized, -⟩ := raise_ok.mp normalized
  unfold Within
  cases outcome : upsert platform .ephemeral candidate now s with
  | ok record last =>
    obtain ⟨existing, upserted⟩ := upsert_ok outcome
    rw [after_ok outcome]
    exact .single (.captured admitted normalized upserted)
  | error failure last =>
    rw [after_error outcome, upsert_failed outcome]

theorem findCandidate_ok {id : JsString} {outcome : Option NormalizedCandidate}
    (returned : findCandidate platform id s = .ok outcome s') : s' = s ∧
      ∀ candidate, outcome = some candidate → ∃ source plain, s.firstFound id = some source ∧
        normalizeCandidate platform (toCandidate source) = .ok plain ∧
        candidate = { plain with redactions := mergeRedactions platform.localeCompare [source.redactions, plain.redactions] } := by
  unfold findCandidate at returned
  rw [bind_get] at returned
  cases found : s.firstFound id with
  | some source =>
    rw [found] at returned
    obtain ⟨plain, middle, read, ended⟩ := bind_ok.mp returned
    obtain ⟨normalized, rfl⟩ := raise_ok.mp read
    obtain ⟨rfl, rfl⟩ := pure_ok.mp ended
    refine ⟨rfl, ?_⟩
    rintro candidate same
    exact ⟨source, plain, rfl, normalized, (Option.some.inj same).symm⟩
  | none =>
    rw [found] at returned
    obtain ⟨rfl, rfl⟩ := pure_ok.mp returned
    refine ⟨rfl, ?_⟩
    rintro candidate impossible
    cases impossible

theorem findCandidate_reads (id : JsString) : ReadOnly (findCandidate platform id) := by
  unfold findCandidate
  apply ReadOnly.get.bind
  intro s
  split
  next =>
    apply (raise_reads _).bind
    exact fun _ => ReadOnly.pure _
  next => exact ReadOnly.pure _

theorem promoteFound_ok {id : JsString} {target : Option PromotionTarget} {now : String} {candidate : NormalizedCandidate}
    {result : MemoryPromotionResult} (returned : promoteFound platform gates id target now (some candidate) s = .ok result s') :
    (∃ reason, result = .refused reason ∧ s' = s) ∨
      ∃ chosen existing record, refusal gates candidate chosen = none ∧ result = .promoted record ∧
        Upserted platform chosen.scope candidate now s existing record s' := by
  unfold promoteFound at returned
  dsimp only at returned
  cases closed : refusal gates candidate (target.getD (if candidate.reusable then .project else .run)) with
  | some reason =>
    rw [closed] at returned
    obtain ⟨rfl, rfl⟩ := pure_ok.mp returned
    exact .inl ⟨reason, rfl, rfl⟩
  | none =>
    rw [closed] at returned
    obtain ⟨record, stored, rfl⟩ := map_ok.mp returned
    obtain ⟨existing, upserted⟩ := upsert_ok stored
    exact .inr ⟨_, existing, record, closed, rfl, upserted⟩

theorem promoteFound_failed {id : JsString} {target : Option PromotionTarget} {now : String} {found : Option NormalizedCandidate}
    {failure : MemoryError} (failed : promoteFound platform gates id target now found s = .error failure s') : s' = s := by
  cases found with
  | none => cases failed
  | some candidate =>
    unfold promoteFound at failed
    dsimp only at failed
    cases closed : refusal gates candidate (target.getD (if candidate.reusable then .project else .run)) with
    | some reason =>
      rw [closed] at failed
      cases failed
    | none =>
      rw [closed] at failed
      exact upsert_failed (map_failed.mp failed)

/-- The promotion of what is found under an id. -/
def promoteStaged (platform : Platform) (gates : Gates) (target : Option PromotionTarget) (now : String) (id : JsString) :
    MemoryM MemoryPromotionResult :=
  findCandidate platform id >>= promoteFound platform gates id target now

theorem promoteStaged_writes (target : Option PromotionTarget) (now : String) (id : JsString) (s : Scopes) :
    Within (Writes platform gates admits) (promoteStaged platform gates target now id) s := by
  apply Within.read (findCandidate_reads id)
  intro found read
  obtain ⟨-, sources⟩ := findCandidate_ok read
  cases found with
  | none => exact Within.pure _
  | some candidate =>
    obtain ⟨source, plain, first, normalized, counted⟩ := sources candidate rfl
    unfold Within
    cases outcome : promoteFound platform gates id target now (some candidate) s with
    | ok result last =>
      rw [after_ok outcome]
      rcases promoteFound_ok outcome with ⟨_, _, rfl⟩ | ⟨_, _, _, opened, _, upserted⟩
      · exact .refl
      · exact .single (.promoted first normalized counted opened upserted)
    | error failure last => rw [after_error outcome, promoteFound_failed outcome]

/-- A call performs writes, and those of a refused promotion or of a call that throws stay among them. -/
theorem perform_writes {call : Call} (admitted : call.Admits admits) (s : Scopes) :
    Writes platform gates admits s (perform platform gates call s) := by
  cases call with
  | capture candidate now => exact capture_writes admitted now s
  | promote promoting target captured promoted =>
    cases promoting with
    | staged id => exact promoteStaged_writes target promoted id s
    | candidate candidate =>
      have first : Within (Writes platform gates admits) ((·.id) <$> capture platform candidate captured) s :=
        (capture_writes admitted captured s).map _
      exact first.bind fun id middle _ => promoteStaged_writes target promoted id middle

theorem run_writes {calls : List Call} (admitted : ∀ call ∈ calls, call.Admits admits) (s : Scopes) :
    Writes platform gates admits s (performAll (perform platform gates) calls s) := by
  induction calls generalizing s with
  | nil => exact .refl
  | cons call rest ih =>
    have first : Writes platform gates admits s (perform platform gates call s) :=
      perform_writes (admitted call List.mem_cons_self) s
    exact first.trans (ih (fun other listed => admitted other (List.mem_cons_of_mem _ listed)) _)

/-- What every write keeps is kept by every run. -/
theorem run_keeps {inv : Scopes → Prop} (kept : ∀ s s', inv s → Written platform gates admits s s' → inv s')
    {calls : List Call} (admitted : ∀ call ∈ calls, call.Admits admits) (initial : inv s) :
    inv (performAll (perform platform gates) calls s) := by
  have writes : Writes platform gates admits s (performAll (perform platform gates) calls s) := run_writes admitted s
  generalize performAll (perform platform gates) calls s = last at writes
  induction writes with
  | refl => exact initial
  | tail _ written ih => exact kept _ _ ih written

end Calls

end OttiliCoder.Memory
