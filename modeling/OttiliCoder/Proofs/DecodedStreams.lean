import OttiliCoder.Proofs.Streams

/-! Decoded streams: every record fits the schema it was read with, and what a decoder accepted is written again and read back
but for references and tokens that have no text. -/

namespace OttiliCoder.ContextFormat
open Host OcfSchemaRegistry Results

/-! Values. -/

/-- A value that was read for its field. -/
structure ReadFor (schema : RegisteredSchema) (field : OcfField) (value : OcfValue) : Prop where
  wellMade : WellMade value
  valid : validateFieldValue value field (fieldPath schema field) = .ok ()
  written : (∃ text, encodeValueForField value field = .ok text) ↔ References HasToken value
  shown : ∀ values, field.values = some values → value = .string (units "__proto__") → values.lookup (units "__proto__") ≠ none

section Fields
variable {schema : RegisteredSchema} {profile : OcfProfile} {record read result : OcfRecord} {field : OcfField}
  {fields : List OcfField} {parts : List SplitPart} {line : Nat} {value wire : OcfValue}

theorem encodeValueForField_sent (sent : toWireValue value field = .ok (.value wire)) :
    encodeValueForField value field = encodeValue wire := by
  unfold encodeValueForField
  rw [sent]
  rfl

theorem fromWireValue_ok (wellMade : WellMade wire) (found : fromWireValue wire field = .ok value) : WellMade value ∧
    ((∃ text, encodeValueForField value field = .ok text) ↔ References HasToken value) ∧
    ∀ values, field.values = some values → value = .string (units "__proto__") → values.lookup (units "__proto__") ≠ none := by
  unfold fromWireValue at found
  split at found
  next values text given =>
    split at found
    next entry listed =>
      cases except_pure_ok.mp found
      obtain ⟨name, mark⟩ := entry
      obtain ⟨other, known⟩ : ∃ other, values.lookup name = some other := by
        cases known : values.lookup name with
        | some other => exact ⟨other, rfl⟩
        | none => exact absurd rfl (Entries.lookup_eq_none.mp known _ (List.mem_of_find?_eq_some listed))
      have sent : toWireValue (.string name) field = .ok (.value (.string other)) := by
        simp only [toWireValue, given, tableEntry, known]
        rfl
      refine ⟨⟨.string _, .string _⟩, ⟨fun _ => .scalar rfl, fun _ => ?_⟩, ?_⟩
      · exact ⟨_, encodeValueForField_sent sent⟩
      · intro others same proto absent
        cases given.symm.trans same
        rw [← OcfValue.string.inj proto, known] at absent
        cases absent
    next => exact absurd found except_throw_ok
  next other =>
    cases except_pure_ok.mp found
    have sent : toWireValue value field = .ok (.value value) := by
      unfold toWireValue
      split
      next values text given => exact absurd rfl (other values text given)
      next => rfl
    refine ⟨wellMade, ?_, ?_⟩
    · rw [encodeValueForField_sent sent, encodeValue_iff]
      exact and_iff_right wellMade.2
    · intro values given proto
      exact absurd proto (other values _ given)

theorem decodeField_readFor {part : SplitPart} (decoded : decodeField schema line read field part = .ok result) :
    ∃ value, ReadFor schema field value ∧ result = Entries.set field.name value read := by
  unfold decodeField at decoded
  rw [placed_ok] at decoded
  obtain ⟨wire, parsed, decoded⟩ := except_bind_ok.mp decoded
  obtain ⟨value, found, decoded⟩ := except_bind_ok.mp decoded
  obtain ⟨_, valid, last⟩ := except_bind_ok.mp decoded
  obtain ⟨wellMade, written, shown⟩ := fromWireValue_ok (parseValue_wellMade parsed) found
  exact ⟨value, ⟨wellMade, valid, written, shown⟩, (except_pure_ok.mp last).symm⟩

/-- The fields that were read, beside what was read before. -/
structure ReadFields (schema : RegisteredSchema) (read result : OcfRecord) (fields : List OcfField) : Prop where
  sorted : Entries.Sorted result
  own : ∀ field ∈ fields, ∃ value, result.lookup field.name = some value ∧ ReadFor schema field value
  others : ∀ key, key ∉ fields.map (·.name) → result.lookup key = read.lookup key

theorem decodeFields_readFields (distinct : (fields.map (·.name)).Nodup) (width : parts.length = fields.length)
    (sorted : Entries.Sorted read) (decoded : decodeFields schema line read fields parts = .ok result) :
    ReadFields schema read result fields := by
  induction fields generalizing parts read with
  | nil =>
    obtain rfl := List.length_eq_zero_iff.mp width
    cases decoded
    exact ⟨sorted, fun _ member => (by cases member), fun _ _ => rfl⟩
  | cons field fields ih =>
    cases parts with
    | nil => cases width
    | cons part parts =>
      obtain ⟨fresh, distinct⟩ := List.nodup_cons.mp distinct
      obtain ⟨next, head, tail⟩ := except_bind_ok.mp decoded
      obtain ⟨value, readFor, rfl⟩ := decodeField_readFor head
      obtain ⟨kept, own, others⟩ := ih distinct (Nat.succ.inj width) (Entries.sorted_set sorted) tail
      refine ⟨kept, List.forall_mem_cons.mpr ⟨⟨value, ?_, readFor⟩, own⟩, ?_⟩
      · rw [others _ fresh, Entries.lookup_set sorted, if_pos rfl]
      · intro key absent
        rw [List.map_cons, List.mem_cons, not_or] at absent
        rw [others key absent.2, Entries.lookup_set sorted, if_neg absent.1]

end Fields

/-! Records. -/

/-- A record that a stream of the schema may hold. -/
structure WellFormedRecord (schema : RegisteredSchema) (record : OcfRecord) : Prop where
  plain : PlainRecord record
  fits : Fits schema record
  serializable : ∀ property ∈ record, Serializable property.2
  shown : ∀ field ∈ schema.fields, ¬Hidden record field

/-- Every reference in the data has a text. -/
def Writable (data : OcfData) : Prop := ∀ record ∈ data.records, ∀ property ∈ record, References HasToken property.2

section Records
variable {schema : RegisteredSchema} {profile : OcfProfile} {record : OcfRecord} {records : List OcfRecord} {field : OcfField}
  {fields : List OcfField} {source : JsString} {lines : List JsString} {line : Nat}

theorem decodeRecord_readFields (valid : ValidSchema schema) (decoded : decodeRecord schema profile source line = .ok record) :
    ReadFields schema [] record schema.fields := by
  unfold decodeRecord at decoded
  obtain ⟨parts, -, decoded⟩ := except_bind_ok.mp decoded
  simp only [check_ok] at decoded
  obtain ⟨-, width, decoded⟩ := decoded
  refine decodeFields_readFields valid.distinctNames ?_ List.Pairwise.nil decoded
  rw [List.length_tail, not_not.mp width, Nat.add_sub_cancel]

theorem ReadFields.property (fields : ReadFields schema [] record schema.fields) {property : JsString × OcfValue}
    (member : property ∈ record) : ∃ field ∈ schema.fields, field.name = property.1 ∧ ReadFor schema field property.2 := by
  have known := Entries.lookup_of_mem fields.sorted (show (property.1, property.2) ∈ record from member)
  by_cases listed : property.1 ∈ schema.fields.map (·.name)
  · obtain ⟨field, inside, named⟩ := List.mem_map.mp listed
    obtain ⟨value, found, readFor⟩ := fields.own field inside
    rw [named, known] at found
    cases found
    exact ⟨field, inside, named, readFor⟩
  · rw [fields.others _ listed] at known
    cases known

theorem ReadFields.wellFormed (fields : ReadFields schema [] record schema.fields) : WellFormedRecord schema record where
  plain := by
    refine ⟨fields.sorted, fun property member => ?_⟩
    obtain ⟨_, -, -, readFor⟩ := fields.property member
    exact readFor.wellMade.1
  fits := by
    refine ⟨fun property member => ?_, fun field listed => ?_⟩
    · obtain ⟨field, listed, named, -⟩ := fields.property member
      exact named ▸ List.mem_map_of_mem listed
    · obtain ⟨value, known, readFor⟩ := fields.own field listed
      exact ⟨value, known, readFor.valid⟩
  serializable := by
    intro property member
    obtain ⟨_, -, -, readFor⟩ := fields.property member
    exact readFor.wellMade.2
  shown := by
    intro field listed hidden
    obtain ⟨values, table, lost, absent⟩ := hidden
    obtain ⟨value, known, readFor⟩ := fields.own field listed
    rw [lost] at known
    cases known
    exact readFor.shown values table rfl absent

theorem decodeLines_readFields (valid : ValidSchema schema) (decoded : decodeLines schema profile line lines = .ok records) :
    ∀ record ∈ records, ReadFields schema [] record schema.fields := by
  induction lines generalizing line records with
  | nil =>
    cases decoded
    exact fun _ member => (by cases member)
  | cons source lines ih =>
    simp only [decodeLines, except_bind_ok, except_pure_ok] at decoded
    obtain ⟨record, one, others, rest, rfl⟩ := decoded
    exact List.forall_mem_cons.mpr ⟨decodeRecord_readFields valid one, ih rest⟩

theorem decodeData_readFields {header : DecodedHeader} {data : OcfData} (valid : ValidSchema schema)
    (decoded : decodeData schema header lines = .ok data) : ∀ record ∈ data.records, ReadFields schema [] record schema.fields := by
  obtain ⟨_, -, decoded⟩ := except_bind_ok.mp decoded
  obtain ⟨records, read, decoded⟩ := except_bind_ok.mp decoded
  have each := decodeLines_readFields valid read
  split at decoded
  next =>
    cases decoded
    exact each
  next => exact absurd decoded except_throw_ok
  next =>
    cases decoded
    exact each

/-! Encoding what was decoded. -/

theorem assertFields_fits (serializable : ∀ property ∈ record, Serializable property.2)
    (given : ∀ field ∈ fields, ∃ value, record.lookup field.name = some value ∧
      validateFieldValue value field (fieldPath schema field) = .ok ()) : assertFields schema record fields = .ok () := by
  induction fields with
  | nil => rfl
  | cons field fields ih =>
    obtain ⟨⟨value, known, valid⟩, given⟩ := List.forall_mem_cons.mp given
    have sent := (assertSerializable_ok (fieldPath schema field)).mpr (serializable _ (Entries.mem_of_lookup known))
    unfold assertFields
    rw [known]
    dsimp only
    rw [sent, valid]
    exact ih given

theorem WellFormedRecord.asserted (wellFormed : WellFormedRecord schema record) : assertRecord record schema = .ok () := by
  have named : record.find? (fun property => !(schema.fields.any fun field => field.name == property.1)) = none := by
    rw [List.find?_eq_none]
    intro property member
    simpa using wellFormed.fits.named property member
  unfold assertRecord
  rw [named]
  exact assertFields_fits wellFormed.serializable wellFormed.fits.given

theorem encodeFields_exists : (∃ texts, encodeFields schema record fields = .ok texts) ↔
    ∀ field ∈ fields, ∃ value, record.lookup field.name = some value ∧ ∃ text, encodeValueForField value field = .ok text := by
  induction fields with
  | nil => exact ⟨fun _ _ member => (by cases member), fun _ => ⟨[], rfl⟩⟩
  | cons field fields ih =>
    rw [List.forall_mem_cons, ← ih, encodeFields]
    cases known : record.lookup field.name with
    | none =>
      refine ⟨fun encoded => ?_, fun both => ?_⟩
      · obtain ⟨_, thrown⟩ := encoded
        exact absurd thrown except_throw_ok
      · obtain ⟨⟨_, same, -⟩, -⟩ := both
        cases same
    | some value =>
      simp only [except_bind_ok, except_pure_ok, Option.some.injEq, exists_eq_left']
      constructor
      · intro encoded
        obtain ⟨_, text, one, texts, rest, -⟩ := encoded
        exact ⟨⟨text, one⟩, ⟨texts, rest⟩⟩
      · intro both
        obtain ⟨⟨text, one⟩, ⟨texts, rest⟩⟩ := both
        exact ⟨_, text, one, texts, rest, rfl⟩

theorem renderRecord_exists (fields : ReadFields schema [] record schema.fields) :
    (∃ line, renderRecord schema profile record = .ok line) ↔ ∀ property ∈ record, References HasToken property.2 := by
  have each : (∃ line, renderRecord schema profile record = .ok line) ↔ ∃ texts, encodeFields schema record schema.fields = .ok texts := by
    simp only [renderRecord, except_bind_ok, except_pure_ok]
    exact ⟨fun rendered => (by obtain ⟨_, texts, one, -⟩ := rendered; exact ⟨texts, one⟩),
      fun encoded => (by obtain ⟨texts, one⟩ := encoded; exact ⟨_, texts, one, rfl⟩)⟩
  rw [each, encodeFields_exists]
  constructor
  · intro written property member
    obtain ⟨field, listed, named, readFor⟩ := fields.property member
    obtain ⟨value, known, encoded⟩ := written field listed
    rw [named, Entries.lookup_of_mem fields.sorted (show (property.1, property.2) ∈ record from member)] at known
    cases known
    exact readFor.written.mp encoded
  · intro references field listed
    obtain ⟨value, known, readFor⟩ := fields.own field listed
    exact ⟨value, known, readFor.written.mpr (references _ (Entries.mem_of_lookup known))⟩

theorem renderRecords_exists (each : ∀ record ∈ records, ReadFields schema [] record schema.fields) :
    (∃ lines, renderRecords schema profile records = .ok lines) ↔
      ∀ record ∈ records, ∀ property ∈ record, References HasToken property.2 := by
  induction records with
  | nil => exact ⟨fun _ _ member => (by cases member), fun _ => ⟨[], rfl⟩⟩
  | cons record records ih =>
    obtain ⟨first, later⟩ := List.forall_mem_cons.mp each
    rw [List.forall_mem_cons, ← ih later, ← @renderRecord_exists schema profile record first]
    simp only [renderRecords, except_bind_ok, except_pure_ok]
    constructor
    · intro rendered
      obtain ⟨_, line, one, lines, rest, -⟩ := rendered
      exact ⟨⟨line, one⟩, ⟨lines, rest⟩⟩
    · intro both
      obtain ⟨⟨line, one⟩, ⟨lines, rest⟩⟩ := both
      exact ⟨_, line, one, lines, rest, rfl⟩

end Records

section Data
variable {schema : RegisteredSchema} {data : OcfData} {registry next : OcfSchemaRegistry}

theorem encodedAs_exists (each : ∀ record ∈ data.records, ReadFields schema [] record schema.fields) (profile : OcfProfile) :
    (∃ encoded, encodedAs schema data profile = .ok encoded) ↔ Writable data := by
  rw [Writable, ← @renderRecords_exists schema profile data.records each]
  simp only [encodedAs, render, except_bind_ok, except_pure_ok]
  constructor
  · intro encoded
    obtain ⟨_, _, ⟨lines, rendered, -⟩, -⟩ := encoded
    exact ⟨lines, rendered⟩
  · intro rendered
    obtain ⟨lines, rendered⟩ := rendered
    exact ⟨_, _, ⟨lines, rendered, rfl⟩, rfl⟩

theorem forM_asserted {records : List OcfRecord} (each : ∀ record ∈ records, assertRecord record schema = .ok ()) :
    (records.forM fun record => assertRecord record schema) = .ok () := by
  induction records with
  | nil => rfl
  | cons record records ih =>
    obtain ⟨one, rest⟩ := List.forall_mem_cons.mp each
    simp only [List.forM_eq_forM, List.forM_cons, except_bind_ok]
    exact ⟨(), one, ih rest⟩

theorem encodeWith_exists (each : ∀ record ∈ data.records, ReadFields schema [] record schema.fields)
    (profile : OcfEncodingProfile) : (∃ encoded, encodeWith schema data profile = .ok encoded) ↔ Writable data := by
  have asserted := forM_asserted fun record member => (each record member).wellFormed.asserted
  unfold encodeWith
  rw [asserted]
  cases profile with
  | profile profile => exact encodedAs_exists each profile
  | adaptive =>
    show (∃ encoded, encodeAdaptively schema data = .ok encoded) ↔ Writable data
    simp only [encodeAdaptively, except_bind_ok, except_pure_ok]
    constructor
    · intro encoded
      obtain ⟨_, readable, one, -⟩ := encoded
      exact (encodedAs_exists each .readable).mp ⟨readable, one⟩
    · intro writable
      obtain ⟨readable, one⟩ := (encodedAs_exists each .readable).mpr writable
      obtain ⟨compact, two⟩ := (encodedAs_exists each .compact).mpr writable
      obtain ⟨dense, three⟩ := (encodedAs_exists each .dense).mpr writable
      exact ⟨_, readable, one, compact, two, dense, three, rfl⟩

theorem resolve_name (consistent : Consistent registry) (member : schema ∈ registry.schemas) :
    resolve (.name schema.name) registry = .ok schema registry := by
  simp only [resolve, resolveToken, byName_of_mem consistent member, Option.some_or]

theorem resolveWireToken_ok {token : JsString} (resolved : resolveWireToken token registry = .ok schema next) :
    next = registry ∧ schema ∈ registry.schemas := by
  unfold resolveWireToken at resolved
  simp only at resolved
  split at resolved
  next known found =>
    cases resolved
    refine ⟨rfl, ?_⟩
    rcases Option.or_eq_some_iff.mp found with named | ⟨-, found⟩
    · exact (byName_some named).1
    · rcases Option.or_eq_some_iff.mp found with numbered | ⟨-, identified⟩
      · split at numbered
        next => exact (byId_some numbered).1
        next => cases numbered
      · exact (byId_some identified).1
  next => cases resolved

theorem Registered.schemaFor {token : JsString} {reference : Option OcfSchemaReference} (registered : Registered registry)
    (resolved : schemaFor token reference registry = .ok schema next) : Registered next ∧ schema ∈ next.schemas := by
  cases reference with
  | none =>
    obtain ⟨rfl, member⟩ := resolveWireToken_ok resolved
    exact ⟨registered, member⟩
  | some reference => exact ⟨registered.resolved resolved, (registered.consistent.resolve resolved).2.1⟩

theorem encodeDetailed_name {profile : Option OcfEncodingProfile} {encoded : OcfEncoded} (consistent : Consistent registry)
    (member : schema ∈ registry.schemas) : encodeDetailed data (.name schema.name) profile registry = .ok encoded registry ↔
      encodeWith schema data (profile.getD .adaptive) = .ok encoded := by
  unfold encodeDetailed
  simp only [bind, EStateM.bind, resolve_name consistent member, lifted]
  cases encodeWith schema data (profile.getD .adaptive) with
  | ok value =>
    dsimp only
    rw [EStateM.Result.ok.injEq, Except.ok.injEq]
    exact and_iff_left rfl
  | error e => exact ⟨fun same => (by cases same), fun same => (by cases same)⟩

end Data

/-- The data are encoded under the name of the schema just when they are writable, and read back just when the schema has a token. -/
def Reencodes (schema : RegisteredSchema) (data : OcfData) (registry : OcfSchemaRegistry) : Prop :=
  ∀ profile : Option OcfEncodingProfile,
    ((∃ encoded, encodeDetailed data (.name schema.name) profile registry = .ok encoded registry) ↔ Writable data) ∧
    ∀ encoded, encodeDetailed data (.name schema.name) profile registry = .ok encoded registry →
      (decodeStream encoded.text (some (.name schema.name)) registry = .ok (schema, data.spelled) registry ↔
        (encoded.profile = .dense → isSchemaToken schema.id.text = true))

/-- Whatever text is decoded, its records are well formed, and they can be encoded again. -/
theorem decoded_stream_reencodes {registry next : OcfSchemaRegistry} (registered : Registered registry) (text : JsString)
    (reference : Option OcfSchemaReference) {schema : RegisteredSchema} {data : OcfData}
    (decoded : decodeStream text reference registry = .ok (schema, data) next) :
    Registered next ∧ schema ∈ next.schemas ∧ (∀ record ∈ data.records, WellFormedRecord schema record) ∧
      Reencodes schema data next := by
  obtain ⟨lines, header, -, -, resolved, given⟩ := decodeStream_ok.mp decoded
  obtain ⟨lasting, member⟩ := registered.schemaFor resolved
  have consistent := lasting.consistent
  have valid := consistent.valid schema member
  have each := decodeData_readFields valid given
  have wellFormed := fun record listed => (each record listed).wellFormed
  refine ⟨lasting, member, wellFormed, fun profile => ⟨?_, ?_⟩⟩
  · simp only [encodeDetailed_name consistent member]
    exact encodeWith_exists each (profile.getD .adaptive)
  · intro encoded accepted
    obtain ⟨fits, rendered⟩ := encodeWith_ok ((encodeDetailed_name consistent member).mp accepted)
    obtain ⟨written, records, whole⟩ := except_bind_ok.mp rendered
    rw [← except_pure_ok.mp whole,
      decodeStream_written valid (fun record listed => (wellFormed record listed).plain) fits (renderRecords_ok valid.filled records)]
    constructor
    · intro both
      exact both.1.token
    · intro token
      exact ⟨⟨token, fun record listed => (wellFormed record listed).shown⟩, resolve_name consistent member⟩

def sampleTask : RegisteredSchema := ⟨.string (units "t"), units "task", 1, sampleSchema.fields⟩

def sampleText : JsString :=
  join (unit '\n') [streamLine .compact .collection, schemaLine sampleTask .compact, units "task|\"a|b\"|d"]

theorem sampleText_decoded :
    decodeStream sampleText (some (.schema sampleSchema)) {} = .ok (sampleTask, sampleStream.data) sampleRegistry := by
  have registered : Registered sampleRegistry := @Registered.register {} sampleRegistry sampleSchema sampleTask .empty rfl
  have valid : ValidSchema sampleTask := registered.consistent.valid sampleTask (List.mem_singleton.mpr rfl)
  have fits : ∀ record ∈ sampleStream.data.records, Fits sampleTask record := @forM_assertRecord sampleTask _ () rfl
  have rendered : renderRecords sampleTask .compact sampleStream.data.records = .ok [units "task|\"a|b\"|d"] := rfl
  refine (decodeStream_written valid sampleStream.plain fits (renderRecords_ok valid.filled rendered)).mpr ⟨⟨?_, ?_⟩, rfl⟩
  · intro dense
    cases dense
  · intro record listed field inside hidden
    obtain rfl := List.mem_singleton.mp listed
    obtain ⟨values, table, lost, -⟩ := hidden
    simp only [sampleTask, sampleSchema, List.mem_cons, List.not_mem_nil, or_false] at inside
    rcases inside with rfl | rfl
    · cases table
    · have same : some (OcfValue.string (units "done")) = some (.string (units "__proto__")) := lost
      exact absurd (OcfValue.string.inj (Option.some.inj same)) (by decide)

theorem sampleText_reencodes : Registered sampleRegistry ∧ sampleTask ∈ sampleRegistry.schemas ∧
    (∀ record ∈ sampleStream.data.records, WellFormedRecord sampleTask record) ∧ Reencodes sampleTask sampleStream.data sampleRegistry :=
  decoded_stream_reencodes .empty sampleText (some (.schema sampleSchema)) sampleText_decoded

end OttiliCoder.ContextFormat
