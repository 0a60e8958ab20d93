import OttiliCoder.Proofs.StreamRecords

/-! OCF streams: what is encoded is read back, and where a stream loses its schema or a value. -/

namespace OttiliCoder.ContextFormat
open Host OcfSchemaRegistry Results

/-! Encoding. -/

section Encoding
variable {schema : RegisteredSchema} {data : OcfData} {result : OcfEncoded} {text : JsString}

theorem encodedAs_ok {profile : OcfProfile} (encoded : encodedAs schema data profile = .ok result) :
    render schema data.records result.profile data.shape = .ok result.text := by
  obtain ⟨text, rendered, whole⟩ := except_bind_ok.mp encoded
  obtain rfl := except_pure_ok.mp whole
  exact rendered

theorem firstCandidate_mem (first second third : OcfEncoded) : firstCandidate first second third ∈ [first, second, third] := by
  have perm := List.perm_insertionSort comesFirst [first, second, third]
  rw [firstCandidate]
  cases sorted : ([first, second, third] : List OcfEncoded).insertionSort comesFirst with
  | nil => exact List.mem_cons_self ..
  | cons best rest =>
    rw [sorted] at perm
    exact perm.mem_iff.mp (List.mem_cons_self ..)

theorem forM_assertRecord {records : List OcfRecord} {u : Unit}
    (asserted : (records.forM fun record => assertRecord record schema) = .ok u) : ∀ record ∈ records, Fits schema record := by
  induction records with
  | nil => exact fun _ member => (by cases member)
  | cons record records ih =>
    simp only [List.forM_eq_forM, List.forM_cons, except_bind_ok] at asserted
    obtain ⟨_, one, rest⟩ := asserted
    exact List.forall_mem_cons.mpr ⟨assertRecord_ok one, ih rest⟩

theorem encodeWith_ok {profile : OcfEncodingProfile} (encoded : encodeWith schema data profile = .ok result) :
    (∀ record ∈ data.records, Fits schema record) ∧ render schema data.records result.profile data.shape = .ok result.text := by
  obtain ⟨_, asserted, encoded⟩ := except_bind_ok.mp encoded
  refine ⟨forM_assertRecord asserted, ?_⟩
  cases profile with
  | profile profile => exact encodedAs_ok encoded
  | adaptive =>
    simp only [encodeAdaptively, except_bind_ok, except_pure_ok] at encoded
    obtain ⟨readable, one, compact, two, dense, three, rfl⟩ := encoded
    have chosen := firstCandidate_mem readable compact dense
    simp only [List.mem_cons, List.not_mem_nil, or_false] at chosen
    rcases chosen with same | same | same
    · rw [same]
      exact encodedAs_ok one
    · rw [same]
      exact encodedAs_ok two
    · rw [same]
      exact encodedAs_ok three

theorem encodeDetailed_ok {registry next : OcfSchemaRegistry} {reference : OcfSchemaReference} {profile : Option OcfEncodingProfile}
    (encoded : encodeDetailed data reference profile registry = .ok result next) :
    ∃ schema, resolve reference registry = .ok schema next ∧ encodeWith schema data (profile.getD .adaptive) = .ok result := by
  unfold encodeDetailed at encoded
  simp only [bind, EStateM.bind] at encoded
  cases resolved : resolve reference registry with
  | error e after =>
    rw [resolved] at encoded
    cases encoded
  | ok schema after =>
    rw [resolved] at encoded
    simp only [lifted] at encoded
    split at encoded
    next value found =>
      cases encoded
      exact ⟨schema, rfl, found⟩
    next => cases encoded

end Encoding

/-! Decoding. -/

def OcfData.spelled : OcfData → OcfData
  | .record single => .record (spellRecord single)
  | .collection many => .collection (many.map spellRecord)

section Decoding
variable {schema : RegisteredSchema} {data : OcfData} {text : JsString} {lines : List JsString} {profile : OcfProfile}
  {registry next : OcfSchemaRegistry} {reference : Option OcfSchemaReference} {header : DecodedHeader}

/-- The schema a stream is read with. -/
def schemaFor (token : JsString) : Option OcfSchemaReference → Registering RegisteredSchema
  | none => resolveWireToken token
  | some reference => resolve reference

theorem bind_decodeData_ok {resolving : Registering RegisteredSchema} :
    EStateM.bind resolving (fun schema => EStateM.bind (lifted (decodeData schema header lines)) fun data =>
      EStateM.pure (schema, data)) registry = .ok (schema, data) next ↔
      resolving registry = .ok schema next ∧ decodeData schema header lines = .ok data := by
  unfold EStateM.bind
  cases resolving registry with
  | error e after => exact ⟨fun same => (by cases same), fun both => (by cases both.1)⟩
  | ok found after =>
    dsimp only
    cases decoded : decodeData found header lines with
    | error e =>
      refine ⟨fun same => (by cases same), fun both => ?_⟩
      cases both.1
      rw [decoded] at both
      cases both.2
    | ok value =>
      constructor
      · intro same
        cases same
        exact ⟨rfl, decoded⟩
      · intro both
        cases both.1
        rw [decoded] at both
        cases both.2
        rfl

theorem decodeStream_ok : decodeStream text reference registry = .ok (schema, data) next ↔
    ∃ lines header, parseHeader text = .ok lines ∧ decodeHeaders lines = .ok header ∧
      schemaFor header.schemaToken reference registry = .ok schema next ∧ decodeData schema header lines = .ok data := by
  unfold decodeStream
  simp only [bind, EStateM.bind, lifted, pure]
  cases parseHeader text with
  | error e => simp
  | ok lines =>
    simp only [Except.ok.injEq, exists_and_left, exists_eq_left']
    cases decodeHeaders lines with
    | error e => simp
    | ok header =>
      simp only [Except.ok.injEq, exists_eq_left']
      cases reference with
      | none => exact bind_decodeData_ok
      | some reference => exact bind_decodeData_ok

theorem decodeData_written (profile : OcfProfile) (first second : JsString) :
    decodeData schema (headerOf schema profile data.shape) (first :: second :: lines) = .ok data.spelled ↔
      decodeLines schema profile 3 lines = .ok (data.records.map spellRecord) := by
  unfold decodeData
  rw [checkHeader_headerOf]
  cases data with
  | record single =>
    cases decoded : decodeLines schema profile 3 lines with
    | error e => simp [bind, Except.bind, headerOf, decoded]
    | ok records =>
      cases records with
      | nil => simp [bind, Except.bind, headerOf, decoded, OcfData.shape, OcfData.records]
      | cons first rest =>
        cases rest with
        | nil => simp [bind, Except.bind, pure, Except.pure, headerOf, decoded, OcfData.shape, OcfData.spelled, OcfData.records]
        | cons => simp [bind, Except.bind, headerOf, decoded, OcfData.shape, OcfData.records]
  | collection many =>
    cases decoded : decodeLines schema profile 3 lines with
    | error e => simp [bind, Except.bind, headerOf, decoded]
    | ok records => simp [bind, Except.bind, pure, Except.pure, headerOf, decoded, OcfData.shape, OcfData.spelled, OcfData.records]

theorem decodeData_token (decoded : decodeData schema header lines = .ok data) :
    header.schemaToken = schemaTokenFor schema header.profile := by
  obtain ⟨_, checked, -⟩ := except_bind_ok.mp decoded
  exact checkHeader_token checked

end Decoding

/-! There and back. -/

/-- Data as the source has them: every record is a map. -/
structure PlainData where
  data : OcfData
  plain : ∀ record ∈ data.records, PlainRecord record

/-- A stream carries its schema and all its values. -/
structure Carried (schema : RegisteredSchema) (profile : OcfProfile) (data : OcfData) : Prop where
  token : profile = .dense → isSchemaToken schema.id.text = true
  shown : ∀ record ∈ data.records, ∀ field ∈ schema.fields, ¬Hidden record field

section RoundTrip
variable {schema : RegisteredSchema} {profile : OcfProfile} {shape : OcfShape} {data : OcfData} {lines : List JsString}
  {registry next : OcfSchemaRegistry} {reference : Option OcfSchemaReference}

theorem streamLine_printable (profile : OcfProfile) (shape : OcfShape) : ∀ u ∈ streamLine profile shape, 32 ≤ u := by
  cases profile <;> cases shape <;> decide

theorem schemaLine_printable (valid : ValidSchema schema) (token : isSchemaToken (schemaTokenFor schema profile) = true) :
    ∀ u ∈ schemaLine schema profile, 32 ≤ u := by
  have digits : ∀ u ∈ natUnits schema.version, 32 ≤ u := printable_quiet fun u member => quiet_digit (natUnits_digits _ u member)
  have wires : ∀ u ∈ join (unit ',') (wireFields schema profile), 32 ≤ u :=
    all_join (32 ≤ ·) (by decide) fun wire listed => (token_quiet ((valid.wires profile).2.1 wire listed)).2
  intro u member
  simp only [schemaLine, List.mem_cons, List.mem_append] at member
  rcases member with rfl | name | rfl | digit | rfl | wire
  · decide
  · exact (token_quiet token).2 u name
  · decide
  · exact digits u digit
  · decide
  · exact wires u wire

theorem parseHeader_written (valid : ValidSchema schema) (token : isSchemaToken (schemaTokenFor schema profile) = true)
    (plain : ∀ line ∈ lines, (∀ u ∈ line, 32 ≤ u) ∧ line ≠ []) (shape : OcfShape) :
    parseHeader (join (unit '\n') (streamLine profile shape :: schemaLine schema profile :: lines)) =
      .ok (streamLine profile shape :: schemaLine schema profile :: lines) := by
  apply parseHeader_join
  · exact Nat.le_add_left 2 lines.length
  · refine List.forall_mem_cons.mpr ⟨streamLine_printable profile shape, List.forall_mem_cons.mpr ⟨schemaLine_printable valid token, ?_⟩⟩
    exact fun line listed => (plain line listed).1
  · refine List.forall_mem_cons.mpr ⟨List.cons_ne_nil _ _, List.forall_mem_cons.mpr ⟨List.cons_ne_nil _ _, ?_⟩⟩
    exact fun line listed => (plain line listed).2

/-- Whatever its token, a stream that is read back as it was written names its schema by a token. -/
theorem token_of_decoded (decoded : decodeStream (join (unit '\n') (streamLine profile shape :: schemaLine schema profile :: lines))
    reference registry = .ok (schema, data) next) : profile = .dense → isSchemaToken schema.id.text = true := by
  rintro rfl
  obtain ⟨read, header, parsed, headers, -, given⟩ := decodeStream_ok.mp decoded
  have plain : ∀ u ∈ streamLine .dense shape, u ≠ 13 := by
    intro u member same
    have visible := streamLine_printable .dense shape u member
    omega
  have whole : unit '\n' ∉ streamLine .dense shape := fun member => absurd (streamLine_printable .dense shape _ member) (by decide)
  obtain ⟨rest, rfl⟩ := parseHeader_first plain whole parsed
  obtain ⟨same, token⟩ := decodeHeaders_ok headers
  have named := decodeData_token given
  rw [same] at named
  rw [named] at token
  exact token

theorem decodeStream_written (valid : ValidSchema schema) (plain : ∀ record ∈ data.records, PlainRecord record)
    (fits : ∀ record ∈ data.records, Fits schema record) (written : List.Forall₂ (LineOf schema profile) data.records lines) :
    decodeStream (join (unit '\n') (streamLine profile data.shape :: schemaLine schema profile :: lines)) reference registry =
        .ok (schema, data.spelled) next ↔
      Carried schema profile data ∧ schemaFor (schemaTokenFor schema profile) reference registry = .ok schema next := by
  by_cases named : profile = .dense → isSchemaToken schema.id.text = true
  · have token := valid.tokenFor named
    have readable : ∀ line ∈ lines, (∀ u ∈ line, 32 ≤ u) ∧ line ≠ [] := by
      intro line listed
      obtain ⟨record, inside, one⟩ := forall₂_mem_right written listed
      exact one.printable (plain record inside) token
    rw [decodeStream_ok, parseHeader_written valid token readable]
    simp only [Except.ok.injEq, exists_and_left, exists_eq_left', decodeHeaders_written valid named, decodeData_written,
      decodeLines_lines valid plain fits token written]
    constructor
    · intro both
      exact ⟨⟨named, both.2⟩, both.1⟩
    · intro both
      exact ⟨both.2, both.1.shown⟩
  · refine ⟨fun decoded => absurd (token_of_decoded decoded) named, fun both => absurd both.1.token named⟩

theorem Registered.resolved {reference : OcfSchemaReference} (registered : Registered registry)
    (resolved : resolve reference registry = .ok schema next) : Registered next := by
  unfold resolve at resolved
  cases reference with
  | schema given =>
    dsimp only at resolved
    split at resolved
    next =>
      split at resolved
      next =>
        cases resolved
        exact registered
      next => exact .register registered resolved
    next => exact .register registered resolved
  | name value =>
    dsimp only at resolved
    split at resolved
    next =>
      cases resolved
      exact registered
    next => cases resolved
  | number value =>
    dsimp only at resolved
    split at resolved
    next =>
      cases resolved
      exact registered
    next => cases resolved

end RoundTrip

/-- What is encoded is read back under the same reference just when the stream carries it; and without a reference, just when it
also finds no other schema under its token. -/
def RoundTrips (reference : OcfSchemaReference) (data : OcfData) (encoded : OcfEncoded) (registry : OcfSchemaRegistry) : Prop :=
  ∃ schema ∈ registry.schemas, resolve reference registry = .ok schema registry ∧
    (decodeStream encoded.text (some reference) registry = .ok (schema, data.spelled) registry ↔ Carried schema encoded.profile data) ∧
    (decodeStream encoded.text none registry = .ok (schema, data.spelled) registry ↔
      Carried schema encoded.profile data ∧ (encoded.profile = .dense → ∀ rival, ¬Clash registry schema rival))

/-- Every stream that is encoded makes its round trip, and leaves a registry that calls of `register` lead to. -/
theorem stream_round_trip {registry next : OcfSchemaRegistry} (registered : Registered registry) (plain : PlainData)
    (reference : OcfSchemaReference) (profile : Option OcfEncodingProfile) {encoded : OcfEncoded}
    (accepted : encodeDetailed plain.data reference profile registry = .ok encoded next) :
    Registered next ∧ RoundTrips reference plain.data encoded next := by
  obtain ⟨schema, resolved, written⟩ := encodeDetailed_ok accepted
  obtain ⟨consistent, member, again⟩ := registered.consistent.resolve resolved
  have valid := consistent.valid schema member
  obtain ⟨fits, rendered⟩ := encodeWith_ok written
  obtain ⟨lines, records, whole⟩ := except_bind_ok.mp rendered
  have text := except_pure_ok.mp whole
  have each := renderRecords_ok valid.filled records
  unfold RoundTrips
  rw [← text]
  refine ⟨registered.resolved resolved, schema, member, again, ?_, ?_⟩
  · rw [decodeStream_written valid plain.plain fits each]
    exact and_iff_left again
  · rw [decodeStream_written valid plain.plain fits each]
    apply and_congr_right
    intro _
    unfold schemaFor schemaTokenFor
    by_cases dense : encoded.profile = .dense
    · rw [if_pos dense]
      exact (resolveWireToken_id consistent member).trans ⟨fun alone _ => alone, fun alone => alone dense⟩
    · rw [if_neg dense]
      exact ⟨fun _ same => absurd same dense, fun _ => resolveWireToken_name consistent member⟩

def sampleSchema : OcfSchema where
  id := .string (units "t")
  name := units "task"
  fields := [{ name := units "id" }, { name := units "state", wireAlias := some (units "s"), values := some [(units "done", units "d")] }]

def sampleStream : PlainData where
  data := .collection [[(units "id", .string (units "a|b")), (units "state", .string (units "done"))]]
  plain := by
    intro record listed
    obtain rfl := List.mem_singleton.mp listed
    refine ⟨by unfold Entries.Sorted; decide, ?_⟩
    intro property member
    simp only [List.mem_cons, List.not_mem_nil, or_false] at member
    rcases member with rfl | rfl
    · exact .string _
    · exact .string _

def sampleRegistry : OcfSchemaRegistry := ⟨[⟨.string (units "t"), units "task", 1, sampleSchema.fields⟩]⟩

theorem sampleStream_round_trip : Registered sampleRegistry ∧ RoundTrips (.schema sampleSchema) sampleStream.data
    ⟨units "!ocf/1|compact|collection\n@task/1=id,s\ntask|\"a|b\"|d", .compact, 28⟩ sampleRegistry :=
  stream_round_trip .empty sampleStream (.schema sampleSchema) none rfl

end OttiliCoder.ContextFormat
