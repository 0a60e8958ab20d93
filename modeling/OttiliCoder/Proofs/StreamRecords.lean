import OttiliCoder.Proofs.StreamHeaders

/-! The records of an OCF stream: every field comes back with the value it had, but for the one name that a table takes for the
prototype of objects. -/

namespace OttiliCoder.ContextFormat
open Host OcfSchemaRegistry Results

/-! A value on its way there and back. -/

/-- What comes back for a value: a table without an entry for the name of the prototype takes that name for an empty object. -/
def returned (field : OcfField) (value : OcfValue) : OcfValue :=
  match field.values, value with
  | some values, .string text => if text = units "__proto__" ∧ values.lookup text = none then .object [] else .string text
  | _, value => spell value

/-- The field is lost on the way. -/
def Hidden (record : OcfRecord) (field : OcfField) : Prop :=
  ∃ values, field.values = some values ∧ record.lookup field.name = some (.string (units "__proto__")) ∧
    values.lookup (units "__proto__") = none

section Values
variable {value wire : OcfValue} {field : OcfField} {text : JsString}

theorem isScalar_spell (value : OcfValue) : (spell value).isScalar = value.isScalar := by cases value <;> rfl

theorem spell_string {name : JsString} (same : spell value = .string name) : value = .string name := by
  cases value with
  | array | object => cases same
  | _ => exact same

theorem spell_number {number : JsNumber} (same : spell value = .number number) : value = .number number := by
  cases value with
  | array | object => cases same
  | _ => exact same

theorem isReference_spell (value : OcfValue) : isReference (spell value) = isReference value := by
  cases value with
  | null | boolean | number | bigint | string => rfl
  | array items => rfl
  | object properties =>
    cases reference : isReference (.object properties) with
    | true =>
      obtain ⟨schema, id, rfl, scalar, -⟩ := isReference_iff.mp reference
      rw [spell, if_pos reference, spellReference]
      exact isReference_iff.mpr ⟨_, _, rfl, scalar, .inl ⟨_, rfl⟩⟩
    | false =>
      rw [spell, if_neg (by simp [reference]), spellProperties_eq]
      by_contra other
      obtain ⟨schema, id, shape, scalar, named⟩ := isReference_iff.mp ((Bool.not_eq_false _).mp other)
      obtain ⟨first, later, rfl, one, shape⟩ := List.map_eq_cons_iff.mp shape
      obtain ⟨second, last, rfl, two, shape⟩ := List.map_eq_cons_iff.mp shape
      obtain rfl := List.map_eq_nil_iff.mp shape
      obtain ⟨firstKey, firstValue⟩ := first
      obtain ⟨secondKey, secondValue⟩ := second
      obtain ⟨rfl, schemaIs⟩ := Prod.mk.inj one
      obtain ⟨rfl, rfl⟩ := Prod.mk.inj two
      have before : isReference (.object [(units "$ref", firstValue), (units "id", secondValue)]) = true := by
        refine isReference_iff.mpr ⟨_, _, rfl, isScalar_spell secondValue ▸ scalar, ?_⟩
        rcases named with ⟨name, rfl⟩ | ⟨number, rfl⟩
        · exact .inl ⟨name, spell_string schemaIs⟩
        · exact .inr ⟨number, spell_number schemaIs⟩
      rw [before] at reference
      cases reference

theorem typeMatches_spell (value : OcfValue) (type : OcfFieldType) : typeMatches (spell value) type = typeMatches value type := by
  have same := isReference_spell value
  cases type <;> cases value <;> simp only [typeMatches, same] <;> rfl

theorem validateItems_spell (itemType : OcfFieldType) (path : JsString) (index : Nat) (items : List OcfValue) :
    validateItems itemType path index (items.map spell) = validateItems itemType path index items := by
  induction items generalizing index with
  | nil => rfl
  | cons item items ih => rw [List.map_cons, validateItems, validateItems, typeMatches_spell, ih]

theorem validateFieldValue_spell (value : OcfValue) (field : OcfField) (path : JsString) :
    validateFieldValue (spell value) field path = validateFieldValue value field path := by
  have matched := typeMatches_spell value (field.type.getD .unknown)
  cases value with
  | null | boolean | number | bigint | string => rfl
  | array items =>
    have each := fun itemType => validateItems_spell itemType path 0 items
    rw [spell, spellItems_eq] at matched ⊢
    simp only [validateFieldValue, matched]
    cases field.itemType with
    | none => rfl
    | some itemType => simp only [each]
  | object properties =>
    rw [spell] at matched ⊢
    simp only [validateFieldValue, matched]

/-- What the encoder writes for a value is read back as what it returns. -/
theorem encodeValueForField_ok (ordered : Ordered value) (encoded : encodeValueForField value field = .ok text) :
    ∃ wire, toWireValue value field = .ok (.value wire) ∧ ReadBack wire text := by
  unfold encodeValueForField at encoded
  obtain ⟨found, sent, written⟩ := except_bind_ok.mp encoded
  cases found with
  | method => exact absurd written except_throw_ok
  | value wire =>
    refine ⟨wire, sent, encoded_readBack ?_ written⟩
    unfold toWireValue at sent
    split at sent
    next values text given =>
      split at sent
      next =>
        cases sent
        exact .string _
      next =>
        cases sent
        exact .object List.Pairwise.nil fun _ member => by cases member
      next => cases sent
      next => exact absurd sent except_throw_ok
    next =>
      cases sent
      exact ordered

theorem find_wire {entries : List (JsString × JsString)} (distinct : (entries.map (·.2)).Nodup) {entry : JsString × JsString}
    (inside : entry ∈ entries) : entries.find? (fun other => other.2 == entry.2) = some entry := by
  induction entries with
  | nil => cases inside
  | cons first entries ih =>
    obtain ⟨fresh, distinct⟩ := List.nodup_cons.mp distinct
    rcases List.mem_cons.mp inside with rfl | later
    · exact List.find?_cons_of_pos (beq_self_eq_true _)
    · have apart : first.2 ≠ entry.2 := fun same => fresh (List.mem_map.mpr ⟨entry, later, same.symm⟩)
      rw [List.find?_cons_of_neg (by simpa using apart)]
      exact ih distinct later

theorem fromWireValue_toWireValue (distinct : DistinctWires field) (sent : toWireValue value field = .ok (.value wire)) :
    fromWireValue (spell wire) field = .ok (returned field value) := by
  cases given : field.values with
  | none =>
    simp only [toWireValue, given] at sent
    cases sent
    simp only [fromWireValue, returned, given]
    rfl
  | some values =>
    have wires := distinct values given
    cases value with
    | string text =>
      simp only [toWireValue, given, tableEntry] at sent
      cases known : values.lookup text with
      | some entry =>
        rw [known] at sent
        cases sent
        have inside := Entries.mem_of_lookup known
        have found : values.find? (fun other => other.2 == entry) = some (text, entry) := find_wire wires inside
        have kept : ¬(text = units "__proto__" ∧ values.lookup text = none) := by simp [known]
        simp only [fromWireValue, returned, given, spell, found, if_neg kept]
        rfl
      | none =>
        rw [known] at sent
        by_cases prototype : text = units "__proto__"
        · subst prototype
          cases sent
          simp only [fromWireValue, returned, given, known, and_self, if_true]
          rfl
        · dsimp only at sent
          rw [if_neg prototype] at sent
          split at sent
          next other =>
            split at other
            next => cases other
            next => cases other
          next other =>
            split at other
            next => cases other
            next => cases other
          next => cases sent
          next => exact absurd sent except_throw_ok
    | null | boolean | number | bigint =>
      simp only [toWireValue, given] at sent
      cases sent
      simp only [fromWireValue, returned, given, spell]
      rfl
    | array | object =>
      simp only [toWireValue, given] at sent
      cases sent
      simp only [fromWireValue, returned, given, spell]
      rfl

theorem returned_eq_spell : returned field value = spell value ↔
    ¬∃ values, field.values = some values ∧ value = .string (units "__proto__") ∧ values.lookup (units "__proto__") = none := by
  unfold returned
  split
  next values text given =>
    split
    next lost =>
      obtain ⟨rfl, absent⟩ := lost
      exact ⟨fun same => (by cases same), fun kept => absurd ⟨values, given, rfl, absent⟩ kept⟩
    next kept =>
      refine ⟨?_, fun _ => rfl⟩
      intro _ lost
      obtain ⟨others, same, proto, absent⟩ := lost
      rw [given] at same
      cases same
      cases proto
      exact kept ⟨rfl, absent⟩
  next other =>
    refine ⟨?_, fun _ => rfl⟩
    intro _ lost
    obtain ⟨values, given, rfl, -⟩ := lost
    exact other values _ given rfl

end Values

/-! Records. -/

def spellRecord (record : OcfRecord) : OcfRecord := spellProperties record

/-- A record as the source has them: its properties are a map, whatever their order. -/
def PlainRecord (record : OcfRecord) : Prop := Entries.Sorted record ∧ ∀ property ∈ record, Ordered property.2

/-- The fields of a record on their way back, beside those read before. -/
def restore (record : OcfRecord) (read : OcfRecord) : List OcfField → OcfRecord
  | [] => read
  | field :: fields =>
    restore record (Entries.set field.name (returned field ((record.lookup field.name).getD .null)) read) fields

/-- The text stands for the field of the record. -/
def Writes (record : OcfRecord) (field : OcfField) (text : JsString) : Prop :=
  ∃ value, record.lookup field.name = some value ∧ encodeValueForField value field = .ok text

section Records
variable {schema : RegisteredSchema} {profile : OcfProfile} {record read result : OcfRecord} {field : OcfField}
  {fields : List OcfField} {texts : List JsString} {parts : List SplitPart} {line : Nat}

theorem lookup_spellProperties (record : OcfRecord) (key : JsString) :
    (spellProperties record).lookup key = (record.lookup key).map spell := by
  induction record with
  | nil => rfl
  | cons property record ih =>
    obtain ⟨name, value⟩ := property
    rw [spellProperties, List.lookup_cons, List.lookup_cons, ih]
    cases key == name <;> rfl

theorem sorted_spellProperties (sorted : Entries.Sorted record) : Entries.Sorted (spellProperties record) := by
  rw [spellProperties_eq]
  exact List.pairwise_map.mpr sorted

theorem placed_ok {α : Type} {column : Nat} {outcome : Except OcfError α} {value : α} :
    placed line column outcome = .ok value ↔ outcome = .ok value := by
  cases outcome with
  | ok found => exact Iff.rfl
  | error e => cases e <;> simp [placed]

/-- Whether the value that comes back is taken for its field. -/
def Taken (schema : RegisteredSchema) (record : OcfRecord) (field : OcfField) : Prop :=
  validateFieldValue (returned field ((record.lookup field.name).getD .null)) field (fieldPath schema field) = .ok ()

theorem decodeField_ok (distinct : DistinctWires field) (plain : PlainRecord record) {part : SplitPart}
    (written : Writes record field part.text) : decodeField schema line read field part = .ok result ↔
      Taken schema record field ∧ result = Entries.set field.name (returned field ((record.lookup field.name).getD .null)) read := by
  obtain ⟨value, known, encoded⟩ := written
  have ordered := plain.2 _ (Entries.mem_of_lookup known)
  obtain ⟨wire, sent, back⟩ := encodeValueForField_ok ordered encoded
  have parsed := back.parsed line (part.offset + 1)
  have returns := fromWireValue_toWireValue distinct sent
  unfold decodeField Taken
  rw [placed_ok, parsed, known]
  simp only [except_bind_ok, except_pure_ok, Except.ok.injEq, exists_eq_left', returns, Option.getD_some]
  constructor
  · intro accepted
    obtain ⟨_, valid, same⟩ := accepted
    exact ⟨valid, same.symm⟩
  · intro accepted
    exact ⟨(), accepted.1, accepted.2.symm⟩

theorem decodeFields_ok (distinct : ∀ field ∈ fields, DistinctWires field) (plain : PlainRecord record)
    (written : List.Forall₂ (Writes record) fields texts) (same : parts.map (·.text) = texts) :
    decodeFields schema line read fields parts = .ok result ↔
      (∀ field ∈ fields, Taken schema record field) ∧ result = restore record read fields := by
  induction written generalizing parts read with
  | nil =>
    obtain rfl := List.map_eq_nil_iff.mp same
    rw [decodeFields, except_pure_ok, restore]
    · exact ⟨fun same => ⟨fun _ member => (by cases member), same.symm⟩, fun both => both.2.symm⟩
    · intro _ _ _ _ shape
      cases shape
  | @cons field text fields texts one rest ih =>
    obtain ⟨part, parts, rfl, rfl, cut⟩ := List.map_eq_cons_iff.mp same
    have wires := distinct field (List.mem_cons_self ..)
    have others : ∀ other ∈ fields, DistinctWires other := fun other member => distinct other (List.mem_cons_of_mem _ member)
    rw [decodeFields, except_bind_ok, restore, List.forall_mem_cons]
    constructor
    · intro decoded
      obtain ⟨next, head, tail⟩ := decoded
      obtain ⟨valid, rfl⟩ := (decodeField_ok wires plain one).mp head
      obtain ⟨each, restored⟩ := (ih others cut).mp tail
      exact ⟨⟨valid, each⟩, restored⟩
    · intro taken
      obtain ⟨⟨valid, each⟩, restored⟩ := taken
      exact ⟨_, (decodeField_ok wires plain one).mpr ⟨valid, rfl⟩, (ih others cut).mpr ⟨each, restored⟩⟩

/-- What is known of a record that is restored, beside what was read before. -/
structure Restored (record read result : OcfRecord) (fields : List OcfField) : Prop where
  sorted : Entries.Sorted result
  own : ∀ field ∈ fields, result.lookup field.name = some (returned field ((record.lookup field.name).getD .null))
  others : ∀ key, key ∉ fields.map (·.name) → result.lookup key = read.lookup key

theorem restore_restored (distinct : (fields.map (·.name)).Nodup) (sorted : Entries.Sorted read) :
    Restored record read (restore record read fields) fields := by
  induction fields generalizing read with
  | nil => exact ⟨sorted, fun _ member => (by cases member), fun _ _ => rfl⟩
  | cons field fields ih =>
    obtain ⟨fresh, distinct⟩ := List.nodup_cons.mp distinct
    obtain ⟨kept, own, others⟩ := ih distinct
      (@Entries.sorted_set _ _ _ field.name (returned field ((record.lookup field.name).getD .null)) read sorted)
    refine ⟨kept, ?_, ?_⟩
    · intro other listed
      rcases List.mem_cons.mp listed with rfl | later
      · rw [restore, others _ fresh, Entries.lookup_set sorted, if_pos rfl]
      · exact own other later
    · intro key absent
      rw [List.map_cons, List.mem_cons, not_or] at absent
      rw [restore, others key absent.2, Entries.lookup_set sorted, if_neg absent.1]

/-- A record with just the fields of the schema. -/
structure Fits (schema : RegisteredSchema) (record : OcfRecord) : Prop where
  named : ∀ property ∈ record, property.1 ∈ schema.fields.map (·.name)
  given : ∀ field ∈ schema.fields, ∃ value, record.lookup field.name = some value ∧
    validateFieldValue value field (fieldPath schema field) = .ok ()

theorem assertFields_ok {u : Unit} (asserted : assertFields schema record fields = .ok u) : ∀ field ∈ fields,
    ∃ value, record.lookup field.name = some value ∧ validateFieldValue value field (fieldPath schema field) = .ok () := by
  induction fields with
  | nil => exact fun _ member => (by cases member)
  | cons field fields ih =>
    unfold assertFields at asserted
    cases known : record.lookup field.name with
    | none =>
      rw [known] at asserted
      exact absurd asserted except_throw_ok
    | some value =>
      rw [known] at asserted
      obtain ⟨_, -, asserted⟩ := except_bind_ok.mp asserted
      obtain ⟨_, valid, asserted⟩ := except_bind_ok.mp asserted
      exact List.forall_mem_cons.mpr ⟨⟨value, known, valid⟩, ih asserted⟩

theorem assertRecord_ok {u : Unit} (asserted : assertRecord record schema = .ok u) : Fits schema record := by
  unfold assertRecord at asserted
  split at asserted
  next => exact absurd asserted except_throw_ok
  next known =>
    refine ⟨?_, assertFields_ok asserted⟩
    intro property member
    have inside := List.find?_eq_none.mp known property member
    simpa using inside

/-- The fields of a record come back as they were when none is hidden. -/
theorem restore_eq (valid : ValidSchema schema) (plain : PlainRecord record) (fits : Fits schema record) :
    restore record [] schema.fields = spellRecord record ↔ ∀ field ∈ schema.fields, ¬Hidden record field := by
  have restored := @restore_restored record [] schema.fields valid.distinctNames List.Pairwise.nil
  have value : ∀ field ∈ schema.fields, (spellRecord record).lookup field.name = some (spell ((record.lookup field.name).getD .null)) := by
    intro field listed
    obtain ⟨value, known, -⟩ := fits.given field listed
    rw [spellRecord, lookup_spellProperties, known]
    rfl
  constructor
  · intro same field listed hidden
    have own := restored.own field listed
    obtain ⟨values, table, known, absent⟩ := hidden
    rw [same, value field listed, known, Option.some.injEq] at own
    exact returned_eq_spell.mp own.symm ⟨values, table, rfl, absent⟩
  · intro shown
    refine Entries.ext restored.sorted (sorted_spellProperties plain.1) fun key => ?_
    by_cases listed : key ∈ schema.fields.map (·.name)
    · obtain ⟨field, inside, rfl⟩ := List.mem_map.mp listed
      obtain ⟨found, known, -⟩ := fits.given field inside
      rw [restored.own field inside, value field inside, Option.some.injEq]
      refine returned_eq_spell.mpr fun lost => ?_
      obtain ⟨values, table, proto, absent⟩ := lost
      rw [known, Option.getD_some] at proto
      exact shown field inside ⟨values, table, proto ▸ known, absent⟩
    · rw [restored.others key listed, spellRecord, lookup_spellProperties]
      have missing : record.lookup key = none := by
        refine Entries.lookup_eq_none.mpr fun property member same => ?_
        exact listed (same ▸ fits.named property member)
      rw [missing]
      rfl

theorem taken_of_shown (fits : Fits schema record) (listed : field ∈ schema.fields) (shown : ¬Hidden record field) :
    Taken schema record field := by
  obtain ⟨value, known, valid⟩ := fits.given field listed
  have back : returned field value = spell value := by
    refine returned_eq_spell.mpr fun lost => ?_
    obtain ⟨values, table, rfl, absent⟩ := lost
    exact shown ⟨values, table, known, absent⟩
  rw [Taken, known, Option.getD_some, back, validateFieldValue_spell, valid]

end Records

/-! Lines of records. -/

section RecordLines
variable {schema : RegisteredSchema} {profile : OcfProfile} {record : OcfRecord} {records : List OcfRecord}
  {fields : List OcfField} {texts lines : List JsString} {line : JsString} {number : Nat}

theorem encodeFields_ok (encoded : encodeFields schema record fields = .ok texts) : List.Forall₂ (Writes record) fields texts := by
  induction fields generalizing texts with
  | nil =>
    cases encoded
    exact .nil
  | cons field fields ih =>
    unfold encodeFields at encoded
    cases known : record.lookup field.name with
    | none =>
      rw [known] at encoded
      exact absurd encoded except_throw_ok
    | some value =>
      rw [known] at encoded
      simp only [except_bind_ok, except_pure_ok] at encoded
      obtain ⟨text, one, others, rest, rfl⟩ := encoded
      exact .cons ⟨value, known, one⟩ (ih rest)

/-- A line is the token and the texts of the fields. -/
def LineOf (schema : RegisteredSchema) (profile : OcfProfile) (record : OcfRecord) (line : JsString) : Prop :=
  ∃ texts, List.Forall₂ (Writes record) schema.fields texts ∧ line = join (unit '|') (schemaTokenFor schema profile :: texts)

theorem renderRecord_ok (filled : schema.fields ≠ []) (rendered : renderRecord schema profile record = .ok line) :
    LineOf schema profile record line := by
  obtain ⟨texts, encoded, whole⟩ := except_bind_ok.mp rendered
  obtain rfl := except_pure_ok.mp whole
  have written := encodeFields_ok encoded
  have some : texts ≠ [] := by
    rintro rfl
    exact filled (List.forall₂_nil_right_iff.mp written)
  obtain ⟨first, rest, rfl⟩ := List.exists_cons_of_ne_nil some
  exact ⟨_, written, rfl⟩

theorem renderRecords_ok (filled : schema.fields ≠ []) (rendered : renderRecords schema profile records = .ok lines) :
    List.Forall₂ (LineOf schema profile) records lines := by
  induction records generalizing lines with
  | nil =>
    cases rendered
    exact .nil
  | cons record records ih =>
    simp only [renderRecords, except_bind_ok, except_pure_ok] at rendered
    obtain ⟨line, one, others, rest, rfl⟩ := rendered
    exact .cons (renderRecord_ok filled one) (ih rest)

/-- What the text of a field may stand next to. -/
theorem Writes.readable {field : OcfField} {text : JsString} (plain : PlainRecord record) (written : Writes record field text) :
    Solid (unit '|') text ∧ ∀ u ∈ text, 32 ≤ u := by
  obtain ⟨value, known, encoded⟩ := written
  obtain ⟨wire, -, back⟩ := encodeValueForField_ok (plain.2 _ (Entries.mem_of_lookup known)) encoded
  exact ⟨back.solid _ (.inr rfl), back.printable⟩

theorem token_quiet {token : JsString} (valid : isSchemaToken token = true) : Solid (unit '|') token ∧ ∀ u ∈ token, 32 ≤ u := by
  have quiet := fun u member => (quiet_token valid u member).1
  exact ⟨solid_quiet quiet _ (.inr rfl), printable_quiet quiet⟩

theorem LineOf.printable (plain : PlainRecord record) (token : isSchemaToken (schemaTokenFor schema profile) = true)
    (written : LineOf schema profile record line) : (∀ u ∈ line, 32 ≤ u) ∧ line ≠ [] := by
  obtain ⟨texts, each, rfl⟩ := written
  have texts32 : ∀ text ∈ schemaTokenFor schema profile :: texts, ∀ u ∈ text, 32 ≤ u := by
    intro text listed
    rcases List.mem_cons.mp listed with rfl | later
    · exact (token_quiet token).2
    · obtain ⟨field, -, one⟩ := forall₂_mem_right each later
      exact (one.readable plain).2
  refine ⟨all_join (32 ≤ ·) (by decide) texts32, ?_⟩
  obtain ⟨u, rest, whole⟩ := List.exists_cons_of_ne_nil (token_filled token)
  rw [join, whole]
  cases texts with
  | nil => exact List.cons_ne_nil _ _
  | cons => exact List.cons_ne_nil _ _

/-- A line of a record is read back, as the record itself exactly when no field of it is hidden. -/
theorem decodeRecord_line (valid : ValidSchema schema) (plain : PlainRecord record) (fits : Fits schema record)
    (token : isSchemaToken (schemaTokenFor schema profile) = true) (written : LineOf schema profile record line) :
    decodeRecord schema profile line number = .ok (spellRecord record) ↔ ∀ field ∈ schema.fields, ¬Hidden record field := by
  obtain ⟨texts, each, rfl⟩ := written
  have solid : ∀ text ∈ schemaTokenFor schema profile :: texts, Solid (unit '|') text := by
    intro text listed
    rcases List.mem_cons.mp listed with rfl | later
    · exact (token_quiet token).1
    · obtain ⟨field, -, one⟩ := forall₂_mem_right each later
      exact (one.readable plain).1
  obtain ⟨parts, split, cut⟩ := splitParts_join (by decide : Plain (unit '|')) (List.cons_ne_nil _ _) solid
  obtain ⟨head, parts, rfl, named, cut⟩ := List.map_eq_cons_iff.mp cut
  have width : parts.length = schema.fields.length := by
    rw [each.length_eq, ← cut, List.length_map]
  have decoded : decodeRecord schema profile (join (unit '|') (schemaTokenFor schema profile :: texts)) number =
      decodeFields schema number [] schema.fields parts := by
    unfold decodeRecord splitRecordLine
    rw [join, split]
    simp [named, width, bind, Except.bind, pure, Except.pure]
  rw [decoded, decodeFields_ok valid.tables plain each cut]
  constructor
  · intro both
    exact (restore_eq valid plain fits).mp both.2.symm
  · intro shown
    refine ⟨fun field listed => taken_of_shown fits listed (shown field listed), ?_⟩
    exact ((restore_eq valid plain fits).mpr shown).symm

theorem decodeLines_lines (valid : ValidSchema schema) (plain : ∀ record ∈ records, PlainRecord record)
    (fits : ∀ record ∈ records, Fits schema record) (token : isSchemaToken (schemaTokenFor schema profile) = true)
    (written : List.Forall₂ (LineOf schema profile) records lines) :
    decodeLines schema profile number lines = .ok (records.map spellRecord) ↔
      ∀ record ∈ records, ∀ field ∈ schema.fields, ¬Hidden record field := by
  induction written generalizing number with
  | nil => exact ⟨fun _ _ member => (by cases member), fun _ => rfl⟩
  | @cons record line records lines one _ ih =>
    obtain ⟨plainOne, plain⟩ := List.forall_mem_cons.mp plain
    obtain ⟨fitsOne, fits⟩ := List.forall_mem_cons.mp fits
    have first := @decodeRecord_line schema profile record line number valid plainOne fitsOne token one
    have later := @ih (number + 1) plain fits
    rw [decodeLines, List.map_cons, List.forall_mem_cons, ← first, ← later]
    simp only [except_bind_ok, except_pure_ok, List.cons.injEq]
    constructor
    · intro decoded
      obtain ⟨found, head, others, tail, rfl, rfl⟩ := decoded
      exact ⟨head, tail⟩
    · intro both
      exact ⟨_, both.1, _, both.2, rfl, rfl⟩

end RecordLines

end OttiliCoder.ContextFormat
