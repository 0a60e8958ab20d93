import OttiliCoder.Proofs.ValueTexts

/-! What the parser makes: ordered objects that can be sent, and references with whatever name an object gives them. -/

namespace OttiliCoder.ContextFormat
open Host Results

/-! What is read is in order and can be sent. -/

section Parsed
variable {parse : JsString → Nat → Nat → Except OcfError OcfValue} {source : JsString} {line column : Nat}
  {part : SplitPart} {parts : List SplitPart} {result after : OcfProperties} {value : OcfValue}

/-- Ordered, with finite numbers and without dangerous keys. -/
def WellMade (value : OcfValue) : Prop := Ordered value ∧ Serializable value

/-- The parser of nested values makes such values. -/
def MakesWell (parse : JsString → Nat → Nat → Except OcfError OcfValue) : Prop :=
  ∀ source line column value, parse source line column = .ok value → WellMade value

theorem wellMade_array {items : List OcfValue} (each : ∀ item ∈ items, WellMade item) : WellMade (.array items) :=
  ⟨.array fun item member => (each item member).1, .array fun item member => (each item member).2⟩

theorem wellMade_object (sorted : Entries.Sorted result) (safe : ∀ property ∈ result, property.1 ∉ dangerousKeys)
    (each : ∀ property ∈ result, WellMade property.2) : WellMade (.object result) :=
  ⟨.object sorted fun property member => (each property member).1, .object safe fun property member => (each property member).2⟩

theorem wellMade_empty : WellMade (.object []) :=
  wellMade_object List.Pairwise.nil (fun _ member => by cases member) fun _ member => by cases member

theorem WellMade.set {key : JsString} (before : WellMade (.object result)) (safe : key ∉ dangerousKeys) (added : WellMade value) :
    WellMade (.object (Entries.set key value result)) := by
  obtain ⟨ordered, serializable⟩ := before
  cases ordered with
  | object sorted ordered =>
    cases serializable with
    | object others serializable =>
      refine wellMade_object (Entries.sorted_set sorted) ?_ ?_
      · intro property member
        rcases Entries.mem_set member with rfl | old
        · exact safe
        · exact others property old
      · intro property member
        rcases Entries.mem_set member with rfl | old
        · exact added
        · exact ⟨ordered property old, serializable property old⟩

theorem parseItems_wellMade (makes : MakesWell parse) {values : List OcfValue}
    (read : parseItems parse line column parts = .ok values) : ∀ value ∈ values, WellMade value := by
  induction parts generalizing values with
  | nil =>
    cases read
    exact fun _ member => by cases member
  | cons part parts ih =>
    unfold parseItems at read
    split at read
    next => simp at read
    next =>
      simp only [except_bind_ok, except_pure_ok] at read
      obtain ⟨value, one, rest, later, rfl⟩ := read
      exact List.forall_mem_cons.mpr ⟨makes _ _ _ _ one, ih later⟩

theorem parseArray_wellMade (makes : MakesWell parse) {values : List OcfValue}
    (read : parseArray parse source line column = .ok values) : WellMade (.array values) := by
  unfold parseArray at read
  simp only at read
  split at read
  · cases read
    exact wellMade_array fun _ member => by cases member
  · obtain ⟨parts, -, items⟩ := except_bind_ok.mp read
    exact wellMade_array (parseItems_wellMade makes items)

/-- One property more, wherever its key belongs. -/
theorem parseProperty_ok (read : parseProperty parse line column result part = .ok after) :
    ∃ key value text place, key ∉ dangerousKeys ∧ parse text line place = .ok value ∧ after = Entries.set key value result := by
  unfold parseProperty at read
  simp only at read
  obtain ⟨-, read⟩ | ⟨-, read⟩ := ite_eq_iff.mp read
  · simp at read
  obtain ⟨colon, -, read⟩ := except_bind_ok.mp read
  match colon, read with
  | none, read => simp at read
  | some 0, read => simp at read
  | some (colon + 1), read =>
    obtain ⟨-, read⟩ | ⟨-, read⟩ := ite_eq_iff.mp read
    · simp at read
    obtain ⟨key, -, read⟩ := except_bind_ok.mp read
    obtain ⟨-, read⟩ | ⟨safe, read⟩ := ite_eq_iff.mp read
    · simp at read
    obtain ⟨-, read⟩ | ⟨-, read⟩ := ite_eq_iff.mp read
    · simp at read
    obtain ⟨-, read⟩ | ⟨-, read⟩ := ite_eq_iff.mp read
    · simp at read
    obtain ⟨value, one, last⟩ := except_bind_ok.mp read
    exact ⟨key, value, _, _, safe, one, (except_pure_ok.mp last).symm⟩

theorem parseProperties_wellMade (makes : MakesWell parse) (read : parts.foldlM (parseProperty parse line column) result = .ok after)
    (before : WellMade (.object result)) : WellMade (.object after) := by
  induction parts generalizing result with
  | nil =>
    cases read
    exact before
  | cons part parts ih =>
    obtain ⟨next, one, rest⟩ := except_bind_ok.mp read
    refine ih rest ?_
    obtain ⟨key, value, text, place, safe, parsed, rfl⟩ := parseProperty_ok one
    exact before.set safe (makes _ _ _ _ parsed)

theorem parseObject_wellMade (makes : MakesWell parse) (read : parseObject parse source line column = .ok after) :
    WellMade (.object after) := by
  unfold parseObject at read
  simp only at read
  split at read
  · cases read
    exact wellMade_empty
  · obtain ⟨parts, -, properties⟩ := except_bind_ok.mp read
    exact parseProperties_wellMade makes properties wellMade_empty

theorem parseReference_wellMade (makes : MakesWell parse) (read : parseReference parse source line column = .ok value) :
    WellMade value := by
  unfold parseReference at read
  obtain ⟨colon, -, read⟩ := except_bind_ok.mp read
  split at read
  next => simp at read
  next => simp at read
  next colon =>
    simp only at read
    split at read
    next => simp at read
    next =>
      split at read
      next => simp at read
      next =>
        obtain ⟨id, one, read⟩ := except_bind_ok.mp read
        split at read
        next =>
          obtain ⟨_, thrown, -⟩ := except_bind_ok.mp read
          exact absurd thrown except_throw_ok
        next =>
          cases except_pure_ok.mp read
          have keys : units "$ref" < units "id" := by decide
          have safe : units "$ref" ∉ dangerousKeys ∧ units "id" ∉ dangerousKeys := by decide
          refine wellMade_object (List.pairwise_pair.mpr keys) ?_ ?_
          · intro property member
            rcases List.mem_pair.mp member with rfl | rfl
            · exact safe.1
            · exact safe.2
          · intro property member
            rcases List.mem_pair.mp member with rfl | rfl
            · exact ⟨.string _, .string _⟩
            · exact makes _ _ _ _ one

theorem parseNumber_wellMade (read : parseNumber source line column = .ok value) : WellMade value := by
  unfold parseNumber at read
  split at read
  · split at read
    next =>
      split at read
      next =>
        cases read
        exact ⟨.bigint _, .bigint _⟩
      next => simp at read
    next => simp at read
  · split at read
    next => simp at read
    next =>
      simp only at read
      split at read
      next => simp at read
      next finite =>
        split at read
        next => simp at read
        next =>
          cases read
          exact ⟨.number _, .number (by simpa using finite)⟩

theorem parseStep_wellMade (makes : MakesWell parse) (read : parseStep parse source line column = .ok value) : WellMade value := by
  cases source with
  | nil => exact absurd read except_throw_ok
  | cons first rest =>
    unfold parseStep at read
    dsimp only at read
    -- the tests of the first unit, one after the other
    obtain ⟨-, read⟩ | ⟨-, read⟩ := ite_eq_iff.mp read
    · exact absurd read except_throw_ok
    obtain ⟨-, read⟩ | ⟨-, read⟩ := ite_eq_iff.mp read
    · cases read
      exact ⟨.null, .null⟩
    obtain ⟨-, read⟩ | ⟨-, read⟩ := ite_eq_iff.mp read
    · cases read
      exact ⟨.boolean _, .boolean _⟩
    obtain ⟨-, read⟩ | ⟨-, read⟩ := ite_eq_iff.mp read
    · cases read
      exact ⟨.boolean _, .boolean _⟩
    obtain ⟨-, read⟩ | ⟨-, read⟩ := ite_eq_iff.mp read
    · exact parseNumber_wellMade read
    obtain ⟨-, read⟩ | ⟨-, read⟩ := ite_eq_iff.mp read
    · obtain ⟨-, read⟩ | ⟨-, read⟩ := ite_eq_iff.mp read
      · exact absurd read except_throw_ok
      · obtain ⟨text, -, rfl⟩ := except_map_ok.mp read
        exact ⟨.string _, .string _⟩
    obtain ⟨-, read⟩ | ⟨-, read⟩ := ite_eq_iff.mp read
    · obtain ⟨-, read⟩ | ⟨-, read⟩ := ite_eq_iff.mp read
      · exact absurd read except_throw_ok
      · obtain ⟨items, array, rfl⟩ := except_map_ok.mp read
        exact parseArray_wellMade makes array
    obtain ⟨-, read⟩ | ⟨-, read⟩ := ite_eq_iff.mp read
    · obtain ⟨-, read⟩ | ⟨-, read⟩ := ite_eq_iff.mp read
      · exact absurd read except_throw_ok
      · obtain ⟨properties, object, rfl⟩ := except_map_ok.mp read
        exact parseObject_wellMade makes object
    obtain ⟨-, read⟩ | ⟨-, read⟩ := ite_eq_iff.mp read
    · exact parseReference_wellMade makes read
    obtain ⟨-, read⟩ | ⟨-, read⟩ := ite_eq_iff.mp read
    · exact absurd read except_throw_ok
    · cases read
      exact ⟨.string _, .string _⟩

theorem parseWithin_wellMade (fuel : Nat) : MakesWell (parseWithin fuel) := by
  induction fuel with
  | zero => exact fun source line column value read => absurd read except_throw_ok
  | succ fuel ih => exact fun source line column value read => parseStep_wellMade ih read

theorem parseValue_wellMade (read : parseValue source line column = .ok value) : WellMade value :=
  parseWithin_wellMade _ _ _ _ _ read

theorem parseValue_ordered (read : parseValue source line column = .ok value) : Ordered value := (parseValue_wellMade read).1

end Parsed

/-! The references in a value, at any depth. -/

/-- Every reference in the value names its schema as it should. -/
inductive References (named : OcfValue → Prop) : OcfValue → Prop
  | scalar {value : OcfValue} (scalar : value.isScalar = true) : References named value
  | array {items : List OcfValue} (each : ∀ item ∈ items, References named item) : References named (.array items)
  | object {properties : OcfProperties} (other : isReference (.object properties) = false)
    (each : ∀ property ∈ properties, References named property.2) : References named (.object properties)
  | reference {schema id : OcfValue} (reference : isReference (.object [(units "$ref", schema), (units "id", id)]) = true)
    (schemaNamed : named schema) : References named (.object [(units "$ref", schema), (units "id", id)])

/-- The schema can be written. -/
def HasToken (schema : OcfValue) : Prop := isSchemaToken (schemaText schema) = true

/-- The schema is written and read back. -/
def IsToken (schema : OcfValue) : Prop := ∃ name, schema = .string name ∧ isSchemaToken name = true

section References
variable {named other : OcfValue → Prop} {value : OcfValue} {items : List OcfValue} {properties : OcfProperties}

theorem References.imp (references : References named value) (implies : ∀ schema, named schema → other schema) :
    References other value := by
  induction references with
  | scalar scalar => exact .scalar scalar
  | array _ ih => exact .array ih
  | object plain _ ih => exact .object plain ih
  | reference reference schemaNamed => exact .reference reference (implies _ schemaNamed)

theorem References.and (references : References named value) (others : References other value) :
    References (fun schema => named schema ∧ other schema) value := by
  induction references with
  | scalar scalar => exact .scalar scalar
  | array _ ih =>
    cases others with
    | scalar scalar => cases scalar
    | array each => exact .array fun item member => ih item member (each item member)
  | object plain _ ih =>
    cases others with
    | scalar scalar => cases scalar
    | object _ each => exact .object plain fun property member => ih property member (each property member)
    | reference reference => simp [plain] at reference
  | reference reference schemaNamed =>
    cases others with
    | scalar scalar => cases scalar
    | object plain => simp [plain] at reference
    | reference _ schemaOther => exact .reference reference ⟨schemaNamed, schemaOther⟩

theorem map_fixed {α : Type} {f : α → α} {items : List α} : items.map f = items ↔ ∀ item ∈ items, f item = item := by
  have same : items.map f = items.map id ↔ ∀ item ∈ items, f item = item := List.map_inj_left
  rwa [List.map_id] at same

/-- A value that can be sent is written exactly when the schemas of its references can be. -/
theorem encodeValue_iff : (∃ text, encodeValue value = .ok text) ↔ Serializable value ∧ References HasToken value := by
  induction value using OcfValue.induct with
  | null => exact ⟨fun _ => ⟨.null, .scalar rfl⟩, fun _ => ⟨_, rfl⟩⟩
  | boolean value => exact ⟨fun _ => ⟨.boolean value, .scalar rfl⟩, fun _ => ⟨_, rfl⟩⟩
  | bigint value => exact ⟨fun _ => ⟨.bigint value, .scalar rfl⟩, fun _ => ⟨_, rfl⟩⟩
  | string value => exact ⟨fun _ => ⟨.string value, .scalar rfl⟩, fun _ => ⟨_, rfl⟩⟩
  | number value =>
    constructor
    · rintro ⟨text, encoded⟩
      exact ⟨serializable_of_encoded encoded, .scalar rfl⟩
    · rintro ⟨safe, _⟩
      exact ⟨_, except_bind_ok.mpr ⟨(), (assertSerializable_ok _).mpr safe, rfl⟩⟩
  | array items ih =>
    constructor
    · rintro ⟨text, encoded⟩
      obtain ⟨safe, texts, written, -⟩ := encodeValue_array_ok.mp encoded
      refine ⟨safe, .array fun item member => ?_⟩
      exact ((ih item member).mp (exists_forall₂.mp ⟨texts, written⟩ item member)).2
    · rintro ⟨safe, references⟩
      cases safe with
      | array safe =>
        cases references with
        | scalar scalar => cases scalar
        | array each =>
          obtain ⟨texts, written⟩ := exists_forall₂.mpr fun item member =>
            (ih item member).mpr ⟨safe item member, each item member⟩
          exact ⟨_, encodeValue_array_ok.mpr ⟨.array safe, texts, written, rfl⟩⟩
  | object properties ih =>
    cases reference : isReference (.object properties) with
    | true =>
      obtain ⟨schema, id, rfl, scalar, -⟩ := isReference_iff.mp reference
      constructor
      · rintro ⟨text, encoded⟩
        obtain ⟨safe, token, -⟩ := (encodeValue_reference_ok reference).mp encoded
        exact ⟨safe, .reference reference token⟩
      · rintro ⟨safe, references⟩
        have token : HasToken schema := by
          cases references with
          | scalar scalar => cases scalar
          | object plain => simp [plain] at reference
          | reference _ named => exact named
        have inside : Serializable id := by
          cases safe with
          | object _ each => exact each (units "id", id) (by simp)
        obtain ⟨idText, written⟩ := (ih (units "id", id) (by simp)).mpr ⟨inside, .scalar scalar⟩
        exact ⟨_, (encodeValue_reference_ok reference).mpr ⟨safe, token, idText, written, rfl⟩⟩
    | false =>
      constructor
      · rintro ⟨text, encoded⟩
        obtain ⟨safe, texts, written, -⟩ := (encodeValue_object_ok reference).mp encoded
        refine ⟨safe, .object reference fun property member => ?_⟩
        obtain ⟨_, text, one, -⟩ := exists_forall₂.mp ⟨texts, written⟩ property member
        exact ((ih property member).mp ⟨text, one⟩).2
      · rintro ⟨safe, references⟩
        cases safe with
        | object keys safe =>
          cases references with
          | scalar scalar => cases scalar
          | reference holds => simp [reference] at holds
          | object _ each =>
            have writes : ∀ property ∈ properties, ∃ text, WritesProperty property text := by
              intro property member
              obtain ⟨text, one⟩ := (ih property member).mpr ⟨safe property member, each property member⟩
              exact ⟨_, text, one, rfl⟩
            obtain ⟨texts, written⟩ := exists_forall₂.mpr writes
            exact ⟨_, (encodeValue_object_ok reference).mpr ⟨.object keys safe, texts, written, rfl⟩⟩

/-- A value is read back as it was when every schema is a string. -/
theorem spell_eq_iff : spell value = value ↔ References (fun schema => ∃ name, schema = .string name) value := by
  induction value using OcfValue.induct with
  | null | boolean | number | bigint | string => exact ⟨fun _ => .scalar rfl, fun _ => rfl⟩
  | array items ih =>
    rw [spell, spellItems_eq, OcfValue.array.injEq, map_fixed]
    constructor
    · intro same
      exact .array fun item member => (ih item member).mp (same item member)
    · intro references
      cases references with
      | scalar scalar => cases scalar
      | array each => exact fun item member => (ih item member).mpr (each item member)
  | object properties ih =>
    cases reference : isReference (.object properties) with
    | true =>
      obtain ⟨schema, id, rfl, -, -⟩ := isReference_iff.mp reference
      rw [spell, if_pos reference, spellReference, OcfValue.object.injEq, List.cons.injEq, Prod.mk.injEq]
      constructor
      · rintro ⟨⟨_, same⟩, _⟩
        exact .reference reference ⟨schemaText schema, same.symm⟩
      · intro references
        cases references with
        | scalar scalar => cases scalar
        | object plain => simp [plain] at reference
        | reference _ named =>
          obtain ⟨name, rfl⟩ := named
          exact ⟨⟨rfl, rfl⟩, rfl⟩
    | false =>
      have alone : ∀ property : JsString × OcfValue, (property.1, spell property.2) = property ↔ spell property.2 = property.2 := by
        rintro ⟨key, value⟩
        simp
      rw [spell, if_neg (by simp [reference]), spellProperties_eq, OcfValue.object.injEq, map_fixed]
      simp only [alone]
      constructor
      · intro same
        exact .object reference fun property member => (ih property member).mp (same property member)
      · intro references
        cases references with
        | scalar scalar => cases scalar
        | object _ each => exact fun property member => (ih property member).mpr (each property member)
        | reference holds => simp [reference] at holds

end References

end OttiliCoder.ContextFormat
