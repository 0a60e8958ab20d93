import OttiliCoder.ContextFormat.Schema
import OttiliCoder.Proofs.Values

/-! Registered schemas: what the registry accepted, and which schema a token or a reference finds. -/

namespace OttiliCoder.ContextFormat
open Host OcfSchemaRegistry Results

/-- A table has no wire value twice. -/
def DistinctWires (field : OcfField) : Prop := ∀ values, field.values = some values → (values.map (·.2)).Nodup

def aliasOf (field : OcfField) : JsString := field.wireAlias.getD field.name

structure ValidSchema (schema : RegisteredSchema) : Prop where
  named : isIdentifier schema.name = true
  versioned : 1 ≤ schema.version ∧ schema.version < 2 ^ 53
  filled : schema.fields ≠ []
  fieldNames : ∀ field ∈ schema.fields, isIdentifier field.name = true ∧ isIdentifier (aliasOf field) = true
  distinctNames : (schema.fields.map (·.name)).Nodup
  distinctAliases : (schema.fields.map aliasOf).Nodup
  tables : ∀ field ∈ schema.fields, DistinctWires field

section Normalize
variable {schema : OcfSchema} {normalized : RegisteredSchema} {names aliases : List JsString} {fields : List OcfField}

/-- A check that fails throws; only what passes goes on. -/
theorem check_ok {ε α β : Type} {condition : Prop} [Decidable condition] {e : ε} {unreached : β → Except ε α} {next : Except ε α}
    {result : α} : (if condition then throw e >>= unreached else next) = .ok result ↔ ¬condition ∧ next = .ok result := by
  by_cases holds : condition <;> simp [holds]

theorem assertIdentifier_ok {value : JsString} {label : String} {u : Unit} :
    assertIdentifier value label = .ok u ↔ isIdentifier value = true := by
  unfold assertIdentifier
  split <;> simp [*]

theorem checkValues_ok {fieldName : JsString} {wires : List JsString} {entries : List (JsString × JsString)} {u : Unit}
    (checked : checkValues fieldName wires entries = .ok u) :
    (entries.map (·.2)).Nodup ∧ ∀ entry ∈ entries, entry.2 ∉ wires := by
  induction entries generalizing wires with
  | nil => simp
  | cons entry entries ih =>
    obtain ⟨value, wire⟩ := entry
    simp only [checkValues, check_ok] at checked
    obtain ⟨-, fresh, rest⟩ := checked
    obtain ⟨distinct, apart⟩ := ih rest
    refine ⟨List.nodup_cons.mpr ⟨fun twice => ?_, distinct⟩, fun entry member => ?_⟩
    · obtain ⟨later, member, same⟩ := List.mem_map.mp twice
      exact apart later member (by simp [same])
    · rcases List.mem_cons.mp member with rfl | later
      · exact fresh
      · exact fun old => apart entry later (List.mem_cons_of_mem _ old)

/-- What the fields have in common with a valid schema, beside names and aliases already taken. -/
structure ValidFields (names aliases : List JsString) (fields : List OcfField) : Prop where
  identifiers : ∀ field ∈ fields, isIdentifier field.name = true ∧ isIdentifier (aliasOf field) = true
  distinctNames : (fields.map (·.name)).Nodup
  freshNames : ∀ field ∈ fields, field.name ∉ names
  distinctAliases : (fields.map aliasOf).Nodup
  freshAliases : ∀ field ∈ fields, aliasOf field ∉ aliases
  tables : ∀ field ∈ fields, DistinctWires field

theorem checkFields_ok {u : Unit} (checked : checkFields names aliases fields = .ok u) : ValidFields names aliases fields := by
  induction fields generalizing names aliases with
  | nil => exact ⟨by simp, by simp, by simp, by simp, by simp, by simp⟩
  | cons field fields ih =>
    simp only [checkFields, except_bind_ok, check_ok, assertIdentifier_ok] at checked
    obtain ⟨_, named, freshName, _, aliased, freshAlias, _, table, rest⟩ := checked
    obtain ⟨identifiers, distinctNames, freshNames, distinctAliases, freshAliases, tables⟩ := ih rest
    have fresh : ∀ later ∈ fields, later.name ≠ field.name ∧ later.name ∉ names ∧ aliasOf later ≠ aliasOf field ∧
        aliasOf later ∉ aliases := by
      intro later member
      have name := freshNames later member
      have wire := freshAliases later member
      simp only [List.mem_cons, not_or] at name wire
      exact ⟨name.1, name.2, wire.1, wire.2⟩
    have wires : DistinctWires field := by
      intro values given
      rw [given] at table
      exact (checkValues_ok table).1
    refine ⟨?_, ?_, ?_, ?_, ?_, ?_⟩
    · exact List.forall_mem_cons.mpr ⟨⟨named, aliased⟩, identifiers⟩
    · refine List.nodup_cons.mpr ⟨fun twice => ?_, distinctNames⟩
      obtain ⟨later, member, same⟩ := List.mem_map.mp twice
      exact (fresh later member).1 same
    · exact List.forall_mem_cons.mpr ⟨freshName, fun later member => (fresh later member).2.1⟩
    · refine List.nodup_cons.mpr ⟨fun twice => ?_, distinctAliases⟩
      obtain ⟨later, member, same⟩ := List.mem_map.mp twice
      exact (fresh later member).2.2.1 same
    · exact List.forall_mem_cons.mpr ⟨freshAlias, fun later member => (fresh later member).2.2.2⟩
    · exact List.forall_mem_cons.mpr ⟨wires, tables⟩

theorem natOf_bounds {value : JsNumber} (safe : value.isSafeInteger = true) {bound : Nat} (least : (bound : ℚ) ≤ value.toRat) :
    bound ≤ natOf value ∧ natOf value < 2 ^ 53 := by
  simp only [JsNumber.isSafeInteger, JsNumber.isInteger, Bool.and_eq_true, beq_iff_eq, decide_eq_true_eq] at safe
  obtain ⟨⟨-, whole⟩, small⟩ := safe
  have value' : value.toRat = value.toRat.num := (Rat.den_eq_one_iff _).mp whole |>.symm
  rw [value'] at least small
  have low : (bound : ℤ) ≤ value.toRat.num := by exact_mod_cast least
  have high : |value.toRat.num| < 2 ^ 53 := by exact_mod_cast small
  have top := (abs_lt.mp high).2
  unfold natOf
  omega

theorem normalizeVersion_ok {version : Option JsNumber} {result : Nat} (normal : normalizeVersion version = .ok result) :
    1 ≤ result ∧ result < 2 ^ 53 := by
  unfold normalizeVersion at normal
  split at normal
  next =>
    cases normal
    decide
  next value =>
    split at normal
    next => cases normal
    next valid =>
      cases normal
      simp only [Bool.or_eq_true, Bool.not_eq_true', decide_eq_true_eq, not_or, Bool.not_eq_false, not_lt] at valid
      exact natOf_bounds valid.1 (by simpa using valid.2)

theorem normalizeSchema_valid (normal : normalizeSchema schema = .ok normalized) : ValidSchema normalized := by
  simp only [normalizeSchema, except_bind_ok, check_ok, assertIdentifier_ok, except_pure_ok] at normal
  obtain ⟨id, -, _, named, version, versioned, filled, _, checked, rfl⟩ := normal
  have fields := checkFields_ok checked
  exact ⟨named, normalizeVersion_ok versioned, filled, fields.identifiers, fields.distinctNames, fields.distinctAliases,
    fields.tables⟩

theorem normalizeSchema_name (normal : normalizeSchema schema = .ok normalized) : normalized.name = schema.name := by
  simp only [normalizeSchema, except_bind_ok, check_ok, assertIdentifier_ok, except_pure_ok] at normal
  obtain ⟨_, -, _, -, _, -, -, _, -, rfl⟩ := normal
  rfl

theorem normalizeSchema_id (normal : normalizeSchema schema = .ok normalized) : keyForId schema.id = some normalized.id := by
  simp only [normalizeSchema, except_bind_ok, check_ok, assertIdentifier_ok, except_pure_ok] at normal
  obtain ⟨id, identified, _, -, _, -, -, _, -, rfl⟩ := normal
  cases given : schema.id with
  | string value =>
    rw [given, normalizeId] at identified
    split at identified
    next => cases identified
    next => cases identified; rfl
  | number value =>
    rw [given, normalizeId] at identified
    split at identified
    next => cases identified
    next valid =>
      cases identified
      simp only [Bool.or_eq_true, Bool.not_eq_true', decide_eq_true_eq, not_or, Bool.not_eq_false, not_lt] at valid
      simp [keyForId, valid.1, valid.2]

end Normalize

/-! Registries: names and ids are taken once. -/

structure Consistent (registry : OcfSchemaRegistry) : Prop where
  valid : ∀ schema ∈ registry.schemas, ValidSchema schema
  names : (registry.schemas.map (·.name)).Nodup
  ids : (registry.schemas.map (·.id)).Nodup

/-- The registries that accepted calls of `register` lead to. -/
inductive Registered : OcfSchemaRegistry → Prop
  | empty : Registered {}
  | register {registry next : OcfSchemaRegistry} {schema : OcfSchema} {normalized : RegisteredSchema}
      (before : Registered registry) (accepted : register schema registry = .ok normalized next) : Registered next

section Registry
variable {registry next : OcfSchemaRegistry} {schema found : RegisteredSchema} {given : OcfSchema} {name : JsString}
  {id : RegisteredId}

theorem find_of_mem {κ : Type} [BEq κ] [LawfulBEq κ] (key : RegisteredSchema → κ) {schemas : List RegisteredSchema}
    (distinct : (schemas.map key).Nodup) (member : schema ∈ schemas) :
    (schemas.find? fun other => key other == key schema) = some schema := by
  induction schemas with
  | nil => cases member
  | cons first schemas ih =>
    obtain ⟨fresh, distinct⟩ := List.nodup_cons.mp distinct
    rcases List.mem_cons.mp member with rfl | later
    · exact List.find?_cons_of_pos (beq_self_eq_true _)
    · have apart : key first ≠ key schema := fun same => fresh (same ▸ List.mem_map_of_mem later)
      rw [List.find?_cons_of_neg (by simpa using apart)]
      exact ih distinct later

theorem byName_of_mem (consistent : Consistent registry) (member : schema ∈ registry.schemas) :
    registry.byName schema.name = some schema := find_of_mem (·.name) consistent.names member

theorem byId_of_mem (consistent : Consistent registry) (member : schema ∈ registry.schemas) :
    registry.byId schema.id = some schema := find_of_mem (·.id) consistent.ids member

theorem byName_some (named : registry.byName name = some found) : found ∈ registry.schemas ∧ found.name = name :=
  ⟨List.mem_of_find?_eq_some named, by simpa using List.find?_some named⟩

theorem byId_some (identified : registry.byId id = some found) : found ∈ registry.schemas ∧ found.id = id :=
  ⟨List.mem_of_find?_eq_some identified, by simpa using List.find?_some identified⟩

theorem byName_none (unnamed : registry.byName name = none) : ∀ other ∈ registry.schemas, other.name ≠ name := by
  intro other member same
  exact List.find?_eq_none.mp unnamed other member (by simpa using same)

theorem byId_none (unknown : registry.byId id = none) : ∀ other ∈ registry.schemas, other.id ≠ id := by
  intro other member same
  exact List.find?_eq_none.mp unknown other member (by simpa using same)

/-- `register` gives the normalised schema, which the registry then holds. -/
theorem register_ok (accepted : register given registry = .ok schema next) : normalizeSchema given = .ok schema ∧
    ((next = registry ∧ schema ∈ registry.schemas) ∨
      (next = { schemas := registry.schemas ++ [schema] } ∧ registry.byName schema.name = none ∧
        registry.byId schema.id = none)) := by
  unfold register at accepted
  cases normal : normalizeSchema given with
  | error e =>
    rw [normal] at accepted
    cases accepted
  | ok normalized =>
    rw [normal] at accepted
    simp only at accepted
    split at accepted
    next unnamed unknown =>
      cases accepted
      exact ⟨rfl, .inr ⟨rfl, unnamed, unknown⟩⟩
    next =>
      split at accepted
      next same =>
        cases accepted
        exact ⟨rfl, .inl ⟨rfl, (byName_some same.1).1⟩⟩
      next => cases accepted

theorem Consistent.register (consistent : Consistent registry) (accepted : register given registry = .ok schema next) :
    Consistent next ∧ schema ∈ next.schemas := by
  obtain ⟨normal, ⟨rfl, member⟩ | ⟨rfl, unnamed, unknown⟩⟩ := register_ok accepted
  · exact ⟨consistent, member⟩
  · have fresh : schema.name ∉ registry.schemas.map (·.name) := by
      intro taken
      obtain ⟨other, member, same⟩ := List.mem_map.mp taken
      exact byName_none unnamed other member same
    have other : schema.id ∉ registry.schemas.map (·.id) := by
      intro taken
      obtain ⟨other, member, same⟩ := List.mem_map.mp taken
      exact byId_none unknown other member same
    refine ⟨⟨fun one member => ?_, ?_, ?_⟩, by simp⟩
    · rcases List.mem_append.mp member with old | new
      · exact consistent.valid one old
      · rw [List.mem_singleton.mp new]
        exact normalizeSchema_valid normal
    · rw [List.map_append, List.map_singleton, ← List.concat_eq_append]
      exact consistent.names.concat fresh
    · rw [List.map_append, List.map_singleton, ← List.concat_eq_append]
      exact consistent.ids.concat other

theorem Registered.consistent (registered : Registered registry) : Consistent registry := by
  induction registered with
  | empty => exact ⟨by simp, by simp, by simp⟩
  | register _ accepted ih => exact (ih.register accepted).1

theorem resolve_known {reference : OcfSchema} (consistent : Consistent registry) (member : schema ∈ registry.schemas)
    (named : reference.name = schema.name) (identified : keyForId reference.id = some schema.id) :
    resolve (.schema reference) registry = .ok schema registry := by
  unfold resolve
  simp only [named, identified, Option.bind_some, byName_of_mem consistent member, byId_of_mem consistent member, if_true]

/-- A reference finds a schema of the registry it leaves, and finds it there again. -/
theorem Consistent.resolve {reference : OcfSchemaReference} (consistent : Consistent registry)
    (resolved : resolve reference registry = .ok schema next) :
    Consistent next ∧ schema ∈ next.schemas ∧ OcfSchemaRegistry.resolve reference next = .ok schema next := by
  have again : registry = next → OcfSchemaRegistry.resolve reference next = .ok schema next := by
    intro same
    rw [← same] at resolved ⊢
    exact resolved
  have result := resolved
  unfold OcfSchemaRegistry.resolve at result
  cases reference with
  | schema given =>
    have registers : OcfSchemaRegistry.register given registry = .ok schema next →
        Consistent next ∧ schema ∈ next.schemas ∧ OcfSchemaRegistry.resolve (.schema given) next = .ok schema next := by
      intro accepted
      obtain ⟨lasting, member⟩ := consistent.register accepted
      obtain ⟨normal, -⟩ := register_ok accepted
      exact ⟨lasting, member,
        resolve_known lasting member (normalizeSchema_name normal).symm (normalizeSchema_id normal)⟩
    simp only at result
    split at result
    next named identified found _ =>
      split at result
      next =>
        cases result
        exact ⟨consistent, (byName_some found).1, again rfl⟩
      next => exact registers result
    next => exact registers result
  | name value =>
    simp only at result
    split at result
    next known found =>
      cases result
      refine ⟨consistent, ?_, again rfl⟩
      unfold resolveToken at found
      rcases Option.or_eq_some_iff.mp found with named | ⟨-, found⟩
      · exact (byName_some named).1
      · rcases Option.or_eq_some_iff.mp found with identified | ⟨-, found⟩
        · exact (byId_some identified).1
        · split at found
          next => exact (byId_some found).1
          next => cases found
    next => cases result
  | number value =>
    simp only at result
    split at result
    next known found =>
      cases result
      obtain ⟨id, -, found⟩ := Option.bind_eq_some_iff.mp found
      exact ⟨consistent, (byId_some found).1, again rfl⟩
    next => cases result

end Registry

/-! The token of a schema id on the wire. -/

/-- Another schema is found under the text of this one's id: by its name, or by its number. -/
structure Clash (registry : OcfSchemaRegistry) (schema rival : RegisteredSchema) : Prop where
  member : rival ∈ registry.schemas
  apart : rival ≠ schema
  found : rival.name = schema.id.text ∨
    ∃ text, schema.id = .string text ∧ isNumeric text = true ∧ rival.id = numericId text

theorem not_digit_of_letter {u : Nat} (letter : isLetter u = true) : isDigit u = false := by
  simp only [isLetter, isDigit, Bool.or_eq_true, Bool.and_eq_true, decide_eq_true_eq, unit, Char.reduceToNat] at letter ⊢
  simp only [Bool.and_eq_false_iff, decide_eq_false_iff_not]
  omega

theorem not_numeric_of_identifier {text : JsString} (identifier : isIdentifier text = true) : isNumeric text = false := by
  cases text with
  | nil => rfl
  | cons first rest =>
    simp only [isIdentifier, Bool.and_eq_true] at identifier
    simp [isNumeric, not_digit_of_letter identifier.1]

theorem natUnits_digits (n : Nat) : ∀ u ∈ natUnits n, isDigit u = true := by
  intro u member
  obtain ⟨digit, -, rfl⟩ := List.mem_map.mp member
  exact isDigit_digit digit

theorem natUnits_ne_nil (n : Nat) : natUnits n ≠ [] := by
  obtain ⟨digit, rest, whole⟩ := digitUnits_cons_of_canonical (digitsOf_canonical n)
  rw [natUnits, whole]
  exact List.cons_ne_nil _ _

theorem natUnits_numeric (n : Nat) : isNumeric (natUnits n) = true := by
  simp only [isNumeric, Bool.and_eq_true, bne_iff_ne, List.all_eq_true]
  exact ⟨natUnits_ne_nil n, natUnits_digits n⟩

theorem natUnits_value (n : Nat) : digitsValue (scanDigits (natUnits n)).1 = n := by
  have stops : Stops [] := fun _ _ given => by cases given
  have scanned := scanDigits_digitUnits (digitsOf n) stops
  rw [List.append_nil] at scanned
  rw [natUnits, scanned]
  exact digitsValue_digitsOf n

section Tokens
variable {registry : OcfSchemaRegistry} {schema rival : RegisteredSchema}

/-- No name is a number. -/
theorem byName_numeric {text : JsString} (consistent : Consistent registry) (numeric : isNumeric text = true) :
    registry.byName text = none := by
  cases named : registry.byName text with
  | none => rfl
  | some found =>
    obtain ⟨member, same⟩ := byName_some named
    have apart := not_numeric_of_identifier (consistent.valid found member).named
    rw [same, numeric] at apart
    cases apart

/-- The name of a schema finds it. -/
theorem resolveWireToken_name (consistent : Consistent registry) (member : schema ∈ registry.schemas) :
    resolveWireToken schema.name registry = .ok schema registry := by
  simp [resolveWireToken, byName_of_mem consistent member]

theorem resolveWireToken_number {n : Nat} (consistent : Consistent registry) (member : schema ∈ registry.schemas)
    (numbered : schema.id = .number n) : resolveWireToken (natUnits n) registry = .ok schema registry := by
  have found : registry.byId (.number n) = some schema := numbered ▸ byId_of_mem consistent member
  simp [resolveWireToken, byName_numeric consistent (natUnits_numeric n), natUnits_numeric n, numericId, natUnits_value, found]

theorem Clash.string (consistent : Consistent registry) (clash : Clash registry schema rival) :
    ∃ text, schema.id = .string text := by
  cases given : schema.id with
  | string text => exact ⟨text, rfl⟩
  | number n =>
    rcases clash.found with named | ⟨text, identified, -⟩
    · have apart := not_numeric_of_identifier (consistent.valid rival clash.member).named
      rw [named, given, RegisteredId.text, natUnits_numeric] at apart
      cases apart
    · rw [given] at identified
      cases identified

/-- The text of an id finds the schema exactly when no other is found under it. -/
theorem resolveWireToken_id (consistent : Consistent registry) (member : schema ∈ registry.schemas) :
    resolveWireToken schema.id.text registry = .ok schema registry ↔ ∀ rival, ¬Clash registry schema rival := by
  constructor
  · intro resolved rival clash
    obtain ⟨text, given⟩ := clash.string consistent
    have other : resolveWireToken text registry = .ok rival registry := by
      rcases clash.found with named | ⟨number, identified, numeric, numbered⟩
      · rw [given, RegisteredId.text] at named
        have found := resolveWireToken_name consistent clash.member
        rwa [named] at found
      · rw [given] at identified
        cases identified
        have found : registry.byId (numericId text) = some rival := numbered ▸ byId_of_mem consistent clash.member
        simp [resolveWireToken, byName_numeric consistent numeric, numeric, found]
    rw [given, RegisteredId.text, other] at resolved
    cases resolved
    exact clash.apart rfl
  · intro alone
    cases given : schema.id with
    | number n => exact resolveWireToken_number consistent member given
    | string text =>
      have identified : registry.byId (.string text) = some schema := given ▸ byId_of_mem consistent member
      have unnumbered : isNumeric text = true → registry.byId (numericId text) = none := by
        intro numeric
        cases found : registry.byId (numericId text) with
        | none => rfl
        | some rival =>
          obtain ⟨member', numbered⟩ := byId_some found
          refine absurd ⟨member', ?_, .inr ⟨text, given, numeric, numbered⟩⟩ (alone rival)
          rintro rfl
          rw [given] at numbered
          cases numbered
      have named : registry.byName text = none ∨ registry.byName text = some schema := by
        cases found : registry.byName text with
        | none => exact .inl rfl
        | some rival =>
          obtain ⟨member', same⟩ := byName_some found
          by_cases own : rival = schema
          · rw [own]
            exact .inr rfl
          · exact absurd ⟨member', own, .inl (by rw [given]; exact same)⟩ (alone rival)
      rcases named with unnamed | named
      · by_cases numeric : isNumeric text = true
        · simp [resolveWireToken, RegisteredId.text, unnamed, numeric, unnumbered numeric, identified]
        · simp [resolveWireToken, RegisteredId.text, unnamed, numeric, identified]
      · simp [resolveWireToken, RegisteredId.text, named]

end Tokens

end OttiliCoder.ContextFormat
