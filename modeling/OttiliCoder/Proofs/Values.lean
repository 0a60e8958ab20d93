import OttiliCoder.Library.Results
import OttiliCoder.ContextFormat.Value

/-! Values that can be sent, and what they are made of. -/

namespace OttiliCoder.ContextFormat
open Host Results

/-- Every number is finite and no key is dangerous. -/
inductive Serializable : OcfValue → Prop
  | null : Serializable .null
  | boolean (value : Bool) : Serializable (.boolean value)
  | number {value : JsNumber} (finite : value.isFinite = true) : Serializable (.number value)
  | bigint (value : Int) : Serializable (.bigint value)
  | string (value : JsString) : Serializable (.string value)
  | array {items : List OcfValue} (each : ∀ item ∈ items, Serializable item) : Serializable (.array items)
  | object {properties : OcfProperties} (safe : ∀ property ∈ properties, property.1 ∉ dangerousKeys)
    (each : ∀ property ∈ properties, Serializable property.2) : Serializable (.object properties)

/-- The properties of every object are in the order of their keys. -/
inductive Ordered : OcfValue → Prop
  | null : Ordered .null
  | boolean (value : Bool) : Ordered (.boolean value)
  | number (value : JsNumber) : Ordered (.number value)
  | bigint (value : Int) : Ordered (.bigint value)
  | string (value : JsString) : Ordered (.string value)
  | array {items : List OcfValue} (each : ∀ item ∈ items, Ordered item) : Ordered (.array items)
  | object {properties : OcfProperties} (sorted : Entries.Sorted properties)
    (each : ∀ property ∈ properties, Ordered property.2) : Ordered (.object properties)

/-- A value as the source has them: an object is a map, whatever the order of its keys. -/
structure PlainValue where
  value : OcfValue
  ordered : Ordered value

section Accepted
variable {value : OcfValue} {items : List OcfValue} {properties : OcfProperties}

theorem assertItemsSerializable_ok (valid : ∀ item ∈ items, ∀ path, assertSerializable item path = .ok () ↔ Serializable item)
    (path : JsString) (index : Nat) :
    assertItemsSerializable items path index = .ok () ↔ ∀ item ∈ items, Serializable item := by
  induction items generalizing index with
  | nil => simp [assertItemsSerializable]
  | cons item rest ih =>
    simp only [assertItemsSerializable, except_bind_ok, List.forall_mem_cons]
    rw [ih fun other member => valid other (by simp [member])]
    constructor
    · rintro ⟨_, first, later⟩
      exact ⟨(valid item (by simp) _).mp first, later⟩
    · rintro ⟨first, later⟩
      exact ⟨(), (valid item (by simp) _).mpr first, later⟩

theorem assertPropertiesSerializable_ok
    (valid : ∀ property ∈ properties, ∀ path, assertSerializable property.2 path = .ok () ↔ Serializable property.2)
    (path : JsString) :
    assertPropertiesSerializable properties path = .ok () ↔
      (∀ property ∈ properties, property.1 ∉ dangerousKeys) ∧ ∀ property ∈ properties, Serializable property.2 := by
  induction properties with
  | nil => simp [assertPropertiesSerializable]
  | cons property rest ih =>
    obtain ⟨key, value⟩ := property
    have later := ih fun other member => valid other (by simp [member])
    have first := valid (key, value) (by simp)
    simp only [assertPropertiesSerializable, List.forall_mem_cons]
    by_cases dangerous : key ∈ dangerousKeys
    · simp [dangerous]
    · simp only [dangerous, if_false, except_bind_ok, later, first]
      simp
      tauto

theorem assertSerializable_ok (path : JsString) : assertSerializable value path = .ok () ↔ Serializable value := by
  induction value using OcfValue.induct generalizing path with
  | null => simp [assertSerializable, Serializable.null]
  | boolean value => simp [assertSerializable, Serializable.boolean]
  | bigint value => simp [assertSerializable, Serializable.bigint]
  | string value => simp [assertSerializable, Serializable.string]
  | number value =>
    simp only [assertSerializable]
    constructor
    · intro accepted
      split at accepted
      next finite => exact .number finite
      next => exact absurd accepted except_throw_ok
    · rintro ⟨finite⟩
      simp [*]
  | array items ih =>
    rw [assertSerializable, assertItemsSerializable_ok fun item member path => ih item member path]
    exact ⟨.array, fun | .array each => each⟩
  | object properties ih =>
    rw [assertSerializable, assertPropertiesSerializable_ok fun property member path => ih property member path]
    exact ⟨fun ⟨safe, each⟩ => .object safe each, fun | .object safe each => ⟨safe, each⟩⟩

theorem cloneValue_ok {copy : OcfValue} : cloneValue value = .ok copy ↔ Serializable value ∧ copy = value := by
  simp only [cloneValue, except_bind_ok, except_pure_ok]
  constructor
  · rintro ⟨_, accepted, rfl⟩
    exact ⟨(assertSerializable_ok _).mp accepted, rfl⟩
  · rintro ⟨accepted, rfl⟩
    exact ⟨(), (assertSerializable_ok _).mpr accepted, rfl⟩

theorem serializable_of_encoded {text : JsString} (encoded : encodeValue value = .ok text) : Serializable value := by
  cases value with
  | null => exact .null
  | boolean value => exact .boolean value
  | bigint value => exact .bigint value
  | string value => exact .string value
  | number value =>
    simp only [encodeValue, except_bind_ok] at encoded
    obtain ⟨_, accepted, -⟩ := encoded
    exact (assertSerializable_ok _).mp accepted
  | array items =>
    simp only [encodeValue, except_bind_ok] at encoded
    obtain ⟨_, accepted, -⟩ := encoded
    exact (assertSerializable_ok _).mp accepted
  | object properties =>
    rw [encodeValue.eq_def] at encoded
    obtain ⟨_, accepted, -⟩ := except_bind_ok.mp encoded
    exact (assertSerializable_ok _).mp accepted

end Accepted

end OttiliCoder.ContextFormat
