import OttiliCoder.Library.JsNumber
import OttiliCoder.Library.JsonText

/-! JSON values in a program that does not check their shapes. What is `undefined` is no value at
all, and where the host throws a TypeError the result is missing. -/

namespace Host

/-- `value ?? …`: null counts as no value. -/
def nonNull : Option JsonValue → Option JsonValue
  | some .null => none
  | found => found

namespace JsonValue

def isNull : JsonValue → Bool
  | .null => true
  | _ => false

def isArray : JsonValue → Bool
  | .array _ => true
  | _ => false

/-- `value === text`. -/
def isText (text : String) : JsonValue → Bool
  | .string value => value == units text
  | _ => false

/-- `value.name`. -/
def property (name : String) : JsonValue → Option (Option JsonValue)
  | .null => none
  | value => some (value.get? (units name))

/-- `value[0]`. -/
def first : JsonValue → Option JsonValue
  | .array items => items.head?
  | .string text => text.head?.map fun u => .string [u]
  | value => value.get? (units "0")

def isZero : JsonValue → Bool
  | .number literal => (JsNumber.ofLiteral literal).isFinite && (JsNumber.ofLiteral literal).toRat == 0
  | _ => false

/-- `value.length === 0`. -/
def isEmpty : JsonValue → Option Bool
  | .null => none
  | .string text => some (text == [])
  | .array items => some items.isEmpty
  | value => some (((value.get? (units "length")).map isZero).getD false)

/-- `value === other`: two lists, or two objects, are never the same one. -/
def strictEqual : JsonValue → JsonValue → Bool
  | .null, .null => true
  | .boolean value, .boolean other => value == other
  | .number literal, .number other => (JsNumber.ofLiteral literal).strictEqual (JsNumber.ofLiteral other)
  | .string text, .string other => text == other
  | _, _ => false

mutual
/-- `String(value)`. The text of an object comes from `Object.prototype.toString`, unless a member hides it. -/
def spelled : JsonValue → Option JsString
  | .null => some (units "null")
  | .boolean true => some (units "true")
  | .boolean false => some (units "false")
  | .number literal => some (JsNumber.ofLiteral literal).toString
  | .string text => some text
  | .array items => spelledItems items
  | .object members =>
    if ((JsonValue.object members).get? (units "toString")).isSome then none else some (units "[object Object]")

/-- `items.join(",")`. -/
def spelledItems : List JsonValue → Option JsString
  | [] => some []
  | [item] => spelledItem item
  | item :: other :: items => do
    let text ← spelledItem item
    let rest ← spelledItems (other :: items)
    return text ++ unit ',' :: rest

def spelledItem : JsonValue → Option JsString
  | .null => some []
  | value => spelled value
end

end JsonValue

/-- `found?.name`. -/
def optionalProperty (name : String) (found : Option JsonValue) : Option JsonValue :=
  found.bind fun value => value.get? (units name)

/-- A value that is joined to a text: nothing and null leave no trace. -/
def joinedText : Option JsonValue → Option JsString
  | none => some []
  | some value => value.spelledItem

/-- The items of a value that is used as a list, with `fallback` for nothing. -/
def itemsOf : Option JsonValue → Option (List JsonValue)
  | none => some []
  | some (.array items) => some items
  | some _ => none

section Properties
variable {name text : String} {value item : JsonValue} {found : Option JsonValue} {result : Option JsonValue}

@[simp] theorem property_null : JsonValue.property name .null = none := rfl

theorem property_eq (some : value.isNull = false) : value.property name = .some (value.get? (units name)) := by
  cases value with
  | null => cases some
  | _ => rfl

/-- A value with a member is not null. -/
theorem isNull_of_get? {name : JsString} (held : value.get? name = some item) : value.isNull = false := by
  cases value with
  | null => cases held
  | _ => rfl

theorem isText_iff : value.isText text = true ↔ value = .string (units text) := by
  cases value <;> simp [JsonValue.isText]

theorem isString_iff : value.isString = true ↔ ∃ text, value = .string text := by
  cases value <;> simp [JsonValue.isString]

theorem isEmpty_string (text : JsString) : (JsonValue.string text).isEmpty = some (text == []) := rfl

theorem isEmpty_eq_none : value.isEmpty = none ↔ value = .null := by
  cases value <;> simp [JsonValue.isEmpty]

end Properties

section Members
variable {members others : List (JsString × JsonValue)} {name : JsString} {value : JsonValue}

/-- What an object has under a name, where no name occurs twice. -/
theorem get?_eq_some_iff (distinct : (members.map (·.1)).Nodup) :
    (JsonValue.object members).get? name = some value ↔ (name, value) ∈ members := by
  unfold JsonValue.get?
  rw [Option.map_eq_some_iff]
  constructor
  · rintro ⟨member, found, same⟩
    have named := List.find?_some found
    have listed := List.mem_reverse.mp (List.mem_of_find?_eq_some found)
    obtain rfl := eq_of_beq named
    obtain rfl := same
    exact listed
  · intro listed
    cases found : members.reverse.find? fun member => member.1 == name with
    | none =>
      have other := List.find?_eq_none.mp found (name, value) (List.mem_reverse.mpr listed)
      simp at other
    | some member =>
      have named : member.1 = name := by simpa using List.find?_some found
      have too := List.mem_reverse.mp (List.mem_of_find?_eq_some found)
      have same := List.inj_on_of_nodup_map distinct too listed named
      exact ⟨member, rfl, congrArg Prod.snd same⟩

theorem get?_perm (same : members.Perm others) (distinct : (others.map (·.1)).Nodup) (name : JsString) :
    (JsonValue.object members).get? name = (JsonValue.object others).get? name := by
  apply Option.ext
  intro value
  rw [get?_eq_some_iff ((same.map _).nodup_iff.mpr distinct), get?_eq_some_iff distinct, same.mem_iff]

end Members

end Host
