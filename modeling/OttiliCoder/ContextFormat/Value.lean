import OttiliCoder.Library.Entries
import OttiliCoder.Library.JsNumber
import Mathlib.Data.List.Lex

/-! OCF values: which can be sent, when two are equal, and how one is written. -/

namespace OttiliCoder.ContextFormat
open Host

/-- The properties of an object are listed in the order of their keys, whatever order they
were added in. -/
inductive OcfValue where
  | null
  | boolean (value : Bool)
  | number (value : JsNumber)
  | bigint (value : Int)
  | string (value : JsString)
  | array (items : List OcfValue)
  | object (properties : List (JsString × OcfValue))

abbrev OcfProperties := List (JsString × OcfValue)

inductive OcfError where
  | error (code : String) (message : JsString)
  | parseError (code : String) (message : JsString) (line column : Nat)

/-- An induction over values: arrays from their items, objects from their properties. -/
theorem OcfValue.induct {motive : OcfValue → Prop} (null : motive .null) (boolean : ∀ value, motive (.boolean value))
    (number : ∀ value, motive (.number value)) (bigint : ∀ value, motive (.bigint value))
    (string : ∀ value, motive (.string value))
    (array : ∀ items, (∀ item ∈ items, motive item) → motive (.array items))
    (object : ∀ properties, (∀ property ∈ properties, motive property.2) → motive (.object properties))
    (value : OcfValue) : motive value :=
  @OcfValue.rec motive (fun items => ∀ item ∈ items, motive item)
    (fun properties => ∀ property ∈ properties, motive property.2) (fun property => motive property.2)
    null boolean number bigint string array object (by simp) (by simp +contextual) (by simp) (by simp +contextual)
    (fun _ _ held => held) value

def dangerousKeys : List JsString := [units "__proto__", units "constructor", units "prototype"]

def OcfValue.isScalar : OcfValue → Bool
  | .array _ => false
  | .object _ => false
  | _ => true

def isReference : OcfValue → Bool
  | .object [(schemaKey, schema), (idKey, id)] =>
    schemaKey == units "$ref" && idKey == units "id" && id.isScalar &&
      match schema with
      | .string _ => true
      | .number _ => true
      | _ => false
  | _ => false

def natUnits (n : Nat) : JsString := digitUnits (digitsOf n)

mutual

def assertSerializable : OcfValue → JsString → Except OcfError Unit
  | .number value, path =>
    if value.isFinite then return () else throw (.error "invalid_value" (path ++ units " must not be NaN or infinite"))
  | .array items, path => assertItemsSerializable items path 0
  | .object properties, path => assertPropertiesSerializable properties path
  | _, _ => return ()

def assertItemsSerializable : List OcfValue → JsString → Nat → Except OcfError Unit
  | [], _, _ => return ()
  | item :: rest, path, index => do
    assertSerializable item (path ++ units "[" ++ natUnits index ++ units "]")
    assertItemsSerializable rest path (index + 1)

def assertPropertiesSerializable : OcfProperties → JsString → Except OcfError Unit
  | [], _ => return ()
  | (key, value) :: rest, path => do
    if key ∈ dangerousKeys then
      throw (.error "unsafe_key" (path ++ units "." ++ key ++ units " is not allowed in OCF data"))
    assertSerializable value (path ++ units "." ++ key)
    assertPropertiesSerializable rest path

end

/-- A copy of a value is the value. -/
def cloneValue (value : OcfValue) : Except OcfError OcfValue := do
  assertSerializable value (units "$")
  return value

mutual

def valuesEqual : OcfValue → OcfValue → Bool
  | .null, .null => true
  | .boolean left, .boolean right => left == right
  | .number left, .number right => left.strictEqual right
  | .bigint left, .bigint right => left == right
  | .string left, .string right => left == right
  | .array left, .array right => itemsEqual left right
  | .object left, .object right => propertiesEqual left right
  | _, _ => false

def itemsEqual : List OcfValue → List OcfValue → Bool
  | [], [] => true
  | item :: left, other :: right => valuesEqual item other && itemsEqual left right
  | _, _ => false

def propertiesEqual : OcfProperties → OcfProperties → Bool
  | [], [] => true
  | (key, value) :: left, (other, same) :: right => key == other && valuesEqual value same && propertiesEqual left right
  | _, _ => false

end

/-! Writing. -/

/-- `^[A-Za-z0-9][A-Za-z0-9._/@:+-]*$`. -/
def isBareString : JsString → Bool
  | [] => false
  | first :: rest =>
    (isLetter first || isDigit first) &&
      rest.all fun u => isLetter u || isDigit u || (units "._/@:+-").contains u

def canUseBareString (value : JsString) : Bool :=
  isBareString value && value != units "~" && value != units "!t" && value != units "!f" &&
    value.head? != some (unit '#') && value.head? != some (unit '&')

/-- `^(?:[A-Za-z][A-Za-z0-9_-]*|[0-9]+)$`. -/
def isSchemaToken : JsString → Bool
  | [] => false
  | first :: rest =>
    (isLetter first && rest.all fun u => isLetter u || isDigit u || u == unit '_' || u == unit '-') ||
      (isDigit first && rest.all isDigit)

def numberText (value : JsNumber) : JsString :=
  if value = .negativeZero then units "-0"
  else if value.isInteger && !value.isSafeInteger then value.toExponential
  else value.toString

def bigintText (value : Int) : JsString :=
  (if value < 0 then [unit '-'] else []) ++ digitUnits (digitsOf value.natAbs)

/-- `String(value)` of the schema of a reference. -/
def schemaText : OcfValue → JsString
  | .string value => value
  | .number value => value.toString
  | _ => []

def join (separator : Nat) (parts : List JsString) : JsString := [separator].intercalate parts

mutual

def encodeValue : OcfValue → Except OcfError JsString
  | .null => return units "~"
  | .boolean value => return if value then units "!t" else units "!f"
  | .number value => do
    assertSerializable (.number value) (units "$")
    return unit '#' :: numberText value
  | .bigint value => return unit '#' :: (bigintText value ++ [unit 'n'])
  | .string value => return if canUseBareString value then value else quote value
  | .array items => do
    assertSerializable (.array items) (units "$")
    let texts ← encodeItems items
    return unit '[' :: (join (unit ',') texts ++ [unit ']'])
  | .object properties => do
    assertSerializable (.object properties) (units "$")
    if isReference (.object properties) then
      match properties with
      | [(_, schema), (_, id)] =>
        let reference := schemaText schema
        if !isSchemaToken reference then
          throw (.error "invalid_reference"
            (units "Reference schema " ++ reference ++ units " is not a valid schema token"))
        let idText ← encodeValue id
        return unit '&' :: (reference ++ unit ':' :: idText)
      | _ => return []
    else
      let texts ← encodeProperties properties
      return unit '{' :: (join (unit ',') texts ++ [unit '}'])

def encodeItems : List OcfValue → Except OcfError (List JsString)
  | [] => return []
  | item :: rest => do
    let text ← encodeValue item
    let texts ← encodeItems rest
    return text :: texts

def encodeProperties : OcfProperties → Except OcfError (List JsString)
  | [] => return []
  | (key, value) :: rest => do
    let text ← encodeValue value
    let texts ← encodeProperties rest
    return (quote key ++ unit ':' :: text) :: texts

end

end OttiliCoder.ContextFormat
