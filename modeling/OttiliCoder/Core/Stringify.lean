import OttiliCoder.Core.Values
import OttiliCoder.Library.JsNumber
import OttiliCoder.Library.JsonText

/-! The JSON text of stored values. -/

namespace OttiliCoder
open Host

def naturalLiteral (n : Nat) : NumberLiteral where
  negative := false
  whole := digitsOf n
  canonical := digitsOf_canonical n

/-- How `JSON.stringify` shows a number. -/
def jsonNumber (value : Rat) : JsonValue :=
  match Binary64.nearest value with
  | some double => .number (JsNumber.positionalLiteral double)
  | none => .null

mutual
def jsonValue : Json → JsonValue
  | .null => .null
  | .boolean value => .boolean value
  | .number value => jsonNumber value
  | .string value => .string (utf16 value)
  | .array items => .array (jsonItems items)
  | .object fields => .object (jsonMembers fields)

def jsonItems : List Json → List JsonValue
  | [] => []
  | item :: items => jsonValue item :: jsonItems items

def jsonMembers : List (String × Json) → List (JsString × JsonValue)
  | [] => []
  | (name, value) :: fields => (utf16 name, jsonValue value) :: jsonMembers fields
end

/-- `JSON.stringify(value)`. -/
def stringify (value : Json) : JsString := (jsonValue value).stringify

end OttiliCoder
