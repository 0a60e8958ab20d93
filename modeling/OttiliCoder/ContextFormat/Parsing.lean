import OttiliCoder.ContextFormat.Value
import OttiliCoder.Library.TopLevel

/-! Reading OCF values: the text is cut again and again at commas and colons outside of brackets
and quoted strings. -/

namespace OttiliCoder.ContextFormat
open Host

def faultMessage : SplitFault → JsString
  | .unexpectedClosing => units "unexpected closing delimiter"
  | .unterminatedString => units "unterminated quoted string"
  | .unbalanced => units "unbalanced nested value"

def splitTopLevel (source : JsString) (delimiter line baseColumn : Nat) : Except OcfError (List SplitPart) :=
  match splitParts delimiter source with
  | .ok parts => return parts
  | .error (fault, index) => throw (.parseError "malformed_value" (faultMessage fault) line (baseColumn + index))

def findTopLevel (source : JsString) (delimiter line baseColumn : Nat) : Except OcfError (Option Nat) := do
  let parts ← splitTopLevel source delimiter line baseColumn
  if parts.length = 1 then return none else return parts.head?.map (·.text.length)

def parseQuotedString (source : JsString) (line column : Nat) : Except OcfError JsString :=
  match unquote source with
  | some value => return value
  | none => throw (.parseError "malformed_string" (units "invalid JSON-quoted string") line column)

/-! The parsers of nested values take the parser of the values inside. -/

section Nested
variable (parse : JsString → Nat → Nat → Except OcfError OcfValue)

/-- `source.slice(1, -1)`. -/
def innerText (source : JsString) : JsString := source.tail.dropLast

def parseItems (line column : Nat) : List SplitPart → Except OcfError (List OcfValue)
  | [] => return []
  | part :: parts => do
    if part.text = [] then
      throw (.parseError "malformed_array" (units "array values cannot be empty") line (column + 1 + part.offset))
    let value ← parse part.text line (column + 1 + part.offset)
    let values ← parseItems line column parts
    return value :: values

def parseArray (source : JsString) (line column : Nat) : Except OcfError (List OcfValue) :=
  let inner := innerText source
  if inner = [] then return []
  else do
    let parts ← splitTopLevel inner (unit ',') line (column + 1)
    parseItems parse line column parts

def startsWith (u : Nat) (text : JsString) : Bool := text.head? == some u

def endsWith (u : Nat) (text : JsString) : Bool := text.getLast? == some u

/-- One property, beside those read before it. -/
def parseProperty (line column : Nat) (result : OcfProperties) (part : SplitPart) : Except OcfError OcfProperties := do
  let start := column + 1 + part.offset
  if part.text = [] then
    throw (.parseError "malformed_object" (units "object properties cannot be empty") line start)
  let colon ← findTopLevel part.text (unit ':') line start
  match colon with
  | none | some 0 =>
    throw (.parseError "malformed_object" (units "object properties must use quoted key:value syntax") line start)
  | some colon =>
    let keyText := part.text.take colon
    let valueText := part.text.drop (colon + 1)
    if !(startsWith (unit '"') keyText && endsWith (unit '"') keyText) then
      throw (.parseError "malformed_object" (units "object keys must be JSON-quoted") line start)
    let key ← parseQuotedString keyText line start
    if key ∈ dangerousKeys then
      throw (.parseError "unsafe_key" (units "object key " ++ key ++ units " is not allowed") line start)
    if (result.lookup key).isSome then
      throw (.parseError "duplicate_key" (units "duplicate object key " ++ key) line start)
    if valueText = [] then
      throw (.parseError "malformed_object" (units "object values cannot be empty") line (start + colon + 1))
    let value ← parse valueText line (start + colon + 1)
    return Entries.set key value result

def parseObject (source : JsString) (line column : Nat) : Except OcfError OcfProperties :=
  let inner := innerText source
  if inner = [] then return []
  else do
    let parts ← splitTopLevel inner (unit ',') line (column + 1)
    parts.foldlM (parseProperty parse line column) []

def parseReference (source : JsString) (line column : Nat) : Except OcfError OcfValue := do
  let colon ← findTopLevel (source.drop 1) (unit ':') line (column + 1)
  match colon with
  | none | some 0 =>
    throw (.parseError "malformed_reference" (units "references must use &schema:id syntax") line column)
  | some colon =>
    let schema := (source.drop 1).take colon
    let id := source.drop (colon + 2)
    if !isSchemaToken schema then
      throw (.parseError "malformed_reference" (units "reference schema is invalid") line (column + 1))
    if id = [] then
      throw (.parseError "malformed_reference" (units "reference id cannot be empty") line (column + colon + 2))
    let parsedId ← parse id line (column + colon + 2)
    if !parsedId.isScalar then
      throw (.parseError "malformed_reference" (units "reference id must be a scalar") line (column + colon + 2))
    return .object [(units "$ref", .string schema), (units "id", parsedId)]

def bigintValue (literal : NumberLiteral) : Int :=
  if literal.negative then -(digitsValue literal.whole : Int) else digitsValue literal.whole

/-- What follows a `#`. -/
def parseNumber (literal : JsString) (line column : Nat) : Except OcfError OcfValue :=
  if endsWith (unit 'n') literal then
    match scanNumber literal.dropLast with
    | some integer =>
      if integer.isInteger then return .bigint (bigintValue integer)
      else throw (.parseError "malformed_number" (units "invalid bigint literal") line column)
    | none => throw (.parseError "malformed_number" (units "invalid bigint literal") line column)
  else
    match scanNumber literal with
    | none => throw (.parseError "malformed_number" (units "invalid number literal") line column)
    | some number =>
      let parsed := JsNumber.ofLiteral number
      if !parsed.isFinite then throw (.parseError "malformed_number" (units "number must be finite") line column)
      else if number.isInteger && !parsed.isSafeInteger then
        throw (.parseError "unsafe_integer"
          (units "integer literals outside JavaScript's safe range must use the bigint n suffix") line column)
      else return .number parsed

def parseStep (source : JsString) (line column : Nat) : Except OcfError OcfValue :=
  match source with
  | [] => throw (.parseError "malformed_value" (units "value cannot be empty") line column)
  | first :: rest =>
    if isWhiteSpace first || isWhiteSpace ((first :: rest).getLast (List.cons_ne_nil _ _)) then
      throw (.parseError "malformed_value" (units "whitespace outside quoted strings is not permitted") line column)
    else if source = units "~" then return .null
    else if source = units "!t" then return .boolean true
    else if source = units "!f" then return .boolean false
    else if first = unit '#' then parseNumber rest line column
    else if first = unit '"' then
      if !endsWith (unit '"') source then
        throw (.parseError "malformed_string" (units "unterminated quoted string") line column)
      else (parseQuotedString source line column).map .string
    else if first = unit '[' then
      if !endsWith (unit ']') source then throw (.parseError "malformed_array" (units "unterminated array") line column)
      else (parseArray parse source line column).map .array
    else if first = unit '{' then
      if !endsWith (unit '}') source then
        throw (.parseError "malformed_object" (units "unterminated object") line column)
      else (parseObject parse source line column).map .object
    else if first = unit '&' then parseReference parse source line column
    else if !canUseBareString source then
      throw (.parseError "malformed_string" (units "bare string contains reserved or unsafe characters") line column)
    else return .string source

end Nested

/-- Nested values are shorter, so this much recursion is enough. -/
def parseWithin : Nat → JsString → Nat → Nat → Except OcfError OcfValue
  | 0, _, line, column => throw (.parseError "malformed_value" (units "value cannot be empty") line column)
  | fuel + 1, source, line, column => parseStep (parseWithin fuel) source line column

def parseValue (source : JsString) (line column : Nat) : Except OcfError OcfValue :=
  parseWithin (source.length + 1) source line column

end OttiliCoder.ContextFormat
