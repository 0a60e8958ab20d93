import OttiliCoder.ContextFormat.Value

/-! Schemas of OCF records: what a registry accepts, how a reference is resolved, and which values
a field takes. -/

namespace OttiliCoder.ContextFormat
open Host

inductive OcfFieldType where
  | unknown | string | number | integer | bigint | boolean | array | object | reference
deriving DecidableEq

def OcfFieldType.text : OcfFieldType → JsString
  | .unknown => units "unknown"
  | .string => units "string"
  | .number => units "number"
  | .integer => units "integer"
  | .bigint => units "bigint"
  | .boolean => units "boolean"
  | .array => units "array"
  | .object => units "object"
  | .reference => units "reference"

/-- The table of values lists its own properties in order. -/
structure OcfField where
  name : JsString
  wireAlias : Option JsString := none
  type : Option OcfFieldType := none
  itemType : Option OcfFieldType := none
  nullable : Option Bool := none
  values : Option (List (JsString × JsString)) := none
deriving DecidableEq

inductive SchemaId where
  | string (value : JsString)
  | number (value : JsNumber)

structure OcfSchema where
  id : SchemaId
  name : JsString
  version : Option JsNumber := none
  fields : List OcfField

/-- A schema id that was accepted: a number is a safe integer. -/
inductive RegisteredId where
  | string (value : JsString)
  | number (value : Nat)
deriving DecidableEq

/-- `String(schema.id)`. -/
def RegisteredId.text : RegisteredId → JsString
  | .string value => value
  | .number value => natUnits value

/-- A schema as the registry keeps it. -/
structure RegisteredSchema where
  id : RegisteredId
  name : JsString
  version : Nat
  fields : List OcfField
deriving DecidableEq

/-! Normalising. -/

/-- `^[A-Za-z][A-Za-z0-9_-]*$`. -/
def isIdentifier : JsString → Bool
  | [] => false
  | first :: rest => isLetter first && rest.all fun u => isLetter u || isDigit u || u == unit '_' || u == unit '-'

def invalidSchema (message : JsString) : OcfError := .error "invalid_schema" message

def assertIdentifier (value : JsString) (label : String) : Except OcfError Unit :=
  if isIdentifier value then return ()
  else throw (invalidSchema (units label ++ unit ' ' :: value ++ units " must match ^[A-Za-z][A-Za-z0-9_-]*$"))

def natOf (number : JsNumber) : Nat := number.toRat.num.toNat

def normalizeId : SchemaId → Except OcfError RegisteredId
  | .string value =>
    if value = [] then throw (invalidSchema (units "Schema id must be a non-empty string or number"))
    else return .string value
  | .number value =>
    if !value.isSafeInteger || value.toRat < 0 then
      throw (invalidSchema (units "Numeric schema id must be a non-negative safe integer"))
    else return .number (natOf value)

def normalizeVersion (version : Option JsNumber) : Except OcfError Nat :=
  match version with
  | none => return 1
  | some value =>
    if !value.isSafeInteger || value.toRat < 1 then
      throw (invalidSchema (units "Schema version must be a positive safe integer"))
    else return natOf value

/-- The entries of a table, beside the wire values of those before. -/
def checkValues (fieldName : JsString) (wireValues : List JsString) : List (JsString × JsString) → Except OcfError Unit
  | [] => return ()
  | (value, wire) :: entries => do
    if value = [] ∨ wire = [] then
      throw (invalidSchema (units "Value aliases for " ++ fieldName ++ units " must be non-empty"))
    if wire ∈ wireValues then
      throw (invalidSchema (units "Duplicate wire value " ++ wire ++ units " for " ++ fieldName))
    checkValues fieldName (wire :: wireValues) entries

/-- The fields, beside the names and aliases of those before. -/
def checkFields (names aliases : List JsString) : List OcfField → Except OcfError Unit
  | [] => return ()
  | field :: fields => do
    assertIdentifier field.name "Field name"
    if field.name ∈ names then throw (invalidSchema (units "Duplicate field name " ++ field.name))
    let wireAlias := field.wireAlias.getD field.name
    assertIdentifier wireAlias "Field alias"
    if wireAlias ∈ aliases then throw (invalidSchema (units "Duplicate field alias " ++ wireAlias))
    checkValues field.name [] (field.values.getD [])
    checkFields (field.name :: names) (wireAlias :: aliases) fields

def normalizeSchema (schema : OcfSchema) : Except OcfError RegisteredSchema := do
  let id ← normalizeId schema.id
  assertIdentifier schema.name "Schema name"
  let version ← normalizeVersion schema.version
  if schema.fields = [] then throw (invalidSchema (units "Schema must declare at least one field"))
  checkFields [] [] schema.fields
  return { id, name := schema.name, version, fields := schema.fields }

/-! The registry: its two maps are filled together, so that one list holds both. -/

structure OcfSchemaRegistry where
  schemas : List RegisteredSchema := []

namespace OcfSchemaRegistry

def byName (registry : OcfSchemaRegistry) (name : JsString) : Option RegisteredSchema :=
  registry.schemas.find? fun schema => schema.name == name

def byId (registry : OcfSchemaRegistry) (id : RegisteredId) : Option RegisteredSchema :=
  registry.schemas.find? fun schema => schema.id == id

/-- Nothing is registered under a number that is no safe integer. -/
def keyForId : SchemaId → Option RegisteredId
  | .string value => some (.string value)
  | .number value => if value.isSafeInteger && decide (0 ≤ value.toRat) then some (.number (natOf value)) else none

abbrev Registering := EStateM OcfError OcfSchemaRegistry

def register (schema : OcfSchema) : Registering RegisteredSchema := fun registry =>
  match normalizeSchema schema with
  | .error e => .error e registry
  | .ok normalized =>
    match registry.byName normalized.name, registry.byId normalized.id with
    | none, none => .ok normalized { schemas := registry.schemas ++ [normalized] }
    | existingByName, existingById =>
      if existingByName = some normalized ∧ existingById.isSome then .ok normalized registry
      else .error (.error "duplicate_schema" (units "Schema " ++ normalized.name ++ units " / " ++ normalized.id.text ++
        units " is already registered with a different definition")) registry

end OcfSchemaRegistry

inductive OcfSchemaReference where
  | schema (schema : OcfSchema)
  | name (value : JsString)
  | number (value : JsNumber)

namespace OcfSchemaRegistry

/-- `^[0-9]+$`. -/
def isNumeric (text : JsString) : Bool := text != [] && text.all isDigit

/-- `Number(text)` as a schema id. -/
def numericId (text : JsString) : RegisteredId := .number (digitsValue (scanDigits text).1)

def unknownSchema (what reference : JsString) : OcfError :=
  .error "unknown_schema" (units "No OCF schema registered for " ++ what ++ reference)

def resolveToken (registry : OcfSchemaRegistry) (reference : JsString) : Option RegisteredSchema :=
  (registry.byName reference).or ((registry.byId (.string reference)).or
    (if isNumeric reference then registry.byId (numericId reference) else none))

def resolve (reference : OcfSchemaReference) : Registering RegisteredSchema := fun registry =>
  match reference with
  | .schema schema =>
    match registry.byName schema.name, (keyForId schema.id).bind registry.byId with
    | some named, some identified => if named = identified then .ok named registry else register schema registry
    | _, _ => register schema registry
  | .name value =>
    match registry.resolveToken value with
    | some schema => .ok schema registry
    | none => .error (unknownSchema [] value) registry
  | .number value =>
    match (keyForId (.number value)).bind registry.byId with
    | some schema => .ok schema registry
    | none => .error (unknownSchema [] value.toString) registry

def resolveWireToken (token : JsString) : Registering RegisteredSchema := fun registry =>
  let byNumericId := if isNumeric token then registry.byId (numericId token) else none
  match (registry.byName token).or (byNumericId.or (registry.byId (.string token))) with
  | some schema => .ok schema registry
  | none => .error (unknownSchema (units "wire token ") token) registry

end OcfSchemaRegistry

/-! Values of a field. -/

def typeMatches (value : OcfValue) : OcfFieldType → Bool
  | .unknown => true
  | .string => match value with | .string _ => true | _ => false
  | .number => match value with | .number number => number.isFinite | _ => false
  | .integer => match value with | .number number => number.isInteger | _ => false
  | .bigint => match value with | .bigint _ => true | _ => false
  | .boolean => match value with | .boolean _ => true | _ => false
  | .array => match value with | .array _ => true | _ => false
  | .object => match value with | .object _ => !isReference value | _ => false
  | .reference => isReference value

/-- What a table gives for a string. -/
inductive TableEntry where
  | wire (value : JsString)
  | prototype
  | method

/-- The methods every object inherits. -/
def inheritedMethods : List JsString :=
  [units "constructor", units "__defineGetter__", units "__defineSetter__", units "hasOwnProperty", units "__lookupGetter__",
    units "__lookupSetter__", units "isPrototypeOf", units "propertyIsEnumerable", units "toString", units "valueOf",
    units "toLocaleString"]

/-- `values[value]`: an own property, else an inherited one. -/
def tableEntry (values : List (JsString × JsString)) (value : JsString) : Option TableEntry :=
  match values.lookup value with
  | some wire => some (.wire wire)
  | none =>
    if value = units "__proto__" then some .prototype
    else if value ∈ inheritedMethods then some .method
    else none

def invalidFieldValue (message : JsString) : OcfError := .error "invalid_field_value" message

def validateItems (itemType : OcfFieldType) (path : JsString) (index : Nat) : List OcfValue → Except OcfError Unit
  | [] => return ()
  | item :: items => do
    if !typeMatches item itemType then
      throw (invalidFieldValue (path ++ unit '[' :: natUnits index ++ units "] must be " ++ itemType.text))
    validateItems itemType path (index + 1) items

def validateFieldValue (value : OcfValue) (field : OcfField) (path : JsString) : Except OcfError Unit :=
  match value with
  | .null =>
    if field.nullable = some false then throw (invalidFieldValue (path ++ units " may not be null")) else return ()
  | _ => do
    let type := field.type.getD .unknown
    if !typeMatches value type then throw (invalidFieldValue (path ++ units " must be " ++ type.text))
    match value, field.itemType, field.values with
    | .array items, some itemType, _ => validateItems itemType path 0 items
    | .string text, _, some values =>
      if (tableEntry values text).isNone then
        throw (invalidFieldValue (path ++ units " is not a declared value for " ++ field.name))
    | _, _, _ => return ()

def wireFieldName (field : OcfField) (compact : Bool) : JsString := if compact then field.wireAlias.getD field.name else field.name

/-- A value on its way to the encoder: an inherited method is no value. -/
inductive WireValue where
  | value (value : OcfValue)
  | method

/-- The prototype of objects has no properties of its own. -/
def toWireValue (value : OcfValue) (field : OcfField) : Except OcfError WireValue :=
  match field.values, value with
  | some values, .string text =>
    match tableEntry values text with
    | some (.wire wire) => return .value (.string wire)
    | some .prototype => return .value (.object [])
    | some .method => return .method
    | none => throw (invalidFieldValue (field.name ++ units " is not a declared value: " ++ text))
  | _, _ => return .value value

def fromWireValue (value : OcfValue) (field : OcfField) : Except OcfError OcfValue :=
  match field.values, value with
  | some values, .string text =>
    match values.find? fun entry => entry.2 == text with
    | some entry => return .string entry.1
    | none => throw (invalidFieldValue (field.name ++ units " has unknown compact value " ++ text))
  | _, _ => return value

end OttiliCoder.ContextFormat
