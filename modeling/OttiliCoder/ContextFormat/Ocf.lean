import Mathlib.Data.List.Sort
import OttiliCoder.ContextFormat.Parsing
import OttiliCoder.ContextFormat.Schema

/-! OCF streams: records of one schema as lines of text, in one of three profiles, and how a stream
is read back. -/

namespace OttiliCoder.ContextFormat
open Host OcfSchemaRegistry

inductive OcfProfile where
  | readable | compact | dense
deriving DecidableEq

inductive OcfEncodingProfile where
  | profile (profile : OcfProfile)
  | adaptive

def profiles : List OcfProfile := [.readable, .compact, .dense]

def OcfProfile.text : OcfProfile → JsString
  | .readable => units "readable"
  | .compact => units "compact"
  | .dense => units "dense"

inductive OcfShape where
  | record | collection
deriving DecidableEq

def OcfShape.text : OcfShape → JsString
  | .record => units "record"
  | .collection => units "collection"

abbrev OcfRecord := OcfProperties

/-- What is encoded: one record or a list of them. -/
inductive OcfData where
  | record (record : OcfRecord)
  | collection (records : List OcfRecord)

namespace OcfData

def shape : OcfData → OcfShape
  | .record _ => .record
  | .collection _ => .collection

def records : OcfData → List OcfRecord
  | .record single => [single]
  | .collection many => many

end OcfData

/-! Encoding. -/

def invalidRecord (message : JsString) : OcfError := .error "invalid_record" message

def fieldPath (schema : RegisteredSchema) (field : OcfField) : JsString := schema.name ++ unit '.' :: field.name

def missingField (schema : RegisteredSchema) (field : OcfField) : OcfError :=
  invalidRecord (units "Record for " ++ schema.name ++ units " is missing field " ++ field.name)

def assertFields (schema : RegisteredSchema) (record : OcfRecord) : List OcfField → Except OcfError Unit
  | [] => return ()
  | field :: fields => do
    match record.lookup field.name with
    | none => throw (missingField schema field)
    | some value =>
      assertSerializable value (fieldPath schema field)
      validateFieldValue value field (fieldPath schema field)
      assertFields schema record fields

def assertRecord (record : OcfRecord) (schema : RegisteredSchema) : Except OcfError Unit := do
  match record.find? fun property => !(schema.fields.any fun field => field.name == property.1) with
  | some property =>
    throw (invalidRecord (units "Schema " ++ schema.name ++ units " has no field named " ++ property.1))
  | none => assertFields schema record schema.fields

def schemaTokenFor (schema : RegisteredSchema) (profile : OcfProfile) : JsString :=
  if profile = .dense then schema.id.text else schema.name

def encodeValueForField (value : OcfValue) (field : OcfField) : Except OcfError JsString := do
  match ← toWireValue value field with
  | .value wire => encodeValue wire
  | .method => throw (.error "invalid_value" (units "$ is not serializable"))

def encodeFields (schema : RegisteredSchema) (record : OcfRecord) : List OcfField → Except OcfError (List JsString)
  | [] => return []
  | field :: fields => do
    match record.lookup field.name with
    | none => throw (missingField schema field)
    | some value =>
      let text ← encodeValueForField value field
      let texts ← encodeFields schema record fields
      return text :: texts

def renderRecord (schema : RegisteredSchema) (profile : OcfProfile) (record : OcfRecord) : Except OcfError JsString := do
  let texts ← encodeFields schema record schema.fields
  return schemaTokenFor schema profile ++ unit '|' :: join (unit '|') texts

def renderRecords (schema : RegisteredSchema) (profile : OcfProfile) : List OcfRecord → Except OcfError (List JsString)
  | [] => return []
  | record :: records => do
    let line ← renderRecord schema profile record
    let lines ← renderRecords schema profile records
    return line :: lines

def streamLine (profile : OcfProfile) (shape : OcfShape) : JsString :=
  units "!ocf/1|" ++ profile.text ++ unit '|' :: shape.text

def wireFields (schema : RegisteredSchema) (profile : OcfProfile) : List JsString :=
  schema.fields.map fun field => wireFieldName field (decide (profile ≠ .readable))

def schemaLine (schema : RegisteredSchema) (profile : OcfProfile) : JsString :=
  unit '@' :: (schemaTokenFor schema profile ++ unit '/' :: (natUnits schema.version ++ unit '=' ::
    join (unit ',') (wireFields schema profile)))

def render (schema : RegisteredSchema) (records : List OcfRecord) (profile : OcfProfile) (shape : OcfShape) :
    Except OcfError JsString := do
  let lines ← renderRecords schema profile records
  return join (unit '\n') (streamLine profile shape :: schemaLine schema profile :: lines)

/-! Tokens are counted by words, a word of letters, digits and underscores by its length. -/

def isWordUnit (u : Nat) : Bool := isLetter u || isDigit u || u == unit '_'

def wordTokens (length : Nat) : Nat := (length + 3) / 4

/-- The tokens of the pieces, behind a word of the given length. -/
def pieceTokens (word : Nat) : JsString → Nat
  | [] => wordTokens word
  | [last] =>
    if isWordUnit last then wordTokens (word + 1)
    else if isWhiteSpace last then wordTokens word
    else wordTokens word + 1
  | first :: second :: rest =>
    if isWordUnit first then pieceTokens (word + 1) (second :: rest)
    else if isWhiteSpace first then wordTokens word + pieceTokens 0 (second :: rest)
    else if isHighSurrogate first && isLowSurrogate second then wordTokens word + 1 + pieceTokens 0 rest
    else wordTokens word + 1 + pieceTokens 0 (second :: rest)

def estimateTokens (text : JsString) : Nat :=
  if text = [] then 0
  else if pieceTokens 0 text = 0 then wordTokens text.length
  else pieceTokens 0 text

structure OcfEncoded where
  text : JsString
  profile : OcfProfile
  estimatedTokens : Nat

def encodedAs (schema : RegisteredSchema) (data : OcfData) (profile : OcfProfile) : Except OcfError OcfEncoded := do
  let text ← render schema data.records profile data.shape
  return { text, profile, estimatedTokens := estimateTokens text }

def profileRank (profile : OcfProfile) : Nat := profiles.idxOf profile

/-- The order of the candidates. -/
def comesFirst (left right : OcfEncoded) : Prop :=
  left.estimatedTokens < right.estimatedTokens ∨
    left.estimatedTokens = right.estimatedTokens ∧ profileRank left.profile ≤ profileRank right.profile

instance : DecidableRel comesFirst := fun left right =>
  inferInstanceAs (Decidable (left.estimatedTokens < right.estimatedTokens ∨ _ ∧ _))

/-- `candidates.sort(…)[0]`. -/
def firstCandidate (first second third : OcfEncoded) : OcfEncoded :=
  (([first, second, third] : List OcfEncoded).insertionSort comesFirst).headD first

def encodeAdaptively (schema : RegisteredSchema) (data : OcfData) : Except OcfError OcfEncoded := do
  let readable ← encodedAs schema data .readable
  let compact ← encodedAs schema data .compact
  let dense ← encodedAs schema data .dense
  return firstCandidate readable compact dense

def encodeWith (schema : RegisteredSchema) (data : OcfData) (profile : OcfEncodingProfile) : Except OcfError OcfEncoded := do
  data.records.forM fun record => assertRecord record schema
  match profile with
  | .profile profile => encodedAs schema data profile
  | .adaptive => encodeAdaptively schema data

/-- A computation beside the registry. -/
def lifted {α : Type} (result : Except OcfError α) : Registering α := fun registry =>
  match result with
  | .ok value => .ok value registry
  | .error e => .error e registry

def encodeDetailed (data : OcfData) (schema : OcfSchemaReference) (profile : Option OcfEncodingProfile) :
    Registering OcfEncoded := do
  let schema ← resolve schema
  lifted (encodeWith schema data (profile.getD .adaptive))

def encode (data : OcfData) (schema : OcfSchemaReference) (profile : Option OcfEncodingProfile) : Registering JsString := do
  let encoded ← encodeDetailed data schema profile
  return encoded.text

/-! Decoding. -/

def splitRecordLine (source : JsString) (line : Nat) : Except OcfError (List SplitPart) :=
  match splitParts (unit '|') source with
  | .ok parts => return parts
  | .error (fault, index) => throw (.parseError "malformed_record" (faultMessage fault) line (index + 1))

/-- `text.replaceAll("\r\n", "\n")`. -/
def joinLineEnds : JsString → JsString
  | [] => []
  | [last] => [last]
  | first :: second :: rest =>
    if first = 13 ∧ second = unit '\n' then unit '\n' :: joinLineEnds rest else first :: joinLineEnds (second :: rest)

def hasLineEnd : JsString → Bool
  | [] => false
  | [_] => false
  | first :: second :: rest => (first == 13 && second == unit '\n') || hasLineEnd (second :: rest)

def dropLastEmpty (lines : List JsString) : List JsString := if lines.getLast? = some [] then lines.dropLast else lines

def parseHeader (text : JsString) : Except OcfError (List JsString) := do
  if text = [] then throw (.parseError "empty_input" (units "input is empty") 1 1)
  if text.contains 13 && !hasLineEnd text then
    throw (.parseError "line_endings" (units "bare carriage returns are not allowed") 1 1)
  let lines := dropLastEmpty ((joinLineEnds text).splitOn (unit '\n'))
  if lines.any (· == []) then
    throw (.parseError "blank_line" (units "blank lines are not allowed in OCF/1") (lines.findIdx (· == []) + 1) 1)
  if lines.length < 2 then
    throw (.parseError "truncated_input" (units "OCF/1 requires a stream and schema header") (lines.length + 1) 1)
  return lines

structure DecodedHeader where
  profile : OcfProfile
  shape : OcfShape
  schemaToken : JsString
  version : Nat
  fields : List JsString

def profileOf (text : JsString) : Option OcfProfile := profiles.find? fun profile => profile.text == text

def shapeOf (text : JsString) : Option OcfShape := [OcfShape.record, .collection].find? fun shape => shape.text == text

def invalidHeader (message : String) (column : Nat) : OcfError := .parseError "invalid_schema_header" (units message) 2 column

/-- `^[1-9][0-9]*$`. -/
def isVersion : JsString → Bool
  | [] => false
  | first :: rest => isDigit first && first != unit '0' && rest.all isDigit

/-- The token, the version and the text of the fields, of `@token/version=fields`. -/
def decodeSchemaLine (line : JsString) : Except OcfError (JsString × Nat × List JsString) := do
  if !startsWith (unit '@') line then throw (invalidHeader "schema header must begin with @" 1)
  let equals := line.idxOf (unit '=')
  if equals = line.length ∨ equals ≤ 1 ∨ (line.drop (equals + 1)).contains (unit '=') then
    throw (invalidHeader "schema header must use @schema/version=field,field" 1)
  let schemaPart := (line.take equals).drop 1
  let versionText := (schemaPart.reverse.takeWhile fun u => u != unit '/').reverse
  let slash := schemaPart.length - versionText.length - 1
  if !schemaPart.contains (unit '/') || slash = 0 || versionText = [] then
    throw (invalidHeader "schema header requires a version" 1)
  let schemaToken := schemaPart.take slash
  if !isSchemaToken schemaToken then throw (invalidHeader "schema token is invalid" 2)
  if !isVersion versionText then throw (invalidHeader "schema version must be a positive integer" (slash + 2))
  let version := digitsValue (scanDigits versionText).1
  if 2 ^ 53 ≤ version then throw (invalidHeader "schema version is too large" (slash + 2))
  let fields := (line.drop (equals + 1)).splitOn (unit ',')
  if fields.any fun field => !isSchemaToken field then
    throw (invalidHeader "schema fields must be identifiers" (equals + 2))
  if !decide fields.Nodup then throw (invalidHeader "schema fields must be unique" (equals + 2))
  return (schemaToken, version, fields)

def decodeHeaders (lines : List JsString) : Except OcfError DecodedHeader := do
  match (lines.headD []).splitOn (unit '|') with
  | [mark, profileText, shapeText] =>
    if mark ≠ units "!ocf/1" then
      throw (.parseError "invalid_header" (units "expected !ocf/1|profile|record-or-collection") 1 1)
    match profileOf profileText with
    | none => throw (.parseError "invalid_profile" (units "unknown profile " ++ profileText) 1 8)
    | some profile =>
      match shapeOf shapeText with
      | none => throw (.parseError "invalid_shape" (units "unknown stream shape " ++ shapeText) 1 1)
      | some shape =>
        let (schemaToken, version, fields) ← decodeSchemaLine (lines.tail.headD [])
        return { profile, shape, schemaToken, version, fields }
  | _ => throw (.parseError "invalid_header" (units "expected !ocf/1|profile|record-or-collection") 1 1)

def checkHeader (schema : RegisteredSchema) (header : DecodedHeader) : Except OcfError Unit := do
  if header.schemaToken ≠ schemaTokenFor schema header.profile then
    throw (.parseError "schema_mismatch"
      (units "stream schema " ++ header.schemaToken ++ units " does not match " ++ schema.name) 2 2)
  if header.version ≠ schema.version then
    throw (.parseError "schema_version_mismatch" (units "stream schema version " ++ natUnits header.version ++
      units " does not match registered version " ++ natUnits schema.version) 2 1)
  if header.fields ≠ wireFields schema header.profile then
    throw (.parseError "schema_mismatch" (units "stream fields do not match schema " ++ schema.name) 2 1)

/-- An error of a value is told with its place. -/
def placed {α : Type} (line column : Nat) (result : Except OcfError α) : Except OcfError α :=
  match result with
  | .error (.error code message) => .error (.parseError code message line column)
  | other => other

def decodeField (schema : RegisteredSchema) (line : Nat) (record : OcfRecord) (field : OcfField) (encoded : SplitPart) :
    Except OcfError OcfRecord :=
  placed line (encoded.offset + 1) do
    let parsed ← parseValue encoded.text line (encoded.offset + 1)
    let value ← fromWireValue parsed field
    validateFieldValue value field (fieldPath schema field)
    return Entries.set field.name value record

def decodeFields (schema : RegisteredSchema) (line : Nat) (record : OcfRecord) :
    List OcfField → List SplitPart → Except OcfError OcfRecord
  | field :: fields, encoded :: parts => do
    let record ← decodeField schema line record field encoded
    decodeFields schema line record fields parts
  | _, _ => return record

def decodeRecord (schema : RegisteredSchema) (profile : OcfProfile) (source : JsString) (line : Nat) :
    Except OcfError OcfRecord := do
  let parts ← splitRecordLine source line
  let expectedToken := schemaTokenFor schema profile
  if (parts.map (·.text)).head? ≠ some expectedToken then
    throw (.parseError "schema_mismatch" (units "record must begin with " ++ expectedToken) line 1)
  if parts.length ≠ schema.fields.length + 1 then
    throw (.parseError "field_count" (units "expected " ++ natUnits schema.fields.length ++ units " fields but found " ++
      natUnits (parts.length - 1)) line 1)
  decodeFields schema line [] schema.fields parts.tail

def decodeLines (schema : RegisteredSchema) (profile : OcfProfile) (line : Nat) : List JsString → Except OcfError (List OcfRecord)
  | [] => return []
  | source :: sources => do
    let record ← decodeRecord schema profile source line
    let records ← decodeLines schema profile (line + 1) sources
    return record :: records

def decodeData (schema : RegisteredSchema) (header : DecodedHeader) (lines : List JsString) : Except OcfError OcfData := do
  checkHeader schema header
  let records ← decodeLines schema header.profile 3 (lines.drop 2)
  match header.shape, records with
  | .record, [record] => return .record record
  | .record, _ =>
    throw (.parseError "record_count" (units "record stream must contain exactly one record") 3 1)
  | .collection, records => return .collection records

/-- The data of a stream, and the schema it was read with. -/
def decodeStream (text : JsString) (schema : Option OcfSchemaReference) : Registering (RegisteredSchema × OcfData) := do
  let lines ← lifted (parseHeader text)
  let header ← lifted (decodeHeaders lines)
  let schema ← match schema with
    | none => resolveWireToken header.schemaToken
    | some reference => resolve reference
  let data ← lifted (decodeData schema header lines)
  return (schema, data)

def decode (text : JsString) (schema : Option OcfSchemaReference) : Registering OcfData := do
  let (_, data) ← decodeStream text schema
  return data

end OttiliCoder.ContextFormat
