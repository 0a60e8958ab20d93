import OttiliCoder.ContextFormat.Value
import Mathlib.Data.List.Sort

/-! Structural deltas between values, and their application. -/

namespace OttiliCoder.ContextFormat
open Host

/-! Hashes. -/

def isHexUnit (u : Nat) : Bool := isDigit u || (unit 'a' ≤ u && u ≤ unit 'f')

structure HexDigest where
  text : JsString
  length : text.length = 64
  hex : text.all isHexUnit = true

/-- `^sha256:[a-f0-9]{64}$`. -/
def isHash (text : JsString) : Bool :=
  (units "sha256:").isPrefixOf text && (text.drop 7).length == 64 && (text.drop 7).all isHexUnit

def hashText (sha256 : JsString → HexDigest) (text : JsString) : JsString := units "sha256:" ++ (sha256 text).text

def hashOcfValue (sha256 : JsString → HexDigest) (value : OcfValue) : Except OcfError JsString := do
  assertSerializable value (units "$")
  let text ← encodeValue value
  return hashText sha256 text

/-! Paths. -/

def replaceAll (u : Nat) (replacement text : JsString) : JsString :=
  text.flatMap fun other => if other = u then replacement else [other]

def encodePathSegment (segment : JsString) : JsString :=
  replaceAll (unit '/') (units "~1") (replaceAll (unit '~') (units "~0") segment)

def unescapeSegment : JsString → Option JsString
  | [] => some []
  | u :: rest =>
    if u = unit '~' then
      match rest with
      | escape :: more =>
        if escape = unit '0' then (unescapeSegment more).map (unit '~' :: ·)
        else if escape = unit '1' then (unescapeSegment more).map (unit '/' :: ·)
        else none
      | [] => none
    else (unescapeSegment rest).map (u :: ·)

def decodePathSegment (segment : JsString) : Except OcfError JsString :=
  match unescapeSegment segment with
  | none => throw (.error "invalid_delta_path" (units "Invalid JSON pointer escape in " ++ segment))
  | some result =>
    if result ∈ dangerousKeys then throw (.error "unsafe_key" (units "Unsafe delta path segment " ++ result))
    else return result

def joinPath (parent segment : JsString) : JsString := parent ++ unit '/' :: encodePathSegment segment

def parsePath : JsString → Except OcfError (List JsString)
  | [] => return []
  | first :: rest =>
    if first = unit '/' then (rest.splitOn (unit '/')).mapM decodePathSegment
    else throw (.error "invalid_delta_path"
      (units "Delta path " ++ first :: rest ++ units " must be a JSON pointer"))

/-! Creating a delta. -/

inductive DeltaOp where
  | add | remove | replace
deriving DecidableEq

structure OcfDeltaOperation where
  op : DeltaOp
  path : JsString
  value : Option OcfValue := none

structure OcfDelta where
  format : JsString
  baseHash : JsString
  targetHash : JsString
  operations : List OcfDeltaOperation

def allKeys (base target : OcfProperties) : List JsString :=
  (base.map (·.1) ++ target.map (·.1)).dedup.insertionSort (· ≤ ·)

def replacement (path : JsString) (target : OcfValue) : Except OcfError (List OcfDeltaOperation) := do
  let value ← cloneValue target
  return [{ op := .replace, path := path, value := some value }]

theorem sizeOf_lookup {properties : OcfProperties} {key : JsString} {value : OcfValue}
    (found : properties.lookup key = some value) : sizeOf value < sizeOf properties := by
  have member := Entries.mem_of_lookup found
  have inside := List.sizeOf_lt_of_mem member
  simp only [Prod.mk.sizeOf_spec] at inside
  omega

mutual

def diff (base target : OcfValue) (path : JsString) : Except OcfError (List OcfDeltaOperation) :=
  if valuesEqual base target then return []
  else
    match base, target with
    | .object baseProperties, .object targetProperties =>
      diffKeys baseProperties targetProperties path (allKeys baseProperties targetProperties)
    | _, _ => replacement path target
termination_by (sizeOf base, 0)

def diffKeys (base target : OcfProperties) (path : JsString) :
    List JsString → Except OcfError (List OcfDeltaOperation)
  | [] => return []
  | key :: keys => do
    let childPath := joinPath path key
    let first ←
      match _found : base.lookup key, target.lookup key with
      | none, targetValue => do
        let value ← cloneValue (targetValue.getD .null)
        pure [{ op := .add, path := childPath, value := some value }]
      | some _, none => pure [{ op := .remove, path := childPath }]
      | some baseValue, some targetValue => diff baseValue targetValue childPath
    let rest ← diffKeys base target path keys
    return first ++ rest
termination_by keys => (sizeOf base, keys.length + 1)
decreasing_by
  · exact Prod.Lex.right _ (by simp)
  · exact Prod.Lex.left _ _ (sizeOf_lookup ‹_›)

end

def createDelta (sha256 : JsString → HexDigest) (base target : OcfValue) : Except OcfError OcfDelta := do
  assertSerializable base (units "$")
  assertSerializable target (units "$")
  let operations ← diff base target []
  let baseHash ← hashOcfValue sha256 base
  let targetHash ← hashOcfValue sha256 target
  return { format := units "ocf-delta/1", baseHash, targetHash, operations }

/-! Applying a delta. -/

def DeltaOp.text : DeltaOp → JsString
  | .add => units "add"
  | .remove => units "remove"
  | .replace => units "replace"

def assertOperation (operation : OcfDeltaOperation) : Except OcfError Unit := do
  let _ ← parsePath operation.path
  match operation.op, operation.value with
  | .remove, some _ => throw (.error "invalid_delta" (units "Remove operations may not include a value"))
  | .remove, none => return ()
  | op, none => throw (.error "invalid_delta" (op.text ++ units " operations require a value"))
  | _, some value => assertSerializable value (units "$")

def assertDelta (delta : OcfDelta) : Except OcfError Unit := do
  if delta.format ≠ units "ocf-delta/1" then throw (.error "invalid_delta" (units "Unsupported delta format"))
  if !(isHash delta.baseHash && isHash delta.targetHash) then
    throw (.error "invalid_delta" (units "Delta hashes must be sha256 hashes"))
  delta.operations.forM assertOperation

/-- An index of digits without a leading zero, below the length or also at it. -/
def parseArrayIndex (segment : JsString) (length : Nat) (allowAppend : Bool) : Except OcfError Nat :=
  let (digits, left) := scanDigits segment
  if Canonical digits ∧ left = [] then
    let index := digitsValue digits
    if 2 ^ 53 ≤ index ∨ (if allowAppend then length < index else length ≤ index) then
      throw (.error "invalid_delta_path" (units "Array index " ++ segment ++ units " is out of range"))
    else return index
  else throw (.error "invalid_delta_path" (units "Array index " ++ segment ++ units " is invalid"))

/-- What an operation does to the parent of the place its path leads to. -/
def applyToParent (operation : OcfDeltaOperation) (value : OcfValue) (leaf : JsString) :
    OcfValue → Except OcfError OcfValue
  | .array items =>
    match operation.op with
    | .add => do
      let index ← parseArrayIndex leaf items.length true
      return .array (items.insertIdx index value)
    | .remove => do
      let index ← parseArrayIndex leaf items.length false
      return .array (items.eraseIdx index)
    | .replace => do
      let index ← parseArrayIndex leaf items.length false
      return .array (items.set index value)
  | .object properties =>
    match operation.op with
    | .add =>
      if (properties.lookup leaf).isSome then
        throw (.error "invalid_delta" (units "Cannot add existing key " ++ leaf))
      else return .object (Entries.set leaf value properties)
    | .remove =>
      if (properties.lookup leaf).isSome then return .object (Entries.erase leaf properties)
      else throw (.error "invalid_delta_path" (units "Cannot remove absent key " ++ leaf))
    | .replace =>
      if (properties.lookup leaf).isSome then return .object (Entries.set leaf value properties)
      else throw (.error "invalid_delta_path" (units "Cannot replace absent key " ++ leaf))
  | _ =>
    throw (.error "invalid_delta_path" (units "Delta parent for " ++ operation.path ++ units " is not a container"))

/-- The source walks to the parent and changes it in place; here the changed parent is put
back on the way out. -/
def updateParent (change : JsString → OcfValue → Except OcfError OcfValue) :
    List JsString → OcfValue → Except OcfError OcfValue
  | [], _ => throw (.error "invalid_delta_path" (units "Root has no parent"))
  | [leaf], parent => change leaf parent
  | segment :: rest, .array items => do
    let index ← parseArrayIndex segment items.length false
    let child ← updateParent change rest (items.getD index .null)
    return .array (items.set index child)
  | segment :: rest, .object properties =>
    match properties.lookup segment with
    | some child => do
      let changed ← updateParent change rest child
      return .object (Entries.set segment changed properties)
    | none =>
      throw (.error "invalid_delta_path" (units "Delta path segment " ++ segment ++ units " does not exist"))
  | segment :: _, _ =>
    throw (.error "invalid_delta_path" (units "Delta path segment " ++ segment ++ units " does not exist"))

attribute [grind =] updateParent

def applyOperation (root : OcfValue) (operation : OcfDeltaOperation) : Except OcfError OcfValue := do
  let segments ← parsePath operation.path
  if segments = [] then
    if operation.op = .remove then
      throw (.error "invalid_delta" (units "Cannot remove the delta document root"))
    else cloneValue (operation.value.getD .null)
  else
    let value ← if operation.op = .remove then pure .null else cloneValue (operation.value.getD .null)
    updateParent (applyToParent operation value) segments root

def applyDelta (sha256 : JsString → HexDigest) (base : OcfValue) (delta : OcfDelta) : Except OcfError OcfValue := do
  assertSerializable base (units "$")
  assertDelta delta
  let actualBaseHash ← hashOcfValue sha256 base
  if actualBaseHash ≠ delta.baseHash then
    throw (.error "delta_base_mismatch"
      (units "Delta expects " ++ delta.baseHash ++ units ", received " ++ actualBaseHash))
  let start ← cloneValue base
  let result ← delta.operations.foldlM applyOperation start
  let actualTargetHash ← hashOcfValue sha256 result
  if actualTargetHash ≠ delta.targetHash then
    throw (.error "delta_target_mismatch"
      (units "Delta reconstructed " ++ actualTargetHash ++ units ", expected " ++ delta.targetHash))
  return result

end OttiliCoder.ContextFormat
