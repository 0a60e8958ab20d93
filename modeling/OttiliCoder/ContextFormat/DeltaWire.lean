import OttiliCoder.ContextFormat.Delta
import OttiliCoder.ContextFormat.Ocf

/-! Deltas as text: one line for each operation, cut into its fields at bars. -/

namespace OttiliCoder.ContextFormat
open Host

/-- Where the cut of a line is. Brackets are counted and not matched, so the depth may go below zero. -/
structure LineScan where
  depth : Int := 0
  quoted : Bool := false
  escaped : Bool := false

namespace LineScan

def next (scan : LineScan) (u : Nat) : LineScan :=
  if scan.quoted then
    if scan.escaped then { scan with escaped := false }
    else if u = unit '\\' then { scan with escaped := true }
    else if u = unit '"' then { scan with quoted := false }
    else scan
  else if u = unit '"' then { scan with quoted := true }
  else if u = unit '[' ∨ u = unit '{' then { scan with depth := scan.depth + 1 }
  else if u = unit ']' ∨ u = unit '}' then { scan with depth := scan.depth - 1 }
  else scan

def cuts (scan : LineScan) (u : Nat) : Bool := !scan.quoted && u == unit '|' && scan.depth == 0

end LineScan

structure LinePart where
  text : JsString
  column : Nat

/-- The parts from this index on, where `part` is what was read since the last bar. -/
def splitLineFrom (line : Nat) (scan : LineScan) (index : Nat) (part : LinePart) : JsString → Except OcfError (List LinePart)
  | [] =>
    if scan.quoted ∨ scan.depth ≠ 0 then
      throw (.parseError "malformed_delta" (units "unbalanced delta value") line (index + 1))
    else return [part]
  | u :: rest =>
    if scan.cuts u then do
      let parts ← splitLineFrom line (scan.next u) (index + 1) { text := [], column := index + 2 } rest
      return part :: parts
    else splitLineFrom line (scan.next u) (index + 1) { part with text := part.text ++ [u] } rest

def splitLine (source : JsString) (line : Nat) : Except OcfError (List LinePart) :=
  splitLineFrom line {} 0 { text := [], column := 1 } source

/-! Encoding. -/

def encodeOperation (operation : OcfDeltaOperation) : Except OcfError JsString := do
  let path ← encodeValue (.string operation.path)
  let head := units "op|" ++ operation.op.text ++ unit '|' :: path
  if operation.op = .remove then return head
  else do
    let value ← encodeValue (operation.value.getD .null)
    return head ++ unit '|' :: value

def encodeDelta (delta : OcfDelta) : Except OcfError JsString := do
  assertDelta delta
  let operations ← delta.operations.mapM encodeOperation
  return join (unit '\n')
    (units "!ocf-delta/1" :: (units "base|" ++ delta.baseHash) :: (units "target|" ++ delta.targetHash) :: operations)

/-! Decoding. -/

def deltaOpOf (text : JsString) : Option DeltaOp := [DeltaOp.add, .remove, .replace].find? fun op => op.text == text

def invalidLine (message : JsString) (line : Nat) : OcfError := .parseError "invalid_delta" message line 1

def decodePath (part : LinePart) (line : Nat) : Except OcfError JsString := do
  match ← parseValue part.text line part.column with
  | .string path => return path
  | _ => throw (invalidLine (units "delta path must be a string") line)

def decodeOperation (source : JsString) (line : Nat) : Except OcfError OcfDeltaOperation := do
  match ← splitLine source line with
  | head :: kind :: path :: values =>
    if head.text ≠ units "op" ∨ 1 < values.length then
      throw (invalidLine (units "delta operation must use op|kind|path|value") line)
    else
      match deltaOpOf kind.text, values with
      | none, _ => throw (invalidLine (units "unknown operation " ++ kind.text) line)
      | some .remove, [] => do
        let path ← decodePath path line
        return { op := .remove, path }
      | some .add, [value] => do
        let path ← decodePath path line
        let value ← parseValue value.text line value.column
        return { op := .add, path, value }
      | some .replace, [value] => do
        let path ← decodePath path line
        let value ← parseValue value.text line value.column
        return { op := .replace, path, value }
      | some op, _ => throw (invalidLine (op.text ++ units " operation has an invalid number of fields") line)
  | _ => throw (invalidLine (units "delta operation must use op|kind|path|value") line)

def decodeOperations (line : Nat) : List JsString → Except OcfError (List OcfDeltaOperation)
  | [] => return []
  | source :: sources => do
    let operation ← decodeOperation source line
    let operations ← decodeOperations (line + 1) sources
    return operation :: operations

/-- `text.replaceAll("\r\n", "\n").split("\n")`, without an empty last line. -/
def deltaLines (text : JsString) : List JsString := dropLastEmpty ((joinLineEnds text).splitOn (unit '\n'))

/-- The hash on a line under its name. -/
def hashPart (name : String) : List LinePart → Option JsString
  | [label, hash] => if label.text = units name then some hash.text else none
  | _ => none

def decodeDeltaLines : List JsString → Except OcfError OcfDelta
  | header :: baseLine :: targetLine :: sources => do
    if header ≠ units "!ocf-delta/1" then throw (invalidLine (units "expected !ocf-delta/1") 1)
    let baseParts ← splitLine baseLine 2
    let targetParts ← splitLine targetLine 3
    match hashPart "base" baseParts, hashPart "target" targetParts with
    | some baseHash, some targetHash => do
      let operations ← decodeOperations 4 sources
      let delta : OcfDelta := { format := units "ocf-delta/1", baseHash, targetHash, operations }
      assertDelta delta
      return delta
    | _, _ => throw (invalidLine (units "delta requires base and target hash lines") 2)
  | lines => do
    if lines.head? ≠ some (units "!ocf-delta/1") then throw (invalidLine (units "expected !ocf-delta/1") 1)
    throw (.parseError "truncated_delta" (units "delta requires base and target hash lines") (lines.length + 1) 1)

def decodeDelta (text : JsString) : Except OcfError OcfDelta := decodeDeltaLines (deltaLines text)

end OttiliCoder.ContextFormat
