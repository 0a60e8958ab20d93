import OttiliCoder.ContextFormat.Delta
import OttiliCoder.Library.Transaction

/-! The application of a delta as the program runs it: arrays and objects are cells, which several places may
refer to and which operations change in place. -/

namespace OttiliCoder.ContextFormat.InPlace
open Host Transaction

abbrev Loc := Nat

/-- What a variable, an array or an object holds: a scalar, or a reference to a cell. -/
inductive Slot where
  | null
  | boolean (value : Bool)
  | number (value : JsNumber)
  | bigint (value : Int)
  | string (value : JsString)
  | cell (loc : Loc)
deriving DecidableEq

/-- The properties of an object, listed in the order of their keys. -/
structure Properties where
  entries : List (JsString × Slot)
  sorted : Entries.Sorted entries

namespace Properties

def empty : Properties := ⟨[], .nil⟩

def set (properties : Properties) (key : JsString) (slot : Slot) : Properties :=
  ⟨Entries.set key slot properties.entries, Entries.sorted_set properties.sorted⟩

def erase (properties : Properties) (key : JsString) : Properties :=
  ⟨Entries.erase key properties.entries, Entries.sorted_erase properties.sorted⟩

def lookup (properties : Properties) (key : JsString) : Option Slot := properties.entries.lookup key

end Properties

inductive Cell where
  | array (items : List Slot)
  | object (properties : Properties)

abbrev Heap := List Cell

/-- An error of the format, or one of the host: the call stack is exceeded, or a reference leads nowhere. -/
inductive Failure where
  | ocf (error : OcfError)
  | host

abbrev HeapM := EStateM Failure Heap

def lift {α : Type} : Except OcfError α → HeapM α
  | .ok value => return value
  | .error error => throw (.ocf error)

def alloc (cell : Cell) : HeapM Slot := do
  let heap ← get
  set (heap ++ [cell])
  return .cell heap.length

def write (loc : Loc) (cell : Cell) : HeapM Unit := modify fun heap => heap.set loc cell

def readCell (loc : Loc) : HeapM Cell := do
  let heap ← get
  expect heap[loc]? .host

/-! Reading. Whatever only reads a value sees the tree it stands for, to the depth the call stack allows. -/

def valueWithin (heap : Heap) : Nat → Slot → Option OcfValue
  | _, .null => some .null
  | _, .boolean value => some (.boolean value)
  | _, .number value => some (.number value)
  | _, .bigint value => some (.bigint value)
  | _, .string value => some (.string value)
  | 0, .cell _ => none
  | depth + 1, .cell loc =>
    match heap[loc]? with
    | some (.array items) => (items.mapM (valueWithin heap depth)).map .array
    | some (.object properties) =>
      (properties.entries.mapM fun entry => (valueWithin heap depth entry.2).map (entry.1, ·)).map .object
    | none => none

def valueOf (stack : Nat) (slot : Slot) : HeapM OcfValue := do
  let heap ← get
  expect (valueWithin heap stack slot) .host

def assertSlot (stack : Nat) (slot : Slot) : HeapM Unit := do
  let value ← valueOf stack slot
  lift (assertSerializable value (units "$"))

def hashSlot (sha256 : JsString → HexDigest) (stack : Nat) (slot : Slot) : HeapM JsString := do
  let value ← valueOf stack slot
  lift (hashOcfValue sha256 value)

/-! Copying. -/

/-- Every array and every object is a new one. -/
def cloneWithin : Nat → Slot → HeapM Slot
  | 0, .cell _ => throw .host
  | depth + 1, .cell loc => do
    match ← readCell loc with
    | .array items => do
      let copies ← items.mapM (cloneWithin depth)
      alloc (.array copies)
    | .object properties => do
      let clone ← properties.entries.foldlM (fun (clone : Properties) entry => do
        return clone.set entry.1 (← cloneWithin depth entry.2)) .empty
      alloc (.object clone)
  | _, scalar => return scalar

/-- The source checks every part again when it comes to it, which the check of the whole covers. -/
def cloneSlot (stack : Nat) (slot : Slot) : HeapM Slot := do
  assertSlot stack slot
  cloneWithin stack slot

/-! Applying a delta. -/

/-- An operation as a caller may have made it: with any name, and a value or none. -/
structure Operation where
  op : JsString
  path : JsString
  value : Option Slot := none

structure Delta where
  format : JsString
  baseHash : JsString
  targetHash : JsString
  operations : List Operation

def assertOperation (stack : Nat) (operation : Operation) : HeapM Unit := do
  require (operation.op = units "add" ∨ operation.op = units "remove" ∨ operation.op = units "replace")
    (.ocf (.error "invalid_delta" (units "Unknown delta operation " ++ operation.op)))
  let _ ← lift (parsePath operation.path)
  if operation.op = units "remove" then
    match operation.value with
    | some _ => throw (.ocf (.error "invalid_delta" (units "Remove operations may not include a value")))
    | none => return ()
  else
    match operation.value with
    | none => throw (.ocf (.error "invalid_delta" (operation.op ++ units " operations require a value")))
    | some value => assertSlot stack value

def assertDelta (stack : Nat) (delta : Delta) : HeapM Unit := do
  require (delta.format = units "ocf-delta/1") (.ocf (.error "invalid_delta" (units "Unsupported delta format")))
  require (isHash delta.baseHash && isHash delta.targetHash)
    (.ocf (.error "invalid_delta" (units "Delta hashes must be sha256 hashes")))
  delta.operations.forM (assertOperation stack)

def missingSegment (segment : JsString) : Failure :=
  .ocf (.error "invalid_delta_path" (units "Delta path segment " ++ segment ++ units " does not exist"))

/-- The place a path leads to: what it is in, and its name there. -/
def resolveParent : Slot → List JsString → HeapM (Slot × JsString)
  | _, [] => throw (.ocf (.error "invalid_delta_path" (units "Root has no parent")))
  | parent, [leaf] => return (parent, leaf)
  | .cell loc, segment :: next :: rest => do
    match ← readCell loc with
    | .array items => do
      let index ← lift (parseArrayIndex segment items.length false)
      resolveParent (items.getD index .null) (next :: rest)
    | .object properties =>
      match properties.lookup segment with
      | some child => resolveParent child (next :: rest)
      | none => throw (missingSegment segment)
  | _, segment :: _ :: _ => throw (missingSegment segment)

/-- A value that is given; the check of the delta sees to it. -/
def givenValue (operation : Operation) : Slot := operation.value.getD .null

def applyToArray (stack : Nat) (operation : Operation) (loc : Loc) (items : List Slot) (leaf : JsString) : HeapM Unit := do
  if operation.op = units "add" then
    let index ← lift (parseArrayIndex leaf items.length true)
    let value ← cloneSlot stack (givenValue operation)
    write loc (.array (items.insertIdx index value))
  else
    let index ← lift (parseArrayIndex leaf items.length false)
    if operation.op = units "remove" then write loc (.array (items.eraseIdx index))
    else
      let value ← cloneSlot stack (givenValue operation)
      write loc (.array (items.set index value))

def applyToObject (stack : Nat) (operation : Operation) (loc : Loc) (properties : Properties) (leaf : JsString) : HeapM Unit := do
  if operation.op = units "add" then
    require ((properties.lookup leaf).isNone) (.ocf (.error "invalid_delta" (units "Cannot add existing key " ++ leaf)))
    let value ← cloneSlot stack (givenValue operation)
    write loc (.object (properties.set leaf value))
  else if operation.op = units "remove" then
    require ((properties.lookup leaf).isSome)
      (.ocf (.error "invalid_delta_path" (units "Cannot remove absent key " ++ leaf)))
    write loc (.object (properties.erase leaf))
  else
    require ((properties.lookup leaf).isSome)
      (.ocf (.error "invalid_delta_path" (units "Cannot replace absent key " ++ leaf)))
    let value ← cloneSlot stack (givenValue operation)
    write loc (.object (properties.set leaf value))

def applyOperation (stack : Nat) (root : Slot) (operation : Operation) : HeapM Slot := do
  let segments ← lift (parsePath operation.path)
  if segments = [] then
    if operation.op = units "remove" then
      throw (.ocf (.error "invalid_delta" (units "Cannot remove the delta document root")))
    else cloneSlot stack (givenValue operation)
  else
    let (parent, leaf) ← resolveParent root segments
    match parent with
    | .cell loc => do
      match ← readCell loc with
      | .array items => applyToArray stack operation loc items leaf
      | .object properties => applyToObject stack operation loc properties leaf
      return root
    | _ =>
      throw (.ocf (.error "invalid_delta_path"
        (units "Delta parent for " ++ operation.path ++ units " is not a container")))

def applyDelta (sha256 : JsString → HexDigest) (stack : Nat) (base : Slot) (delta : Delta) : HeapM Slot := do
  assertSlot stack base
  assertDelta stack delta
  let actualBaseHash ← hashSlot sha256 stack base
  require (actualBaseHash = delta.baseHash) (.ocf (.error "delta_base_mismatch"
    (units "Delta expects " ++ delta.baseHash ++ units ", received " ++ actualBaseHash)))
  let start ← cloneSlot stack base
  let result ← delta.operations.foldlM (applyOperation stack) start
  let actualTargetHash ← hashSlot sha256 stack result
  require (actualTargetHash = delta.targetHash) (.ocf (.error "delta_target_mismatch"
    (units "Delta reconstructed " ++ actualTargetHash ++ units ", expected " ++ delta.targetHash)))
  return result

end OttiliCoder.ContextFormat.InPlace
