import Mathlib.Algebra.Group.Nat.Defs
import Mathlib.Data.Rat.Defs

/-! The values that cross the API and the durable log: numbers, JSON, dates and
entity ids. -/

namespace OttiliCoder

/-- A JavaScript number: a finite value, or one of NaN and the infinities. -/
inductive Number where
  | finite (value : Rat)
  | notFinite
deriving DecidableEq

namespace Number

instance (n : Nat) : OfNat Number n := ⟨.finite n⟩

def isFinite : Number → Bool
  | .finite _ => true
  | .notFinite => false

/-- `Number.isInteger`. -/
def isInteger : Number → Bool
  | .finite value => value.den == 1
  | .notFinite => false

/-- `Number.isSafeInteger`. -/
def isSafeInteger : Number → Bool
  | .finite value => value.den == 1 && value.num.natAbs ≤ 2 ^ 53 - 1
  | .notFinite => false

def below : Number → Rat → Bool
  | .finite value, bound => value < bound
  | .notFinite, _ => false

def above : Number → Rat → Bool
  | .finite value, bound => bound < value
  | .notFinite, _ => false

def atMost : Number → Rat → Bool
  | .finite value, bound => value ≤ bound
  | .notFinite, _ => false

end Number

inductive Json where
  | null
  | boolean (value : Bool)
  | number (value : Rat)
  | string (value : String)
  | array (items : List Json)
  | object (fields : List (String × Json))

abbrev JsonObject := List (String × Json)

namespace Json

def nat (value : Nat) : Json := .number value

def asString : Json → Option String
  | .string value => some value
  | _ => none

def asArray : Json → Option (List Json)
  | .array items => some items
  | _ => none

def asObject : Json → Option JsonObject
  | .object fields => some fields
  | _ => none

/-- `{ ...(value === undefined ? {} : { key: value }) }`. -/
def optionalField (key : String) (value : Option Json) : JsonObject :=
  match value with
  | some value => [(key, value)]
  | none => []

end Json

namespace JsonObject

/-- `fields[key]`; of two fields with one name the last counts. -/
def get? (fields : JsonObject) (key : String) : Option Json :=
  (fields.reverse.find? fun field => field.1 == key).map (·.2)

def text? (fields : JsonObject) (key : String) : Option String :=
  (JsonObject.get? fields key).bind Json.asString

end JsonObject

/-! Dates. A `Date` holds a valid instant; every stored timestamp is the text
`toISOString` gives for one. -/

/-- The largest distance from the epoch a `Date` can hold, in milliseconds. -/
def maxDateMs : Int := 8640000000000000

structure Date where
  ms : Int
  valid : -maxDateMs ≤ ms ∧ ms ≤ maxDateMs

namespace Date

def epoch : Date := ⟨0, by decide⟩

/-- `new Date(ms)`, nothing for an invalid date. -/
def ofMs? (ms : Int) : Option Date :=
  if valid : -maxDateMs ≤ ms ∧ ms ≤ maxDateMs then some ⟨ms, valid⟩ else none

/-- `new Date(date.getTime() + ms)`. -/
def plusMs? (date : Date) (ms : Int) : Option Date := ofMs? (date.ms + ms)

/-- Year, month and day of a day counted from 1970-01-01. -/
def civil (day : Int) : Int × Int × Int :=
  let z := day + 719468
  let era := z / 146097
  let doe := z % 146097
  let yoe := (doe - doe / 1460 + doe / 36524 - doe / 146096) / 365
  let doy := doe - (365 * yoe + yoe / 4 - yoe / 100)
  let mp := (5 * doy + 2) / 153
  let month := if mp < 10 then mp + 3 else mp - 9
  (yoe + era * 400 + (if month ≤ 2 then 1 else 0), month, doy - (153 * mp + 2) / 5 + 1)

def padStart (width : Nat) (digits : String) : String :=
  String.ofList (List.replicate (width - digits.length) '0') ++ digits

def padNat (width value : Nat) : String := padStart width (toString value)

def yearText (year : Int) : String :=
  if 0 ≤ year ∧ year ≤ 9999 then padNat 4 year.toNat
  else if year < 0 then "-" ++ padNat 6 year.natAbs
  else "+" ++ padNat 6 year.toNat

@[irreducible] def toISOString (date : Date) : String :=
  let (year, month, day) := civil (date.ms / 86400000)
  let rest := (date.ms % 86400000).toNat
  yearText year ++ "-" ++ padNat 2 month.toNat ++ "-" ++ padNat 2 day.toNat ++ "T" ++
    padNat 2 (rest / 3600000) ++ ":" ++ padNat 2 (rest / 60000 % 60) ++ ":" ++
    padNat 2 (rest / 1000 % 60) ++ "." ++ padNat 3 (rest % 1000) ++ "Z"

end Date

example : (Date.ofMs? 1700000000123).map Date.toISOString = some "2023-11-14T22:13:20.123Z" := by
  decide +kernel

abbrev IsoTimestamp := String

/-! Entity ids. -/

inductive EntityKind where
  | mission | run | goal | task | agent | sessionEpoch | milestone | checkpoint | requirement
  | evidence | decision | problem | validation | artifact | toolCall | gitChange | costRecord
  | recoveryState | lease | event | contextSnapshot | memoryEntry | approval | agentMessage
deriving DecidableEq

def EntityKind.text : EntityKind → String
  | .mission => "mission" | .run => "run" | .goal => "goal" | .task => "task" | .agent => "agent"
  | .sessionEpoch => "session-epoch" | .milestone => "milestone" | .checkpoint => "checkpoint"
  | .requirement => "requirement" | .evidence => "evidence" | .decision => "decision"
  | .problem => "problem" | .validation => "validation" | .artifact => "artifact"
  | .toolCall => "tool-call" | .gitChange => "git-change" | .costRecord => "cost-record"
  | .recoveryState => "recovery-state" | .lease => "lease" | .event => "event"
  | .contextSnapshot => "context-snapshot" | .memoryEntry => "memory-entry"
  | .approval => "approval" | .agentMessage => "agent-message"

/-- The UTF-16 code units `charCodeAt` reads. -/
def codeUnits (value : String) : List Nat :=
  value.toList.flatMap fun c =>
    if c.toNat < 0x10000 then [c.toNat]
    else [0xd800 + (c.toNat - 0x10000) / 0x400, 0xdc00 + (c.toNat - 0x10000) % 0x400]

def fnv64Offset : Nat := 0xcbf29ce484222325
def fnv64Prime : Nat := 0x100000001b3
def hashWidth : Nat := 13

def fnv64 (value : String) : Nat :=
  (codeUnits value).foldl (fun hash unit => (Nat.xor hash unit * fnv64Prime) % 2 ^ 64) fnv64Offset

def base36Digit (digit : Nat) : Char :=
  if digit < 10 then Char.ofNat ('0'.toNat + digit) else Char.ofNat ('a'.toNat + (digit - 10))

/-- The last `width` base 36 digits of `value`. -/
def base36 (value : Nat) : Nat → List Char
  | 0 => []
  | width + 1 => base36 (value / 36) width ++ [base36Digit (value % 36)]

/-- The 64-bit FNV-1a hash of a text, in base 36. -/
@[irreducible] def deterministicHash (value : String) : String := String.ofList (base36 (fnv64 value) hashWidth)

/-- `createId`; the seeds its callers give are never empty. -/
def createId (kind : EntityKind) (seed : String) : String :=
  kind.text ++ "_" ++ deterministicHash (kind.text ++ ":" ++ seed)

example : createId .run "a" = "run_1uwnizum31dtv" := by decide +kernel

abbrev MissionId := String
abbrev RunId := String
abbrev GoalId := String
abbrev TaskId := String
abbrev AgentId := String
abbrev SessionEpochId := String
abbrev MilestoneId := String
abbrev CheckpointId := String
abbrev RequirementId := String
abbrev EvidenceId := String
abbrev DecisionId := String
abbrev ProblemId := String
abbrev ValidationId := String
abbrev ArtifactId := String
abbrev ToolCallId := String
abbrev GitChangeId := String
abbrev CostRecordId := String
abbrev RecoveryStateId := String
abbrev RunLeaseId := String
abbrev ContextSnapshotId := String
abbrev MemoryEntryId := String
abbrev ApprovalId := String
abbrev AgentMessageId := String

end OttiliCoder
