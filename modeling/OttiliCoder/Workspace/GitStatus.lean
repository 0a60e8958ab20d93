import OttiliCoder.Library.JsString

/-! The status of a working tree, as `git status --porcelain=v2 -z` prints it and as the Git service reads it. -/

namespace OttiliCoder.Git
open Host

inductive GitStatusEntryKind where
  | ordinary | renamedOrCopied | unmerged | untracked | ignored
deriving DecidableEq

structure GitStatusEntry where
  kind : GitStatusEntryKind
  path : JsString
  originalPath : Option JsString := none
  /-- The index half of the XY status, if applicable. -/
  indexStatus : JsString
  /-- The worktree half of it, if applicable. -/
  worktreeStatus : JsString
deriving DecidableEq

/-- The message of a `GitSnapshotError`. -/
abbrev Malformed := JsString

def malformed (context : String) : Malformed := units ("Malformed Git output while parsing " ++ context ++ ".")

def requireField (fields : List JsString) (index : Nat) (context : String) : Except Malformed JsString :=
  match fields[index]? with
  | some (first :: rest) => .ok (first :: rest)
  | _ => .error (malformed context)

/-- Porcelain v2 has a dot for an unchanged slot, the short format a blank. -/
def normalizeStatusCharacter (value : JsString) : JsString := if value = units "." then units " " else value

/-- `text.charAt(index)`. -/
def charAt (text : JsString) (index : Nat) : JsString := (text[index]?).toList

/-- So many fields that end in blanks, and what is behind them. -/
def splitFields : Nat → JsString → Option (List JsString × JsString)
  | 0, record => some ([], record)
  | count + 1, record =>
    match record.dropWhile fun u => u != unit ' ' with
    | [] => none
    | _ :: rest => (splitFields count rest).map fun (fields, tail) => ((record.takeWhile fun u => u != unit ' ') :: fields, tail)

/-- The first `fieldCount` space-delimited fields and the untouched tail. -/
def splitFieldsAndTail (record : JsString) (fieldCount : Nat) (context : String) : Except Malformed (List JsString × JsString) :=
  match splitFields fieldCount record with
  | none | some (_, []) => .error (malformed context)
  | some parsed => .ok parsed

/-- An entry with an XY status; for one that was renamed or copied, the source is in the next record. -/
def parseTracked (kind : GitStatusEntryKind) (record : JsString) (fieldCount : Nat) (context : String) : Except Malformed GitStatusEntry := do
  let (fields, tail) ← splitFieldsAndTail record fieldCount context
  let xy ← requireField fields 1 context
  return {
    kind, path := tail
    indexStatus := normalizeStatusCharacter (charAt xy 0)
    worktreeStatus := normalizeStatusCharacter (charAt xy 1) }

def parseRecords : List JsString → Except Malformed (List GitStatusEntry)
  | [] => .ok []
  | record :: rest =>
    if record = [] then parseRecords rest
    else if (units "1 ").isPrefixOf record then do
      -- 1 <XY> <sub> <mH> <mI> <mW> <hH> <hI> <path>
      let entry ← parseTracked .ordinary record 8 "ordinary status"
      return entry :: (← parseRecords rest)
    else if (units "2 ").isPrefixOf record then do
      -- 2 <XY> <sub> <mH> <mI> <mW> <hH> <hI> <Xscore> <path>\0<origPath>
      let entry ← parseTracked .renamedOrCopied record 9 "rename/copy status"
      match rest with
      | [] | [] :: _ => .error (units "Malformed Git output: rename/copy source path is missing.")
      | originalPath :: later => return { entry with originalPath := some originalPath } :: (← parseRecords later)
    else if (units "u ").isPrefixOf record then do
      -- u <XY> <sub> <m1> <m2> <m3> <mW> <h1> <h2> <h3> <path>
      let entry ← parseTracked .unmerged record 10 "unmerged status"
      return entry :: (← parseRecords rest)
    else if (units "? ").isPrefixOf record then
      return { kind := .untracked, path := record.drop 2, indexStatus := units "?", worktreeStatus := units "?" } :: (← parseRecords rest)
    else if (units "! ").isPrefixOf record then
      return { kind := .ignored, path := record.drop 2, indexStatus := units "!", worktreeStatus := units "!" } :: (← parseRecords rest)
    else .error (units "Unsupported Git porcelain v2 record: " ++ record.take 24)

attribute [grind =] parseRecords

def parsePorcelainV2 (raw : JsString) : Except Malformed (List GitStatusEntry) := parseRecords (raw.splitOn 0)

/-! What git prints. -/

/-- A path, as git names it: with any characters but NUL. -/
structure StatusPath where
  text : JsString
  filled : text ≠ []
  noNul : 0 ∉ text

/-- A field that stands before a path. -/
structure StatusField where
  text : JsString
  noBlank : unit ' ' ∉ text
  noNul : 0 ∉ text

/-- One half of the XY status: unchanged, or a letter. -/
inductive StatusSlot where
  | unchanged
  | letter (u : Nat) (apart : u ∉ [unit '.', unit ' ', 0])

def StatusSlot.printed : StatusSlot → Nat
  | .unchanged => unit '.'
  | .letter u _ => u

def StatusSlot.shown : StatusSlot → JsString
  | .unchanged => units " "
  | .letter u _ => [u]

/-- So many fields: the submodule state, the modes, the object names, a score. -/
structure StatusFields (count : Nat) where
  fields : List StatusField
  counted : fields.length = count

inductive StatusRecord where
  | ordinary (index worktree : StatusSlot) (fields : StatusFields 6) (path : StatusPath)
  | renamedOrCopied (index worktree : StatusSlot) (fields : StatusFields 7) (path originalPath : StatusPath)
  | unmerged (index worktree : StatusSlot) (fields : StatusFields 8) (path : StatusPath)
  | untracked (path : StatusPath)
  | ignored (path : StatusPath)

/-- The kind of the record, the XY status and the fields, each with its blank, and the path. -/
def printTracked (kind : Char) (index worktree : StatusSlot) (fields : List StatusField) (path : StatusPath) : JsString :=
  ([unit kind] :: [index.printed, worktree.printed] :: fields.map (·.text)).flatMap (· ++ [unit ' ']) ++ path.text

namespace StatusRecord

/-- The pieces of a record; each is followed by a NUL. -/
def pieces : StatusRecord → List JsString
  | ordinary index worktree fields path => [printTracked '1' index worktree fields.fields path]
  | renamedOrCopied index worktree fields path originalPath => [printTracked '2' index worktree fields.fields path, originalPath.text]
  | unmerged index worktree fields path => [printTracked 'u' index worktree fields.fields path]
  | untracked path => [units "? " ++ path.text]
  | ignored path => [units "! " ++ path.text]

def entry : StatusRecord → GitStatusEntry
  | ordinary index worktree _ path =>
    { kind := .ordinary, path := path.text, indexStatus := index.shown, worktreeStatus := worktree.shown }
  | renamedOrCopied index worktree _ path originalPath =>
    { kind := .renamedOrCopied, path := path.text, originalPath := some originalPath.text, indexStatus := index.shown
      worktreeStatus := worktree.shown }
  | unmerged index worktree _ path =>
    { kind := .unmerged, path := path.text, indexStatus := index.shown, worktreeStatus := worktree.shown }
  | untracked path => { kind := .untracked, path := path.text, indexStatus := units "?", worktreeStatus := units "?" }
  | ignored path => { kind := .ignored, path := path.text, indexStatus := units "!", worktreeStatus := units "!" }

end StatusRecord

/-- `git status --porcelain=v2 -z`. -/
def printStatus (records : List StatusRecord) : JsString := (records.flatMap StatusRecord.pieces).flatMap (· ++ [0])

end OttiliCoder.Git
