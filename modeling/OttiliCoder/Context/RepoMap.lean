import OttiliCoder.Context.Symbols
import OttiliCoder.Core.Values
import Mathlib.Algebra.Order.Ring.Rat

/-! The repository map: files ranked by the definitions they share and the imports between them, rendered as
far as a budget of tokens goes. The arithmetic of the ranks is that of the rational numbers. -/

namespace OttiliCoder.RepoMap
open Host Relational

structure RepoMapEntry where
  path : JsString
  score : Rat
  structuralRank : Rat
  symbols : List RepoMapSymbol
  references : List JsString
deriving DecidableEq

structure RepoMapOptions where
  maxTokens : Option Number := none
  activeFiles : List JsString := []
  mentionedIdentifiers : List JsString := []
  query : JsString := []
  maxSymbolsPerFile : Option Number := none

structure RepoMapResult where
  text : JsString
  estimatedTokens : Nat
  truncated : Bool
  /-- All ranked files, not only the portion that fits the budget. -/
  entries : List RepoMapEntry
deriving DecidableEq

/-- Why there is no map: a `TypeError` with its message, or a quotient without a value. -/
inductive RepoMapFailure where
  | typeError (message : JsString)
  | noQuotient
deriving DecidableEq

abbrev Mapping := Except RepoMapFailure

/-! Ranks. -/

abbrev Ranks := Amounts JsString Rat

/-- The edges that leave a file, by the files they lead to. -/
abbrev Outgoing := Amounts JsString Rat

abbrev EdgeGraph := Table JsString Outgoing

def quotient (dividend divisor : Rat) : Option Rat := if divisor = 0 then none else some (dividend / divisor)

def damping : Rat := 85 / 100

section PageRank
variable (paths : List JsString) (graph : EdgeGraph)

def initialRanks : Option Ranks := do
  return .constantly paths (← quotient 1 paths.length)

/-- What one file passes on: the loop's body for `source`. A file without a map of edges has none. -/
def passOn (ranks next : Ranks) (source : JsString) : Option Ranks :=
  let outgoing := ((graph.get source).map (·.rows)).getD []
  let sourceRank := ranks.amount source
  if outgoing.isEmpty then do
    let share ← quotient (damping * sourceRank) paths.length
    return paths.foldl (fun next target => next.raise target share) next
  else
    let weight := (outgoing.map Prod.snd).foldl (fun total current => total + current) 0
    outgoing.foldlM (fun next edge => do
      return next.raise edge.1 (← quotient (damping * sourceRank * edge.2) weight)) next

def iterate (ranks : Ranks) : Option Ranks := do
  let next : Ranks := .constantly paths (← quotient (1 - damping) paths.length)
  paths.foldlM (passOn paths graph ranks) next

def ranksAfter : Nat → Option Ranks
  | 0 => initialRanks paths
  | iterations + 1 => (ranksAfter iterations).bind (iterate paths graph)

def pageRank : Option Ranks := if paths.isEmpty then some .empty else ranksAfter paths graph 24

end PageRank

/-! Edges. -/

/-- A call of `addEdge`. -/
structure Edge where
  source : JsString
  target : JsString
  weight : Rat

def addEdge (graph : EdgeGraph) (edge : Edge) : EdgeGraph :=
  if edge.source = edge.target ∨ edge.weight ≤ 0 then graph
  else
    match graph.get edge.source with
    | none => graph
    | some outgoing => graph.set edge.source (outgoing.raise edge.target edge.weight)

def edgeGraph (paths : List JsString) (edges : List Edge) : EdgeGraph := edges.foldl addEdge (.constantly paths .empty)

/-- `set.add(value)`. -/
def addToSet (values : List JsString) (value : JsString) : List JsString := if values.contains value then values else values ++ [value]

/-! The text. -/

/-- The lines so far, what they are taken to cost, and whether something is missing. -/
structure Rendering where
  lines : List JsString
  used : Nat
  truncated : Bool

def symbolLine (symbol : RepoMapSymbol) : JsString :=
  units "  " ++ (if symbol.exported then units "export " else []) ++ symbol.kind.text ++ unit ' ' :: symbol.name ++
    units " (L" ++ units (toString symbol.line) ++ units ")"

def referenceLine (reference : JsString) : JsString := units "  -> " ++ reference

/-- `estimateTokens` of a line behind others. -/
def lineCost (line : JsString) : Nat := estimateTokens (unit '\n' :: line)

/-- Lines as far as the budget goes. -/
def renderLines (budget : Nat) : Rendering → List JsString → Rendering
  | rendering, [] => rendering
  | rendering, line :: rest =>
    if budget < rendering.used + lineCost line then { rendering with truncated := true }
    else renderLines budget { rendering with lines := rendering.lines ++ [line], used := rendering.used + lineCost line } rest

def renderEntry (budget maxSymbols : Nat) (rendering : Rendering) (entry : RepoMapEntry) : Rendering :=
  if budget < rendering.used + lineCost entry.path then { rendering with truncated := true }
  else
    let visibleSymbols := entry.symbols.take maxSymbols
    let started : Rendering := {
      lines := rendering.lines ++ [entry.path]
      used := rendering.used + lineCost entry.path
      truncated := rendering.truncated || decide (visibleSymbols.length < entry.symbols.length) }
    let shown := renderLines budget started (visibleSymbols.map symbolLine)
    renderLines budget shown ((entry.references.take 4).map referenceLine)

def header : JsString := units "repo-map/1"

def renderWithinBudget (entries : List RepoMapEntry) (budget maxSymbols : Nat) : JsString × Bool :=
  if budget = 0 then ([], !entries.isEmpty)
  else if budget < estimateTokens header then ([], !entries.isEmpty)
  else
    let rendered := entries.foldl (renderEntry budget maxSymbols) ⟨[header], estimateTokens header, false⟩
    ([unit '\n'].intercalate rendered.lines, rendered.truncated)

/-- The same message for every option. -/
def validateBudget (value : Option Number) (fallback : Nat) : Mapping Nat :=
  match value.getD (.finite fallback) with
  | .finite number =>
    if Number.isSafeInteger (.finite number) && decide (0 ≤ number) then .ok number.num.toNat
    else .error (.typeError (units "RepoMap maxTokens must be a non-negative safe integer"))
  | .notFinite => .error (.typeError (units "RepoMap maxTokens must be a non-negative safe integer"))

section Build
variable (platform : Platform)

/-- The files that are mapped, in the order of their paths. -/
def normalizedFiles (files : List RepoMapFile) : List RepoMapFile :=
  ((files.map fun file => { file with path := normalizePath file.path }).filter fun file =>
    decide (0 < file.path.length) && !file.content.contains 0).insertionSort fun left right =>
      platform.localeCompare left.path right.path ≠ .gt

/-- The first file whose path is that of the file before it. -/
def duplicateFile : List RepoMapFile → Option RepoMapFile
  | first :: second :: rest => if first.path = second.path then some second else duplicateFile (second :: rest)
  | _ => none

def symbolsByPath (normalized : List RepoMapFile) : Table JsString (List RepoMapSymbol) :=
  normalized.foldl (fun table file => table.set file.path (extractRepoMapSymbols platform file)) .empty

/-- The files that define a name. -/
def definitionOwners (normalized : List RepoMapFile) : Table JsString (List JsString) :=
  let symbols := symbolsByPath platform normalized
  normalized.foldl (fun table file =>
    ((symbols.get file.path).getD []).foldl (fun table symbol =>
      if symbol.name.length < 3 ∨ commonIdentifiers.contains symbol.name then table
      else table.set symbol.name (addToSet ((table.get symbol.name).getD []) file.path)) table) .empty

/-- The calls of `addEdge` for one file: its uses of what files define, and its imports. -/
def fileEdges (owners : Table JsString (List JsString)) (paths : List JsString) (file : RepoMapFile) : List Edge :=
  let counts := tokenCounts file.content
  (owners.rows.flatMap fun definition =>
    let count := counts.amount definition.1
    if count = 0 then [] else definition.2.map fun owner => ⟨file.path, owner, count⟩) ++
  (importSpecifiers file.content).filterMap fun specifier =>
    (resolveImport platform file.path specifier paths).map fun target => ⟨file.path, target, 3⟩

def repoEdges (normalized : List RepoMapFile) : List Edge :=
  normalized.flatMap (fileEdges platform (definitionOwners platform normalized) (normalized.map (·.path)))

def normalizeMentioned (options : RepoMapOptions) : List JsString :=
  (options.mentionedIdentifiers ++ (identifierPattern.matchAll options.query).map (·.text)).map platform.toLowerCase

/-- The score of a file: its rank, and what the user points at. -/
def scoreOf (options : RepoMapOptions) (path : JsString) (symbols : List RepoMapSymbol) (structuralRank : Rat) : Rat :=
  let mentioned := normalizeMentioned platform options
  let basenameMentioned := mentioned.contains (platform.toLowerCase (platform.basename path (platform.extname path)))
  let symbolMatches := (symbols.filter fun symbol => mentioned.contains (platform.toLowerCase symbol.name)).length
  let activeBoost : Rat := if (options.activeFiles.map normalizePath).contains path then 100 else 0
  let mentionBoost : Rat := (if basenameMentioned then 2 else 0) + symbolMatches * (3 / 2)
  structuralRank * 100 + activeBoost + mentionBoost

def entryOf (options : RepoMapOptions) (symbolTable : Table JsString (List RepoMapSymbol)) (graph : EdgeGraph) (ranks : Ranks)
    (path : JsString) : RepoMapEntry :=
  let symbols := (symbolTable.get path).getD []
  let structuralRank := ranks.amount path
  { path, symbols, structuralRank
    score := scoreOf platform options path symbols structuralRank
    references := (((graph.get path).map (·.keys)).getD []).insertionSort (· ≤ ·) }

/-- By score, the greatest first, then by path. -/
def entryAtMost (left right : RepoMapEntry) : Prop :=
  right.score < left.score ∨ (left.score = right.score ∧ platform.localeCompare left.path right.path ≠ .gt)

instance (left right : RepoMapEntry) : Decidable (entryAtMost platform left right) := by
  unfold entryAtMost
  infer_instance

def buildRepoMap (files : List RepoMapFile) (options : RepoMapOptions) : Mapping RepoMapResult := do
  let budget ← validateBudget options.maxTokens 2048
  let maxSymbols ← validateBudget options.maxSymbolsPerFile 24
  let normalized := normalizedFiles platform files
  match duplicateFile normalized with
  | some duplicate => throw (.typeError (units "RepoMap received duplicate path " ++ duplicate.path))
  | none =>
    let paths := normalized.map (·.path)
    let graph := edgeGraph paths (repoEdges platform normalized)
    match pageRank paths graph with
    | none => throw .noQuotient
    | some ranks =>
      let entries := (paths.map (entryOf platform options (symbolsByPath platform normalized) graph ranks)).insertionSort
        (entryAtMost platform)
      let (text, truncated) := renderWithinBudget entries budget maxSymbols
      return { text, estimatedTokens := estimateTokens text, truncated, entries }

end Build

end OttiliCoder.RepoMap
