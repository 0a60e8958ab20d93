import OttiliCoder.Context.Symbols
import OttiliCoder.ContextFormat.Ocf
import OttiliCoder.Core.Values
import OttiliCoder.Library.Windows
import Mathlib.Algebra.Order.Ring.Unbundled.Rat

/-! The semantic index: files cut into chunks with their words, built in steps between which other calls come in,
and searched by words. -/

namespace OttiliCoder.Semantic
open Host Host.Pattern Relational RepoMap ContextFormat

/-- What the platform gives: the tables of the language behind its texts, and the logarithm behind the scores. -/
structure Platform where
  /-- `normalize("NFKC")`. -/
  normalize : JsString → JsString
  toLowerCase : JsString → JsString
  localeCompare : JsString → JsString → Ordering
  /-- `\p{L}` and `\p{N}`. -/
  isLetterOrNumber : JsString → Bool
  log : Rat → Rat

inductive SemanticIndexStatus where
  | idle | indexing | ready | unavailable | failed
deriving DecidableEq

/-- How files are cut. The constructor refuses other numbers. -/
structure ChunkOptions where
  chunkLines : Nat
  overlapLines : Nat
  fits : overlapLines < chunkLines

structure SemanticIndexOptions where
  chunkLines : Option Number := none
  overlapLines : Option Number := none

/-- The message of a `TypeError`. -/
structure IndexError where
  message : JsString
deriving DecidableEq

abbrev Indexing := Except IndexError

def validateOptions (options : SemanticIndexOptions) : Indexing ChunkOptions :=
  match options.chunkLines.getD 80 with
  | .finite chunkLines =>
    if Number.isSafeInteger (.finite chunkLines) && decide (1 ≤ chunkLines) then
      match options.overlapLines.getD 8 with
      | .finite overlapLines =>
        if Number.isSafeInteger (.finite overlapLines) && decide (0 ≤ overlapLines) then
          if fits : overlapLines.num.toNat < chunkLines.num.toNat then .ok ⟨chunkLines.num.toNat, overlapLines.num.toNat, fits⟩
          else refusedOverlap
        else refusedOverlap
      | .notFinite => refusedOverlap
    else refusedChunk
  | .notFinite => refusedChunk
where
  refusedChunk : Indexing ChunkOptions := .error ⟨units "SemanticIndex chunkLines must be a positive safe integer"⟩
  refusedOverlap : Indexing ChunkOptions :=
    .error ⟨units "SemanticIndex overlapLines must be a non-negative integer smaller than chunkLines"⟩

/-! Chunks. -/

structure IndexedChunk where
  path : JsString
  startLine : Nat
  endLine : Nat
  text : JsString
  tokenCount : Nat
  terms : Amounts JsString Nat

section Chunks
variable (platform : Platform)

/-- `/[\p{L}\p{N}_$][\p{L}\p{N}_$-]*/gu`. -/
def termsPattern : Pattern :=
  .once (fun point => platform.isLetterOrNumber point || isOneOf "_$" point) ++
    .repeated 0 false fun point => platform.isLetterOrNumber point || isOneOf "_$-" point

def lexicalTerms (value : JsString) : List JsString :=
  (((termsPattern platform).matchAll (platform.toLowerCase (platform.normalize value))).map (·.text)).filter fun term =>
    decide (1 < term.length)

def countTerms (text : JsString) : Amounts JsString Nat :=
  (lexicalTerms platform text).foldl (fun counts term => counts.raise term 1) .empty

def contentLines (content : JsString) : List JsString := (joinLineEnds content).splitOn (unit '\n')

def chunkOf (path : JsString) (start : Nat) (slice : List JsString) : IndexedChunk :=
  let text := [unit '\n'].intercalate slice
  let terms := countTerms platform text
  { path, startLine := start + 1, endLine := start + slice.length, text, tokenCount := max 1 terms.total, terms }

def toChunks (file : RepoMapFile) (options : ChunkOptions) : List IndexedChunk :=
  (Windows.windows options.chunkLines options.overlapLines (contentLines file.content)).map fun piece =>
    chunkOf platform (normalizePath file.path) piece.1 piece.2

end Chunks

/-! Files. -/

/-- Files by their paths. -/
abbrev FileMap := Table JsString RepoMapFile

/-- `new Map(files.map((file) => [file.path, file]))`. -/
def fileMap (files : List RepoMapFile) : FileMap := files.foldl (fun map file => map.set file.path file) .empty

def values (map : FileMap) : List RepoMapFile := map.rows.map Prod.snd

/-- The first file whose path is that of the file before it. -/
def duplicate : List RepoMapFile → Option RepoMapFile
  | first :: second :: rest => if first.path = second.path then some second else duplicate (second :: rest)
  | _ => none

def normalizeFiles (platform : Platform) (files : List RepoMapFile) : Indexing (List RepoMapFile) :=
  let normalized := ((files.map fun file => { file with path := normalizePath file.path }).filter fun file =>
    decide (0 < file.path.length) && !file.content.contains 0).insertionSort fun left right =>
      platform.localeCompare left.path right.path ≠ .gt
  match duplicate normalized with
  | some file => .error ⟨units "Semantic index received duplicate path " ++ file.path⟩
  | none => .ok normalized

/-! The index, and the builds that are under way. -/

structure SemanticIndex where
  options : ChunkOptions
  status : SemanticIndexStatus
  generation : Nat
  reason : Option JsString
  files : FileMap
  /-- The latest requested snapshot; it keeps incremental updates correct while a build is under way. -/
  desiredFiles : FileMap
  chunks : List IndexedChunk
  documentFrequency : Amounts JsString Nat

def SemanticIndex.fresh (options : ChunkOptions) : SemanticIndex where
  options
  status := .idle
  generation := 0
  reason := none
  files := .empty
  desiredFiles := .empty
  chunks := []
  documentFrequency := .empty

/-- A call of `index` where it is suspended. -/
structure Build where
  generation : Nat
  normalized : List RepoMapFile
  /-- The files that are not cut into chunks yet; `index` is the place of the first of them. -/
  remaining : List RepoMapFile
  index : Nat
  chunks : List IndexedChunk
  frequency : Amounts JsString Nat

/-- Each chunk counts once for each of its words. -/
def addFrequency (frequency : Amounts JsString Nat) (chunk : IndexedChunk) : Amounts JsString Nat :=
  chunk.terms.keys.foldl (fun frequency term => frequency.raise term 1) frequency

section Calls
variable (platform : Platform)

/-- The first step of `index`, up to where it first waits. -/
def startIndex (index : SemanticIndex) (files : List RepoMapFile) : Indexing (SemanticIndex × Build) := do
  let normalized ← normalizeFiles platform files
  let generation := index.generation + 1
  return ({ index with desiredFiles := fileMap normalized, generation, status := .indexing, reason := none },
    { generation, normalized, remaining := normalized, index := 0, chunks := [], frequency := .empty })

def startUpdate (index : SemanticIndex) (files : List RepoMapFile) (removedPaths : List JsString) :
    Indexing (SemanticIndex × Build) := do
  let kept := removedPaths.foldl (fun map path => Keyed.filter map fun row => row.1 != normalizePath path) index.desiredFiles
  let normalized ← normalizeFiles platform files
  startIndex platform index (values (normalized.foldl (fun map file => map.set file.path file) kept))

/-- The build goes on with the files it has left, until it waits again or ends. Nothing else happens meanwhile. -/
def continueBuild (index : SemanticIndex) (build : Build) : List RepoMapFile → SemanticIndex × Option Build
  | [] =>
    if build.generation ≠ index.generation then (index, none)
    else ({ index with
      files := fileMap build.normalized
      chunks := build.chunks
      documentFrequency := build.frequency
      status := .ready }, none)
  | file :: rest =>
    if build.generation ≠ index.generation then (index, none)
    else
      let fileChunks := toChunks platform file index.options
      let next := { build with
        remaining := rest
        index := build.index + 1
        chunks := build.chunks ++ fileChunks
        frequency := fileChunks.foldl addFrequency build.frequency }
      -- every so many files the event loop gets its turn
      if 0 < build.index ∧ build.index % 32 = 0 then (index, some next) else continueBuild index next rest

/-- The build throws where it goes on. -/
def failBuild (index : SemanticIndex) (build : Build) (message : JsString) : SemanticIndex :=
  if build.generation ≠ index.generation then index else { index with status := .failed, reason := some message }

def markUnavailable (index : SemanticIndex) (reason : JsString) : SemanticIndex :=
  { index with generation := index.generation + 1, status := .unavailable, reason := some reason }

def cancel (index : SemanticIndex) : SemanticIndex :=
  { index with generation := index.generation + 1, status := .idle, reason := none }

end Calls

/-- What can happen next: a call, or that a build that waits goes on, or throws. -/
inductive Event where
  | index (files : List RepoMapFile)
  | update (files : List RepoMapFile) (removedPaths : List JsString)
  | markUnavailable (reason : JsString)
  | cancel
  | resume (build : Nat)
  | fail (build : Nat) (message : JsString)

/-- The index and the builds that wait. -/
structure System where
  index : SemanticIndex
  builds : List Build

def System.fresh (options : ChunkOptions) : System := ⟨.fresh options, []⟩

section Steps
variable (platform : Platform)

/-- A call that throws changes nothing. -/
def accept (system : System) : Indexing (SemanticIndex × Build) → System
  | .ok (index, build) => ⟨index, system.builds ++ [build]⟩
  | .error _ => system

/-- A build that waits again keeps its place. -/
def putBack (system : System) (place : Nat) : SemanticIndex × Option Build → System
  | (index, some next) => ⟨index, system.builds.set place next⟩
  | (index, none) => ⟨index, system.builds.eraseIdx place⟩

def perform : Event → System → System
  | .index files, system => accept system (startIndex platform system.index files)
  | .update files removedPaths, system => accept system (startUpdate platform system.index files removedPaths)
  | .markUnavailable reason, system => { system with index := markUnavailable system.index reason }
  | .cancel, system => { system with index := cancel system.index }
  | .resume place, system =>
    match system.builds[place]? with
    | none => system
    | some build => putBack system place (continueBuild platform system.index build build.remaining)
  | .fail place message, system =>
    match system.builds[place]? with
    | none => system
    | some build => ⟨failBuild system.index build message, system.builds.eraseIdx place⟩

end Steps

/-! Search. Scores are computed with rational numbers. -/

structure SemanticSearchResult where
  path : JsString
  startLine : Nat
  endLine : Nat
  text : JsString
  score : Rat
  matchedTerms : List JsString
deriving DecidableEq

structure SemanticSearchResponse where
  status : SemanticIndexStatus
  generation : Nat
  results : List SemanticSearchResult
  reason : Option JsString
deriving DecidableEq

section Search
variable (platform : Platform)

def averageLength (chunks : List IndexedChunk) : Rat :=
  max 1 (((chunks.map (·.tokenCount)).sum : Nat) / (max 1 chunks.length : Nat))

/-- What a word that is in a chunk adds to its score. -/
def termScore (index : SemanticIndex) (chunk : IndexedChunk) (term : JsString) : Rat :=
  let frequency : Rat := chunk.terms.amount term
  let documentFrequency : Rat := index.documentFrequency.amount term
  let totalDocuments : Rat := (max 1 index.chunks.length : Nat)
  let inverseFrequency := platform.log ((totalDocuments + 1) / (documentFrequency + 1)) + 1
  let normalizedFrequency := frequency * (11 / 5) /
    (frequency + 6 / 5 * (1 / 4 + 3 / 4 * (chunk.tokenCount / averageLength index.chunks)))
  normalizedFrequency * inverseFrequency

def matchedTerms (chunk : IndexedChunk) (terms : List JsString) : List JsString :=
  terms.filter fun term => decide (chunk.terms.amount term ≠ 0)

/-- The whole query stands in the chunk. -/
def phraseBonus (query : JsString) (chunk : IndexedChunk) : Rat :=
  let normalizedQuery := trim (platform.toLowerCase (platform.normalize query))
  if 2 < normalizedQuery.length ∧ normalizedQuery <:+: platform.toLowerCase (platform.normalize chunk.text) then 3 / 4 else 0

def resultOf (index : SemanticIndex) (query : JsString) (terms : List JsString) (chunk : IndexedChunk) : SemanticSearchResult where
  path := chunk.path
  startLine := chunk.startLine
  endLine := chunk.endLine
  text := chunk.text
  score := ((matchedTerms chunk terms).map (termScore platform index chunk)).sum + phraseBonus platform query chunk
  matchedTerms := matchedTerms chunk terms

def resultAtMost (left right : SemanticSearchResult) : Prop :=
  right.score < left.score ∨ (left.score = right.score ∧
    (platform.localeCompare left.path right.path = .lt ∨ (platform.localeCompare left.path right.path = .eq ∧
      (left.startLine < right.startLine ∨ (left.startLine = right.startLine ∧ left.endLine ≤ right.endLine)))))

instance decidableResultAtMost (left right : SemanticSearchResult) : Decidable (resultAtMost platform left right) := by
  unfold resultAtMost
  infer_instance

def rankedResults (index : SemanticIndex) (query : JsString) (terms : List JsString) : List SemanticSearchResult :=
  ((index.chunks.map (resultOf platform index query terms)).filter fun result => decide (0 < result.score)).insertionSort
    (resultAtMost platform)

def search (index : SemanticIndex) (query : JsString) (maxResults : Option Number) : Indexing SemanticSearchResponse :=
  match maxResults.getD 8 with
  | .finite limit =>
    if Number.isSafeInteger (.finite limit) && decide (0 ≤ limit) then
      if index.status ≠ .ready then
        .ok ⟨index.status, index.generation, [], some (index.reason.getD (units "Semantic index is not ready"))⟩
      else if (lexicalTerms platform query).eraseDups = [] ∨ limit = 0 then .ok ⟨index.status, index.generation, [], none⟩
      else .ok ⟨index.status, index.generation,
        (rankedResults platform index query (lexicalTerms platform query).eraseDups).take limit.num.toNat, none⟩
    else .error ⟨units "Semantic search maxResults must be a non-negative safe integer"⟩
  | .notFinite => .error ⟨units "Semantic search maxResults must be a non-negative safe integer"⟩

end Search

end OttiliCoder.Semantic
