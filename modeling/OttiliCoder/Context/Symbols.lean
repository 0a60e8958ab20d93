import OttiliCoder.ContextFormat.Tokens
import OttiliCoder.Library.Amounts
import OttiliCoder.Library.Patterns
import Mathlib.Data.List.Lex
import Mathlib.Data.List.Sort

/-! What the repository map reads from a file without a parser: the symbols it defines, the words it uses and
the modules it imports. -/

namespace OttiliCoder.RepoMap
open Host Host.Pattern Relational

/-- What the platform gives: `node:path`, and the tables of the language behind its texts. -/
structure Platform where
  /-- Without the suffix it is given. -/
  basename : JsString → JsString → JsString
  dirname : JsString → JsString
  extname : JsString → JsString
  join : JsString → JsString → JsString
  toLowerCase : JsString → JsString
  localeCompare : JsString → JsString → Ordering

inductive RepoMapSymbolKind where
  | class_ | struct | function | interface | type | enum | constant | method | module
deriving DecidableEq

def RepoMapSymbolKind.text : RepoMapSymbolKind → JsString
  | class_ => units "class" | struct => units "struct" | function => units "function" | interface => units "interface"
  | type => units "type" | enum => units "enum" | constant => units "constant" | method => units "method" | module => units "module"

structure RepoMapSymbol where
  name : JsString
  kind : RepoMapSymbolKind
  line : Nat
  exported : Bool
deriving DecidableEq

structure RepoMapFile where
  path : JsString
  content : JsString

/-! The classes and pieces of the expressions. -/

def isOneOf (characters : String) : JsString → Bool
  | [u] => (units characters).contains u
  | _ => false

def isIdentifierPart (point : JsString) : Bool := isWordPoint point || isOneOf "$" point

/-- `[A-Za-z_]`. -/
def isWordStart : JsString → Bool
  | [u] => isLetter u || u == unit '_'
  | _ => false

def isIdentifierStart (point : JsString) : Bool := isWordStart point || isOneOf "$" point

def identifierPattern : Pattern := .once isIdentifierStart ++ .repeated 0 false isIdentifierPart

/-- `[A-Za-z_][A-Za-z0-9_]*`. -/
def wordPattern : Pattern := .once isWordStart ++ .repeated 0 false isWordPoint

def spaces (least : Nat) : Pattern := .repeated least false isSpacePoint

/-- A word with white space behind it. -/
def keyword (word : String) : Pattern := .literal word ++ spaces 1

/-- `/^\s*`, as all expressions for definitions begin. -/
def lineStart : Pattern := .start ++ spaces 0

/-- The words that the text of a program repeats whatever it is about. -/
def commonIdentifiers : List JsString :=
  ["as", "async", "await", "boolean", "break", "case", "catch", "class", "const", "continue", "default", "else", "enum", "export",
    "extends", "false", "finally", "for", "from", "function", "if", "implements", "import", "in", "interface", "let", "new", "null",
    "number", "of", "private", "protected", "public", "return", "static", "string", "switch", "this", "throw", "true", "try",
    "type", "undefined", "void", "while"].map units

structure DefinitionPattern where
  kind : RepoMapSymbolKind
  expression : Pattern
  exported : Option Bool := none

def exportGroup : Pattern := .optional (.group (keyword "export"))

def exportDefaultGroup : Pattern := .optional (.group (keyword "export" ++ .optional (keyword "default")))

def generalPatterns : List DefinitionPattern :=
  [{ kind := .class_, expression := lineStart ++ exportDefaultGroup ++ keyword "class" ++ .group identifierPattern },
    { kind := .interface, expression := lineStart ++ exportGroup ++ keyword "interface" ++ .group identifierPattern },
    { kind := .type
      expression := lineStart ++ exportGroup ++ keyword "type" ++ .group identifierPattern ++ spaces 0 ++ .once (isOneOf "=<") },
    { kind := .enum
      expression := lineStart ++ .optional (.group (keyword "export" ++ .optional (keyword "const"))) ++ keyword "enum" ++
        .group identifierPattern },
    { kind := .function
      expression := lineStart ++ exportDefaultGroup ++ .optional (keyword "async") ++ keyword "function" ++
        .group identifierPattern },
    { kind := .constant
      expression := lineStart ++ exportGroup ++ .either (.literal "const") (.either (.literal "let") (.literal "var")) ++
        spaces 1 ++ .group identifierPattern ++ spaces 0 ++ .literal "=" }]

def pythonPatterns : List DefinitionPattern :=
  [{ kind := .class_, expression := lineStart ++ keyword "class" ++ .group wordPattern, exported := some true },
    { kind := .function
      expression := lineStart ++ .optional (keyword "async") ++ keyword "def" ++ .group wordPattern
      exported := some true }]

/-- `\([^)]*\)`. -/
def parenthesized : Pattern :=
  .literal "(" ++ .repeated 0 false (fun point => !isOneOf ")" point) ++ .literal ")"

def pubGroup : Pattern := .optional (.group (keyword "pub"))

def rustPatterns : List DefinitionPattern :=
  [{ kind := .function
     expression := lineStart ++ .optional (.group (.literal "pub" ++ .optional parenthesized ++ spaces 1)) ++
       .optional (keyword "async") ++ keyword "fn" ++ .group wordPattern },
    { kind := .struct, expression := lineStart ++ pubGroup ++ keyword "struct" ++ .group wordPattern },
    { kind := .enum, expression := lineStart ++ pubGroup ++ keyword "enum" ++ .group wordPattern },
    { kind := .interface, expression := lineStart ++ pubGroup ++ keyword "trait" ++ .group wordPattern }]

def goPatterns : List DefinitionPattern :=
  [{ kind := .function
     expression := lineStart ++ keyword "func" ++ .optional (parenthesized ++ spaces 0) ++ .group wordPattern
     exported := some true },
    { kind := .type
      expression := lineStart ++ keyword "type" ++ .group wordPattern ++ spaces 1 ++
        .either (.literal "struct") (.literal "interface")
      exported := some true }]

/-! Symbols. -/

def normalizePath (path : JsString) : JsString :=
  let slashed := path.map fun u => if u = unit '\\' then unit '/' else u
  if (units "./").isPrefixOf slashed then slashed.drop 2 else slashed

/-- The name a match has captured, and whether something stood before it. -/
def definitionCapture (captures : List JsString) : Option (JsString × Bool) :=
  captures.getLast?.map fun name => (name, decide (1 < captures.length) && !(trim (captures.headD [])).isEmpty)

/-- `text.replaceAll("\r\n", "\n")`. -/
def withNewlines : JsString → JsString
  | [] => []
  | [last] => [last]
  | first :: second :: rest =>
    if first = 13 ∧ second = 10 then 10 :: withNewlines rest else first :: withNewlines (second :: rest)

def symbolKey (symbol : RepoMapSymbol) : JsString :=
  symbol.name ++ unit ':' :: (symbol.kind.text ++ unit ':' :: units (toString symbol.line))

/-- The symbol a line defines by one of the patterns. -/
def lineSymbol (line : JsString) (number : Nat) (pattern : DefinitionPattern) : Option RepoMapSymbol := do
  let found ← pattern.expression.matchFirst line
  let (name, exported) ← definitionCapture found.groups
  return { name, kind := pattern.kind, line := number, exported := pattern.exported.getD exported }

/-- A symbol is kept once for each key. -/
def noteSymbol (symbols : List RepoMapSymbol) (symbol : RepoMapSymbol) : List RepoMapSymbol :=
  if symbols.any fun other => symbolKey other == symbolKey symbol then symbols else symbols ++ [symbol]

/-- The words a text uses, each with how often it does. -/
def tokenCounts (content : JsString) : Amounts JsString Nat :=
  (identifierPattern.matchAll content).foldl (fun counts found =>
    if commonIdentifiers.contains found.text then counts else counts.raise found.text 1) .empty

def quotedSpecifier : Pattern :=
  let quoteMark := .once (isOneOf "\"'")
  quoteMark ++ .group (.repeated 1 false fun point => !isOneOf "\"'" point) ++ quoteMark

def importExpressions : List Pattern :=
  [.boundary isWordPoint ++ keyword "from" ++ quotedSpecifier,
    .boundary isWordPoint ++ keyword "import" ++
      .optional (.repeated 1 true (fun point => !isOneOf "\"'" point) ++ spaces 1 ++ keyword "from") ++ quotedSpecifier,
    .boundary isWordPoint ++ .literal "require(" ++ spaces 0 ++ quotedSpecifier ++ spaces 0 ++ .literal ")"]

def importSpecifiers (content : JsString) : List JsString :=
  let specifiers := importExpressions.flatMap fun expression =>
    (expression.matchAll content).filterMap fun found => found.groups.head?
  specifiers.eraseDups.insertionSort (· ≤ ·)

section Platform
variable (platform : Platform)

def patternsFor (path : JsString) : List DefinitionPattern :=
  let extension := platform.toLowerCase (platform.extname path)
  if extension = units ".py" then pythonPatterns
  else if extension = units ".rs" then rustPatterns
  else if extension = units ".go" then goPatterns
  else generalPatterns

/-- By line, then by name, then by kind. -/
def symbolAtMost (left right : RepoMapSymbol) : Prop :=
  left.line < right.line ∨ (left.line = right.line ∧
    match platform.localeCompare left.name right.name with
    | .lt => True
    | .eq => platform.localeCompare left.kind.text right.kind.text ≠ .gt
    | .gt => False)

instance (left right : RepoMapSymbol) : Decidable (symbolAtMost platform left right) := by
  unfold symbolAtMost
  cases platform.localeCompare left.name right.name <;> infer_instance

def extractRepoMapSymbols (file : RepoMapFile) : List RepoMapSymbol :=
  let lines := (withNewlines file.content).splitOn 10
  let found := lines.zipIdx.flatMap fun (line, index) => (patternsFor platform file.path).filterMap (lineSymbol line (index + 1))
  (found.foldl noteSymbol []).insertionSort (symbolAtMost platform)

/-- The file that a relative specifier names. -/
def resolveImport (fromPath specifier : JsString) (files : List JsString) : Option JsString :=
  if specifier.head? ≠ some (unit '.') then none
  else
    let relativeBase := normalizePath (platform.join (platform.dirname fromPath) specifier)
    let candidates := relativeBase ::
      ([".ts", ".tsx", ".js", ".jsx", ".mjs", ".py", ".go", ".rs"].map fun extension => relativeBase ++ units extension) ++
      (["index.ts", "index.tsx", "index.js", "index.mjs"].map fun index => relativeBase ++ unit '/' :: units index)
    candidates.find? files.contains

end Platform

end OttiliCoder.RepoMap
