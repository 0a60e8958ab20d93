import OttiliCoder.Context.Symbols

/-! The redaction of common high-risk credentials before a fact reaches any scope of the memory. -/

namespace OttiliCoder.Memory
open Host Host.Pattern Relational RepoMap

structure MemoryRedaction where
  kind : JsString
  count : Nat
deriving DecidableEq

structure RedactionResult where
  text : JsString
  redactions : List MemoryRedaction
deriving DecidableEq

structure RedactionRule where
  kind : String
  expression : Pattern
  replacement : Match → JsString

/-! The classes of the expressions. With the flag `i` a point is compared by its folded case: the long s and the
sign of the kelvin fold to letters of ASCII. -/

def isUpper : JsString → Bool
  | [u] => unit 'A' ≤ u && u ≤ unit 'Z'
  | _ => false

def isAlphanumeric : JsString → Bool
  | [u] => isLetter u || isDigit u
  | _ => false

def foldCase : JsString → JsString
  | [u] => if unit 'A' ≤ u ∧ u ≤ unit 'Z' then [u + 32] else if u = 0x17F then [unit 's'] else if u = 0x212A then [unit 'k'] else [u]
  | point => point

def wordBoundary : Pattern := .boundary isWordPoint

/-- `\b` with the flag `i`. -/
def caselessBoundary : Pattern := .boundary fun point => isWordPoint (foldCase point)

/-- The letters of a word, in either case. -/
def caseless (word : String) : Pattern :=
  word.toList.foldr (fun letter rest => .once (fun point => foldCase point == [unit letter]) ++ rest) (.literal "")

def times : Nat → Pattern → Pattern
  | 0, _ => .literal ""
  | count + 1, pattern => pattern ++ times count pattern

/-- `[^\s"',;]+`. -/
def plainValue : Pattern := .repeated 1 false fun point => !isSpacePoint point && !isOneOf "\"',;" point

def quotedBy (quote : String) : Pattern := .literal quote ++ plainValue ++ .literal quote

/-- What a group has captured. -/
def captured (found : Match) (index : Nat) : JsString := found.groups.getD index []

def privateKeyLine (word : String) : Pattern :=
  .literal ("-----" ++ word) ++ .optional (.literal " " ++ .repeated 1 false isUpper) ++ .literal " PRIVATE KEY-----"

def redactionRules : List RedactionRule :=
  [{ kind := "private_key"
     expression := privateKeyLine "BEGIN" ++ .repeated 0 true (fun _ => true) ++ privateKeyLine "END"
     replacement _ := units "[REDACTED:private_key]" },
    { kind := "openai_key"
      expression := wordBoundary ++ .literal "sk-" ++ .optional (.literal "proj-") ++
        .repeated 8 false (fun point => isWordPoint point || isOneOf "-" point) ++ wordBoundary
      replacement _ := units "[REDACTED:openai_key]" },
    { kind := "github_token"
      expression := wordBoundary ++
        .either (.literal "gh" ++ .once (isOneOf "pousr") ++ .literal "_" ++ .repeated 20 false isAlphanumeric)
          (.literal "github_pat_" ++ .repeated 20 false isWordPoint) ++ wordBoundary
      replacement _ := units "[REDACTED:github_token]" },
    { kind := "aws_access_key"
      expression := wordBoundary ++ .either (.literal "AKIA") (.literal "ASIA") ++
        times 16 (.once fun point => isUpper point || point.any isDigit) ++ wordBoundary
      replacement _ := units "[REDACTED:aws_access_key]" },
    { kind := "bearer_token"
      expression := caselessBoundary ++ .group (caseless "bearer") ++ spaces 1 ++
        .repeated 8 false fun point => isAlphanumeric (foldCase point) || isOneOf "._~+/=-" point
      replacement found := captured found 0 ++ units " [REDACTED:bearer_token]" },
    { kind := "credential_assignment"
      expression := caselessBoundary ++
        .group (.either (caseless "api" ++ .optional (.once (isOneOf "_-")) ++ caseless "key")
          (.either (caseless "access" ++ .optional (.once (isOneOf "_-")) ++ caseless "token")
            (.either (caseless "auth" ++ .optional (.once (isOneOf "_-")) ++ caseless "token")
              (.either (caseless "token") (.either (caseless "secret") (caseless "password")))))) ++
        spaces 0 ++ .group (.once (isOneOf ":=")) ++ spaces 0 ++
        -- a value has the same quote at both ends, or none: a value without quotes begins with no quote
        .either (quotedBy "\"") (.either (quotedBy "'") plainValue)
      replacement found := captured found 0 ++ captured found 1 ++ units "[REDACTED:credential]" },
    { kind := "credential_url"
      expression := .group (.once (fun point => (foldCase point).any isLetter) ++
          .repeated 0 false (fun point => isAlphanumeric (foldCase point) || isOneOf "+.-" point) ++ .literal "://" ++
          .repeated 1 false (fun point => !isSpacePoint point && !isOneOf "/:@" point) ++ .literal ":") ++
        .repeated 1 false (fun point => !isSpacePoint point && !isOneOf "/@" point) ++ .literal "@"
      replacement found := captured found 0 ++ units "[REDACTED:credential]@" }]

/-- How often each kind was redacted, in the order in which the kinds came. -/
abbrev Counts := Amounts JsString Nat

def addCount (counts : Counts) (redaction : MemoryRedaction) : Counts := counts.raise redaction.kind redaction.count

section Platform
variable (localeCompare : JsString → JsString → Ordering)

def sortedCounts (counts : Counts) : List MemoryRedaction :=
  (counts.rows.map fun row => ⟨row.1, row.2⟩).insertionSort fun left right => localeCompare left.kind right.kind ≠ .gt

def applyRule (state : JsString × Counts) (rule : RedactionRule) : JsString × Counts :=
  (rule.expression.replaceAll rule.replacement state.1,
    (rule.expression.matchAll state.1).foldl (fun counts _ => addCount counts ⟨units rule.kind, 1⟩) state.2)

@[irreducible] def redactSecrets (text : JsString) : RedactionResult :=
  let state := redactionRules.foldl applyRule (text, .empty)
  ⟨state.1, sortedCounts localeCompare state.2⟩

def mergeRedactions (groups : List (List MemoryRedaction)) : List MemoryRedaction :=
  sortedCounts localeCompare (groups.flatten.foldl addCount .empty)

end Platform

end OttiliCoder.Memory
