import OttiliCoder.Core.Policies
import OttiliCoder.Library.LineRegExp

/-! How a wildcard pattern is matched: its text is escaped, the escaped star is rewritten, and the engine
reads the rest. -/

namespace OttiliCoder
open Host

/-- The characters of the class that is escaped, apart from the braces. -/
def escapedUnits : List Nat := units ".*+?^$()|[]\\" ++ [0x7B, 0x7D]

/-- Every character of the class with a backslash before it. -/
def escapePattern (pattern : JsString) : JsString :=
  pattern.flatMap fun u => if escapedUnits.contains u then [unit '\\', u] else [u]

/-- The escaped star becomes `.*`, from left to right. -/
def replaceStars : JsString → JsString
  | [] => []
  | [last] => [last]
  | first :: second :: rest =>
    if first = unit '\\' ∧ second = unit '*' then unit '.' :: unit '*' :: replaceStars rest
    else first :: replaceStars (second :: rest)

def wildcardSource (pattern : JsString) : JsString := unit '^' :: (replaceStars (escapePattern pattern) ++ [unit '$'])

/-- `wildcardMatches` on any texts, as the engine does it; nothing where the source is no expression. -/
def wildcardTest (pattern value : JsString) : Option Bool :=
  (regExp (wildcardSource pattern)).map fun terms => testTerms terms value

end OttiliCoder
