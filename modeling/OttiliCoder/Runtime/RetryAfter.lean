import OttiliCoder.Core.Values
import OttiliCoder.Library.NumberText

/-! The `Retry-After` header of a provider. -/

namespace OttiliCoder
open Host

/-- `seconds * 1_000`, a double again. -/
def inMilliseconds (seconds : JsNumber) : Number :=
  match Binary64.nearest (seconds.toRat * 1000) with
  | some double => .finite double.value
  | none => .notFinite

/-- Accepts both the delta-seconds and HTTP-date forms of `Retry-After`; `parseDate` is `Date.parse`. -/
def parseRetryAfterHeader (parseDate : JsString → Option Date) (now : Date) : Option JsString → Option Number
  | none => none
  | some value =>
    let seconds := JsNumber.ofText value
    if seconds.isFinite && decide (0 ≤ seconds.toRat) then some (inMilliseconds seconds)
    else (parseDate value).map fun timestamp => .finite (max 0 (timestamp.ms - now.ms))

end OttiliCoder
