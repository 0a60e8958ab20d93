import OttiliCoder.Integrations.JsonRpc
import OttiliCoder.Library.NumberText
import OttiliCoder.Library.Search

/-! The frames of a language server: a header, an empty line, and as many bytes of JSON as the header says. -/

namespace OttiliCoder.Lsp
open Host Mcp JsonRpc Search

inductive LspProtocolError where
  | oversized (maxContentLength : Nat)
  | headerLimit
  | malformedLine
  | duplicated (key : JsString)
  | missingContentLength
  | unsafeContentLength
  /-- The body is no JSON, or no message. -/
  | invalidBody (rejected : Option McpFailure)

/-- Its text; that of a syntax error is the engine's. -/
def LspProtocolError.message (syntaxError : JsString) : LspProtocolError → JsString
  | oversized maxContentLength => units s!"LSP message exceeds {maxContentLength} bytes."
  | headerLimit => units "LSP header exceeds 16 KiB or is missing Content-Length."
  | malformedLine => units "LSP header line is malformed."
  | duplicated key => units "LSP header " ++ key ++ units " is duplicated."
  | missingContentLength => units "LSP message is missing a valid Content-Length header."
  | unsafeContentLength => units "LSP Content-Length is too large."
  | invalidBody rejected =>
    units "LSP message body is invalid: " ++ (rejected.map fun failure => units failure.message).getD syntaxError

/-- `"\r\n\r\n"` -/
def crlfEnd : Bytes := [13, 10, 13, 10]

/-- `"\n\n"` -/
def lfEnd : Bytes := [10, 10]

/-- Where a header is, and how its lines end. -/
structure HeaderEnd where
  /-- How long it is without the empty line. -/
  length : Nat
  useCrlf : Bool
deriving DecidableEq

/-- Where the empty line ends. -/
def HeaderEnd.«end» (found : HeaderEnd) : Nat := found.length + if found.useCrlf then 4 else 2

def headerEnd (buffer : Bytes) : Option HeaderEnd :=
  match indexOf crlfEnd buffer, indexOf lfEnd buffer with
  | none, none => none
  | some crlf, none => some ⟨crlf, true⟩
  | none, some lf => some ⟨lf, false⟩
  | some crlf, some lf => if crlf ≤ lf then some ⟨crlf, true⟩ else some ⟨lf, false⟩

/-- `toString("ascii")`: the highest bit of a byte does not count. -/
def asciiText (bytes : Bytes) : JsString := bytes.map (· % 128)

/-- `toString("utf8")`: a code point that breaks off at the end is replaced. -/
def utf8Text (bytes : Bytes) : JsString :=
  let (decoder, text) := Utf8Decoder.ready.decode bytes
  if decoder.needed = 0 then text else text ++ [replacementPoint]

/-- `text.split("\r\n")`. -/
def splitCrlf : JsString → List JsString
  | [] => [[]]
  | [last] => [[last]]
  | first :: second :: rest =>
    if first = 13 ∧ second = 10 then [] :: splitCrlf rest
    else
      match splitCrlf (second :: rest) with
      | [] => [[first]]
      | line :: lines => (first :: line) :: lines

def headerLines (useCrlf : Bool) (raw : JsString) : List JsString := if useCrlf then splitCrlf raw else raw.splitOn (unit '\n')

/-- The values of the header, each key once. -/
def headerValues : List JsString → List (JsString × JsString) → Except LspProtocolError (List (JsString × JsString))
  | [], values => .ok values
  | line :: lines, values =>
    let before := line.takeWhile (· != unit ':')
    if before = [] ∨ before.length = line.length then .error .malformedLine
    else
      let key := toLowerCase (trim before)
      let value := trim (line.drop (before.length + 1))
      if (values.lookup key).isSome = true then .error (.duplicated key) else headerValues lines (values ++ [(key, value)])

def contentLength (values : List (JsString × JsString)) : Except LspProtocolError Nat :=
  match values.lookup (units "content-length") with
  | none => .error .missingContentLength
  | some text =>
    if text = [] ∨ text.all isDigit = false then .error .missingContentLength
    else
      let parsedLength := JsNumber.ofText text
      if parsedLength.isSafeInteger = false then .error .unsafeContentLength else .ok parsedLength.toRat.num.toNat

structure LspHeader where
  contentLength : Nat
  «end» : Nat

/-- The header that the buffer begins with. -/
def parseHeader (found : HeaderEnd) (buffer : Bytes) : Except LspProtocolError LspHeader := do
  let values ← headerValues (headerLines found.useCrlf (asciiText (buffer.take found.length))) []
  return ⟨← contentLength values, found.end⟩

def headerBytes : Nat := 16 * 1024

/-- An error comes with the buffer it leaves. -/
def readHeader (buffer : Bytes) : Except (LspProtocolError × Bytes) (Option LspHeader) :=
  match headerEnd buffer with
  | none => if headerBytes < buffer.length then .error (.headerLimit, []) else .ok none
  | some found => ((parseHeader found buffer).mapError fun error => (error, buffer)).map some

def parseBody (body : Bytes) : Except LspProtocolError JsonRpcMessage :=
  match parseJson (utf8Text body) with
  | none => .error (.invalidBody none)
  | some value => (parseJsonRpcMessage value).mapError fun failure => .invalidBody (some failure)

/-- The loop of `push`, and the buffer it leaves. Every round takes a frame off the buffer. -/
def readMessages (maxContentLength : Nat) : Nat → Bytes → List JsonRpcMessage → Bytes × Except LspProtocolError (List JsonRpcMessage)
  | 0, buffer, messages => (buffer, .ok messages)
  | rounds + 1, buffer, messages =>
    match readHeader buffer with
    | .error (error, left) => (left, .error error)
    | .ok none => (buffer, .ok messages)
    | .ok (some header) =>
      let bodyEnd := header.end + header.contentLength
      if maxContentLength < header.contentLength then ([], .error (.oversized maxContentLength))
      else if buffer.length < bodyEnd then (buffer, .ok messages)
      else
        match parseBody ((buffer.take bodyEnd).drop header.end) with
        | .error error => (buffer.drop bodyEnd, .error error)
        | .ok message => readMessages maxContentLength rounds (buffer.drop bodyEnd) (messages ++ [message])

attribute [grind =] readMessages

structure LspMessageParser where
  maxContentLength : Nat
  positive : 0 < maxContentLength
  buffer : Bytes := []

namespace LspMessageParser

def push (chunk : Bytes) (parser : LspMessageParser) : LspMessageParser × Except LspProtocolError (List JsonRpcMessage) :=
  let buffer := parser.buffer ++ chunk
  let (left, outcome) := readMessages parser.maxContentLength (buffer.length + 1) buffer []
  ({ parser with buffer := left }, outcome)

def bufferedBytes (parser : LspMessageParser) : Nat := parser.buffer.length

end LspMessageParser

/-- The object is that of a message. -/
def serializeLspMessage (message : JsonValue) : Bytes :=
  let body := encodeUtf8 message.stringify
  units s!"Content-Length: {body.length}\r\n\r\n" ++ body

end OttiliCoder.Lsp
