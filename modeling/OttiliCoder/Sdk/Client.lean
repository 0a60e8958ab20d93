import OttiliCoder.Library.FrameText
import OttiliCoder.Library.JsonText

/-! The client's side of an event stream: it cuts the bytes that arrive into frames and delivers
the event of each frame that has one. -/

namespace OttiliCoder.Sdk
open Host

inductive StreamError where
  | syntaxError
  | error (message : JsString)
deriving DecidableEq

/-- The data lines of a frame, without their name. -/
def dataLines (frame : JsString) : List JsString :=
  ((frame.splitOn (unit '\n')).filter fun line => (units "data:").isPrefixOf line).map fun line =>
    trimStart (line.drop (units "data:").length)

def isRunEvent (parsed : JsonValue) : Bool :=
  parsed.isObject && (parsed.get? (units "sequence")).any JsonValue.isNumber && (parsed.get? (units "type")).any JsonValue.isString

def parseSseFrame (frame : JsString) : Except StreamError (Option JsonValue) :=
  let data := [unit '\n'].intercalate (dataLines frame)
  if data = [] then .ok none
  else
    match parseJson data with
    | none => .error .syntaxError
    | some parsed =>
      if isRunEvent parsed then .ok (some parsed)
      else .error (.error (units "Daemon emitted an invalid SSE Run event."))

/-- The client in the middle of a response. -/
structure Reading where
  decoder : Utf8Decoder := .ready
  buffered : JsString := []
  delivered : List JsonValue := []
  failure : Option StreamError := none

namespace Reading

/-- An error ends the stream; nothing after it is delivered. -/
def deliver (reading : Reading) (frame : JsString) : Reading :=
  match reading.failure, parseSseFrame frame with
  | some _, _ => reading
  | none, .error error => { reading with failure := some error }
  | none, .ok none => reading
  | none, .ok (some event) => { reading with delivered := reading.delivered ++ [event] }

/-- One chunk of bytes. -/
def read (reading : Reading) (chunk : Bytes) : Reading :=
  let (decoder, text) := reading.decoder.decode chunk
  let (frames, left) := splitFrames (reading.buffered ++ text)
  frames.foldl deliver { reading with decoder, buffered := left }

/-- The response has ended: what is left is read as a frame. -/
def finish (reading : Reading) : Reading := reading.deliver reading.buffered

end Reading

/-- All the client delivers of a response that arrives in these chunks. -/
def streamEvents (chunks : List Bytes) (ended : Bool) : List JsonValue :=
  let reading := chunks.foldl Reading.read {}
  (if ended then reading.finish else reading).delivered

end OttiliCoder.Sdk
