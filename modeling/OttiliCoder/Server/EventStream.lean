import OttiliCoder.Core.Stringify
import OttiliCoder.Library.FrameText
import OttiliCoder.Store.Calls

/-! The event stream of a Run: the server writes the events past its cursor as they are polled. -/

namespace OttiliCoder
open Host

/-! Each event has an id of its own, which no other code reads. -/

section Stream
variable (eventId : RunId → Nat → String)

def eventMembers (event : RunEvent) : List (JsString × JsonValue) :=
  [(units "createdAt", .string (utf16 event.createdAt)),
    (units "id", .string (utf16 (eventId event.runId event.sequence))),
    (units "payload", .object (jsonMembers event.payload)),
    (units "runId", .string (utf16 event.runId)),
    (units "sequence", .number (naturalLiteral event.sequence)),
    (units "type", .string (units event.type.text)),
    (units "updatedAt", .string (utf16 event.createdAt))]

/-- The event as it goes over the wire. -/
def eventValue (event : RunEvent) : JsonValue := .object (eventMembers eventId event)

/-- `id: …`, `event: …` and `data: …`, each on a line of its own. -/
def eventFrame (event : RunEvent) : JsString :=
  units "id: " ++ digitUnits (digitsOf event.sequence) ++ unit '\n' :: (units "event: " ++ units event.type.text ++
    unit '\n' :: (units "data: " ++ (eventValue eventId event).stringify))

def keepalive : JsString := units ": keepalive"

/-- An open response: the cursor, and the frames written so far. -/
structure EventStream where
  sequence : Nat
  written : List JsString

namespace EventStream

def write (stream : EventStream) (frame : JsString) : EventStream := { stream with written := stream.written ++ [frame] }

def publish (store : Store) (runId : RunId) (stream : EventStream) : EventStream :=
  (listEvents store runId stream.sequence).foldl
    (fun stream event => { stream.write (eventFrame eventId event) with sequence := event.sequence }) stream

/-- The bytes of the response: each frame, and an empty line behind it. -/
def bytes (stream : EventStream) : Bytes :=
  stream.written.flatMap fun frame => encodeUtf8 (frame ++ [unit '\n', unit '\n'])

end EventStream

/-- What happens while a response is open: a call to the store, or one of the two timers. -/
inductive StreamStep where
  | call (call : Call)
  | poll
  | heartbeat

def StreamStep.perform (runId : RunId) (open_ : Store × EventStream) : StreamStep → Store × EventStream
  | .call made => (made.perform open_.1, open_.2)
  | .poll => (open_.1, open_.2.publish eventId open_.1 runId)
  | .heartbeat => (open_.1, open_.2.write keepalive)

/-- The response to a request for the events after a number, and the store beside it. -/
def streamEvents (store : Store) (runId : RunId) (after : Nat) (steps : List StreamStep) : Store × EventStream :=
  steps.foldl (StreamStep.perform eventId runId)
    (store, EventStream.publish eventId store runId { sequence := after, written := [] })

end Stream

end OttiliCoder
