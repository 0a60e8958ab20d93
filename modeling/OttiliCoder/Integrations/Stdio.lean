import OttiliCoder.Integrations.Lsp
import OttiliCoder.Library.Entries

/-! The connections over the standard streams of a process, `NodeStdioMcpConnection` and
`NodeLspConnection`. They differ in how the output of the process is read and in what the ids of requests
are; the requests they keep alike. -/

namespace OttiliCoder.Stdio
open Host Mcp JsonRpc Lsp

/-- What the two differ in. -/
structure Wire where
  /-- What has arrived and is not read yet. -/
  Reader : Type
  start : Reader
  /-- Why a connection has closed that was not told to. -/
  Reason : Type
  /-- A chunk arrives: the messages it completes, and the error that ends the reading. -/
  push : Bytes → Reader → Reader × List JsonRpcMessage × Option Reason
  requestId : Nat → MapKey

/-- How the promise of a request was settled. -/
inductive Settlement (Reason : Type) where
  | answered (message : JsonRpcMessage)
  /-- By the abort listener of this request. -/
  | aborted (request : Nat)
  /-- By what follows the write of this request. -/
  | writeFailed (request : Nat)
  | closed (reason : Option Reason)

structure Connection (wire : Wire) where
  reader : wire.Reader
  /-- A double in the source; no process issues 2^53 requests. -/
  nextId : Nat
  /-- The requests by their ids, each with its number. -/
  pending : List (MapKey × Nat)
  /-- The requests whose abort listener is registered. -/
  listening : List Nat
  closed : Bool
  closeReason : Option wire.Reason
  /-- Every call of `resolve` or `reject`, in order. -/
  settled : List (Nat × Settlement wire.Reason)
  /-- What `handleMessage` was given while the connection was open. -/
  handled : List JsonRpcMessage

inductive StdioEvent (Reason : Type) where
  /-- `request` is called, with or without a signal that may abort it. -/
  | request (signal : Bool)
  | abort (request : Nat)
  | writeFails (request : Nat)
  | data (chunk : Bytes)
  | close
  /-- The process reports an error, or has exited. -/
  | ends (reason : Reason)

namespace Connection
variable {wire : Wire}

def initial (wire : Wire) : Connection wire where
  reader := wire.start
  nextId := 1
  pending := []
  listening := []
  closed := false
  closeReason := none
  settled := []
  handled := []

/-- `pending.set(id, ...)`. -/
def setPending (key : MapKey) (request : Nat) (pending : List (MapKey × Nat)) : List (MapKey × Nat) :=
  if (pending.lookup key).isSome = true then pending.map fun entry => if entry.1 = key then (key, request) else entry
  else pending ++ [(key, request)]

/-- `request(...)`, up to the promise it returns. -/
def request (signal : Bool) (connection : Connection wire) : Except (Option wire.Reason) (Connection wire) :=
  if connection.closed = true then .error connection.closeReason
  else .ok { connection with
    nextId := connection.nextId + 1
    pending := setPending (wire.requestId connection.nextId) connection.nextId connection.pending
    listening := if signal then connection.listening ++ [connection.nextId] else connection.listening }

/-- The entry of an id is deleted, its abort listener removed and its promise settled. -/
def settle (key : MapKey) (settlement : Settlement wire.Reason) (connection : Connection wire) : Connection wire :=
  match connection.pending.lookup key with
  | none => connection
  | some request => { connection with
      pending := Entries.erase key connection.pending
      listening := connection.listening.erase request
      settled := connection.settled ++ [(request, settlement)] }

/-- The abort listener of a request, which runs once. -/
def abort (request : Nat) (connection : Connection wire) : Connection wire :=
  if request ∈ connection.listening then
    { connection with
      pending := Entries.erase (wire.requestId request) connection.pending
      listening := connection.listening.erase request
      settled := connection.settled ++ [(request, .aborted request)] }
  else connection

def handleMessage (connection : Connection wire) (message : JsonRpcMessage) : Connection wire :=
  let given := { connection with handled := if connection.closed then connection.handled else connection.handled ++ [message] }
  match message.responseTo with
  | none => given
  | some id => given.settle id.key (.answered message)

def finish (reason : Option wire.Reason) (connection : Connection wire) : Connection wire :=
  if connection.closed = true then connection
  else { connection with
    closed := true
    closeReason := reason
    pending := []
    listening := connection.listening.filter fun request => !connection.pending.any fun entry => entry.2 == request
    settled := connection.settled ++ connection.pending.map fun entry => (entry.2, .closed reason) }

def consume (chunk : Bytes) (connection : Connection wire) : Connection wire :=
  let (reader, messages, failed) := wire.push chunk connection.reader
  let handled := messages.foldl handleMessage { connection with reader }
  match failed with
  | none => handled
  | some reason => handled.finish (some reason)

def perform (event : StdioEvent wire.Reason) (connection : Connection wire) : Connection wire :=
  match event with
  | .request signal =>
    match connection.request signal with
    | .error _ => connection
    | .ok requested => requested
  | .abort request => connection.abort request
  | .writeFails request => connection.settle (wire.requestId request) (.writeFailed request)
  | .data chunk => connection.consume chunk
  | .close => connection.finish none
  | .ends reason => connection.finish (some reason)

end Connection

/-! MCP: a message is a line. -/

/-- A line that is no JSON, or no message. -/
inductive LineError where
  | syntaxError
  | rejected (failure : McpFailure)

structure LineReader where
  decoder : Utf8Decoder := .ready
  buffered : JsString := []

/-- The text up to the first line feed, and what follows it. -/
def cutLine (text : JsString) : Option (JsString × JsString) :=
  match text.dropWhile (· != unit '\n') with
  | [] => none
  | _ :: rest => some (text.takeWhile (· != unit '\n'), rest)

def parseLine (line : JsString) : Except LineError JsonRpcMessage :=
  match parseJson line with
  | none => .error .syntaxError
  | some value => (parseJsonRpcMessage value).mapError .rejected

/-- The loop of `consume`. Every round takes a line off the text. -/
def readLines : Nat → JsString → JsString × List JsonRpcMessage × Option LineError
  | 0, buffered => (buffered, [], none)
  | rounds + 1, buffered =>
    match cutLine buffered with
    | none => (buffered, [], none)
    | some (line, rest) =>
      if trim line = [] then readLines rounds rest
      else
        match parseLine (trim line) with
        | .error error => (rest, [], some error)
        | .ok message =>
          let (left, messages, failed) := readLines rounds rest
          (left, message :: messages, failed)

def LineReader.push (chunk : Bytes) (reader : LineReader) : LineReader × List JsonRpcMessage × Option LineError :=
  let (decoder, text) := reader.decoder.decode chunk
  let buffered := reader.buffered ++ text
  let (left, messages, failed) := readLines buffered.length buffered
  ({ decoder, buffered := left }, messages, failed)

/-- `NodeStdioMcpConnection`. The ids are `mcp-1`, `mcp-2` and so on. -/
def mcpWire : Wire where
  Reader := LineReader
  start := {}
  -- the reason is that of a line, or of the process
  Reason := LineError ⊕ McpFailure
  push chunk reader :=
    let (reader, messages, failed) := reader.push chunk
    (reader, messages, failed.map .inl)
  requestId number := .string (units "mcp-" ++ digitUnits (digitsOf number))

/-- `NodeLspConnection`. The ids are the numbers themselves. -/
def lspWire : Wire where
  Reader := LspMessageParser
  start := { maxContentLength := 16 * 1024 * 1024, positive := by decide }
  Reason := LspProtocolError ⊕ McpFailure
  push chunk parser :=
    match parser.push chunk with
    | (parser, .ok messages) => (parser, messages, none)
    | (parser, .error error) => (parser, [], some (.inl error))
  requestId number := .number number

end OttiliCoder.Stdio
