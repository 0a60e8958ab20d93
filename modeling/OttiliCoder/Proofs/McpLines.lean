import OttiliCoder.Library.Cutting
import OttiliCoder.Proofs.StdioRequests

/-! The lines of an MCP server, however they arrive, and the requests of both connections. -/

namespace OttiliCoder.Stdio
open Host JsonRpc Transaction Cutting

/-! Lines are cut off the text. -/

theorem cutLine_some {text line rest : JsString} (cut : cutLine text = some (line, rest)) :
    text = line ++ unit '\n' :: rest ∧ unit '\n' ∉ line := by
  unfold cutLine at cut
  have whole := List.takeWhile_append_dropWhile (p := (· != unit '\n')) (l := text)
  split at cut
  · cases cut
  · next first later dropped =>
    cases cut
    have feed : first = unit '\n' := by
      have stopped := List.head_dropWhile_not (· != unit '\n') (l := text) (by rw [dropped]; exact List.cons_ne_nil _ _)
      simpa [dropped] using stopped
    rw [dropped, feed] at whole
    refine ⟨whole.symm, fun listed => ?_⟩
    have other := List.mem_takeWhile_imp listed
    simp at other

theorem cutLine_feed {line rest : JsString} (one : unit '\n' ∉ line) : cutLine (line ++ unit '\n' :: rest) = some (line, rest) := by
  have others : ∀ u ∈ line, (u != unit '\n') = true := by
    intro u listed
    rw [bne_iff_ne]
    exact fun same => one (same ▸ listed)
  unfold cutLine
  rw [List.dropWhile_append_of_pos others, List.takeWhile_append_of_pos others]
  simp

def lineCutter : Cutter Nat JsString where
  cut := cutLine
  shorter cut := by
    obtain ⟨rfl, _⟩ := cutLine_some cut
    simp
    omega
  stable more cut := by
    obtain ⟨rfl, one⟩ := cutLine_some cut
    rw [List.append_assoc, List.cons_append]
    exact cutLine_feed one

/-- The messages of lines up to the first that is malformed, and its error. -/
def readAll : List JsString → List JsonRpcMessage × Option LineError
  | [] => ([], none)
  | line :: lines =>
    if trim line = [] then readAll lines
    else
      match parseLine (trim line) with
      | .error error => ([], some error)
      | .ok message => (message :: (readAll lines).1, (readAll lines).2)

theorem readAll_append (lines more : List JsString) : readAll (lines ++ more) =
    if (readAll lines).2.isSome = true then readAll lines
    else ((readAll lines).1 ++ (readAll more).1, (readAll more).2) := by
  induction lines with
  | nil => rfl
  | cons line rest ih =>
    rw [List.cons_append, readAll, readAll]
    split
    · exact ih
    · split
      · rfl
      · rw [ih]
        dsimp only
        split <;> rfl

/-- The loop of `consume` reads the lines there are, and leaves the rest unless it stops early. -/
theorem readLines_eq {rounds : Nat} {text : JsString} (enough : text.length ≤ rounds) :
    (readLines rounds text).2 = readAll (lineCutter.cutAll text).1 ∧
      ((readAll (lineCutter.cutAll text).1).2 = none → (readLines rounds text).1 = (lineCutter.cutAll text).2) := by
  induction rounds generalizing text with
  | zero =>
    obtain rfl := List.eq_nil_of_length_eq_zero (Nat.le_zero.mp enough)
    exact ⟨rfl, fun _ => rfl⟩
  | succ rounds ih =>
    unfold readLines
    cases cut : cutLine text with
    | none =>
      have whole : lineCutter.cutAll text = ([], text) := Cutter.cutAll_none cut
      rw [whole]
      exact ⟨rfl, fun _ => rfl⟩
    | some found =>
      obtain ⟨line, rest⟩ := found
      have shorter := lineCutter.shorter cut
      have whole : lineCutter.cutAll text = (line :: (lineCutter.cutAll rest).1, (lineCutter.cutAll rest).2) := Cutter.cutAll_some cut
      have later := ih (show rest.length ≤ rounds by omega)
      rw [whole]
      dsimp only
      rw [readAll]
      split
      · exact later
      · cases parseLine (trim line) with
        | error error => exact ⟨rfl, nofun⟩
        | ok message => exact ⟨by rw [← later.1], later.2⟩

/-- The lines of a stream. -/
def linesOf (bytes : Bytes) : List JsString := (lineCutter.cutAll (Utf8Decoder.ready.decode bytes).2).1

/-- Where the reading of these bytes stands. -/
structure HasRead (bytes : Bytes) (reading : Reading mcpWire) : Prop where
  handled : reading.handled = (readAll (linesOf bytes)).1
  closed : reading.closed = (readAll (linesOf bytes)).2.isSome
  reader : reading.closed = false → reading.reader =
    { decoder := (Utf8Decoder.ready.decode bytes).1, buffered := (lineCutter.cutAll (Utf8Decoder.ready.decode bytes).2).2 : LineReader }

theorem HasRead.read {bytes : Bytes} {reading : Reading mcpWire} (read : HasRead bytes reading) (chunk : Bytes) :
    HasRead (bytes ++ chunk) (reading.read chunk) := by
  obtain ⟨handled, closed, reader⟩ := read
  have decoded := Utf8Decoder.decode_append Utf8Decoder.ready bytes chunk
  generalize whole : Utf8Decoder.ready.decode bytes = so at decoded reader
  have lines : linesOf (bytes ++ chunk) = linesOf bytes ++
      (lineCutter.cutAll ((lineCutter.cutAll so.2).2 ++ (so.1.decode chunk).2)).1 := by
    unfold linesOf
    rw [decoded, whole, Cutter.cutAll_append]
  have all := readAll_append (linesOf bytes) (lineCutter.cutAll ((lineCutter.cutAll so.2).2 ++ (so.1.decode chunk).2)).1
  rw [← lines, ← closed] at all
  cases isClosed : reading.closed with
  | true =>
    rw [isClosed, if_pos rfl] at all
    refine ⟨?_, ?_, ?_⟩
    · simp [Reading.read, isClosed, handled, all]
    · simp [Reading.read, isClosed, all, ← closed]
    · simp [Reading.read, isClosed]
  | false =>
    rw [isClosed, if_neg (by simp)] at all
    generalize text : (lineCutter.cutAll so.2).2 ++ (so.1.decode chunk).2 = buffered at all lines
    obtain ⟨readNow, left⟩ := readLines_eq (Nat.le_refl buffered.length)
    have pushed : mcpWire.push chunk reading.reader = ((⟨(so.1.decode chunk).1, (readLines buffered.length buffered).1⟩ : LineReader),
        (readAll (lineCutter.cutAll buffered).1).1, (readAll (lineCutter.cutAll buffered).1).2.map .inl) := by
      rw [reader isClosed, ← readNow, ← text]
      rfl
    unfold Reading.read
    rw [pushed, isClosed]
    refine ⟨?_, ?_, ?_⟩
    · simp [all, handled]
    · rw [all]
      exact (Bool.false_or _).trans Option.isSome_map
    · intro still
      have fine : (readAll (lineCutter.cutAll buffered).1).2 = none := by
        cases failed : (readAll (lineCutter.cutAll buffered).1).2 with
        | none => rfl
        | some error =>
          rw [failed] at still
          cases still
      have rest : (lineCutter.cutAll (Utf8Decoder.ready.decode (bytes ++ chunk)).2).2 = (lineCutter.cutAll buffered).2 := by
        rw [decoded, Cutter.cutAll_append, text]
      dsimp only
      rw [left fine, decoded, ← rest, decoded]

theorem hasRead_chunks (chunks : List Bytes) : HasRead chunks.flatten (chunks.foldl Reading.read (.start mcpWire)) := by
  suffices all : ∀ (bytes : Bytes) (reading : Reading mcpWire), HasRead bytes reading →
      HasRead (bytes ++ chunks.flatten) (chunks.foldl Reading.read reading) from all [] _ ⟨rfl, rfl, fun _ => rfl⟩
  induction chunks with
  | nil => exact fun _ _ read => by simpa using read
  | cons chunk rest ih =>
    intro bytes reading read
    have later := ih (bytes ++ chunk) _ (read.read chunk)
    rwa [List.append_assoc] at later

/-- Until a connection to an MCP server is closed from elsewhere, what it has handled depends only on the bytes. -/
theorem handled_bytes (events : List (StdioEvent mcpWire.Reason)) (goesOn : ∀ event ∈ events, event.closes = false) :
    (performAll Connection.perform events (.initial mcpWire)).handled = (readAll (linesOf (chunks events).flatten)).1 := by
  have read := Connection.performAll_reading events goesOn (.initial mcpWire)
  have handled : (performAll Connection.perform events (.initial mcpWire)).handled =
      ((chunks events).foldl Reading.read (.start mcpWire)).handled := congrArg Reading.handled read
  rw [handled, (hasRead_chunks _).handled]

/-- The two connections. -/
inductive Integration where
  | mcp | lsp

def Integration.wire : Integration → Wire
  | mcp => mcpWire
  | lsp => lspWire

theorem Integration.injective (integration : Integration) : Function.Injective integration.wire.requestId := by
  cases integration with
  | mcp => exact mcp_injective
  | lsp => exact lsp_injective

/-- In every run every request is settled at most once and by its own cause, the map holds those issued
and not settled, and a closed connection has none and takes none. The messages an MCP connection handles,
up to the first malformed line, are the same for all runs in which the same bytes arrive. -/
theorem requests_settle_once :
    (∀ (integration : Integration) (events : List (StdioEvent integration.wire.Reason)),
      (performAll Connection.perform events (.initial integration.wire)).Accounted) ∧
    ∀ events others : List (StdioEvent mcpWire.Reason), (∀ event ∈ events ++ others, event.closes = false) →
      (chunks events).flatten = (chunks others).flatten →
      (performAll Connection.perform events (.initial mcpWire)).handled =
        (performAll Connection.perform others (.initial mcpWire)).handled := by
  constructor
  · intro integration events
    exact (Connection.sound_performAll integration.injective events).accounted
  · intro events others goesOn same
    rw [handled_bytes events fun event listed => goesOn event (List.mem_append_left _ listed),
      handled_bytes others fun event listed => goesOn event (List.mem_append_right _ listed), same]

/-- A request that is aborted, and one line in two chunks or in three. -/
theorem sample_requests_settle :
    (performAll Connection.perform [.request true, .abort 1, .data (units "\x7b\x7d\n")] (.initial mcpWire)).Accounted ∧
    (performAll Connection.perform [.data (units "\x7b"), .data (units "\x7d\n")] (.initial mcpWire)).handled =
      (performAll Connection.perform [.request false, .data (units "\x7b"), .data (units "\x7d"), .data (units "\n")]
        (.initial mcpWire)).handled :=
  ⟨requests_settle_once.1 .mcp [.request true, .abort 1, .data (units "\x7b\x7d\n")],
    requests_settle_once.2 [.data (units "\x7b"), .data (units "\x7d\n")]
      [.request false, .data (units "\x7b"), .data (units "\x7d"), .data (units "\n")] (by decide) (by decide)⟩

end OttiliCoder.Stdio
