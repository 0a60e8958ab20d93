import OttiliCoder.Proofs.LspFrames
import OttiliCoder.Proofs.StdioRequests

/-! What a connection to a language server makes of a stream that arrives in chunks. -/

namespace OttiliCoder.Lsp
open Host JsonRpc Transaction Cutting Stdio Results

/-- The limit of a parser that is given none. -/
def defaultContentLength : Nat := 16 * 1024 * 1024

/-- The frames of a stream, and what is left. -/
def framesOf (stream : Bytes) : List Frame × Bytes := (frameCutter defaultContentLength).cutAll stream

/-- The messages before the first frame that is malformed or too large. -/
def messagesBefore : List Frame → List JsonRpcMessage
  | [] => []
  | frame :: frames =>
    match frame.message with
    | .error _ => []
    | .ok message => message :: messagesBefore frames

/-- A connection after these chunks. -/
def received (chunks : List Bytes) : Connection lspWire := performAll Connection.perform (chunks.map .data) (.initial lspWire)

/-- Both ways of arriving are handled alike: what is handled are the messages before the first bad
frame, and the connection fails in both ways or in neither. -/
structure HandledAlike (stream : Bytes) (chunks others : List Bytes) : Prop where
  handled : (received chunks).handled = messagesBefore (framesOf stream).1
  handledToo : (received others).handled = messagesBefore (framesOf stream).1
  fails : (received chunks).closed = (received others).closed

/-- The reading has not failed yet. -/
structure Going (bytes : Bytes) (reading : Reading lspWire) : Prop where
  going : reading.closed = false
  limit : LspMessageParser.maxContentLength reading.reader = defaultContentLength
  fine : Fine defaultContentLength bytes
  read : HasRead bytes reading.reader reading.handled

theorem going_start : Going [] (.start lspWire) where
  going := rfl
  limit := rfl
  fine := fine_nil
  read := ⟨rfl, rfl⟩

variable {bytes : Bytes} {reading : Reading lspWire}

theorem Going.goesOn (going : Going bytes reading) {chunk : Bytes} (fine : Fine defaultContentLength (bytes ++ chunk)) :
    Going (bytes ++ chunk) (reading.read chunk) := by
  have fine' := fine
  rw [← going.limit] at fine'
  obtain ⟨buffer, more, pushed, read⟩ := going.read.push fine'
  have whole : lspWire.push chunk reading.reader = ({ (show LspMessageParser from reading.reader) with buffer }, more, none) := by
    unfold lspWire
    dsimp only
    rw [pushed]
  have next : reading.read chunk = ⟨{ (show LspMessageParser from reading.reader) with buffer }, reading.handled ++ more, false⟩ := by
    unfold Reading.read
    rw [whole, going.going]
    rfl
  rw [next]
  exact ⟨rfl, going.limit, fine, read⟩

theorem Going.stops (going : Going bytes reading) {chunk : Bytes} (bad : ¬Fine defaultContentLength (bytes ++ chunk)) :
    (reading.read chunk).closed = true ∧ (reading.read chunk).handled = reading.handled := by
  have bad' := bad
  rw [← going.limit] at bad'
  obtain ⟨error, thrown⟩ := going.read.throws bad'
  have whole : ∃ parser, lspWire.push chunk reading.reader = (parser, [], some (.inl error)) := by
    unfold lspWire
    dsimp only
    generalize LspMessageParser.push chunk reading.reader = pushed at thrown
    obtain ⟨parser, outcome⟩ := pushed
    obtain rfl := thrown
    exact ⟨parser, rfl⟩
  obtain ⟨parser, whole⟩ := whole
  unfold Reading.read
  rw [whole, going.going]
  exact ⟨rfl, List.append_nil _⟩

theorem closed_stays (chunks : List Bytes) (closed : reading.closed = true) :
    (chunks.foldl Reading.read reading).closed = true ∧ (chunks.foldl Reading.read reading).handled = reading.handled := by
  induction chunks generalizing reading with
  | nil => exact ⟨closed, rfl⟩
  | cons chunk rest ih =>
    have next : (reading.read chunk).closed = true ∧ (reading.read chunk).handled = reading.handled := by
      unfold Reading.read
      rw [closed]
      exact ⟨rfl, rfl⟩
    obtain ⟨stays, handled⟩ := ih next.1
    exact ⟨stays, handled.trans next.2⟩

/-- A reading goes on to the end of the stream, or stops in the first push that is not fine. -/
inductive Outcome (stream : Bytes) (reading : Reading lspWire) : Prop where
  | goes (going : Going stream reading)
  | stops (before chunk after : Bytes) (part : stream = before ++ chunk ++ after) (fine : Fine defaultContentLength before)
      (bad : ¬Fine defaultContentLength (before ++ chunk)) (closed : reading.closed = true)
      (handled : messagesOf (framesOf before).1 = .ok reading.handled)

theorem outcome_chunks (chunks : List Bytes) (going : Going bytes reading) :
    Outcome (bytes ++ chunks.flatten) (chunks.foldl Reading.read reading) := by
  induction chunks generalizing bytes reading with
  | nil => exact .goes (by simpa using going)
  | cons chunk rest ih =>
    rw [List.flatten_cons, ← List.append_assoc]
    by_cases fine : Fine defaultContentLength (bytes ++ chunk)
    · exact ih (going.goesOn fine)
    · obtain ⟨closed, handled⟩ := going.stops fine
      obtain ⟨stays, kept⟩ := closed_stays rest closed
      refine .stops bytes chunk rest.flatten rfl going.fine fine stays ?_
      have read := going.read.messages
      rw [going.limit] at read
      exact read.trans (congrArg Except.ok (kept.trans handled).symm)

theorem chunks_data {Reason : Type} (arrived : List Bytes) : chunks (arrived.map (.data : Bytes → StdioEvent Reason)) = arrived := by
  simp [chunks, List.filterMap_map]

theorem received_reading (arrived : List Bytes) : (received arrived).reading = arrived.foldl Reading.read (.start lspWire) := by
  have read : (received arrived).reading =
      (chunks (arrived.map (.data : Bytes → StdioEvent lspWire.Reason))).foldl Reading.read (.start lspWire) := by
    apply Connection.performAll_reading
    intro event listed
    obtain ⟨chunk, _, rfl⟩ := List.mem_map.mp listed
    rfl
  rw [read, chunks_data]

theorem received_outcome (arrived : List Bytes) : Outcome arrived.flatten (received arrived).reading := by
  rw [received_reading]
  exact outcome_chunks arrived going_start

/-! Where the chunks make no difference. -/

theorem messagesBefore_ok {frames : List Frame} {messages : List JsonRpcMessage} (good : messagesOf frames = .ok messages) :
    messagesBefore frames = messages := by
  induction frames generalizing messages with
  | nil => exact Except.ok.inj good
  | cons frame rest ih =>
    rw [messagesOf_cons] at good
    obtain ⟨message, said, next⟩ := Results.except_bind_ok.mp good
    obtain ⟨later, restSaid, whole⟩ := Results.except_bind_ok.mp next
    rw [messagesBefore, said]
    dsimp only
    rw [ih restSaid]
    exact Except.ok.inj whole

theorem tame_received {arrived : List Bytes} (tame : Tame defaultContentLength arrived.flatten) :
    (received arrived).handled = messagesBefore (framesOf arrived.flatten).1 ∧ (received arrived).closed = false := by
  cases received_outcome arrived with
  | goes going =>
    have read := going.read.messages
    rw [going.limit] at read
    exact ⟨(messagesBefore_ok read).symm, going.going⟩
  | stops before chunk after part fine bad =>
    rw [part] at tame
    exact absurd tame.fine bad

/-- Where the first frame is bad, nothing is handled. -/
theorem bad_received {arrived : List Bytes} {frame : Frame} {rest : Bytes} {error : LspProtocolError}
    (first : cutFrame defaultContentLength arrived.flatten = some (frame, rest)) (bad : frame.message = .error error) :
    (received arrived).handled = [] ∧ (received arrived).closed = true := by
  have never : ∀ {bytes more : Bytes}, arrived.flatten = bytes ++ more → Fine defaultContentLength bytes →
      (framesOf bytes).1 = [] := by
    intro bytes more part fine
    cases cut : cutFrame defaultContentLength bytes with
    | none =>
      have whole : framesOf bytes = ([], bytes) := Cutter.cutAll_none cut
      rw [whole]
    | some found =>
      obtain ⟨other, left⟩ := found
      have later := cutFrame_append more cut
      rw [← part, first] at later
      obtain ⟨rfl, _⟩ := Prod.mk.inj (Option.some.inj later)
      have whole : framesOf bytes = (frame :: (framesOf left).1, (framesOf left).2) := Cutter.cutAll_some cut
      obtain ⟨message, good⟩ := messagesOf_ok.mp fine.1 frame (by
        change frame ∈ (framesOf bytes).1
        rw [whole]
        exact List.mem_cons_self)
      cases good.symm.trans bad
  cases received_outcome arrived with
  | goes going =>
    have none := never (List.append_nil _).symm going.fine
    have whole : framesOf arrived.flatten = (frame :: (framesOf rest).1, (framesOf rest).2) := Cutter.cutAll_some first
    rw [whole] at none
    cases none
  | stops before chunk after part fine _ closed handled =>
    rw [never (part.trans (List.append_assoc _ _ _)) fine] at handled
    exact ⟨(Except.ok.inj handled).symm, closed⟩

/-- Where no header ends, nothing is handled, and it fails if there is too much of it. -/
theorem endless_received {arrived : List Bytes} (endless : headerEnd arrived.flatten = none) :
    (received arrived).handled = [] ∧ (received arrived).closed = decide (headerBytes < arrived.flatten.length) := by
  have never : ∀ {bytes more : Bytes}, arrived.flatten = bytes ++ more → framesOf bytes = ([], bytes) := by
    intro bytes more part
    rw [part] at endless
    refine Cutter.cutAll_none ?_
    change cutFrame defaultContentLength bytes = none
    unfold cutFrame
    rw [headerEnd_part endless]
  cases received_outcome arrived with
  | goes going =>
    have whole := never (List.append_nil _).symm
    have read := going.read.messages
    rw [going.limit] at read
    have handled : messagesOf (framesOf arrived.flatten).1 = .ok (received arrived).handled := read
    rw [whole] at handled
    refine ⟨(Except.ok.inj handled).symm, going.going.trans (decide_eq_false fun long => ?_).symm⟩
    have left : (framesOf arrived.flatten).2 = arrived.flatten := by rw [whole]
    exact going.fine.2 ⟨left.symm ▸ endless, left.symm ▸ long⟩
  | stops before chunk after part fine bad closed handled =>
    have whole := never (part.trans (List.append_assoc _ _ _))
    rw [whole] at handled
    refine ⟨(Except.ok.inj handled).symm, closed.trans (decide_eq_true ?_).symm⟩
    have pushed := never part
    by_contra short
    refine bad ⟨⟨[], ?_⟩, ?_⟩
    · change messagesOf (framesOf (before ++ chunk)).1 = .ok []
      rw [pushed]
      rfl
    · intro long
      change Overlong (framesOf (before ++ chunk)).2 at long
      rw [pushed] at long
      have most : (before ++ chunk).length ≤ arrived.flatten.length := by
        rw [part]
        exact (List.prefix_append _ _).length_le
      exact short (Nat.lt_of_lt_of_le long.2 most)

/-- How a stream may arrive makes no difference where no frame of it is malformed or too large and no
header long, and where what comes first is bad anyway: its first frame, or a header that never ends. -/
def SplitsFreely (stream : Bytes) : Prop :=
  Tame defaultContentLength stream ∨
    (∃ frame rest error, cutFrame defaultContentLength stream = some (frame, rest) ∧ frame.message = .error error) ∨
    headerEnd stream = none

theorem handledAlike_of_splitsFreely {stream : Bytes} (free : SplitsFreely stream) {arrived others : List Bytes}
    (whole : arrived.flatten = stream) (wholeToo : others.flatten = stream) : HandledAlike stream arrived others := by
  rcases free with tame | ⟨frame, rest, error, first, bad⟩ | endless
  · have one := tame_received (whole.symm ▸ tame)
    have other := tame_received (wholeToo.symm ▸ tame)
    rw [whole] at one
    rw [wholeToo] at other
    exact ⟨one.1, other.1, one.2.trans other.2.symm⟩
  · have one := bad_received (whole.symm ▸ first) bad
    have other := bad_received (wholeToo.symm ▸ first) bad
    have frames : framesOf stream = (frame :: (framesOf rest).1, (framesOf rest).2) := Cutter.cutAll_some first
    have before : messagesBefore (framesOf stream).1 = [] := by
      rw [frames, messagesBefore, bad]
    exact ⟨one.1.trans before.symm, other.1.trans before.symm, one.2.trans other.2.symm⟩
  · have one := endless_received (whole.symm ▸ endless)
    have other := endless_received (wholeToo.symm ▸ endless)
    rw [whole] at one
    rw [wholeToo] at other
    have frames : framesOf stream = ([], stream) := by
      apply Cutter.cutAll_none
      change cutFrame defaultContentLength stream = none
      unfold cutFrame
      rw [endless]
    have before : messagesBefore (framesOf stream).1 = [] := by
      rw [frames]
      rfl
    exact ⟨one.1.trans before.symm, other.1.trans before.symm, one.2.trans other.2.symm⟩

/-! Where they do. -/

theorem received_one {stream : Bytes} (fine : Fine defaultContentLength stream) : (received [stream]).closed = false := by
  have read := received_reading [stream]
  have going := going_start.goesOn fine
  exact (congrArg Reading.closed read).trans going.going

theorem received_bad {part more : Bytes} (bad : ¬Fine defaultContentLength part) :
    (received [part, more]).closed = true ∧ (received [part, more]).handled = [] := by
  have read := received_reading [part, more]
  obtain ⟨closed, handled⟩ := going_start.stops bad
  obtain ⟨stays, kept⟩ := closed_stays [more] closed
  exact ⟨(congrArg Reading.closed read).trans stays, (congrArg Reading.handled read).trans (kept.trans handled)⟩

theorem splitsFreely_of_handledAlike {stream : Bytes}
    (alike : ∀ arrived others : List Bytes, arrived.flatten = stream → others.flatten = stream → HandledAlike stream arrived others) :
    SplitsFreely stream := by
  have single : [stream].flatten = stream := List.flatten_singleton
  by_cases fine : Fine defaultContentLength stream
  · left
    apply tame_of_fine
    intro part more whole
    by_contra bad
    have two : [part, more].flatten = stream := by simp [whole]
    have fails := (alike [stream] [part, more] single two).fails
    rw [received_one fine, (received_bad bad).1] at fails
    cases fails
  · right
    have two : [stream, []].flatten = stream := by simp
    have handled := (alike [stream, []] [stream] two single).handled
    rw [(received_bad fine).2] at handled
    cases cut : cutFrame defaultContentLength stream with
    | none =>
      right
      have frames : framesOf stream = ([], stream) := Cutter.cutAll_none cut
      by_contra ends
      refine fine ⟨⟨[], ?_⟩, ?_⟩
      · change messagesOf (framesOf stream).1 = .ok []
        rw [frames]
        rfl
      · intro long
        change Overlong (framesOf stream).2 at long
        rw [frames] at long
        exact ends long.1
    | some found =>
      obtain ⟨frame, rest⟩ := found
      have frames : framesOf stream = (frame :: (framesOf rest).1, (framesOf rest).2) := Cutter.cutAll_some cut
      rw [frames, messagesBefore] at handled
      cases said : frame.message with
      | error error => exact .inl ⟨frame, rest, error, rfl, said⟩
      | ok message =>
        rw [said] at handled
        cases handled

/-- The chunks a stream arrives in make no difference if and only if the stream splits freely. -/
theorem handled_alike_iff (stream : Bytes) :
    (∀ arrived others : List Bytes, arrived.flatten = stream → others.flatten = stream → HandledAlike stream arrived others) ↔
      SplitsFreely stream :=
  ⟨splitsFreely_of_handledAlike, fun free _ _ whole wholeToo => handledAlike_of_splitsFreely free whole wholeToo⟩

/-- A notification, then a header that is malformed. -/
def noticeThenMalformed : Bytes × Bytes :=
  (units "Content-Length: 30\r\n\r\n\x7b\"jsonrpc\":\"2.0\",\"method\":\"x\"\x7d", units "x\n\n")

/-- What arrives with a malformed header is lost with it, and what arrives before is handled. -/
theorem message_lost_with_chunk :
    ¬∀ (stream : Bytes) (arrived others : List Bytes), arrived.flatten = stream → others.flatten = stream →
      HandledAlike stream arrived others := by
  have apart : (received [noticeThenMalformed.1, noticeThenMalformed.2]).handled.length = 1 := by decide +kernel
  have together : (received [noticeThenMalformed.1 ++ noticeThenMalformed.2]).handled.length = 0 := by decide +kernel
  intro alike
  have lost := alike (noticeThenMalformed.1 ++ noticeThenMalformed.2) [noticeThenMalformed.1, noticeThenMalformed.2]
    [noticeThenMalformed.1 ++ noticeThenMalformed.2] (by simp) (by simp)
  rw [lost.handled, ← lost.handledToo, together] at apart
  cases apart

end OttiliCoder.Lsp
