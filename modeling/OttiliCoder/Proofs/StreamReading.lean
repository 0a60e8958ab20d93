import Mathlib.Data.List.Infix
import Mathlib.Data.List.ReduceOption
import OttiliCoder.Sdk.Client
import OttiliCoder.Server.EventStream

/-! The client's side of event streams: from the bytes of a response, however they are cut, it
reads the events of the frames that arrived, and nothing else. -/

namespace OttiliCoder
open Host Sdk

/-! Frames: each is read as the event it carries, and no part of it as anything else. -/

structure Carries (frame : JsString) (event : Option JsonValue) : Prop where
  uncut : Uncut frame
  formed : WellFormed frame
  parsed : parseSseFrame frame = .ok event
  part : ∀ left, left <+: frame ++ [unit '\n'] →
    parseSseFrame left = .ok none ∨ parseSseFrame left = .ok event ∨ ∃ error, parseSseFrame left = .error error

section Lines
variable {line rest frame : JsString}

theorem dataLines_cons (one : unit '\n' ∉ line) (rest : JsString) :
    dataLines (line ++ unit '\n' :: rest) = dataLines line ++ dataLines rest := by
  unfold dataLines
  rw [List.splitOn_append_cons_self_of_not_mem one, List.splitOn_eq_singleton one, ← List.singleton_append,
    List.filter_append, List.map_append]

theorem dataLines_line (one : unit '\n' ∉ line) : dataLines line =
    if (units "data:").isPrefixOf line then [trimStart (line.drop (units "data:").length)] else [] := by
  unfold dataLines
  rw [List.splitOn_eq_singleton one]
  split
  next starts => rw [List.filter_cons_of_pos starts, List.filter_nil, List.map_singleton]
  next other => rw [List.filter_cons_of_neg (by simpa using other), List.filter_nil, List.map_nil]

/-- A line that begins otherwise has no data, nor has any first part of it. -/
theorem dataLines_other {first : Nat} (begins : line.head? = some first) (other : first ≠ unit 'd') (one : unit '\n' ∉ line) :
    ∀ left, left <+: line → dataLines left = [] := by
  intro left part
  have none : unit '\n' ∉ left := fun member => one (part.subset member)
  rw [dataLines_line none, if_neg]
  intro starts
  obtain ⟨more, whole⟩ := List.isPrefixOf_iff_prefix.mp starts
  obtain ⟨tail, rfl⟩ := part
  rw [← whole] at begins
  exact other (Option.some.inj begins).symm

theorem parseSseFrame_none (silent : dataLines frame = []) : parseSseFrame frame = .ok none := by
  rw [parseSseFrame, silent]
  rfl

theorem parseSseFrame_data {data : JsString} (lines : dataLines frame = [data]) (filled : data ≠ []) :
    parseSseFrame frame =
      match parseJson data with
      | none => .error .syntaxError
      | some parsed =>
        if isRunEvent parsed then .ok (some parsed)
        else .error (.error (units "Daemon emitted an invalid SSE Run event.")) := by
  have joined : [unit '\n'].intercalate [data] = data := List.append_nil data
  rw [parseSseFrame, lines, joined]
  exact if_neg filled

/-- A first part ends inside the line, or goes on behind it. -/
theorem left_cases {left : JsString} (part : left <+: line ++ unit '\n' :: rest) :
    left <+: line ∨ ∃ more, left = line ++ unit '\n' :: more ∧ more <+: rest := by
  rcases prefix_cases part with inside | ⟨more, rfl, begins⟩
  · exact .inl inside
  cases more with
  | nil =>
    left
    rw [List.append_nil]
  | cons first more =>
    obtain ⟨rfl, behind⟩ := List.cons_prefix_cons.mp begins
    exact .inr ⟨more, rfl, behind⟩

end Lines

section Events
variable (eventId : RunId → Nat → String) (event : RunEvent)

theorem plain_digits (digits : List Digit) : ∀ u ∈ digitUnits digits, 32 ≤ u ∧ u < 128 := by
  intro u member
  obtain ⟨digit, -, rfl⟩ := List.mem_map.mp member
  have small := digit.isLt
  have zero : unit '0' = 48 := rfl
  omega

theorem plain_type (type : RunEventType) : ∀ u ∈ units type.text, 32 ≤ u ∧ u < 128 := by
  cases type <;> decide

def idLine : JsString := units "id: " ++ digitUnits (digitsOf event.sequence)

def typeLine : JsString := units "event: " ++ units event.type.text

def dataLine : JsString := units "data: " ++ (eventValue eventId event).stringify

theorem eventFrame_lines :
    eventFrame eventId event = idLine event ++ unit '\n' :: (typeLine event ++ unit '\n' :: dataLine eventId event) := rfl

theorem plain_idLine : ∀ u ∈ idLine event, 32 ≤ u ∧ u < 128 := by
  intro u member
  rcases List.mem_append.mp member with name | value
  · exact (show ∀ u ∈ units "id: ", 32 ≤ u ∧ u < 128 by decide) u name
  · exact plain_digits _ u value

theorem plain_typeLine : ∀ u ∈ typeLine event, 32 ≤ u ∧ u < 128 := by
  intro u member
  rcases List.mem_append.mp member with name | value
  · exact (show ∀ u ∈ units "event: ", 32 ≤ u ∧ u < 128 by decide) u name
  · exact plain_type _ u value

theorem idLine_one : unit '\n' ∉ idLine event := fun member => absurd (plain_idLine event _ member).1 (by decide)

theorem typeLine_one : unit '\n' ∉ typeLine event := fun member => absurd (plain_typeLine event _ member).1 (by decide)

theorem dataLine_one : unit '\n' ∉ dataLine eventId event := by
  intro member
  rcases List.mem_append.mp member with name | value
  · revert name
    decide
  · exact absurd (stringify_printable _ _ value) (by decide)

theorem eventFrame_uncut : Uncut (eventFrame eventId event) := by
  rw [eventFrame_lines]
  have last : Uncut (dataLine eventId event) := uncut_line (List.cons_ne_nil _ _) (dataLine_one eventId event)
  have typed : Uncut (typeLine event ++ unit '\n' :: dataLine eventId event) :=
    uncut_lines (List.cons_ne_nil _ _) (typeLine_one event) last ⟨_, _, rfl, by decide⟩
  exact uncut_lines (List.cons_ne_nil _ _) (idLine_one event) typed ⟨_, _, rfl, by decide⟩

theorem trimStart_brace (rest : JsString) : trimStart (unit ' ' :: unit '{' :: rest) = unit '{' :: rest := by
  rw [trimStart, List.dropWhile_cons_of_pos (by decide), List.dropWhile_cons_of_neg (by decide)]

/-- The text of an event, whole or in part, is what the data line of that part holds. -/
theorem dataLines_part {json : JsString} (part : json <+: (eventValue eventId event).stringify) :
    dataLines (units "data: " ++ json) = [json] := by
  have one : unit '\n' ∉ units "data: " ++ json := by
    intro member
    rcases List.mem_append.mp member with name | value
    · revert name
      decide
    · exact absurd (stringify_printable _ _ (part.subset value)) (by decide)
  have starts : (units "data:").isPrefixOf (units "data: " ++ json) = true :=
    List.isPrefixOf_iff_prefix.mpr ⟨unit ' ' :: json, rfl⟩
  have dropped : (units "data: " ++ json).drop (units "data:").length = unit ' ' :: json := rfl
  rw [dataLines_line one, if_pos starts, dropped]
  cases json with
  | nil => rfl
  | cons first json =>
    have brace : first = unit '{' := (List.cons_prefix_cons.mp part).1
    rw [brace, trimStart_brace]

theorem parse_part {frame json : JsString} (part : json <+: (eventValue eventId event).stringify)
    (lines : dataLines frame = [json]) : parseSseFrame frame = .ok none ∨
      parseSseFrame frame = .ok (some (eventValue eventId event)) ∨ ∃ error, parseSseFrame frame = .error error := by
  cases json with
  | nil =>
    left
    rw [parseSseFrame, lines]
    rfl
  | cons first json =>
    rw [parseSseFrame_data lines (List.cons_ne_nil _ _)]
    cases read : parseJson (first :: json) with
    | none => exact .inr (.inr ⟨_, rfl⟩)
    | some value =>
      have whole := parseJson_prefix part read
      rw [whole, ← eventValue, parseJson_stringify] at read
      cases read
      exact .inr (.inl rfl)

theorem parse_eventFrame : parseSseFrame (eventFrame eventId event) = .ok (some (eventValue eventId event)) := by
  have lines : dataLines (eventFrame eventId event) = [(eventValue eventId event).stringify] := by
    rw [eventFrame_lines, dataLines_cons (idLine_one event), dataLines_cons (typeLine_one event),
      dataLines_other rfl (by decide) (idLine_one event) _ List.prefix_rfl,
      dataLines_other rfl (by decide) (typeLine_one event) _ List.prefix_rfl, dataLine,
      dataLines_part eventId event List.prefix_rfl]
    rfl
  rw [parseSseFrame_data lines (List.cons_ne_nil _ _), parseJson_stringify]
  rfl

/-! The strings of an event are made of 16-bit units, so that its frame is well-formed text. -/

def SixteenBit (texts : List JsString) : Prop := ∀ text ∈ texts, ∀ u ∈ text, u < 0x10000

theorem sixteenBit_append {first second : List JsString} (one : SixteenBit first) (other : SixteenBit second) : SixteenBit (first ++ second) := by
  intro text member
  rcases List.mem_append.mp member with here | later
  · exact one text here
  · exact other text later

theorem sixteenBit_cons {text : JsString} {texts : List JsString} (one : ∀ u ∈ text, u < 0x10000) (others : SixteenBit texts) :
    SixteenBit (text :: texts) := by
  have single : SixteenBit [text] := fun other member => by rwa [List.mem_singleton.mp member]
  exact sixteenBit_append single others

theorem sixteenBit_nil : SixteenBit [] := fun _ member => by cases member

theorem sixteenBit_units (text : String) (plain : ∀ u ∈ units text, 32 ≤ u ∧ u < 128) : ∀ u ∈ units text, u < 0x10000 :=
  fun u member => Nat.lt_trans (plain u member).2 (by decide)

mutual
theorem jsonValue_sixteenBit : ∀ value : Json, SixteenBit (jsonValue value).strings
  | .null => sixteenBit_nil
  | .boolean _ => sixteenBit_nil
  | .number value => by
    rw [jsonValue]
    unfold jsonNumber
    split <;> exact sixteenBit_nil
  | .string value => sixteenBit_cons (utf16_bounded value) sixteenBit_nil
  | .array items => jsonItems_sixteenBit items
  | .object fields => jsonMembers_sixteenBit fields

theorem jsonItems_sixteenBit : ∀ items : List Json, SixteenBit (JsonValue.stringsItems (jsonItems items))
  | [] => sixteenBit_nil
  | item :: items => sixteenBit_append (jsonValue_sixteenBit item) (jsonItems_sixteenBit items)

theorem jsonMembers_sixteenBit : ∀ fields : List (String × Json), SixteenBit (JsonValue.stringsMembers (jsonMembers fields))
  | [] => sixteenBit_nil
  | (name, value) :: fields =>
    sixteenBit_cons (utf16_bounded name) (sixteenBit_append (jsonValue_sixteenBit value) (jsonMembers_sixteenBit fields))
end

theorem eventValue_sixteenBit : SixteenBit (eventValue eventId event).strings := by
  have name : ∀ text : String, (∀ u ∈ units text, 32 ≤ u ∧ u < 128) → ∀ u ∈ units text, u < 0x10000 :=
    sixteenBit_units
  have value : ∀ text : String, SixteenBit [utf16 text] := fun text => sixteenBit_cons (utf16_bounded text) sixteenBit_nil
  refine sixteenBit_cons (name _ (by decide)) (sixteenBit_append (value _) ?_)
  refine sixteenBit_cons (name _ (by decide)) (sixteenBit_append (value _) ?_)
  refine sixteenBit_cons (name _ (by decide)) (sixteenBit_append (jsonMembers_sixteenBit _) ?_)
  refine sixteenBit_cons (name _ (by decide)) (sixteenBit_append (value _) ?_)
  refine sixteenBit_cons (name _ (by decide)) (sixteenBit_append sixteenBit_nil ?_)
  refine sixteenBit_cons (name _ (by decide)) (sixteenBit_append ?_ ?_)
  · exact sixteenBit_cons (name _ (plain_type event.type)) sixteenBit_nil
  · exact sixteenBit_cons (name _ (by decide)) (sixteenBit_append (value _) sixteenBit_nil)

theorem formed_ascii {text : JsString} (plain : ∀ u ∈ text, 32 ≤ u ∧ u < 128) : WellFormed text := by
  refine .of_plain fun u member => ?_
  have ascii := plain u member
  omega

theorem formed_newline : WellFormed [unit '\n'] :=
  .of_plain fun u member => by rw [List.mem_singleton.mp member]; decide

theorem eventFrame_formed : WellFormed (eventFrame eventId event) := by
  have data : WellFormed (dataLine eventId event) :=
    (formed_ascii (by decide)).append (wellFormed_stringify (eventValue_sixteenBit eventId event))
  have typed := (formed_ascii (plain_typeLine event)).append (formed_newline.append data)
  exact (formed_ascii (plain_idLine event)).append (formed_newline.append typed)

/-- Where the data line ends inside its name it holds no data. -/
theorem dataLines_name (left : JsString) (part : left <+: units "data: ") : dataLines left = [] ∨ dataLines left = [[]] := by
  have each : ∀ name ∈ (units "data: ").inits, dataLines name = [] ∨ dataLines name = [[]] := by decide
  exact each left ((List.mem_inits _ _).mpr part)

/-- The frame of an event is read as that event, and a part of it never as another one. -/
theorem eventFrame_carries : Carries (eventFrame eventId event) (some (eventValue eventId event)) := by
  refine ⟨eventFrame_uncut eventId event, eventFrame_formed eventId event, parse_eventFrame eventId event, ?_⟩
  intro left part
  have silent := dataLines_other rfl (by decide) (idLine_one event)
  have quiet := dataLines_other rfl (by decide) (typeLine_one event)
  rw [eventFrame_lines, List.append_assoc, List.cons_append] at part
  rcases left_cases part with inside | ⟨behindId, rfl, typed⟩
  · exact .inl (parseSseFrame_none (silent left inside))
  rw [List.append_assoc, List.cons_append] at typed
  rcases left_cases typed with inside | ⟨behindType, rfl, held⟩
  · left
    apply parseSseFrame_none
    rw [dataLines_cons (idLine_one event), silent _ List.prefix_rfl, quiet behindId inside]
    rfl
  have lines : dataLines (idLine event ++ unit '\n' :: (typeLine event ++ unit '\n' :: behindType)) = dataLines behindType := by
    rw [dataLines_cons (idLine_one event), dataLines_cons (typeLine_one event), silent _ List.prefix_rfl,
      quiet _ List.prefix_rfl]
    rfl
  rcases left_cases held with inside | ⟨rest, rfl, ended⟩
  · rcases prefix_cases inside with name | ⟨json, rfl, begins⟩
    · left
      rw [parseSseFrame, lines]
      rcases dataLines_name behindType name with none | empty
      · rw [none]
        rfl
      · rw [empty]
        rfl
    · exact parse_part eventId event begins (lines.trans (dataLines_part eventId event begins))
  · rw [List.prefix_nil.mp ended] at lines ⊢
    refine parse_part eventId event List.prefix_rfl (lines.trans ?_)
    rw [dataLines_cons (dataLine_one eventId event), dataLine, dataLines_part eventId event List.prefix_rfl]
    rfl

theorem keepalive_carries : Carries keepalive none := by
  have one : unit '\n' ∉ keepalive := by decide
  have begins : keepalive.head? = some (unit ':') := rfl
  have silent := dataLines_other begins (by decide) one
  refine ⟨uncut_line (List.cons_ne_nil _ _) one, formed_ascii (by decide), ?_, fun left part => .inl ?_⟩
  · exact parseSseFrame_none (silent _ List.prefix_rfl)
  · rcases left_cases part with inside | ⟨more, rfl, ended⟩
    · exact parseSseFrame_none (silent left inside)
    · apply parseSseFrame_none
      rw [List.prefix_nil.mp ended, dataLines_cons one, silent _ List.prefix_rfl]
      rfl

end Events

/-! Reading: chunks are put together again, whatever their borders. -/

section Client
variable {frames : List JsString} {events : List (Option JsonValue)}

theorem deliver_with (reading : Sdk.Reading) (decoder : Utf8Decoder) (buffered frame : JsString) :
    Sdk.Reading.deliver { reading with decoder, buffered } frame = { reading.deliver frame with decoder, buffered } := by
  unfold Sdk.Reading.deliver
  simp only
  split <;> rfl

theorem foldl_deliver_with (reading : Sdk.Reading) (decoder : Utf8Decoder) (buffered : JsString) (frames : List JsString) :
    frames.foldl Sdk.Reading.deliver { reading with decoder, buffered } =
      { frames.foldl Sdk.Reading.deliver reading with decoder, buffered } := by
  induction frames generalizing reading with
  | nil => rfl
  | cons frame frames ih => rw [List.foldl_cons, deliver_with, ih, List.foldl_cons]

/-- The text of the bytes read so far. -/
def textOf (bytes : Bytes) : JsString := (Utf8Decoder.ready.decode bytes).2

theorem textOf_prefix {first bytes : Bytes} (part : first <+: bytes) : textOf first <+: textOf bytes := decode_prefix part _

theorem read_eq (reading : Sdk.Reading) (chunk : Bytes) : reading.read chunk =
    (splitFrames (reading.buffered ++ (reading.decoder.decode chunk).2)).1.foldl Sdk.Reading.deliver
      { reading with
        decoder := (reading.decoder.decode chunk).1
        buffered := (splitFrames (reading.buffered ++ (reading.decoder.decode chunk).2)).2 } := rfl

theorem read_chunks (chunks : List Bytes) : chunks.foldl Sdk.Reading.read {} =
    { (splitFrames (textOf chunks.flatten)).1.foldl Sdk.Reading.deliver {} with
      decoder := (Utf8Decoder.ready.decode chunks.flatten).1, buffered := (splitFrames (textOf chunks.flatten)).2 } := by
  induction chunks using List.reverseRecOn with
  | nil => rfl
  | append_singleton chunks chunk ih =>
    have flat : (chunks ++ [chunk]).flatten = chunks.flatten ++ chunk := by simp
    have whole : textOf (chunks.flatten ++ chunk) =
        textOf chunks.flatten ++ ((Utf8Decoder.ready.decode chunks.flatten).1.decode chunk).2 := by
      rw [textOf, Utf8Decoder.decode_append]
      rfl
    have decoder : (Utf8Decoder.ready.decode (chunks.flatten ++ chunk)).1 =
        ((Utf8Decoder.ready.decode chunks.flatten).1.decode chunk).1 := by
      rw [Utf8Decoder.decode_append]
    rw [List.foldl_append, List.foldl_cons, List.foldl_nil, ih, flat, whole, decoder, splitFrames_append, List.foldl_append,
      read_eq, foldl_deliver_with]
    simp only
    rw [foldl_deliver_with]

theorem deliver_carried {reading : Sdk.Reading} {frame : JsString} {event : Option JsonValue} (fine : reading.failure = none)
    (parsed : parseSseFrame frame = .ok event) :
    reading.deliver frame = { reading with delivered := reading.delivered ++ event.toList } := by
  rw [Sdk.Reading.deliver, fine, parsed]
  cases event with
  | none => simp [← fine]
  | some event => rfl

theorem foldl_deliver_carried (carried : List.Forall₂ Carries frames events) {reading : Sdk.Reading}
    (fine : reading.failure = none) :
    frames.foldl Sdk.Reading.deliver reading = { reading with delivered := reading.delivered ++ events.reduceOption } := by
  induction carried generalizing reading with
  | nil => simp
  | @cons frame event frames events carries _ ih =>
    rw [List.foldl_cons, deliver_carried fine carries.parsed, ih (by exact fine)]
    cases event with
    | none => simp
    | some event => simp [List.append_assoc]

/-- The bytes of a response with these frames. -/
def bytesOf (frames : List JsString) : Bytes := frames.flatMap fun frame => encodeUtf8 (frame ++ [unit '\n', unit '\n'])

theorem carried_frame (carried : List.Forall₂ Carries frames events) : ∀ frame ∈ frames, ∃ event, Carries frame event := by
  induction carried with
  | nil => simp
  | cons carries _ ih =>
    intro frame member
    rcases List.mem_cons.mp member with rfl | later
    · exact ⟨_, carries⟩
    · exact ih frame later

theorem textOf_bytesOf (carried : List.Forall₂ Carries frames events) : textOf (bytesOf frames) = framed frames := by
  have formed : ∀ frame ∈ frames, WellFormed (frame ++ [unit '\n', unit '\n']) := by
    intro frame member
    obtain ⟨event, carries⟩ := carried_frame carried frame member
    exact carries.formed.append (formed_newline.append formed_newline)
  have encoded : bytesOf frames = encodeUtf8 (framed frames) ∧ WellFormed (framed frames) := by
    clear carried
    induction frames with
    | nil => exact ⟨rfl, .nil⟩
    | cons frame frames ih =>
      obtain ⟨same, rest⟩ := ih fun other member => formed other (List.mem_cons_of_mem _ member)
      have first := formed frame (List.mem_cons_self ..)
      refine ⟨?_, first.append rest⟩
      exact (congrArg _ same).trans (encodeUtf8_append first _).symm
  rw [textOf, encoded.1, decode_encodeUtf8 encoded.2]

theorem uncut_of_carried (carried : List.Forall₂ Carries frames events) : ∀ frame ∈ frames, Uncut frame := by
  intro frame member
  obtain ⟨event, carries⟩ := carried_frame carried frame member
  exact carries.uncut

theorem parseSseFrame_nil : parseSseFrame [] = .ok none := rfl

/-- Of a response that arrives up to some byte, the client delivers the events it carries up to
some event. -/
theorem streamEvents_delivers (carried : List.Forall₂ Carries frames events) {chunks : List Bytes} (ended : Bool)
    (arrived : chunks.flatten <+: bytesOf frames) : Sdk.streamEvents chunks ended <+: events.reduceOption := by
  have part := textOf_prefix arrived
  rw [textOf_bytesOf carried] at part
  obtain ⟨later, cut, left⟩ := framed_prefix (uncut_of_carried carried) part
  let count := (splitFrames (textOf chunks.flatten)).1.length
  have before := List.forall₂_take count carried
  have behind := List.forall₂_drop count carried
  rw [cut, List.take_left] at before
  rw [cut, List.drop_left] at behind
  have split : events.reduceOption = (events.take count).reduceOption ++ (events.drop count).reduceOption := by
    rw [← List.reduceOption_append, List.take_append_drop]
  rw [Sdk.streamEvents, read_chunks, foldl_deliver_carried before rfl, List.nil_append, split]
  cases ended with
  | false => exact List.prefix_append ..
  | true =>
    simp only [if_true]
    rw [Sdk.Reading.finish]
    simp only
    rcases left with none | ⟨next, rest, rfl, begins⟩
    · rw [none, deliver_carried rfl parseSseFrame_nil]
      simp
    · obtain ⟨event, others, carries, _, same⟩ := List.forall₂_cons_left_iff.mp behind
      rw [same]
      rcases carries.part _ begins with silent | read | ⟨error, failed⟩
      · rw [deliver_carried rfl silent]
        simp
      · rw [deliver_carried rfl read]
        cases event <;> simp
      · rw [Sdk.Reading.deliver, failed]
        exact List.prefix_append ..

theorem streamEvents_whole (carried : List.Forall₂ Carries frames events) {chunks : List Bytes} (ended : Bool)
    (arrived : chunks.flatten = bytesOf frames) : Sdk.streamEvents chunks ended = events.reduceOption := by
  have text : textOf chunks.flatten = framed frames := by rw [arrived, textOf_bytesOf carried]
  rw [Sdk.streamEvents, read_chunks, text, splitFrames_framed (uncut_of_carried carried), foldl_deliver_carried carried rfl,
    List.nil_append]
  cases ended with
  | false => rfl
  | true =>
    simp only [if_true]
    rw [Sdk.Reading.finish]
    simp only
    rw [deliver_carried rfl parseSseFrame_nil]
    simp

end Client

end OttiliCoder
