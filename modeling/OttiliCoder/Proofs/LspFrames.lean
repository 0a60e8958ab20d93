import OttiliCoder.Integrations.Lsp
import OttiliCoder.Library.Cutting
import OttiliCoder.Library.Results

/-! The stream of a language server as a sequence of frames, however it arrives. -/

namespace OttiliCoder.Lsp
open Host Mcp JsonRpc Search Cutting Results

/-! The empty line of a header is found where it is, whatever follows. -/

theorem crlf_found {buffer : Bytes} {place : Nat} (here : At crlfEnd buffer place) :
    buffer[place]? = some 13 ∧ buffer[place + 1]? = some 10 ∧ buffer[place + 2]? = some 13 ∧ buffer[place + 3]? = some 10 :=
  ⟨here.get 0 (by decide), here.get 1 (by decide), here.get 2 (by decide), here.get 3 (by decide)⟩

theorem lf_found {buffer : Bytes} {place : Nat} (here : At lfEnd buffer place) :
    buffer[place]? = some 10 ∧ buffer[place + 1]? = some 10 := ⟨here.get 0 (by decide), here.get 1 (by decide)⟩

theorem crlf_ne_nil : crlfEnd ≠ [] := by decide

theorem lf_ne_nil : lfEnd ≠ [] := by decide

/-- What follows brings no empty line before one that is there. -/
theorem lf_before {buffer more : Bytes} {crlf lf : Nat} (here : At lfEnd buffer lf) (absent : ¬At crlfEnd buffer crlf)
    (later : At crlfEnd (buffer ++ more) crlf) : lf < crlf := by
  have bound := here.bound lf_ne_nil
  have cut : ¬crlf + 4 ≤ buffer.length := fun inside => absent (later.of_append inside)
  obtain ⟨here₀, here₁⟩ := lf_found (here.append lf_ne_nil more)
  obtain ⟨crlf₀, _, crlf₂, _⟩ := crlf_found later
  change lf + 2 ≤ buffer.length at bound
  by_contra before
  have near : crlf = lf ∨ crlf + 1 = lf := by omega
  rcases near with rfl | rfl
  · cases crlf₀.symm.trans here₀
  · cases crlf₂.symm.trans here₁

theorem crlf_before {buffer more : Bytes} {crlf lf : Nat} (here : At crlfEnd buffer crlf) (absent : ¬At lfEnd buffer lf)
    (later : At lfEnd (buffer ++ more) lf) : crlf < lf := by
  have bound := here.bound crlf_ne_nil
  have cut : ¬lf + 2 ≤ buffer.length := fun inside => absent (later.of_append inside)
  change crlf + 4 ≤ buffer.length at bound
  omega

theorem headerEnd_append {buffer : Bytes} {found : HeaderEnd} (ends : headerEnd buffer = some found) (more : Bytes) :
    headerEnd (buffer ++ more) = some found := by
  unfold headerEnd at ends ⊢
  cases crlf : indexOf crlfEnd buffer with
  | none =>
    have absent := (indexOf_eq_none_iff crlf_ne_nil).mp crlf
    cases lf : indexOf lfEnd buffer with
    | none => simp [crlf, lf] at ends
    | some lfPlace =>
      rw [indexOf_append lf_ne_nil lf]
      have here := (indexOf_eq_some_iff.mp lf).2.1
      cases later : indexOf crlfEnd (buffer ++ more) with
      | none => simpa [crlf, lf] using ends
      | some crlfPlace =>
        have less := lf_before here (absent crlfPlace) (indexOf_eq_some_iff.mp later).2.1
        simpa [crlf, lf, Nat.not_le_of_lt less] using ends
  | some crlfPlace =>
    rw [indexOf_append crlf_ne_nil crlf]
    have here := (indexOf_eq_some_iff.mp crlf).2.1
    cases lf : indexOf lfEnd buffer with
    | none =>
      have absent := (indexOf_eq_none_iff lf_ne_nil).mp lf
      cases later : indexOf lfEnd (buffer ++ more) with
      | none => simpa [crlf, lf] using ends
      | some lfPlace =>
        have less := crlf_before here (absent lfPlace) (indexOf_eq_some_iff.mp later).2.1
        simpa [crlf, lf, Nat.le_of_lt less] using ends
    | some lfPlace =>
      rw [indexOf_append lf_ne_nil lf]
      simpa [crlf, lf] using ends

theorem headerEnd_bound {buffer : Bytes} {found : HeaderEnd} (ends : headerEnd buffer = some found) :
    found.length < found.end ∧ found.end ≤ buffer.length := by
  have crlfBound : ∀ {place}, indexOf crlfEnd buffer = some place → place + 4 ≤ buffer.length :=
    fun here => (indexOf_eq_some_iff.mp here).2.1.bound crlf_ne_nil
  have lfBound : ∀ {place}, indexOf lfEnd buffer = some place → place + 2 ≤ buffer.length :=
    fun here => (indexOf_eq_some_iff.mp here).2.1.bound lf_ne_nil
  unfold headerEnd at ends
  unfold HeaderEnd.end
  split at ends
  · cases ends
  · next crlf _ =>
    cases ends
    exact ⟨Nat.lt_add_of_pos_right (by simp), crlfBound crlf⟩
  · next lf =>
    cases ends
    exact ⟨Nat.lt_add_of_pos_right (by simp), lfBound lf⟩
  · next crlf lf =>
    split at ends
    · cases ends
      exact ⟨Nat.lt_add_of_pos_right (by simp), crlfBound crlf⟩
    · cases ends
      exact ⟨Nat.lt_add_of_pos_right (by simp), lfBound lf⟩

theorem parseHeader_append {buffer : Bytes} {found : HeaderEnd} (inside : found.length ≤ buffer.length) (more : Bytes) :
    parseHeader found (buffer ++ more) = parseHeader found buffer := by
  unfold parseHeader
  rw [List.take_append_of_le_length inside]

theorem parseHeader_end {buffer : Bytes} {found : HeaderEnd} {header : LspHeader} (parsed : parseHeader found buffer = .ok header) :
    header.end = found.end := by
  unfold parseHeader at parsed
  obtain ⟨values, _, counted⟩ := Results.except_bind_ok.mp parsed
  obtain ⟨length, _, made⟩ := Results.except_bind_ok.mp counted
  rw [← Except.ok.inj made]

/-! Frames, as they stand in the stream. -/

structure Frame where
  /-- How long its header is, with the empty line. -/
  header : Nat
  /-- What it says, or why it is malformed or too large. -/
  message : Except LspProtocolError JsonRpcMessage

/-- The first frame of the stream, once there is as much of it as it takes to tell. -/
def cutFrame (maxContentLength : Nat) (buffer : Bytes) : Option (Frame × Bytes) :=
  match headerEnd buffer with
  | none => none
  | some found =>
    match parseHeader found buffer with
    | .error error => some (⟨found.end, .error error⟩, buffer.drop found.end)
    | .ok header =>
      if maxContentLength < header.contentLength then
        some (⟨found.end, .error (.oversized maxContentLength)⟩, buffer.drop found.end)
      else if buffer.length < header.end + header.contentLength then none
      else
        some (⟨found.end, parseBody ((buffer.take (header.end + header.contentLength)).drop header.end)⟩,
          buffer.drop (header.end + header.contentLength))

variable {maxContentLength : Nat} {buffer rest : Bytes} {frame : Frame}

theorem cutFrame_header (cut : cutFrame maxContentLength buffer = some (frame, rest)) :
    ∃ found, headerEnd buffer = some found ∧ frame.header = found.end := by
  unfold cutFrame at cut
  split at cut
  · cases cut
  · next found ends =>
    refine ⟨found, ends, ?_⟩
    split at cut
    · cases cut
      rfl
    · split at cut
      · cases cut
        rfl
      · split at cut
        · cases cut
        · cases cut
          rfl

theorem cutFrame_shorter (cut : cutFrame maxContentLength buffer = some (frame, rest)) : rest.length < buffer.length := by
  unfold cutFrame at cut
  split at cut
  · cases cut
  · next found ends =>
    obtain ⟨some, inside⟩ := headerEnd_bound ends
    split at cut
    · cases cut
      rw [List.length_drop]
      omega
    · next header parsed =>
      have same := parseHeader_end parsed
      split at cut
      · cases cut
        rw [List.length_drop]
        omega
      · split at cut
        · cases cut
        · cases cut
          rw [List.length_drop]
          omega

theorem cutFrame_append (more : Bytes) (cut : cutFrame maxContentLength buffer = some (frame, rest)) :
    cutFrame maxContentLength (buffer ++ more) = some (frame, rest ++ more) := by
  unfold cutFrame at cut ⊢
  split at cut
  · cases cut
  · next found ends =>
    obtain ⟨some, inside⟩ := headerEnd_bound ends
    rw [headerEnd_append ends]
    dsimp only
    rw [parseHeader_append (Nat.le_of_lt (Nat.lt_of_lt_of_le some inside))]
    split at cut
    · cases cut
      rw [List.drop_append_of_le_length inside]
    · next header parsed =>
      split at cut
      · next large =>
        cases cut
        rw [if_pos large, List.drop_append_of_le_length inside]
      · next fits =>
        split at cut
        · cases cut
        · next whole =>
          cases cut
          have length : (buffer ++ more).length = buffer.length + more.length := List.length_append
          rw [if_neg fits, if_neg (by omega), List.take_append_of_le_length (by omega), List.drop_append_of_le_length (by omega)]

/-- The frames of a stream. -/
def frameCutter (maxContentLength : Nat) : Cutter Nat Frame where
  cut := cutFrame maxContentLength
  shorter := cutFrame_shorter
  stable := cutFrame_append

/-! The loop of `push` takes the frames one by one. -/

/-- No header ends here, and there is too much for one. -/
def Overlong (buffer : Bytes) : Prop := headerEnd buffer = none ∧ headerBytes < buffer.length

instance (buffer : Bytes) : Decidable (Overlong buffer) := by
  unfold Overlong
  infer_instance

theorem readHeader_found {found : HeaderEnd} (ends : headerEnd buffer = some found) :
    readHeader buffer = ((parseHeader found buffer).mapError fun error => (error, buffer)).map some := by
  unfold readHeader
  rw [ends]

theorem readMessages_none {rounds : Nat} {messages : List JsonRpcMessage} (none : cutFrame maxContentLength buffer = none) :
    readMessages maxContentLength (rounds + 1) buffer messages =
      if Overlong buffer then ([], .error .headerLimit) else (buffer, .ok messages) := by
  unfold cutFrame at none
  unfold readMessages
  cases ends : headerEnd buffer with
  | none =>
    unfold readHeader
    rw [ends]
    by_cases large : headerBytes < buffer.length
    · simp [Overlong, ends, large]
    · simp [Overlong, ends, large]
  | some found =>
    have short : ¬Overlong buffer := fun long => by cases ends.symm.trans long.1
    rw [readHeader_found ends, if_neg short]
    rw [ends] at none
    dsimp only at none
    cases parsed : parseHeader found buffer with
    | error error =>
      rw [parsed] at none
      cases none
    | ok header =>
      rw [parsed] at none
      dsimp only at none
      split at none
      · cases none
      · next fits =>
        split at none
        · next cut => simp [Except.mapError, Except.map, fits, cut]
        · cases none

theorem readMessages_error {rounds : Nat} {messages : List JsonRpcMessage} {error : LspProtocolError}
    (cut : cutFrame maxContentLength buffer = some (frame, rest)) (bad : frame.message = .error error) :
    (readMessages maxContentLength (rounds + 1) buffer messages).2 = .error error := by
  obtain ⟨found, ends, _⟩ := cutFrame_header cut
  unfold readMessages
  rw [readHeader_found ends]
  unfold cutFrame at cut
  rw [ends] at cut
  dsimp only at cut
  cases parsed : parseHeader found buffer with
  | error other =>
    rw [parsed] at cut
    cases cut
    cases bad
    rfl
  | ok header =>
    rw [parsed] at cut
    dsimp only at cut
    split at cut
    · next large =>
      cases cut
      cases bad
      simp [Except.mapError, Except.map, large]
    · next fits =>
      split at cut
      · cases cut
      · next whole =>
        cases cut
        dsimp only at bad
        simp only [Except.mapError, Except.map, if_neg fits, if_neg whole, bad]

theorem readMessages_message {rounds : Nat} {messages : List JsonRpcMessage} {message : JsonRpcMessage}
    (cut : cutFrame maxContentLength buffer = some (frame, rest)) (good : frame.message = .ok message) :
    readMessages maxContentLength (rounds + 1) buffer messages =
      readMessages maxContentLength rounds rest (messages ++ [message]) := by
  obtain ⟨found, ends, _⟩ := cutFrame_header cut
  rw [readMessages, readHeader_found ends]
  unfold cutFrame at cut
  rw [ends] at cut
  dsimp only at cut
  cases parsed : parseHeader found buffer with
  | error other =>
    rw [parsed] at cut
    cases cut
    cases good
  | ok header =>
    rw [parsed] at cut
    dsimp only at cut
    split at cut
    · cases cut
      cases good
    · next fits =>
      split at cut
      · cases cut
      · next whole =>
        cases cut
        dsimp only at good
        simp only [Except.mapError, Except.map, if_neg fits, if_neg whole, good]

/-- The messages of frames, unless one of them is bad. -/
def messagesOf (frames : List Frame) : Except LspProtocolError (List JsonRpcMessage) := frames.mapM Frame.message

theorem messagesOf_cons (frames : List Frame) : messagesOf (frame :: frames) =
    (do let message ← frame.message; let more ← messagesOf frames; return message :: more) := List.mapM_cons

theorem readMessages_bad {rounds : Nat} {messages : List JsonRpcMessage} {error : LspProtocolError} (enough : buffer.length < rounds)
    (bad : messagesOf ((frameCutter maxContentLength).cutAll buffer).1 = .error error) :
    (readMessages maxContentLength rounds buffer messages).2 = .error error := by
  induction buffer using Cutter.cutting (frameCutter maxContentLength) generalizing rounds messages with
  | nothing buffer none =>
    rw [Cutter.cutAll_none none] at bad
    cases bad
  | item buffer frame rest cut ih =>
    obtain ⟨rounds, rfl⟩ : ∃ fewer, rounds = fewer + 1 := Nat.exists_eq_succ_of_ne_zero (by omega)
    have shorter := cutFrame_shorter cut
    rw [Cutter.cutAll_some cut, messagesOf_cons] at bad
    cases said : frame.message with
    | error other =>
      rw [said] at bad
      rw [readMessages_error cut said, Except.error.inj bad]
    | ok message =>
      rw [readMessages_message cut said]
      apply ih (by omega)
      rw [said] at bad
      cases later : messagesOf ((frameCutter maxContentLength).cutAll rest).1 with
      | error other =>
        rw [later] at bad
        rw [Except.error.inj bad]
      | ok more =>
        rw [later] at bad
        cases bad

theorem readMessages_good {rounds : Nat} {messages more : List JsonRpcMessage} (enough : buffer.length < rounds)
    (good : messagesOf ((frameCutter maxContentLength).cutAll buffer).1 = .ok more) :
    readMessages maxContentLength rounds buffer messages =
      if Overlong ((frameCutter maxContentLength).cutAll buffer).2 then ([], .error .headerLimit)
      else (((frameCutter maxContentLength).cutAll buffer).2, .ok (messages ++ more)) := by
  induction buffer using Cutter.cutting (frameCutter maxContentLength) generalizing rounds messages more with
  | nothing buffer none =>
    obtain ⟨rounds, rfl⟩ : ∃ fewer, rounds = fewer + 1 := Nat.exists_eq_succ_of_ne_zero (by omega)
    rw [Cutter.cutAll_none none] at good ⊢
    have nothing : more = [] := (Except.ok.inj good).symm
    rw [readMessages_none none, nothing, List.append_nil]
  | item buffer frame rest cut ih =>
    obtain ⟨rounds, rfl⟩ : ∃ fewer, rounds = fewer + 1 := Nat.exists_eq_succ_of_ne_zero (by omega)
    have shorter := cutFrame_shorter cut
    rw [Cutter.cutAll_some cut] at good ⊢
    rw [messagesOf_cons] at good
    obtain ⟨message, said, rest⟩ := Results.except_bind_ok.mp good
    obtain ⟨later, restSaid, whole⟩ := Results.except_bind_ok.mp rest
    obtain rfl := Except.ok.inj whole
    rw [readMessages_message cut said, ih (by omega) restSaid, List.append_assoc]
    rfl

theorem messagesOf_append (frames others : List Frame) : messagesOf (frames ++ others) =
    (do let messages ← messagesOf frames; let more ← messagesOf others; return messages ++ more) := List.mapM_append

/-! What a parser has read of a stream. -/

variable (maxContentLength) in
/-- A parser that has all these bytes has thrown nothing. -/
def Fine (bytes : Bytes) : Prop :=
  (∃ messages, messagesOf ((frameCutter maxContentLength).cutAll bytes).1 = .ok messages) ∧
    ¬Overlong ((frameCutter maxContentLength).cutAll bytes).2

theorem fine_nil : Fine maxContentLength [] := ⟨⟨[], rfl⟩, fun long => Nat.not_lt_zero _ long.2⟩

structure HasRead (bytes : Bytes) (parser : LspMessageParser) (messages : List JsonRpcMessage) : Prop where
  buffer : parser.buffer = ((frameCutter parser.maxContentLength).cutAll bytes).2
  messages : messagesOf ((frameCutter parser.maxContentLength).cutAll bytes).1 = .ok messages

variable {parser : LspMessageParser} {bytes : Bytes} {messages : List JsonRpcMessage}

theorem messagesOf_arrived (read : HasRead bytes parser messages) (chunk : Bytes) :
    messagesOf ((frameCutter parser.maxContentLength).cutAll (bytes ++ chunk)).1 =
      (do
        let more ← messagesOf ((frameCutter parser.maxContentLength).cutAll (parser.buffer ++ chunk)).1
        return messages ++ more) := by
  rw [Cutter.cutAll_append, messagesOf_append, read.messages, ← read.buffer]
  rfl

theorem left_arrived (read : HasRead bytes parser messages) (chunk : Bytes) :
    ((frameCutter parser.maxContentLength).cutAll (bytes ++ chunk)).2 =
      ((frameCutter parser.maxContentLength).cutAll (parser.buffer ++ chunk)).2 := by
  rw [Cutter.cutAll_append, ← read.buffer]

theorem HasRead.push (read : HasRead bytes parser messages) {chunk : Bytes}
    (fine : Fine parser.maxContentLength (bytes ++ chunk)) :
    ∃ buffer more, parser.push chunk = ({ parser with buffer }, .ok more) ∧
      HasRead (bytes ++ chunk) { parser with buffer } (messages ++ more) := by
  obtain ⟨⟨all, good⟩, prompt⟩ := fine
  have arrived := messagesOf_arrived read chunk
  rw [good] at arrived
  obtain ⟨more, now, whole⟩ := Results.except_bind_ok.mp arrived.symm
  obtain rfl := Except.ok.inj whole
  rw [left_arrived read] at prompt
  refine ⟨((frameCutter parser.maxContentLength).cutAll (parser.buffer ++ chunk)).2, more, ?_, (left_arrived read chunk).symm, good⟩
  unfold LspMessageParser.push
  dsimp only
  rw [readMessages_good (Nat.lt_succ_self _) now, if_neg prompt]
  rfl

theorem HasRead.throws (read : HasRead bytes parser messages) {chunk : Bytes}
    (bad : ¬Fine parser.maxContentLength (bytes ++ chunk)) : ∃ error, (parser.push chunk).2 = .error error := by
  unfold LspMessageParser.push
  dsimp only
  cases now : messagesOf ((frameCutter parser.maxContentLength).cutAll (parser.buffer ++ chunk)).1 with
  | error error => exact ⟨error, readMessages_bad (Nat.lt_succ_self _) now⟩
  | ok more =>
    have arrived := messagesOf_arrived read chunk
    rw [now] at arrived
    have long : Overlong ((frameCutter parser.maxContentLength).cutAll (parser.buffer ++ chunk)).2 := by
      by_contra short
      rw [← left_arrived read] at short
      exact bad ⟨⟨_, arrived⟩, short⟩
    rw [readMessages_good (Nat.lt_succ_self _) now, if_pos long]
    exact ⟨_, rfl⟩

/-! Streams of which every part is fine. -/

/-- The header ends, if it is there, before a parser would have thrown. -/
def HeaderFits (buffer : Bytes) : Prop :=
  match headerEnd buffer with
  | none => buffer.length ≤ headerBytes
  | some found => found.end ≤ headerBytes + 1

theorem headerEnd_eq_none : headerEnd buffer = none ↔ ∀ place, ¬At crlfEnd buffer place ∧ ¬At lfEnd buffer place := by
  have crlf : indexOf crlfEnd buffer = none ↔ ∀ place, ¬At crlfEnd buffer place := indexOf_eq_none_iff crlf_ne_nil
  have lf : indexOf lfEnd buffer = none ↔ ∀ place, ¬At lfEnd buffer place := indexOf_eq_none_iff lf_ne_nil
  rw [forall_and, ← crlf, ← lf]
  unfold headerEnd
  split <;> simp_all
  split <;> simp

theorem headerEnd_part {more : Bytes} (nowhere : headerEnd (buffer ++ more) = none) : headerEnd buffer = none := by
  cases ends : headerEnd buffer with
  | none => rfl
  | some found => cases nowhere.symm.trans (headerEnd_append ends more)

theorem headerEnd_at {found : HeaderEnd} (ends : headerEnd buffer = some found) :
    At crlfEnd buffer found.length ∧ found.end = found.length + 4 ∨ At lfEnd buffer found.length ∧ found.end = found.length + 2 := by
  have crlfAt : ∀ {place}, indexOf crlfEnd buffer = some place → At crlfEnd buffer place :=
    fun here => (indexOf_eq_some_iff.mp here).2.1
  have lfAt : ∀ {place}, indexOf lfEnd buffer = some place → At lfEnd buffer place :=
    fun here => (indexOf_eq_some_iff.mp here).2.1
  unfold headerEnd at ends
  split at ends
  · cases ends
  · next crlf _ =>
    cases ends
    exact .inl ⟨crlfAt crlf, rfl⟩
  · next lf =>
    cases ends
    exact .inr ⟨lfAt lf, rfl⟩
  · next crlf lf =>
    split at ends
    · cases ends
      exact .inl ⟨crlfAt crlf, rfl⟩
    · cases ends
      exact .inr ⟨lfAt lf, rfl⟩

/-- A part of the stream in which no header ends stops before the header of the whole does. -/
theorem part_short {more : Bytes} {found : HeaderEnd} (ends : headerEnd (buffer ++ more) = some found)
    (nowhere : headerEnd buffer = none) : buffer.length < found.end := by
  have absent := headerEnd_eq_none.mp nowhere found.length
  by_contra long
  rcases headerEnd_at ends with ⟨here, length⟩ | ⟨here, length⟩
  · exact absent.1 (here.of_append (by change found.length + 4 ≤ buffer.length; omega))
  · exact absent.2 (here.of_append (by change found.length + 2 ≤ buffer.length; omega))

theorem HeaderFits.part {more : Bytes} (fits : HeaderFits (buffer ++ more)) : ¬Overlong buffer := by
  rintro ⟨nowhere, long⟩
  unfold HeaderFits at fits
  cases ends : headerEnd (buffer ++ more) with
  | none =>
    rw [ends] at fits
    dsimp only at fits
    rw [List.length_append] at fits
    omega
  | some found =>
    rw [ends] at fits
    have short := part_short ends nowhere
    dsimp only at fits
    omega

variable (maxContentLength) in
/-- No frame is malformed or too large, and no header needs more than a parser waits for. -/
structure Tame (stream : Bytes) : Prop where
  messages : ∀ frame ∈ ((frameCutter maxContentLength).cutAll stream).1, ∃ message, frame.message = .ok message
  headers : ∀ frame ∈ ((frameCutter maxContentLength).cutAll stream).1, frame.header ≤ headerBytes + 1
  left : HeaderFits ((frameCutter maxContentLength).cutAll stream).2

theorem messagesOf_ok {frames : List Frame} : (∃ messages, messagesOf frames = .ok messages) ↔
    ∀ frame ∈ frames, ∃ message, frame.message = .ok message := by
  unfold messagesOf
  simp only [mapM_ok]
  exact Results.exists_forall₂

theorem headerFits_of_frame (cut : cutFrame maxContentLength buffer = some (frame, rest)) (fits : frame.header ≤ headerBytes + 1) :
    HeaderFits buffer := by
  obtain ⟨found, ends, same⟩ := cutFrame_header cut
  unfold HeaderFits
  rw [ends]
  dsimp only
  rw [← same]
  exact fits

theorem Tame.fine {more : Bytes} (tame : Tame maxContentLength (bytes ++ more)) : Fine maxContentLength bytes := by
  obtain ⟨good, headers, left⟩ := tame
  rw [Cutter.cutAll_append] at good headers left
  refine ⟨messagesOf_ok.mpr fun frame listed => good frame (List.mem_append_left _ listed), ?_⟩
  cases next : cutFrame maxContentLength (((frameCutter maxContentLength).cutAll bytes).2 ++ more) with
  | none =>
    have whole : (frameCutter maxContentLength).cutAll (((frameCutter maxContentLength).cutAll bytes).2 ++ more) =
        ([], ((frameCutter maxContentLength).cutAll bytes).2 ++ more) := Cutter.cutAll_none next
    rw [whole] at left
    exact left.part
  | some found =>
    obtain ⟨frame, rest⟩ := found
    have whole : (frameCutter maxContentLength).cutAll (((frameCutter maxContentLength).cutAll bytes).2 ++ more) =
        (frame :: ((frameCutter maxContentLength).cutAll rest).1, ((frameCutter maxContentLength).cutAll rest).2) :=
      Cutter.cutAll_some next
    have listed : frame ∈ ((frameCutter maxContentLength).cutAll (((frameCutter maxContentLength).cutAll bytes).2 ++ more)).1 := by
      rw [whole]
      exact List.mem_cons_self
    exact (headerFits_of_frame next (headers frame (List.mem_append_right _ listed))).part

/-! A stream of which every part is fine is tame. -/

/-- A header is found in any part of the stream that reaches to its end. -/
theorem headerEnd_take {found : HeaderEnd} {count : Nat} (ends : headerEnd buffer = some found) (enough : found.end ≤ count) :
    headerEnd (buffer.take count) = some found := by
  have bound := (headerEnd_bound ends).2
  have whole : buffer.take count ++ buffer.drop count = buffer := List.take_append_drop count buffer
  rw [← whole] at ends
  cases part : headerEnd (buffer.take count) with
  | none =>
    have short := part_short ends part
    rw [List.length_take] at short
    omega
  | some other =>
    have same := headerEnd_append part (buffer.drop count)
    rw [ends] at same
    exact same.symm

theorem parseHeader_take {found : HeaderEnd} {count : Nat} (enough : found.length ≤ count) :
    parseHeader found (buffer.take count) = parseHeader found buffer := by
  unfold parseHeader
  rw [List.take_take, Nat.min_eq_left enough]

theorem drop_take_self (count : Nat) : (buffer.take count).drop count = [] :=
  List.drop_eq_nil_of_le (List.length_take_le count buffer)

/-- What a frame is depends on its own bytes. -/
theorem cutFrame_alone (cut : cutFrame maxContentLength buffer = some (frame, rest)) :
    ∃ own, buffer = own ++ rest ∧ cutFrame maxContentLength own = some (frame, []) := by
  unfold cutFrame at cut
  split at cut
  · cases cut
  · next found ends =>
    obtain ⟨some, inside⟩ := headerEnd_bound ends
    cases parsed : parseHeader found buffer with
    | error error =>
      rw [parsed] at cut
      cases cut
      refine ⟨buffer.take found.end, (List.take_append_drop _ _).symm, ?_⟩
      unfold cutFrame
      rw [headerEnd_take ends (Nat.le_refl _)]
      dsimp only
      rw [parseHeader_take (Nat.le_of_lt some), parsed, drop_take_self]
    | ok header =>
      rw [parsed] at cut
      dsimp only at cut
      have same := parseHeader_end parsed
      split at cut
      · next large =>
        cases cut
        refine ⟨buffer.take found.end, (List.take_append_drop _ _).symm, ?_⟩
        unfold cutFrame
        rw [headerEnd_take ends (Nat.le_refl _)]
        dsimp only
        rw [parseHeader_take (Nat.le_of_lt some), parsed]
        dsimp only
        rw [if_pos large, drop_take_self]
      · next fits =>
        split at cut
        · cases cut
        · next whole =>
          cases cut
          refine ⟨buffer.take (header.end + header.contentLength), (List.take_append_drop _ _).symm, ?_⟩
          have length : (buffer.take (header.end + header.contentLength)).length = header.end + header.contentLength :=
            List.length_take_of_le (Nat.le_of_not_lt whole)
          unfold cutFrame
          rw [headerEnd_take ends (by omega)]
          dsimp only
          rw [parseHeader_take (by omega), parsed]
          dsimp only
          rw [if_neg fits, if_neg (by omega), List.take_take, Nat.min_self, drop_take_self]

theorem headerFits_of_fine (fine : ∀ part more, buffer = part ++ more → Fine maxContentLength part) : HeaderFits buffer := by
  unfold HeaderFits
  by_contra unfit
  -- the part that a parser would no longer wait for
  obtain ⟨_, prompt⟩ := fine _ _ (List.take_append_drop (headerBytes + 1) buffer).symm
  refine prompt ?_
  have endless : headerEnd (buffer.take (headerBytes + 1)) = none := by
    cases ends : headerEnd (buffer.take (headerBytes + 1)) with
    | none => rfl
    | some found =>
      have whole := headerEnd_append ends (buffer.drop (headerBytes + 1))
      rw [List.take_append_drop] at whole
      rw [whole] at unfit
      have bound := (headerEnd_bound ends).2
      rw [List.length_take] at bound
      dsimp only at unfit
      omega
  have uncut : (frameCutter maxContentLength).cutAll (buffer.take (headerBytes + 1)) = ([], buffer.take (headerBytes + 1)) := by
    apply Cutter.cutAll_none
    change cutFrame maxContentLength (buffer.take (headerBytes + 1)) = none
    unfold cutFrame
    rw [endless]
  rw [uncut]
  refine ⟨endless, ?_⟩
  have long : headerBytes < buffer.length := by
    cases ends : headerEnd buffer with
    | none =>
      rw [ends] at unfit
      exact Nat.lt_of_not_le unfit
    | some found =>
      rw [ends] at unfit
      have bound := (headerEnd_bound ends).2
      dsimp only at unfit
      omega
  rw [List.length_take]
  omega

theorem tame_of_fine {stream : Bytes} (fine : ∀ part more, stream = part ++ more → Fine maxContentLength part) :
    Tame maxContentLength stream := by
  induction stream using Cutter.cutting (frameCutter maxContentLength) with
  | nothing stream uncut =>
    have whole : (frameCutter maxContentLength).cutAll stream = ([], stream) := Cutter.cutAll_none uncut
    refine ⟨?_, ?_, ?_⟩ <;> rw [whole]
    · exact fun _ none => nomatch none
    · exact fun _ none => nomatch none
    · exact headerFits_of_fine fine
  | item stream frame rest cut ih =>
    have whole : (frameCutter maxContentLength).cutAll stream =
      (frame :: ((frameCutter maxContentLength).cutAll rest).1, ((frameCutter maxContentLength).cutAll rest).2) := Cutter.cutAll_some cut
    obtain ⟨own, same, alone⟩ := cutFrame_alone cut
    have later : Tame maxContentLength rest := by
      apply ih
      intro part more split
      have longer : (frameCutter maxContentLength).cutAll (own ++ part) =
          (frame :: ((frameCutter maxContentLength).cutAll part).1, ((frameCutter maxContentLength).cutAll part).2) :=
        Cutter.cutAll_some (cutFrame_append part alone)
      obtain ⟨good, prompt⟩ := fine (own ++ part) more (by rw [same, split, List.append_assoc])
      rw [longer] at good prompt
      exact ⟨messagesOf_ok.mpr fun other listed => messagesOf_ok.mp good other (List.mem_cons_of_mem _ listed), prompt⟩
    have good := messagesOf_ok.mp (fine stream [] (List.append_nil _).symm).1
    refine ⟨good, ?_, ?_⟩ <;> rw [whole]
    · intro other listed
      rcases List.mem_cons.mp listed with rfl | listed
      · obtain ⟨found, ends, length⟩ := cutFrame_header cut
        have fits := headerFits_of_fine fine
        unfold HeaderFits at fits
        rw [ends] at fits
        exact length ▸ fits
      · exact later.headers other listed
    · exact later.left

end OttiliCoder.Lsp
