import OttiliCoder.Proofs.LspFrames
import OttiliCoder.Proofs.RpcMessages

/-! Messages that are written one after the other are read back, however their bytes arrive. -/

namespace OttiliCoder.Lsp
open Host Mcp JsonRpc Search Cutting

/-! The header that is written. -/

/-- The line of a header. -/
def headerLine (length : Nat) : JsString := units "Content-Length: " ++ digitUnits (digitsOf length)

theorem serializeLspMessage_eq (value : JsonValue) : serializeLspMessage value =
    headerLine (encodeUtf8 value.stringify).length ++ (crlfEnd ++ encodeUtf8 value.stringify) := by
  unfold serializeLspMessage headerLine
  dsimp only
  rw [← units_toString]
  generalize encodeUtf8 value.stringify = body
  rw [← List.append_assoc]
  congr 1
  simp [units, crlfEnd]
  rfl

theorem headerLine_plain {length u : Nat} (listed : u ∈ headerLine length) : u ≠ 10 ∧ u ≠ 13 ∧ u < 128 := by
  unfold headerLine at listed
  rcases List.mem_append.mp listed with listed | listed
  · have plain : ∀ u ∈ units "Content-Length: ", u ≠ 10 ∧ u ≠ 13 ∧ u < 128 := by decide
    exact plain u listed
  · have bounds := isDigit_bounds (isDigit_of_mem_digitUnits listed)
    omega

theorem headerEnd_line {line : Bytes} (plain : ∀ u ∈ line, u ≠ 10 ∧ u ≠ 13) (rest : Bytes) :
    headerEnd (line ++ (crlfEnd ++ rest)) = some ⟨line.length, true⟩ := by
  have inside : ∀ {place u : Nat}, (line ++ (crlfEnd ++ rest))[place]? = some u → u = 10 ∨ u = 13 → line.length ≤ place := by
    intro place u here kind
    by_contra before
    rw [List.getElem?_append_left (by omega)] at here
    have others := plain u (List.mem_of_getElem? here)
    omega
  have crlf : indexOf crlfEnd (line ++ (crlfEnd ++ rest)) = some line.length := by
    apply indexOf_eq_some_iff.mpr
    refine ⟨by simp, ?_, ?_⟩
    · unfold At
      rw [List.drop_left]
      exact List.prefix_append _ _
    · intro earlier less here
      have reached := inside (crlf_found here).1 (.inr rfl)
      omega
  unfold headerEnd
  rw [crlf]
  cases lf : indexOf lfEnd (line ++ (crlfEnd ++ rest)) with
  | none => rfl
  | some place =>
    have reached := inside (lf_found (indexOf_eq_some_iff.mp lf).2.1).1 (.inl rfl)
    dsimp only
    rw [if_pos reached]

theorem splitCrlf_line {line : JsString} (one : 13 ∉ line) : splitCrlf line = [line] := by
  induction line with
  | nil => rfl
  | cons first rest ih =>
    obtain ⟨other, later⟩ := not_or.mp (List.mem_cons.not.mp one)
    cases rest with
    | nil => rfl
    | cons second more =>
      rw [splitCrlf, if_neg fun both => other both.1.symm, ih later]

theorem asciiText_eq {bytes : Bytes} (ascii : ∀ u ∈ bytes, u < 128) : asciiText bytes = bytes := by
  unfold asciiText
  rw [List.map_congr_left fun u listed => Nat.mod_eq_of_lt (ascii u listed), List.map_id']

theorem headerValues_headerLine (length : Nat) :
    headerValues [headerLine length] [] = .ok [(units "content-length", digitUnits (digitsOf length))] := by
  have visible : ∀ u ∈ digitUnits (digitsOf length), isWhiteSpace u = false :=
    fun u listed => isWhiteSpace_of_isDigit (isDigit_of_mem_digitUnits listed)
  have whole : headerLine length = units "Content-Length" ++ unit ':' :: unit ' ' :: digitUnits (digitsOf length) := rfl
  have before : (headerLine length).takeWhile (· != unit ':') = units "Content-Length" := by
    rw [whole, List.takeWhile_append_of_pos (by decide)]
    simp
  have value : trim ((headerLine length).drop ((units "Content-Length").length + 1)) = digitUnits (digitsOf length) := by
    have spaced : (headerLine length).drop ((units "Content-Length").length + 1) = unit ' ' :: digitUnits (digitsOf length) := rfl
    have shown := trim_of_visible visible
    rw [spaced]
    exact shown
  have longer : ¬(units "Content-Length").length = (headerLine length).length := by
    rw [whole]
    simp
  unfold headerValues
  dsimp only
  rw [before, value, if_neg (not_or.mpr ⟨by decide, longer⟩)]
  rfl

theorem contentLength_digits {length : Nat} (safe : length < 2 ^ 53) :
    contentLength [(units "content-length", digitUnits (digitsOf length))] = .ok length := by
  have digits : (digitUnits (digitsOf length)).all isDigit = true := List.all_eq_true.mpr fun u => isDigit_of_mem_digitUnits
  obtain ⟨digit, more, same⟩ := digitUnits_cons_of_canonical (digitsOf_canonical length)
  have some : ¬(digitUnits (digitsOf length) = [] ∨ (digitUnits (digitsOf length)).all isDigit = false) := by
    rw [digits, same]
    simp
  unfold contentLength
  rw [List.lookup_cons_self]
  dsimp only
  rw [if_neg some, JsNumber.ofText_digits safe, JsNumber.isSafeInteger_finite _ (by rw [Nat.abs_cast]; exact_mod_cast safe)]
  rfl

theorem parseHeader_headerLine {length : Nat} (safe : length < 2 ^ 53) (rest : Bytes) :
    parseHeader ⟨(headerLine length).length, true⟩ (headerLine length ++ rest) = .ok ⟨length, (headerLine length).length + 4⟩ := by
  unfold parseHeader
  dsimp only
  rw [List.take_left, asciiText_eq fun u listed => (headerLine_plain listed).2.2]
  unfold headerLines
  rw [if_pos rfl, splitCrlf_line fun listed => (headerLine_plain listed).2.1 rfl, headerValues_headerLine]
  change (do return (⟨← contentLength _, _⟩ : LspHeader)) = _
  rw [contentLength_digits safe]
  rfl

/-! Messages as frames. -/

/-- A `Buffer` has no more bytes than this. -/
def bufferLength : Nat := 2 ^ 53 - 1

/-- A valid message, the object that it is, and its body: texts have 16-bit units, and the body is a `Buffer`. -/
structure Sendable (maxContentLength : Nat) (message : JsonRpcMessage) (value : JsonValue) : Prop where
  isValue : message.IsValue value
  valid : message.Valid
  sixteenBit : ∀ text ∈ value.strings, ∀ u ∈ text, u < 0x10000
  within : (encodeUtf8 value.stringify).length ≤ maxContentLength
  buffered : (encodeUtf8 value.stringify).length ≤ bufferLength

variable {maxContentLength : Nat} {message : JsonRpcMessage} {value : JsonValue} {messages : List JsonRpcMessage}
  {values : List JsonValue}

theorem parseBody_encoded (sendable : Sendable maxContentLength message value) :
    parseBody (encodeUtf8 value.stringify) = .ok message := by
  have decoded : utf8Text (encodeUtf8 value.stringify) = value.stringify := by
    unfold utf8Text
    rw [decode_encodeUtf8 (wellFormed_stringify sendable.sixteenBit)]
    rfl
  unfold parseBody
  rw [decoded, parseJson_stringify]
  dsimp only
  rw [parseJsonRpcMessage_value sendable.isValue sendable.valid]
  rfl

/-- The frame of a message, whatever follows it. -/
theorem cutFrame_serialized (sendable : Sendable maxContentLength message value) (rest : Bytes) :
    cutFrame maxContentLength (serializeLspMessage value ++ rest) =
      some (⟨(headerLine (encodeUtf8 value.stringify).length).length + 4, .ok message⟩, rest) := by
  have within := sendable.within
  have safe : (encodeUtf8 value.stringify).length < 2 ^ 53 := Nat.lt_of_le_of_lt sendable.buffered (by decide)
  have parsed := parseBody_encoded sendable
  rw [serializeLspMessage_eq, List.append_assoc, List.append_assoc]
  generalize encodeUtf8 value.stringify = body at within safe parsed
  have header : headerEnd (headerLine body.length ++ (crlfEnd ++ (body ++ rest))) = some ⟨(headerLine body.length).length, true⟩ :=
    headerEnd_line (fun u listed => (headerLine_plain listed).imp_right And.left) _
  have start : (headerLine body.length ++ (crlfEnd ++ (body ++ rest))).drop ((headerLine body.length).length + 4) = body ++ rest := by
    rw [← List.append_assoc]
    exact List.drop_left' List.length_append
  have read : ((headerLine body.length ++ (crlfEnd ++ (body ++ rest))).take ((headerLine body.length).length + 4 + body.length)).drop
      ((headerLine body.length).length + 4) = body := by
    rw [List.drop_take, start, Nat.add_sub_cancel_left, List.take_left]
  have left : (headerLine body.length ++ (crlfEnd ++ (body ++ rest))).drop ((headerLine body.length).length + 4 + body.length) = rest := by
    rw [← List.drop_drop, start, List.drop_left]
  unfold cutFrame
  rw [header]
  dsimp only
  rw [parseHeader_headerLine safe]
  dsimp only
  rw [if_neg (Nat.not_lt_of_le within), if_neg (by simp [crlfEnd]; omega), read, left, parsed]
  rfl

theorem headerLine_short {length : Nat} (safe : length < 2 ^ 53) : (headerLine length).length ≤ 32 := by
  have digits : (digitsOf length).length ≤ 16 := by
    unfold digitsOf
    split
    · decide
    · rw [List.length_map, List.length_reverse, Nat.digits_length_le_iff (by decide)]
      exact Nat.lt_trans safe (by decide)
  have whole : (headerLine length).length = 16 + (digitsOf length).length := by
    unfold headerLine digitUnits
    rw [List.length_append, List.length_map]
    rfl
  omega

/-- The bytes of messages that are written one after the other. -/
def serialized (values : List JsonValue) : Bytes := (values.map serializeLspMessage).flatten

/-- The frames of such a stream are the messages, and nothing is left. -/
theorem framesOf_serialized (sendable : List.Forall₂ (Sendable maxContentLength) messages values) :
    Tame maxContentLength (serialized values) ∧
      messagesOf ((frameCutter maxContentLength).cutAll (serialized values)).1 = .ok messages ∧
      ((frameCutter maxContentLength).cutAll (serialized values)).2 = [] := by
  induction sendable with
  | nil =>
    have nothing : (frameCutter maxContentLength).cutAll (serialized []) = ([], []) := Cutter.cutAll_none rfl
    rw [nothing]
    refine ⟨⟨?_, ?_, ?_⟩, rfl, rfl⟩ <;> rw [nothing]
    · exact fun _ none => nomatch none
    · exact fun _ none => nomatch none
    · exact Nat.zero_le _
  | @cons message value messages values one more ih =>
    obtain ⟨tame, said, left⟩ := ih
    have cut := cutFrame_serialized one (serialized values)
    have whole : (frameCutter maxContentLength).cutAll (serialized (value :: values)) =
        (_ :: ((frameCutter maxContentLength).cutAll (serialized values)).1, ((frameCutter maxContentLength).cutAll (serialized values)).2) :=
      Cutter.cutAll_some cut
    have short := headerLine_short (Nat.lt_of_le_of_lt one.buffered (by decide))
    rw [whole]
    refine ⟨⟨?_, ?_, ?_⟩, ?_, left⟩
    · rw [whole]
      intro frame listed
      rcases List.mem_cons.mp listed with rfl | listed
      · exact ⟨message, rfl⟩
      · exact tame.messages frame listed
    · rw [whole]
      intro frame listed
      rcases List.mem_cons.mp listed with rfl | listed
      · exact Nat.le_trans (Nat.add_le_add_right short 4) (by decide)
      · exact tame.headers frame listed
    · rw [whole]
      exact tame.left
    · rw [messagesOf_cons, said]
      rfl

/-! One parser, fed chunk by chunk. -/

namespace LspMessageParser

/-- The messages of chunks that are pushed one after the other, until a push throws. -/
def pushAll : List Bytes → LspMessageParser → LspMessageParser × Except LspProtocolError (List JsonRpcMessage)
  | [], parser => (parser, .ok [])
  | chunk :: chunks, parser =>
    match parser.push chunk with
    | (parser, .error error) => (parser, .error error)
    | (parser, .ok messages) => ((pushAll chunks parser).1, (pushAll chunks parser).2.map (messages ++ ·))

end LspMessageParser

theorem HasRead.pushAll {parser : LspMessageParser} {bytes : Bytes} (read : HasRead bytes parser messages) (chunks : List Bytes)
    (tame : Tame parser.maxContentLength (bytes ++ chunks.flatten)) :
    ∃ buffer more, parser.pushAll chunks = ({ parser with buffer }, .ok more) ∧
      HasRead (bytes ++ chunks.flatten) { parser with buffer } (messages ++ more) := by
  induction chunks generalizing bytes parser messages with
  | nil =>
    refine ⟨parser.buffer, [], rfl, ?_⟩
    rw [List.flatten_nil, List.append_nil, List.append_nil]
    exact read
  | cons chunk chunks ih =>
    rw [List.flatten_cons, ← List.append_assoc] at tame ⊢
    obtain ⟨buffer, more, pushed, now⟩ := read.push tame.fine
    obtain ⟨last, rest, pushedAll, later⟩ := ih now tame
    refine ⟨last, more ++ rest, ?_, ?_⟩
    · rw [LspMessageParser.pushAll, pushed]
      dsimp only
      rw [pushedAll]
      rfl
    · rw [← List.append_assoc]
      exact later

/-- Messages that are written one after the other are read back in their order, and nothing is left in the
buffer, however the bytes are split into chunks. -/
theorem pushAll_serialized (parser : LspMessageParser) (fresh : parser.buffer = []) (messages : List JsonRpcMessage)
    (values : List JsonValue) (sendable : List.Forall₂ (Sendable parser.maxContentLength) messages values) (chunks : List Bytes)
    (split : chunks.flatten = (values.map serializeLspMessage).flatten) :
    parser.pushAll chunks = (parser, .ok messages) ∧ parser.bufferedBytes = 0 := by
  obtain ⟨tame, said, left⟩ := framesOf_serialized sendable
  have start : HasRead [] parser [] := ⟨fresh, rfl⟩
  have whole : [] ++ chunks.flatten = serialized values := split
  obtain ⟨buffer, more, pushed, read⟩ := start.pushAll chunks (whole ▸ tame)
  rw [whole] at read
  have same : more = messages := Except.ok.inj (read.messages.symm.trans said)
  have empty : buffer = parser.buffer := (read.buffer.trans left).trans fresh.symm
  rw [pushed, same, empty]
  refine ⟨rfl, ?_⟩
  unfold LspMessageParser.bufferedBytes
  rw [fresh]
  rfl

/-- A notification with a letter of two bytes and a response, split within a header, an empty line and the letter. -/
theorem sample_pushAll :
    LspMessageParser.pushAll
      [units "Content-Le", units "ngth: 31\r", units "\n\r\n\x7b\"jsonrpc\":\"2.0\",\"method\":\"" ++ [0xC3], 0xA9 :: units "\"\x7dContent-",
        units "Length: 40\r\n\r", units "\n\x7b\"jsonrpc\":\"2.0\",\"id\":\"1\",\"result\":null\x7d"]
      ⟨64, by decide, []⟩ =
        (⟨64, by decide, []⟩, .ok [.notification [0xE9] none, .success (.string (units "1")) .null]) :=
  (pushAll_serialized ⟨64, by decide, []⟩ rfl [.notification [0xE9] none, .success (.string (units "1")) .null]
    [.object [(units "jsonrpc", .string (units "2.0")), (units "method", .string [0xE9])],
      .object [(units "jsonrpc", .string (units "2.0")), (units "id", .string (units "1")), (units "result", .null)]]
    (.cons ⟨⟨_, rfl, List.Perm.refl _⟩, rfl, by decide, by decide, by decide⟩
      (.cons ⟨⟨_, rfl, List.Perm.refl _⟩, ⟨rfl, rfl⟩, by decide, by decide, by decide⟩ .nil))
    [units "Content-Le", units "ngth: 31\r", units "\n\r\n\x7b\"jsonrpc\":\"2.0\",\"method\":\"" ++ [0xC3], 0xA9 :: units "\"\x7dContent-",
      units "Length: 40\r\n\r", units "\n\x7b\"jsonrpc\":\"2.0\",\"id\":\"1\",\"result\":null\x7d"]
    (by decide)).1

end OttiliCoder.Lsp
