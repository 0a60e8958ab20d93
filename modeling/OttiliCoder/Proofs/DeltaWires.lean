import OttiliCoder.ContextFormat.DeltaWire
import OttiliCoder.Proofs.ValueReferences

/-! A delta is read back from its text, and when a text that is read as a delta can be written again. -/

namespace OttiliCoder.ContextFormat
open Host Results

/-! A line is cut as any text is at bars: where the matching of brackets succeeds, counting them is enough. -/

section Lines
variable {scan following : Scan} {u line index : Nat} {text source : JsString} {part : SplitPart} {parts : List SplitPart}
  {texts : List JsString}

def LineScan.ofScan (scan : Scan) : LineScan := { depth := scan.depth, quoted := scan.inString, escaped := scan.escaped }

def LinePart.ofPart (part : SplitPart) : LinePart := { text := part.text, column := part.offset + 1 }

theorem next_ofScan (stepped : scan.next u = some following) : (LineScan.ofScan scan).next u = .ofScan following := by
  obtain ⟨depth, inString, escaped⟩ := scan
  unfold Scan.next at stepped
  unfold LineScan.next LineScan.ofScan
  simp only at stepped ⊢
  cases inString with
  | true =>
    simp only [if_true] at stepped ⊢
    split at stepped
    · cases stepped
      simp [*]
    next plain =>
      rw [if_neg plain]
      split at stepped
      · cases stepped
        simp [*]
      next other =>
        rw [if_neg other]
        split at stepped <;> cases stepped <;> simp [*]
  | false =>
    simp only [Bool.false_eq_true, if_false] at stepped ⊢
    split at stepped
    · cases stepped
      simp [*]
    · split at stepped
      · cases stepped
        simp [*]
      · split at stepped
        · split at stepped
          · cases stepped
          next opened =>
            cases stepped
            have counted : ((depth - 1 : Nat) : Int) = (depth : Int) - 1 := by omega
            simp [*]
        · cases stepped
          simp [*]

theorem cuts_ofScan : (LineScan.ofScan scan).cuts u = scan.cutsAt (unit '|') u := by
  unfold LineScan.cuts LineScan.ofScan Scan.cutsAt
  have depth : ((scan.depth : Int) == 0) = (scan.depth == 0) := by
    rw [Bool.eq_iff_iff, beq_iff_eq, beq_iff_eq]
    omega
  rw [depth, Bool.and_right_comm]

theorem splitLineFrom_of_splitFrom (split : splitFrom (unit '|') scan index part text = .ok parts) :
    splitLineFrom line (.ofScan scan) index (.ofPart part) text = .ok (parts.map .ofPart) := by
  induction text generalizing scan index part parts with
  | nil =>
    rw [splitFrom] at split
    split at split
    next => cases split
    next outside =>
      split at split
      next => cases split
      next level =>
        cases split
        have balanced : ¬((LineScan.ofScan scan).quoted = true ∨ (LineScan.ofScan scan).depth ≠ 0) := by
          simpa [LineScan.ofScan, outside] using level
        rw [splitLineFrom, if_neg balanced]
        rfl
  | cons u text ih =>
    rw [splitFrom] at split
    split at split
    next => cases split
    next following stepped =>
      rw [splitLineFrom, cuts_ofScan, next_ofScan stepped]
      split at split
      next cut =>
        obtain ⟨others, later, rest⟩ := except_bind_ok.mp split
        rw [← except_pure_ok.mp rest, if_pos cut]
        exact except_bind_ok.mpr ⟨_, ih later, rfl⟩
      next whole =>
        rw [if_neg whole]
        exact ih split

theorem splitLine_join (line : Nat) (some : texts ≠ []) (solid : ∀ text ∈ texts, Solid (unit '|') text) :
    ∃ parts, splitLine (join (unit '|') texts) line = .ok parts ∧ parts.map (·.text) = texts := by
  obtain ⟨parts, split, same⟩ := splitParts_join (by decide) some solid
  refine ⟨parts.map .ofPart, splitLineFrom_of_splitFrom split, ?_⟩
  rw [List.map_map]
  exact same

end Lines

/-! An operation and its line. -/

def OcfDeltaOperation.spelled (operation : OcfDeltaOperation) : OcfDeltaOperation :=
  { operation with value := operation.value.map spell }

def OcfDeltaOperation.Plain (operation : OcfDeltaOperation) : Prop := ∀ value, operation.value = some value → Ordered value

section Operations
variable {operation : OcfDeltaOperation} {op : DeltaOp} {path pathText text valueText : JsString} {value : OcfValue} {line : Nat}

theorem assertOperation_ok : assertOperation operation = .ok () ↔ (∃ segments, parsePath operation.path = .ok segments) ∧
    (operation.op = .remove ∧ operation.value = none ∨
      operation.op ≠ .remove ∧ ∃ value, operation.value = some value ∧ Serializable value) := by
  obtain ⟨op, path, value⟩ := operation
  unfold assertOperation
  rw [except_bind_ok]
  cases op <;> cases value <;> simp [assertSerializable_ok]

theorem deltaOpOf_text (op : DeltaOp) : deltaOpOf op.text = some op := by
  cases op <;> decide

theorem text_plain (op : DeltaOp) : ∀ u ∈ op.text, (Plain u ∧ u ≠ unit '|') ∧ 32 ≤ u := by
  cases op <;> decide

theorem readBack_path (encoded : encodeValue (.string path) = .ok pathText) : ReadBack (.string path) pathText :=
  encoded_readBack (.string path) encoded

theorem decodePath_encoded {part : LinePart} (encoded : encodeValue (.string path) = .ok pathText) (same : part.text = pathText) :
    decodePath part line = .ok path := by
  unfold decodePath
  rw [same, (readBack_path encoded).parsed]
  rfl

/-- The fields before the value. -/
def headFields (op : DeltaOp) (pathText : JsString) : List JsString := [units "op", op.text, pathText]

theorem headFields_solid (op : DeltaOp) (encoded : encodeValue (.string path) = .ok pathText) :
    ∀ field ∈ headFields op pathText, Solid (unit '|') field ∧ ∀ u ∈ field, 32 ≤ u := by
  have read := readBack_path encoded
  intro field member
  simp only [headFields, List.mem_cons, List.not_mem_nil, or_false] at member
  rcases member with rfl | rfl | rfl
  · exact ⟨solid_plain (by decide), by decide⟩
  · exact ⟨solid_plain fun u inside => (text_plain op u inside).1, fun u inside => (text_plain op u inside).2⟩
  · exact ⟨read.solid _ (.inr rfl), read.printable⟩

/-- A line with a value is read as the operation with what the value spells. -/
theorem decodeOperation_value (carries : op ≠ .remove) (encoded : encodeValue (.string path) = .ok pathText)
    (read : ReadBack value valueText) (line : Nat) :
    decodeOperation (join (unit '|') (headFields op pathText ++ [valueText])) line =
      .ok { op, path, value := some (spell value) } := by
  have solid : ∀ field ∈ headFields op pathText ++ [valueText], Solid (unit '|') field := by
    intro field member
    rcases List.mem_append.mp member with head | last
    · exact (headFields_solid op encoded field head).1
    · rw [List.mem_singleton.mp last]
      exact read.solid _ (.inr rfl)
  obtain ⟨parts, split, texts⟩ := splitLine_join line (by simp) solid
  obtain ⟨head, kind, pathPart, valuePart, rfl, opens, named, located, held⟩ : ∃ head kind pathPart valuePart,
      parts = [head, kind, pathPart, valuePart] ∧ head.text = units "op" ∧ kind.text = op.text ∧
        pathPart.text = pathText ∧ valuePart.text = valueText := by
    simp only [headFields, List.cons_append, List.nil_append, List.map_eq_cons_iff, List.map_eq_nil_iff] at texts
    obtain ⟨head, _, rfl, opens, kind, _, rfl, named, pathPart, _, rfl, located, valuePart, _, rfl, held, rfl⟩ := texts
    exact ⟨head, kind, pathPart, valuePart, rfl, opens, named, located, held⟩
  unfold decodeOperation
  rw [split]
  have kinds := deltaOpOf_text op
  cases op with
  | remove => exact absurd rfl carries
  | add =>
    simp [opens, named, kinds, decodePath_encoded encoded located, held, read.parsed, bind, Except.bind, pure, Except.pure]
  | replace =>
    simp [opens, named, kinds, decodePath_encoded encoded located, held, read.parsed, bind, Except.bind, pure, Except.pure]

theorem decodeOperation_remove (encoded : encodeValue (.string path) = .ok pathText) (line : Nat) :
    decodeOperation (join (unit '|') (headFields .remove pathText)) line = .ok { op := .remove, path } := by
  have solid : ∀ field ∈ headFields .remove pathText, Solid (unit '|') field := fun field member =>
    (headFields_solid .remove encoded field member).1
  obtain ⟨parts, split, texts⟩ := splitLine_join line (by simp [headFields]) solid
  obtain ⟨head, kind, pathPart, rfl, opens, named, located⟩ : ∃ head kind pathPart,
      parts = [head, kind, pathPart] ∧ head.text = units "op" ∧ kind.text = DeltaOp.remove.text ∧ pathPart.text = pathText := by
    simp only [headFields, List.map_eq_cons_iff, List.map_eq_nil_iff] at texts
    obtain ⟨head, _, rfl, opens, kind, _, rfl, named, pathPart, _, rfl, located, rfl⟩ := texts
    exact ⟨head, kind, pathPart, rfl, opens, named, located⟩
  unfold decodeOperation
  rw [split]
  have kinds := deltaOpOf_text .remove
  simp [opens, named, kinds, decodePath_encoded encoded located, bind, Except.bind, pure, Except.pure]

/-- What is written for an operation. -/
structure OperationLine (operation : OcfDeltaOperation) (text : JsString) : Prop where
  decoded : ∀ line, decodeOperation text line = .ok operation.spelled
  printable : ∀ u ∈ text, 32 ≤ u
  filled : text ≠ []

theorem encodeOperation_line (asserted : assertOperation operation = .ok ()) (plain : operation.Plain)
    (encoded : encodeOperation operation = .ok text) : OperationLine operation text := by
  obtain ⟨op, path, value⟩ := operation
  obtain ⟨-, carries⟩ := assertOperation_ok.mp asserted
  simp only [encodeOperation, except_bind_ok] at encoded
  obtain ⟨pathText, located, rest⟩ := encoded
  have fields := headFields_solid op located
  rcases carries with ⟨removes, none⟩ | ⟨keeps, value, some, -⟩
  · cases removes
    cases none
    rw [if_pos rfl] at rest
    have joined : text = join (unit '|') (headFields .remove pathText) := by
      rw [← except_pure_ok.mp rest]
      simp [headFields, join, List.intercalate]
      rfl
    rw [joined]
    refine ⟨decodeOperation_remove located, ?_, by simp [headFields, join, List.intercalate]⟩
    exact all_join (32 ≤ ·) (by decide) fun field member => (fields field member).2
  · cases some
    rw [if_neg keeps] at rest
    obtain ⟨valueText, held, written⟩ := except_bind_ok.mp rest
    have read := encoded_readBack (plain value rfl) held
    have joined : text = join (unit '|') (headFields op pathText ++ [valueText]) := by
      rw [← except_pure_ok.mp written]
      simp [headFields, join, List.intercalate]
      rfl
    rw [joined]
    refine ⟨decodeOperation_value keeps located read, ?_, by simp [headFields, join, List.intercalate]⟩
    refine all_join (32 ≤ ·) (by decide) fun field member => ?_
    rcases List.mem_append.mp member with head | last
    · exact (fields field head).2
    · rw [List.mem_singleton.mp last]
      exact read.printable

end Operations

/-! The lines of a delta. -/

/-- The values a delta carries are as the source has them. -/
structure PlainDelta where
  delta : OcfDelta
  plain : ∀ operation ∈ delta.operations, operation.Plain

def OcfDelta.spelled (delta : OcfDelta) : OcfDelta := { delta with operations := delta.operations.map .spelled }

section Deltas
variable {delta : OcfDelta} {operations : List OcfDeltaOperation} {texts lines : List JsString} {text : JsString}

theorem forM_iff {ε α : Type} {items : List α} {body : α → Except ε Unit} :
    forM items body = .ok () ↔ ∀ item ∈ items, body item = .ok () := by
  induction items with
  | nil => simp [pure, Except.pure]
  | cons item rest ih =>
    rw [List.forM_cons, except_bind_ok, List.forall_mem_cons, ← ih]
    exact ⟨fun entered => entered.choose_spec, fun both => ⟨(), both⟩⟩

theorem assertDelta_ok : assertDelta delta = .ok () ↔ delta.format = units "ocf-delta/1" ∧
    (isHash delta.baseHash = true ∧ isHash delta.targetHash = true) ∧
      ∀ operation ∈ delta.operations, assertOperation operation = .ok () := by
  unfold assertDelta
  by_cases format : delta.format = units "ocf-delta/1"
  · by_cases hashes : isHash delta.baseHash = true ∧ isHash delta.targetHash = true
    · simp [format, hashes, forM_iff]
    · have refused : (!(isHash delta.baseHash && isHash delta.targetHash)) = true := by
        rw [Bool.not_eq_true', Bool.eq_false_iff, ne_eq, Bool.and_eq_true]
        exact hashes
      rw [if_neg (not_not.mpr format), if_pos refused]
      simp [hashes]
  · simp [format]

theorem decodeOperations_lines (each : List.Forall₂ OperationLine operations texts) (line : Nat) :
    decodeOperations line texts = .ok (operations.map .spelled) := by
  induction each generalizing line with
  | nil => rfl
  | cons one _ ih =>
    simp only [decodeOperations, one.decoded, ih, List.map_cons]
    rfl

theorem joinLineEnds_plain (noReturn : ∀ u ∈ text, u ≠ 13) : joinLineEnds text = text := by
  fun_induction joinLineEnds text with
  | case1 => rfl
  | case2 last => rfl
  | case3 first second rest ended ih => exact absurd ended.1 (noReturn first (List.mem_cons_self ..))
  | case4 first second rest other ih => rw [ih fun u member => noReturn u (List.mem_cons_of_mem _ member)]

/-- Lines that are not empty and hold no line ends are cut apart again where they were joined. -/
theorem deltaLines_join (some : lines ≠ []) (printable : ∀ line ∈ lines, ∀ u ∈ line, 32 ≤ u)
    (filled : ∀ line ∈ lines, line ≠ []) : deltaLines (join (unit '\n') lines) = lines := by
  have noReturn : ∀ u ∈ join (unit '\n') lines, u ≠ 13 := by
    refine all_join (· ≠ 13) (by decide) fun line member u inside => ?_
    have visible := printable line member u inside
    omega
  have noLineEnd : ∀ line ∈ lines, unit '\n' ∉ line := by
    intro line member inside
    exact absurd (printable line member _ inside) (by decide)
  have last : lines.getLast? ≠ .some [] := fun empty => filled [] (List.mem_of_getLast? empty) rfl
  rw [deltaLines, joinLineEnds_plain noReturn, join, List.splitOn_intercalate _ noLineEnd some, dropLastEmpty, if_neg last]

theorem hash_units {hash : JsString} (valid : isHash hash = true) : ∀ u ∈ hash, (Plain u ∧ u ≠ unit '|') ∧ 32 ≤ u := by
  unfold isHash at valid
  simp only [Bool.and_eq_true, beq_iff_eq, List.isPrefixOf_iff_prefix] at valid
  obtain ⟨⟨⟨rest, rfl⟩, -⟩, hex⟩ := valid
  rw [List.drop_left' (by rfl), List.all_eq_true] at hex
  have label : ∀ u ∈ units "sha256:", (Plain u ∧ u ≠ unit '|') ∧ 32 ≤ u := by decide
  intro u member
  rcases List.mem_append.mp member with name | digit
  · exact label u name
  · have hexUnit := hex u digit
    simp only [isHexUnit, isDigit, Bool.or_eq_true, Bool.and_eq_true, decide_eq_true_eq] at hexUnit
    have zero : unit '0' = 48 := rfl
    have nine : unit '9' = 57 := rfl
    have a : unit 'a' = 97 := rfl
    have f : unit 'f' = 102 := rfl
    have marks : unit '"' = 34 ∧ unit '[' = 91 ∧ unit ']' = 93 ∧ unit '{' = 123 ∧ unit '}' = 125 ∧ unit '|' = 124 := by decide
    simp only [Plain, List.mem_cons, List.not_mem_nil, or_false, not_or]
    omega

theorem hashLine_printable {label hash : JsString} (filled : label ≠ []) (printable : ∀ u ∈ label, 32 ≤ u)
    (valid : isHash hash = true) : (∀ u ∈ label ++ hash, 32 ≤ u) ∧ label ++ hash ≠ [] := by
  refine ⟨fun u inside => ?_, by simp [filled]⟩
  rcases List.mem_append.mp inside with name | digit
  · exact printable u name
  · exact (hash_units valid u digit).2

/-- A hash on a line under its name is read back. -/
theorem hashPart_line (name : String) {hash : JsString} (plain : ∀ u ∈ units name, Plain u ∧ u ≠ unit '|')
    (valid : isHash hash = true) (line : Nat) :
    ∃ parts, splitLine (units name ++ unit '|' :: hash) line = .ok parts ∧ hashPart name parts = some hash := by
  have solid : ∀ field ∈ [units name, hash], Solid (unit '|') field := by
    intro field member
    rcases List.mem_pair.mp member with rfl | rfl
    · exact solid_plain plain
    · exact solid_plain fun u inside => (hash_units valid u inside).1
  obtain ⟨parts, split, texts⟩ := splitLine_join line (List.cons_ne_nil _ _) solid
  have joined : join (unit '|') [units name, hash] = units name ++ unit '|' :: hash := by
    simp [join, List.intercalate]
  rw [joined] at split
  refine ⟨parts, split, ?_⟩
  simp only [List.map_eq_cons_iff, List.map_eq_nil_iff] at texts
  obtain ⟨label, _, rfl, named, held, _, rfl, same, rfl⟩ := texts
  simp [hashPart, named, same]

theorem serializable_spell {value : OcfValue} (safe : Serializable value) : Serializable (spell value) := by
  induction value using OcfValue.induct with
  | null | boolean | number | bigint | string => exact safe
  | array items ih =>
    cases safe with
    | array each =>
      rw [spell, spellItems_eq]
      refine .array fun item member => ?_
      obtain ⟨old, inside, rfl⟩ := List.mem_map.mp member
      exact ih old inside (each old inside)
  | object properties ih =>
    cases safe with
    | object names each =>
      rw [spell]
      split
      next reference =>
        obtain ⟨schema, id, rfl, scalar, -⟩ := isReference_iff.mp reference
        refine .object ?_ ?_
        · intro property member
          rcases List.mem_pair.mp member with rfl | rfl
          · exact names (units "$ref", schema) (List.mem_cons_self ..)
          · exact names (units "id", id) (by simp)
        · intro property member
          rcases List.mem_pair.mp member with rfl | rfl
          · exact .string _
          · exact each (units "id", id) (by simp)
      next =>
        rw [spellProperties_eq]
        refine .object ?_ ?_
        · intro property member
          obtain ⟨old, inside, rfl⟩ := List.mem_map.mp member
          exact names old inside
        · intro property member
          obtain ⟨old, inside, rfl⟩ := List.mem_map.mp member
          exact ih old inside (each old inside)

theorem assertOperation_spelled {operation : OcfDeltaOperation} (asserted : assertOperation operation = .ok ()) :
    assertOperation operation.spelled = .ok () := by
  obtain ⟨parses, carries⟩ := assertOperation_ok.mp asserted
  refine assertOperation_ok.mpr ⟨parses, ?_⟩
  rcases carries with ⟨removes, none⟩ | ⟨keeps, value, some, safe⟩
  · exact .inl ⟨removes, by rw [OcfDeltaOperation.spelled, none]; rfl⟩
  · exact .inr ⟨keeps, spell value, by rw [OcfDeltaOperation.spelled, some]; rfl, serializable_spell safe⟩

theorem assertDelta_spelled (asserted : assertDelta delta = .ok ()) : assertDelta delta.spelled = .ok () := by
  obtain ⟨format, hashes, each⟩ := assertDelta_ok.mp asserted
  refine assertDelta_ok.mpr ⟨format, hashes, fun operation member => ?_⟩
  obtain ⟨old, inside, rfl⟩ := List.mem_map.mp member
  exact assertOperation_spelled (each old inside)

/-- What is written for a delta is read as the delta, with a string for the schema of a reference. -/
theorem decodeDelta_encoded (plain : ∀ operation ∈ delta.operations, operation.Plain) (encoded : encodeDelta delta = .ok text) :
    decodeDelta text = .ok delta.spelled := by
  simp only [encodeDelta, except_bind_ok, except_pure_ok] at encoded
  obtain ⟨_, asserted, operationLines, written, rfl⟩ := encoded
  obtain ⟨format, ⟨baseHash, targetHash⟩, checked⟩ := assertDelta_ok.mp asserted
  have each : List.Forall₂ OperationLine delta.operations operationLines := by
    have both := (List.forall₂_and_left delta.operations operationLines).mpr
      ⟨fun operation member => And.intro (checked operation member) (plain operation member), mapM_ok.mp written⟩
    exact both.imp fun operation text one => encodeOperation_line one.1.1 one.1.2 one.2
  have operations : ∀ line ∈ operationLines, (∀ u ∈ line, 32 ≤ u) ∧ line ≠ [] :=
    forall₂_right each fun _ _ one => ⟨one.printable, one.filled⟩
  have lines : ∀ line ∈ units "!ocf-delta/1" :: (units "base|" ++ delta.baseHash) ::
      (units "target|" ++ delta.targetHash) :: operationLines, (∀ u ∈ line, 32 ≤ u) ∧ line ≠ [] := by
    intro line member
    simp only [List.mem_cons] at member
    rcases member with rfl | rfl | rfl | operation
    · decide
    · exact hashLine_printable (by decide) (by decide) baseHash
    · exact hashLine_printable (by decide) (by decide) targetHash
    · exact operations line operation
  obtain ⟨baseParts, baseSplit, base⟩ := hashPart_line "base" (by decide) baseHash 2
  obtain ⟨targetParts, targetSplit, target⟩ := hashPart_line "target" (by decide) targetHash 3
  have baseLine : units "base|" ++ delta.baseHash = units "base" ++ unit '|' :: delta.baseHash := rfl
  have targetLine : units "target|" ++ delta.targetHash = units "target" ++ unit '|' :: delta.targetHash := rfl
  rw [decodeDelta, deltaLines_join (List.cons_ne_nil _ _) (fun line member => (lines line member).1)
    fun line member => (lines line member).2]
  simp only [decodeDeltaLines, baseLine, targetLine, baseSplit, targetSplit, bind, Except.bind, base, target,
    decodeOperations_lines each]
  have accepted := assertDelta_spelled asserted
  rw [OcfDelta.spelled, format] at accepted
  simp [accepted, OcfDelta.spelled, format, pure, Except.pure]

end Deltas

/-! The values of a text that is read as a delta. -/

/-- The value stands in the fourth field of a line behind the hashes. -/
def WrittenIn (text : JsString) (value : OcfValue) : Prop :=
  ∃ index source parts part, (deltaLines text)[index + 3]? = some source ∧ splitLine source (index + 4) = .ok parts ∧
    parts[3]? = some part ∧ parseValue part.text (index + 4) part.column = .ok value

def ReferencesIn (named : OcfValue → Prop) (text : JsString) : Prop := ∀ value, WrittenIn text value → References named value

section Read
variable {operation : OcfDeltaOperation} {operations : List OcfDeltaOperation} {decoded : OcfDelta} {source text : JsString}
  {sources : List JsString} {value : OcfValue} {line : Nat}

theorem decodeOperation_value_iff (read : decodeOperation source line = .ok operation) :
    operation.value = some value ↔ ∃ parts part, splitLine source line = .ok parts ∧ parts[3]? = some part ∧
      parseValue part.text line part.column = .ok value := by
  unfold decodeOperation at read
  obtain ⟨parts, split, read⟩ := except_bind_ok.mp read
  simp only [split, Except.ok.injEq]
  split at read
  next head kind path values =>
    split at read
    next => simp at read
    next =>
      split at read
      next => simp at read
      next =>
        obtain ⟨located, -, rest⟩ := except_bind_ok.mp read
        cases except_pure_ok.mp rest
        simp
      next valuePart _ =>
        obtain ⟨located, -, rest⟩ := except_bind_ok.mp read
        obtain ⟨held, parsed, last⟩ := except_bind_ok.mp rest
        cases except_pure_ok.mp last
        simp [parsed]
      next valuePart _ =>
        obtain ⟨located, -, rest⟩ := except_bind_ok.mp read
        obtain ⟨held, parsed, last⟩ := except_bind_ok.mp rest
        cases except_pure_ok.mp last
        simp [parsed]
      next => simp at read
  next => simp at read

theorem decodeOperations_values (read : decodeOperations line sources = .ok operations) :
    (∃ operation ∈ operations, operation.value = some value) ↔
      ∃ index source parts part, sources[index]? = some source ∧ splitLine source (index + line) = .ok parts ∧
        parts[3]? = some part ∧ parseValue part.text (index + line) part.column = .ok value := by
  induction sources generalizing line operations with
  | nil =>
    cases read
    simp
  | cons source sources ih =>
    simp only [decodeOperations, except_bind_ok, except_pure_ok] at read
    obtain ⟨operation, first, others, later, rfl⟩ := read
    rw [List.exists_mem_cons_iff, decodeOperation_value_iff first, ih later]
    constructor
    · rintro (⟨parts, part, split, held, parsed⟩ | ⟨index, other, parts, part, found, split, held, parsed⟩)
      · exact ⟨0, source, parts, part, rfl, by rwa [Nat.zero_add], held, by rwa [Nat.zero_add]⟩
      · have place : index + 1 + line = index + (line + 1) := by omega
        exact ⟨index + 1, other, parts, part, found, by rwa [place], held, by rwa [place]⟩
    · rintro ⟨index, other, parts, part, found, split, held, parsed⟩
      cases index with
      | zero =>
        cases found
        rw [Nat.zero_add] at split parsed
        exact .inl ⟨parts, part, split, held, parsed⟩
      | succ index =>
        have place : index + 1 + line = index + (line + 1) := by omega
        rw [place] at split parsed
        exact .inr ⟨index, other, parts, part, found, split, held, parsed⟩

theorem decodeDelta_ok (read : decodeDelta text = .ok decoded) : assertDelta decoded = .ok () ∧
    ∃ header baseLine targetLine sources, deltaLines text = header :: baseLine :: targetLine :: sources ∧
      decodeOperations 4 sources = .ok decoded.operations := by
  unfold decodeDelta at read
  generalize deltaLines text = lines at read
  unfold decodeDeltaLines at read
  split at read
  next header baseLine targetLine sources =>
    split at read
    next => simp at read
    next =>
      obtain ⟨baseParts, -, read⟩ := except_bind_ok.mp read
      obtain ⟨targetParts, -, read⟩ := except_bind_ok.mp read
      split at read
      next =>
        obtain ⟨operations, each, read⟩ := except_bind_ok.mp read
        obtain ⟨_, asserted, last⟩ := except_bind_ok.mp read
        cases except_pure_ok.mp last
        exact ⟨asserted, header, baseLine, targetLine, sources, rfl, each⟩
      next => simp at read
  next =>
    split at read
    next => simp at read
    next => simp at read

theorem writtenIn_iff (read : decodeDelta text = .ok decoded) :
    WrittenIn text value ↔ ∃ operation ∈ decoded.operations, operation.value = some value := by
  obtain ⟨-, header, baseLine, targetLine, sources, lines, each⟩ := decodeDelta_ok read
  rw [decodeOperations_values each, WrittenIn, lines]
  rfl

theorem decoded_plain (read : decodeDelta text = .ok decoded) : ∀ operation ∈ decoded.operations, operation.Plain := by
  intro operation member value held
  obtain ⟨_, _, _, part, -, -, -, parsed⟩ := (writtenIn_iff read).mpr ⟨operation, member, held⟩
  exact parseValue_ordered parsed

/-- The paths can always be written, so only values stand against it. -/
theorem encodeDelta_iff (asserted : assertDelta decoded = .ok ()) : (∃ again, encodeDelta decoded = .ok again) ↔
    ∀ operation ∈ decoded.operations, ∀ value, operation.value = some value → References HasToken value := by
  have one : ∀ operation ∈ decoded.operations, (∃ text, encodeOperation operation = .ok text) ↔
      ∀ value, operation.value = some value → References HasToken value := by
    intro operation member
    obtain ⟨-, carries⟩ := assertOperation_ok.mp ((assertDelta_ok.mp asserted).2.2 operation member)
    obtain ⟨path, located⟩ : ∃ path, encodeValue (.string operation.path) = .ok path := ⟨_, rfl⟩
    simp only [encodeOperation, except_bind_ok, located]
    rcases carries with ⟨removes, none⟩ | ⟨keeps, value, some, safe⟩
    · simp [removes, none]
    · simp only [some, keeps, if_false, Option.getD_some, except_bind_ok, except_pure_ok, Option.some.injEq, forall_eq']
      constructor
      · rintro ⟨_, _, _, text, written, _⟩
        exact (encodeValue_iff.mp ⟨text, written⟩).2
      · intro references
        obtain ⟨text, written⟩ := encodeValue_iff.mpr ⟨safe, references⟩
        exact ⟨_, _, rfl, text, written, rfl⟩
  constructor
  · rintro ⟨again, encoded⟩ operation member
    simp only [encodeDelta, except_bind_ok] at encoded
    obtain ⟨_, -, texts, written, -⟩ := encoded
    exact (one operation member).mp (exists_forall₂.mp ⟨texts, mapM_ok.mp written⟩ operation member)
  · intro references
    obtain ⟨texts, written⟩ := exists_forall₂.mpr fun operation member => (one operation member).mpr (references operation member)
    exact ⟨_, except_bind_ok.mpr ⟨(), asserted, except_bind_ok.mpr ⟨texts, mapM_ok.mpr written, rfl⟩⟩⟩

theorem spelled_eq_iff : decoded.spelled = decoded ↔ ∀ operation ∈ decoded.operations, ∀ value, operation.value = some value →
    References (fun schema => ∃ name, schema = .string name) value := by
  have one : ∀ operation : OcfDeltaOperation, operation.spelled = operation ↔ ∀ value, operation.value = some value →
      References (fun schema => ∃ name, schema = .string name) value := by
    rintro ⟨op, path, value⟩
    cases value <;> simp [OcfDeltaOperation.spelled, spell_eq_iff]
  obtain ⟨format, baseHash, targetHash, operations⟩ := decoded
  simp only [OcfDelta.spelled, OcfDelta.mk.injEq, true_and, map_fixed, one]

end Read

/-- A delta is read back from its text. A text that is read as a delta is written again where the references in its values
name schemas: as the same delta where they name them by strings, and otherwise up to their spelling. -/
theorem delta_wire_iff (delta : PlainDelta) (text : JsString) :
    (∀ written, encodeDelta delta.delta = .ok written → decodeDelta written = .ok delta.delta.spelled) ∧
      ∀ decoded, decodeDelta text = .ok decoded →
        ((∃ again, encodeDelta decoded = .ok again ∧ decodeDelta again = .ok decoded) ↔ ReferencesIn IsToken text) ∧
        ((∃ again, encodeDelta decoded = .ok again ∧ decodeDelta again = .ok decoded.spelled) ↔ ReferencesIn HasToken text) := by
  refine ⟨fun written encoded => decodeDelta_encoded delta.plain encoded, fun decoded read => ?_⟩
  have asserted := (decodeDelta_ok read).1
  have spelledAgain : ∀ again, encodeDelta decoded = .ok again → decodeDelta again = .ok decoded.spelled :=
    fun again encoded => decodeDelta_encoded (decoded_plain read) encoded
  have references : ∀ named : OcfValue → Prop, ReferencesIn named text ↔
      ∀ operation ∈ decoded.operations, ∀ value, operation.value = some value → References named value := by
    intro named
    constructor
    · intro each operation member value held
      exact each value ((writtenIn_iff read).mpr ⟨operation, member, held⟩)
    · intro each value written
      obtain ⟨operation, member, held⟩ := (writtenIn_iff read).mp written
      exact each operation member value held
  simp only [references]
  constructor
  · constructor
    · rintro ⟨again, encoded, back⟩ operation member value held
      have same : decoded.spelled = decoded := Except.ok.inj ((spelledAgain again encoded).symm.trans back)
      have tokens := (encodeDelta_iff asserted).mp ⟨again, encoded⟩ operation member value held
      have strings := spelled_eq_iff.mp same operation member value held
      refine (strings.and tokens).imp fun schema ⟨⟨name, named⟩, token⟩ => ⟨name, named, ?_⟩
      rw [named] at token
      exact token
    · intro each
      have tokens : ∀ schema, IsToken schema → HasToken schema := by
        rintro schema ⟨name, named, token⟩
        rw [named]
        exact token
      obtain ⟨again, encoded⟩ := (encodeDelta_iff asserted).mpr fun operation member value held =>
        (each operation member value held).imp tokens
      have same : decoded.spelled = decoded := spelled_eq_iff.mpr fun operation member value held =>
        (each operation member value held).imp fun schema ⟨name, named, _⟩ => ⟨name, named⟩
      exact ⟨again, encoded, same ▸ spelledAgain again encoded⟩
  · constructor
    · rintro ⟨again, encoded, _⟩
      exact (encodeDelta_iff asserted).mp ⟨again, encoded⟩
    · intro each
      obtain ⟨again, encoded⟩ := (encodeDelta_iff asserted).mpr each
      exact ⟨again, encoded, spelledAgain again encoded⟩

/-! A reference in the syntax of objects is read whatever it names. -/

def sampleHash : JsString := units "sha256:" ++ List.replicate 64 (unit '0')

def unwritableText : JsString :=
  units "!ocf-delta/1\nbase|" ++ sampleHash ++ units "\ntarget|" ++ sampleHash ++
    units "\nop|add|\"/a\"|\x7b\"$ref\":\"no token\",\"id\":~\x7d"

/-- Whether a text is read as a delta that cannot be written. -/
def staysRead (text : JsString) : Bool :=
  match decodeDelta text with
  | .ok decoded =>
    match encodeDelta decoded with
    | .ok _ => false
    | .error _ => true
  | .error _ => false

theorem staysRead_ok {text : JsString} (stays : staysRead text = true) :
    ∃ decoded, decodeDelta text = .ok decoded ∧ ∀ again, encodeDelta decoded ≠ .ok again := by
  unfold staysRead at stays
  split at stays
  next decoded read =>
    split at stays
    next => cases stays
    next e refused =>
      refine ⟨decoded, read, fun again encoded => ?_⟩
      rw [encoded] at refused
      cases refused
  next => cases stays

theorem reference_not_written_again :
    ∃ decoded, decodeDelta unwritableText = .ok decoded ∧ ∀ again, encodeDelta decoded ≠ .ok again :=
  staysRead_ok (by decide +kernel)

end OttiliCoder.ContextFormat
