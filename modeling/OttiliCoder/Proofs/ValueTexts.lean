import OttiliCoder.ContextFormat.Parsing
import OttiliCoder.Library.JsonText
import OttiliCoder.Proofs.Values

/-! The text of a value: it is read back as the value, whatever the value holds. -/

namespace OttiliCoder.ContextFormat
open Host Results

/-! A parser calls the parser of nested values only on shorter texts. -/

section Fuel
variable {parse other : JsString → Nat → Nat → Except OcfError OcfValue} {source : JsString}

/-- Both parsers say the same of every shorter text. -/
def Agree (parse other : JsString → Nat → Nat → Except OcfError OcfValue) (source : JsString) : Prop :=
  ∀ text line column, text.length < source.length → parse text line column = other text line column

theorem parseItems_congr (agree : Agree parse other source) {parts : List SplitPart}
    (shorter : ∀ part ∈ parts, part.text.length < source.length) (line column : Nat) :
    parseItems parse line column parts = parseItems other line column parts := by
  induction parts with
  | nil => rfl
  | cons part parts ih =>
    rw [parseItems, parseItems, agree part.text _ _ (shorter part (List.mem_cons_self ..)),
      ih fun later member => shorter later (List.mem_cons_of_mem _ member)]

theorem parseProperty_congr (agree : Agree parse other source) {part : SplitPart} (shorter : part.text.length < source.length)
    (line column : Nat) (result : OcfProperties) :
    parseProperty parse line column result part = parseProperty other line column result part := by
  have same : ∀ colon line column, parse (part.text.drop colon) line column = other (part.text.drop colon) line column := by
    intro colon line column
    apply agree
    rw [List.length_drop]
    omega
  simp only [parseProperty, same]

theorem parseProperties_congr (agree : Agree parse other source) {parts : List SplitPart}
    (shorter : ∀ part ∈ parts, part.text.length < source.length) (line column : Nat) (result : OcfProperties) :
    parts.foldlM (parseProperty parse line column) result = parts.foldlM (parseProperty other line column) result := by
  induction parts generalizing result with
  | nil => rfl
  | cons part parts ih =>
    rw [List.foldlM_cons, List.foldlM_cons, parseProperty_congr agree (shorter part (List.mem_cons_self ..))]
    congr 1
    funext next
    exact ih (fun later member => shorter later (List.mem_cons_of_mem _ member)) next

theorem innerText_length (filled : source ≠ []) : (innerText source).length < source.length := by
  have positive := List.length_pos_iff.mpr filled
  rw [innerText, List.length_dropLast, List.length_tail]
  omega

theorem splitTopLevel_ok {delimiter line column : Nat} {parts : List SplitPart} :
    splitTopLevel source delimiter line column = .ok parts ↔ splitParts delimiter source = .ok parts := by
  unfold splitTopLevel
  cases splitParts delimiter source with
  | ok found => simp [pure, Except.pure]
  | error fault => simp [throw, throwThe, MonadExceptOf.throw]

/-- The parts of what stands in brackets are shorter than the whole. -/
theorem parts_shorter {parts : List SplitPart} {delimiter line column : Nat} (filled : source ≠ [])
    (split : splitTopLevel (innerText source) delimiter line column = .ok parts) :
    ∀ part ∈ parts, part.text.length < source.length := by
  intro part member
  exact Nat.lt_of_le_of_lt (splitParts_length (splitTopLevel_ok.mp split) part member) (innerText_length filled)

theorem parseArray_congr (agree : Agree parse other source) (filled : source ≠ []) (line column : Nat) :
    parseArray parse source line column = parseArray other source line column := by
  unfold parseArray
  simp only
  split
  · rfl
  · cases split : splitTopLevel (innerText source) (unit ',') line (column + 1) with
    | error e => rfl
    | ok parts => exact parseItems_congr agree (parts_shorter filled split) line column

theorem parseObject_congr (agree : Agree parse other source) (filled : source ≠ []) (line column : Nat) :
    parseObject parse source line column = parseObject other source line column := by
  unfold parseObject
  simp only
  split
  · rfl
  · cases split : splitTopLevel (innerText source) (unit ',') line (column + 1) with
    | error e => rfl
    | ok parts => exact parseProperties_congr agree (parts_shorter filled split) line column []

theorem parseReference_congr (agree : Agree parse other source) (filled : source ≠ []) (line column : Nat) :
    parseReference parse source line column = parseReference other source line column := by
  have positive := List.length_pos_iff.mpr filled
  have same : ∀ colon line column, parse (source.drop (colon + 2)) line column = other (source.drop (colon + 2)) line column := by
    intro colon line column
    apply agree
    rw [List.length_drop]
    omega
  simp only [parseReference, same]

theorem parseStep_congr (agree : Agree parse other source) (line column : Nat) :
    parseStep parse source line column = parseStep other source line column := by
  cases source with
  | nil => rfl
  | cons first rest =>
    simp only [parseStep, parseArray_congr agree (List.cons_ne_nil _ _), parseObject_congr agree (List.cons_ne_nil _ _),
      parseReference_congr agree (List.cons_ne_nil _ _)]

theorem parseWithin_enough (source : JsString) {fuel more : Nat} (enough : source.length < fuel) (also : source.length < more)
    (line column : Nat) : parseWithin fuel source line column = parseWithin more source line column := by
  induction fuel generalizing source more line column with
  | zero => exact absurd enough (Nat.not_lt_zero _)
  | succ fuel ih =>
    cases more with
    | zero => exact absurd also (Nat.not_lt_zero _)
    | succ more =>
      refine parseStep_congr (fun text line column shorter => ?_) line column
      exact ih text (by omega) (by omega) line column

/-- `parseValue` calls itself. -/
theorem parseValue_eq (source : JsString) (line column : Nat) :
    parseValue source line column = parseStep parseValue source line column := by
  refine parseStep_congr (fun text line column shorter => ?_) line column
  exact parseWithin_enough text shorter (Nat.lt_succ_self _) line column

end Fuel

/-! Numbers. -/

section Numbers
variable {line column : Nat}

theorem numberUnit_not_n {text : JsString} (units : ∀ u ∈ text, isNumberUnit u = true) : endsWith (unit 'n') text = false := by
  have apart : isNumberUnit (unit 'n') = false := by decide
  unfold endsWith
  cases last : text.getLast? with
  | none => rfl
  | some u =>
    have number := units u (List.mem_of_getLast? last)
    simp only [beq_eq_false_iff_ne, ne_eq, Option.some.injEq]
    rintro rfl
    exact absurd number (by simp [apart])

theorem parseNumber_literal {literal : NumberLiteral} {value : JsNumber} (read : JsNumber.ofLiteral literal = value)
    (finite : value.isFinite = true) (safe : literal.isInteger = true → value.isSafeInteger = true) :
    parseNumber literal.text line column = .ok (.number value) := by
  rw [parseNumber, numberUnit_not_n (text_number literal), scanNumber_text]
  simp only [Bool.false_eq_true, if_false, read, finite, Bool.not_true]
  rw [if_neg]
  · rfl
  · intro unsafe'
    simp only [Bool.and_eq_true, Bool.not_eq_true'] at unsafe'
    rw [safe unsafe'.1] at unsafe'
    cases unsafe'.2

/-- A number is printed as a literal that is read as the number. -/
theorem numberText_literal {value : JsNumber} (finite : value.isFinite = true) :
    ∃ literal : NumberLiteral, numberText value = literal.text ∧ JsNumber.ofLiteral literal = value ∧
      (literal.isInteger = true → value.isSafeInteger = true) := by
  cases value with
  | nan => cases finite
  | infinity => cases finite
  | negativeZero => exact ⟨_, rfl, JsNumber.ofLiteral_negativeZero, fun _ => by decide⟩
  | finite double =>
    unfold numberText
    rw [if_neg (by simp)]
    split
    next =>
      refine ⟨_, rfl, JsNumber.ofLiteral_exponential double, fun integer => ?_⟩
      rw [JsNumber.isInteger_exponential] at integer
      cases integer
    next other =>
      refine ⟨_, rfl, JsNumber.ofLiteral_positional double, fun integer => ?_⟩
      have whole := JsNumber.isInteger_ofLiteral integer (JsNumber.ofLiteral_positional double)
      simpa [whole] using other

theorem parseNumber_numberText {value : JsNumber} (finite : value.isFinite = true) :
    parseNumber (numberText value) line column = .ok (.number value) := by
  obtain ⟨literal, written, read, safe⟩ := numberText_literal finite
  rw [written]
  exact parseNumber_literal read finite safe

theorem numberText_units {value : JsNumber} (finite : value.isFinite = true) : ∀ u ∈ numberText value, isNumberUnit u = true := by
  obtain ⟨literal, written, -, -⟩ := numberText_literal finite
  rw [written]
  exact text_number literal

/-- The literal of an integer. -/
def integerLiteral (value : Int) : NumberLiteral where
  negative := value < 0
  whole := digitsOf value.natAbs
  canonical := digitsOf_canonical _

theorem bigintText_literal (value : Int) : bigintText value = (integerLiteral value).text := by
  simp [bigintText, integerLiteral, NumberLiteral.text]

theorem parseNumber_bigintText (value : Int) : parseNumber (bigintText value ++ [unit 'n']) line column = .ok (.bigint value) := by
  have ends : endsWith (unit 'n') (bigintText value ++ [unit 'n']) = true := by simp [endsWith]
  have back : bigintValue (integerLiteral value) = value := by
    simp only [bigintValue, integerLiteral, digitsValue_digitsOf, decide_eq_true_eq]
    split <;> omega
  rw [parseNumber, if_pos ends, List.dropLast_concat, bigintText_literal, scanNumber_text]
  simp only [back]
  rfl

end Numbers

/-! The value that is read: a reference names its schema by a string. -/

def spellReference : OcfProperties → OcfProperties
  | [(schemaKey, schema), id] => [(schemaKey, .string (schemaText schema)), id]
  | properties => properties

mutual
def spell : OcfValue → OcfValue
  | .array items => .array (spellItems items)
  | .object properties =>
    .object (if isReference (.object properties) then spellReference properties else spellProperties properties)
  | value => value

def spellItems : List OcfValue → List OcfValue
  | [] => []
  | item :: items => spell item :: spellItems items

def spellProperties : OcfProperties → OcfProperties
  | [] => []
  | (key, value) :: properties => (key, spell value) :: spellProperties properties
end

theorem spellItems_eq (items : List OcfValue) : spellItems items = items.map spell := by
  induction items with
  | nil => rfl
  | cons item items ih => rw [spellItems, ih, List.map_cons]

theorem spellProperties_eq (properties : OcfProperties) :
    spellProperties properties = properties.map fun property => (property.1, spell property.2) := by
  induction properties with
  | nil => rfl
  | cons property properties ih => rw [spellProperties, ih, List.map_cons]

theorem spell_scalar {value : OcfValue} (scalar : value.isScalar = true) : spell value = value := by
  cases value with
  | array | object => cases scalar
  | _ => rfl

theorem isReference_iff {properties : OcfProperties} : isReference (.object properties) = true ↔
    ∃ schema id, properties = [(units "$ref", schema), (units "id", id)] ∧ id.isScalar = true ∧
      ((∃ name, schema = .string name) ∨ ∃ number, schema = .number number) := by
  constructor
  · intro reference
    unfold isReference at reference
    split at reference
    next schemaKey schema idKey id shape =>
      cases shape
      simp only [Bool.and_eq_true, beq_iff_eq] at reference
      obtain ⟨⟨⟨rfl, rfl⟩, scalar⟩, named⟩ := reference
      refine ⟨schema, id, rfl, scalar, ?_⟩
      cases schema with
      | string name => exact .inl ⟨name, rfl⟩
      | number number => exact .inr ⟨number, rfl⟩
      | _ => cases named
    next => cases reference
  · rintro ⟨schema, id, rfl, scalar, ⟨name, rfl⟩ | ⟨number, rfl⟩⟩
    · simp [isReference, scalar]
    · simp [isReference, scalar]

/-! Writing, case by case. -/

section Writing
variable {items : List OcfValue} {properties : OcfProperties} {text : JsString} {texts : List JsString}

theorem encodeItems_ok : encodeItems items = .ok texts ↔ List.Forall₂ (fun item text => encodeValue item = .ok text) items texts := by
  induction items generalizing texts with
  | nil =>
    rw [encodeItems, except_pure_ok, List.forall₂_nil_left_iff]
    exact eq_comm
  | cons item items ih =>
    simp only [encodeItems, except_bind_ok, except_pure_ok, List.forall₂_cons_left_iff]
    constructor
    · rintro ⟨text, one, others, rest, rfl⟩
      exact ⟨text, others, one, ih.mp rest, rfl⟩
    · rintro ⟨text, others, one, rest, rfl⟩
      exact ⟨text, one, others, ih.mpr rest, rfl⟩

/-- One property as it is written. -/
def WritesProperty (property : JsString × OcfValue) (text : JsString) : Prop :=
  ∃ valueText, encodeValue property.2 = .ok valueText ∧ text = quote property.1 ++ unit ':' :: valueText

theorem encodeProperties_ok : encodeProperties properties = .ok texts ↔ List.Forall₂ WritesProperty properties texts := by
  induction properties generalizing texts with
  | nil =>
    rw [encodeProperties, except_pure_ok, List.forall₂_nil_left_iff]
    exact eq_comm
  | cons property properties ih =>
    obtain ⟨key, value⟩ := property
    simp only [encodeProperties, except_bind_ok, except_pure_ok, List.forall₂_cons_left_iff, WritesProperty]
    constructor
    · rintro ⟨text, one, others, rest, rfl⟩
      exact ⟨_, others, ⟨text, one, rfl⟩, ih.mp rest, rfl⟩
    · rintro ⟨_, others, ⟨text, one, rfl⟩, rest, rfl⟩
      exact ⟨text, one, others, ih.mpr rest, rfl⟩

theorem encodeValue_array_ok : encodeValue (.array items) = .ok text ↔ Serializable (.array items) ∧
    ∃ texts, List.Forall₂ (fun item text => encodeValue item = .ok text) items texts ∧
      text = unit '[' :: (join (unit ',') texts ++ [unit ']']) := by
  simp only [encodeValue, except_bind_ok, except_pure_ok, encodeItems_ok]
  constructor
  · rintro ⟨_, safe, texts, each, rfl⟩
    exact ⟨(assertSerializable_ok _).mp safe, texts, each, rfl⟩
  · rintro ⟨safe, texts, each, rfl⟩
    exact ⟨(), (assertSerializable_ok _).mpr safe, texts, each, rfl⟩

theorem encodeValue_object_ok (plain : isReference (.object properties) = false) :
    encodeValue (.object properties) = .ok text ↔ Serializable (.object properties) ∧
      ∃ texts, List.Forall₂ WritesProperty properties texts ∧ text = unit '{' :: (join (unit ',') texts ++ [unit '}']) := by
  rw [encodeValue.eq_def]
  simp only [plain, Bool.false_eq_true, if_false, except_bind_ok, except_pure_ok, encodeProperties_ok]
  constructor
  · rintro ⟨_, safe, texts, each, rfl⟩
    exact ⟨(assertSerializable_ok _).mp safe, texts, each, rfl⟩
  · rintro ⟨safe, texts, each, rfl⟩
    exact ⟨(), (assertSerializable_ok _).mpr safe, texts, each, rfl⟩

theorem encodeValue_reference_ok {schema id : OcfValue}
    (reference : isReference (.object [(units "$ref", schema), (units "id", id)]) = true) :
    encodeValue (.object [(units "$ref", schema), (units "id", id)]) = .ok text ↔
      Serializable (.object [(units "$ref", schema), (units "id", id)]) ∧ isSchemaToken (schemaText schema) = true ∧
        ∃ idText, encodeValue id = .ok idText ∧ text = unit '&' :: (schemaText schema ++ unit ':' :: idText) := by
  rw [encodeValue.eq_def]
  simp only [reference, if_true, except_bind_ok]
  constructor
  · rintro ⟨_, safe, written⟩
    split at written
    next => exact absurd written except_throw_ok
    next token =>
      simp only [except_bind_ok, except_pure_ok] at written
      obtain ⟨idText, one, rfl⟩ := written
      exact ⟨(assertSerializable_ok _).mp safe, by simpa using token, idText, one, rfl⟩
  · rintro ⟨safe, token, idText, one, rfl⟩
    refine ⟨(), (assertSerializable_ok _).mpr safe, ?_⟩
    simp [token, one, pure, Except.pure, bind, Except.bind]

end Writing

/-! Reading, by the first unit of the text. -/

section Dispatch
variable {parse : JsString → Nat → Nat → Except OcfError OcfValue} {first u : Nat} {rest text : JsString} {line column : Nat}

/-- The text does not end in white space. -/
def Ends (text : JsString) : Prop := ∀ u, text.getLast? = some u → isWhiteSpace u = false

theorem ends_append (rest : JsString) (ends : Ends text) (filled : text ≠ []) : Ends (rest ++ text) := by
  intro u last
  rw [List.getLast?_append_of_ne_nil _ filled] at last
  exact ends u last

theorem ends_concat (visible : isWhiteSpace u = false) : Ends (text ++ [u]) := by
  intro other last
  rw [List.getLast?_concat] at last
  rwa [← Option.some.inj last]

theorem ends_all (visible : ∀ u ∈ text, isWhiteSpace u = false) : Ends text := fun u last => visible u (List.mem_of_getLast? last)

/-- What begins with neither white space nor a word for a constant. -/
theorem parseStep_cons (head : isWhiteSpace first = false) (ends : Ends (first :: rest)) (word : first ≠ unit '~')
    (mark : first ≠ unit '!') : parseStep parse (first :: rest) line column =
      if first = unit '#' then parseNumber rest line column
      else if first = unit '"' then
        if !endsWith (unit '"') (first :: rest) then
          throw (.parseError "malformed_string" (units "unterminated quoted string") line column)
        else (parseQuotedString (first :: rest) line column).map .string
      else if first = unit '[' then
        if !endsWith (unit ']') (first :: rest) then
          throw (.parseError "malformed_array" (units "unterminated array") line column)
        else (parseArray parse (first :: rest) line column).map .array
      else if first = unit '{' then
        if !endsWith (unit '}') (first :: rest) then
          throw (.parseError "malformed_object" (units "unterminated object") line column)
        else (parseObject parse (first :: rest) line column).map .object
      else if first = unit '&' then parseReference parse (first :: rest) line column
      else if !canUseBareString (first :: rest) then
        throw (.parseError "malformed_string" (units "bare string contains reserved or unsafe characters") line column)
      else return .string (first :: rest) := by
  have last : isWhiteSpace ((first :: rest).getLast (List.cons_ne_nil _ _)) = false :=
    ends _ (List.getLast?_eq_some_getLast (List.cons_ne_nil _ _))
  have null : first :: rest ≠ units "~" := fun same => word (List.cons_eq_cons.mp same).1
  have yes : first :: rest ≠ units "!t" := fun same => mark (List.cons_eq_cons.mp same).1
  have no : first :: rest ≠ units "!f" := fun same => mark (List.cons_eq_cons.mp same).1
  rw [parseStep, if_neg (by simp [head, last]), if_neg null, if_neg yes, if_neg no]

end Dispatch

/-! Where the parser cuts what the encoder joined. -/

/-- The delimiters between the parts of a stream. -/
def Separator (delimiter : Nat) : Prop := delimiter = unit ',' ∨ delimiter = unit '|'

structure ReadBack (value : OcfValue) (text : JsString) : Prop where
  solid : ∀ delimiter, Separator delimiter → Solid delimiter text
  filled : text ≠ []
  ends : Ends text
  printable : ∀ u ∈ text, 32 ≤ u
  parsed : ∀ line column, parseValue text line column = .ok (spell value)

section Delimiters
variable {head rest text : JsString} {delimiter line column : Nat}

/-- Cutting at any delimiter succeeds where the scan of the text does. -/
theorem splitFrom_passed {other : Nat} {scan : Scan} (index : Nat) (part : SplitPart)
    (passed : scan.pass other text = some (.outside 0)) :
    ∃ parts, splitFrom delimiter scan index part text = .ok parts ∧ parts ≠ [] := by
  induction text generalizing scan index part with
  | nil =>
    cases passed
    exact ⟨_, rfl, List.cons_ne_nil _ _⟩
  | cons u text ih =>
    rw [Scan.pass] at passed
    split at passed
    next => cases passed
    next =>
      obtain ⟨following, stepped, passed⟩ := Option.bind_eq_some_iff.mp passed
      rw [splitFrom, stepped]
      simp only
      split
      next =>
        obtain ⟨parts, split, -⟩ := ih (index + 1) { text := [], offset := index + 1 } passed
        rw [split]
        exact ⟨_, rfl, List.cons_ne_nil _ _⟩
      next => exact ih _ _ passed

theorem findTopLevel_first (line column delimiter : Nat) (plain : Plain delimiter) (solid : Solid delimiter head) {other : Nat} (later : Solid other rest) :
    findTopLevel (head ++ delimiter :: rest) delimiter line column = .ok (some head.length) := by
  obtain ⟨parts, split, filled⟩ : ∃ parts, splitFrom delimiter (.outside 0) (0 + head.length + 1)
      { text := [], offset := 0 + head.length + 1 } rest = .ok parts ∧ parts ≠ [] := splitFrom_passed _ _ (later 0)
  have whole : splitParts delimiter (head ++ delimiter :: rest) = .ok ({ text := head, offset := 0 } :: parts) := by
    have passed := splitFrom_pass 0 { text := [], offset := 0 } (solid 0) (delimiter :: rest)
    have cut : (Scan.outside 0).cutsAt delimiter delimiter = true := by simp [Scan.cutsAt]
    rw [splitFrom, next_plain plain] at passed
    simp only [cut, if_true, split] at passed
    exact passed
  rw [findTopLevel, splitTopLevel_ok.mpr whole]
  simp [bind, Except.bind, pure, Except.pure, filled]

theorem splitTopLevel_join (line column : Nat) (plain : Plain delimiter) {texts : List JsString} (some : texts ≠ [])
    (solid : ∀ text ∈ texts, Solid delimiter text) :
    ∃ parts, splitTopLevel (join delimiter texts) delimiter line column = .ok parts ∧ parts.map (·.text) = texts := by
  obtain ⟨parts, split, same⟩ := splitParts_join plain some solid
  exact ⟨parts, splitTopLevel_ok.mpr split, same⟩

theorem enclosed_join {texts : List JsString} (enclosed : ∀ text ∈ texts, Enclosed delimiter text) :
    Enclosed delimiter (join (unit ',') texts) := by
  have comma : Enclosed delimiter [unit ','] := enclosed_plain (by decide)
  induction texts with
  | nil => exact fun _ => rfl
  | cons text texts ih =>
    have first := enclosed text (List.mem_cons_self ..)
    cases texts with
    | nil =>
      rw [join, List.intercalate_singleton]
      exact first
    | cons second texts =>
      have later := ih fun other member => enclosed other (List.mem_cons_of_mem _ member)
      rw [join, List.intercalate_cons_cons]
      exact (first.append comma).append later

end Delimiters

/-! Words: texts without white space, quotes, brackets and separators. -/

def Quiet (u : Nat) : Prop :=
  33 ≤ u ∧ u < 127 ∧ u ∉ [unit '"', unit ',', unit '[', unit ']', unit '{', unit '|', unit '}']

instance : DecidablePred Quiet := fun u => inferInstanceAs (Decidable (33 ≤ u ∧ u < 127 ∧ u ∉ _))

section Words
variable {u : Nat} {text : JsString}

theorem quiet_visible (quiet : Quiet u) : isWhiteSpace u = false := by
  obtain ⟨low, high, -⟩ := quiet
  have small : (9 ≤ u && u ≤ 13) = false := by
    simp only [Bool.and_eq_false_iff, decide_eq_false_iff_not]
    omega
  have large : (0x2000 ≤ u && u ≤ 0x200A) = false := by
    simp only [Bool.and_eq_false_iff, decide_eq_false_iff_not]
    omega
  have listed : [32, 0xA0, 0x1680, 0x2028, 0x2029, 0x202F, 0x205F, 0x3000, 0xFEFF].contains u = false := by
    simp only [List.contains_eq_mem, List.mem_cons, List.not_mem_nil, or_false, decide_eq_false_iff_not]
    omega
  rw [isWhiteSpace, small, large, listed]
  rfl

theorem quiet_plain {delimiter : Nat} (separator : Separator delimiter) (quiet : Quiet u) : Plain u ∧ u ≠ delimiter := by
  obtain ⟨-, -, apart⟩ := quiet
  simp only [List.mem_cons, List.not_mem_nil, or_false, not_or] at apart
  refine ⟨?_, ?_⟩
  · simp [Plain, apart]
  · rcases separator with rfl | rfl
    · exact apart.2.1
    · exact apart.2.2.2.2.2.1

theorem solid_quiet (quiet : ∀ u ∈ text, Quiet u) : ∀ delimiter, Separator delimiter → Solid delimiter text :=
  fun _ separator => solid_plain fun u member => quiet_plain separator (quiet u member)

theorem ends_quiet (quiet : ∀ u ∈ text, Quiet u) : Ends text := ends_all fun u member => quiet_visible (quiet u member)

theorem printable_quiet (quiet : ∀ u ∈ text, Quiet u) : ∀ u ∈ text, 32 ≤ u := by
  intro u member
  have low := (quiet u member).1
  omega

theorem quiet_of_range (low : 33 ≤ u) (high : u < 127) (apart : u ≠ 34 ∧ u ≠ 44 ∧ u ≠ 91 ∧ u ≠ 93 ∧ u < 123) : Quiet u := by
  refine ⟨low, high, ?_⟩
  simp only [List.mem_cons, List.not_mem_nil, or_false, not_or, unit, Char.reduceToNat]
  omega

theorem quiet_number (number : isNumberUnit u = true) : Quiet u := by
  simp only [isNumberUnit, isDigit, Bool.or_eq_true, Bool.and_eq_true, decide_eq_true_eq, beq_iff_eq, unit,
    Char.reduceToNat] at number
  exact quiet_of_range (by omega) (by omega) (by omega)

theorem quiet_letter (letter : isLetter u = true) : Quiet u := by
  simp only [isLetter, Bool.or_eq_true, Bool.and_eq_true, decide_eq_true_eq, unit, Char.reduceToNat] at letter
  exact quiet_of_range (by omega) (by omega) (by omega)

theorem quiet_digit (digit : isDigit u = true) : Quiet u := by
  simp only [isDigit, Bool.and_eq_true, decide_eq_true_eq, unit, Char.reduceToNat] at digit
  exact quiet_of_range (by omega) (by omega) (by omega)

theorem quiet_bare (bare : isBareString text = true) : ∀ u ∈ text, Quiet u := by
  have sign : ∀ u ∈ units "._/@:+-", Quiet u := by decide
  cases text with
  | nil => cases bare
  | cons first rest =>
    simp only [isBareString, Bool.and_eq_true, Bool.or_eq_true, List.all_eq_true, List.contains_eq_mem, decide_eq_true_eq] at bare
    obtain ⟨head, tail⟩ := bare
    intro u member
    rcases List.mem_cons.mp member with rfl | later
    · exact head.elim quiet_letter quiet_digit
    · rcases tail u later with (letter | digit) | other
      · exact quiet_letter letter
      · exact quiet_digit digit
      · exact sign u other

/-- A schema token also has no colon. -/
theorem quiet_token (token : isSchemaToken text = true) : ∀ u ∈ text, Quiet u ∧ u ≠ unit ':' := by
  have colon : isLetter (unit ':') = false ∧ isDigit (unit ':') = false := by decide
  have word : ∀ u, isLetter u = true ∨ isDigit u = true → Quiet u ∧ u ≠ unit ':' := by
    rintro u (letter | digit)
    · exact ⟨quiet_letter letter, by rintro rfl; rw [colon.1] at letter; cases letter⟩
    · exact ⟨quiet_digit digit, by rintro rfl; rw [colon.2] at digit; cases digit⟩
  cases text with
  | nil => cases token
  | cons first rest =>
    simp only [isSchemaToken, Bool.or_eq_true, Bool.and_eq_true, List.all_eq_true, beq_iff_eq] at token
    intro u member
    rcases token with ⟨head, tail⟩ | ⟨head, tail⟩
    · rcases List.mem_cons.mp member with rfl | later
      · exact word u (.inl head)
      · rcases tail u later with ((letter | digit) | rfl) | rfl
        · exact word u (.inl letter)
        · exact word u (.inr digit)
        · decide
        · decide
    · rcases List.mem_cons.mp member with rfl | later
      · exact word u (.inr head)
      · exact word u (.inr (tail u later))

end Words

section Read
variable {items : List OcfValue} {properties : OcfProperties} {text : JsString} {texts : List JsString} {line column : Nat}

theorem readBack_null : ReadBack .null (units "~") :=
  ⟨solid_quiet (by decide), by decide, ends_quiet (by decide), by decide, fun _ _ => rfl⟩

theorem readBack_true : ReadBack (.boolean true) (units "!t") :=
  ⟨solid_quiet (by decide), by decide, ends_quiet (by decide), by decide, fun _ _ => rfl⟩

theorem readBack_false : ReadBack (.boolean false) (units "!f") :=
  ⟨solid_quiet (by decide), by decide, ends_quiet (by decide), by decide, fun _ _ => rfl⟩

theorem readBack_number {value : JsNumber} (finite : value.isFinite = true) :
    ReadBack (.number value) (unit '#' :: numberText value) := by
  have quiet : ∀ u ∈ unit '#' :: numberText value, Quiet u := by
    intro u member
    rcases List.mem_cons.mp member with rfl | later
    · decide
    · exact quiet_number (numberText_units finite u later)
  refine ⟨solid_quiet quiet, List.cons_ne_nil _ _, ends_quiet quiet, printable_quiet quiet, fun line column => ?_⟩
  rw [parseValue_eq, parseStep_cons (by decide) (ends_quiet quiet) (by decide) (by decide), if_pos rfl,
    parseNumber_numberText finite]
  rfl

theorem readBack_bigint (value : Int) : ReadBack (.bigint value) (unit '#' :: (bigintText value ++ [unit 'n'])) := by
  have quiet : ∀ u ∈ unit '#' :: (bigintText value ++ [unit 'n']), Quiet u := by
    intro u member
    rw [List.mem_cons, List.mem_append, List.mem_singleton, bigintText_literal] at member
    rcases member with rfl | digit | rfl
    · decide
    · exact quiet_number (text_number _ u digit)
    · decide
  refine ⟨solid_quiet quiet, List.cons_ne_nil _ _, ends_quiet quiet, printable_quiet quiet, fun line column => ?_⟩
  rw [parseValue_eq, parseStep_cons (by decide) (ends_quiet quiet) (by decide) (by decide), if_pos rfl,
    parseNumber_bigintText]
  rfl

theorem readBack_bare {value : JsString} (bare : canUseBareString value = true) : ReadBack (.string value) value := by
  have word : isBareString value = true := by
    simp only [canUseBareString, Bool.and_eq_true] at bare
    exact bare.1.1.1.1.1
  have quiet := quiet_bare word
  cases value with
  | nil => cases word
  | cons first rest =>
    have alphanumeric : (isLetter first || isDigit first) = true := by
      simp only [isBareString, Bool.and_eq_true] at word
      exact word.1
    have apart : ∀ u, (isLetter u || isDigit u) = false → first ≠ u := by
      rintro u other rfl
      rw [alphanumeric] at other
      cases other
    refine ⟨solid_quiet quiet, List.cons_ne_nil _ _, ends_quiet quiet, printable_quiet quiet, fun line column => ?_⟩
    rw [parseValue_eq, parseStep_cons (quiet_visible (quiet first (List.mem_cons_self ..))) (ends_quiet quiet)
      (apart _ (by decide)) (apart _ (by decide)), if_neg (apart _ (by decide)), if_neg (apart _ (by decide)),
      if_neg (apart _ (by decide)), if_neg (apart _ (by decide)), if_neg (apart _ (by decide)), bare]
    rfl

theorem readBack_quoted (value : JsString) : ReadBack (.string value) (quote value) := by
  have inner : Ends (quoteUnits value ++ [unit '"']) := ends_concat (by decide)
  have ends : Ends (quote value) := ends_append [unit '"'] inner (by simp)
  have closed : endsWith (unit '"') (quote value) = true := by
    have last : (quote value).getLast? = some (unit '"') := List.getLast?_concat (l := unit '"' :: quoteUnits value)
    rw [endsWith, last]
    exact beq_self_eq_true _
  refine ⟨fun delimiter separator => solid_quote (by rcases separator with rfl | rfl <;> decide) value,
    List.cons_ne_nil _ _, ends, quote_printable, fun line column => ?_⟩
  rw [parseValue_eq, quote, parseStep_cons (by decide) ends (by decide) (by decide), if_neg (by decide), if_pos rfl,
    ← quote, closed, parseQuotedString, unquote_quote]
  rfl

theorem parseItems_readBack (each : List.Forall₂ ReadBack items texts) {parts : List SplitPart}
    (same : parts.map (·.text) = texts) : parseItems parseValue line column parts = .ok (items.map spell) := by
  induction each generalizing parts with
  | nil =>
    rw [List.map_eq_nil_iff.mp same]
    rfl
  | @cons item text items texts one _ ih =>
    obtain ⟨part, parts, rfl, rfl, rest⟩ := List.map_eq_cons_iff.mp same
    simp [parseItems, one.filled, one.parsed, ih rest]

theorem innerText_bracketed (opening closing : Nat) (inner : JsString) : innerText (opening :: (inner ++ [closing])) = inner :=
  List.dropLast_concat

theorem join_eq_nil {delimiter : Nat} (filled : ∀ text ∈ texts, text ≠ []) : join delimiter texts = [] ↔ texts = [] := by
  constructor
  · intro empty
    cases texts with
    | nil => rfl
    | cons text texts =>
      have first := filled text (List.mem_cons_self ..)
      cases texts with
      | nil =>
        rw [join, List.intercalate_singleton] at empty
        exact absurd empty first
      | cons second texts =>
        rw [join, List.intercalate_cons_cons, List.append_assoc, List.append_eq_nil_iff] at empty
        exact absurd empty.1 first
  · rintro rfl
    rfl

theorem forall₂_right {α β : Type} {relation : α → β → Prop} {holds : β → Prop} {left : List α} {right : List β}
    (each : List.Forall₂ relation left right) (implies : ∀ a b, relation a b → holds b) : ∀ b ∈ right, holds b := by
  induction each with
  | nil => simp
  | cons one _ ih =>
    intro b member
    rcases List.mem_cons.mp member with rfl | later
    · exact implies _ _ one
    · exact ih b later

theorem separator_quote {delimiter : Nat} (separator : Separator delimiter) :
    unit '[' ≠ delimiter ∧ unit '{' ≠ delimiter ∧ delimiter ≠ unit '"' := by
  rcases separator with rfl | rfl <;> decide

theorem all_join (holds : Nat → Prop) {delimiter : Nat} (mark : holds delimiter) (each : ∀ text ∈ texts, ∀ u ∈ text, holds u) :
    ∀ u ∈ join delimiter texts, holds u := by
  induction texts with
  | nil => exact fun u member => by cases member
  | cons text texts ih =>
    have first := each text (List.mem_cons_self ..)
    cases texts with
    | nil =>
      rw [join, List.intercalate_singleton]
      exact first
    | cons second texts =>
      have later := ih fun other member => each other (List.mem_cons_of_mem _ member)
      intro u member
      rw [join, List.intercalate_cons_cons, List.append_assoc, List.mem_append, List.singleton_append, List.mem_cons] at member
      rcases member with here | rfl | rest
      · exact first u here
      · exact mark
      · exact later u rest

theorem printable_bracketed {opening closing : Nat} (opens : 32 ≤ opening) (closes : 32 ≤ closing)
    (printable : ∀ text ∈ texts, ∀ u ∈ text, 32 ≤ u) : ∀ u ∈ opening :: (join (unit ',') texts ++ [closing]), 32 ≤ u := by
  intro u member
  rw [List.mem_cons, List.mem_append, List.mem_singleton] at member
  rcases member with rfl | inside | rfl
  · exact opens
  · exact all_join (32 ≤ ·) (by decide) printable u inside
  · exact closes

theorem readBack_array (each : List.Forall₂ ReadBack items texts) :
    ReadBack (.array items) (unit '[' :: (join (unit ',') texts ++ [unit ']'])) := by
  have filled := forall₂_right each fun _ _ one => one.filled
  have ends : Ends (unit '[' :: (join (unit ',') texts ++ [unit ']'])) :=
    ends_append [unit '['] (ends_concat (by decide)) (by simp)
  have closed : endsWith (unit ']') (unit '[' :: (join (unit ',') texts ++ [unit ']'])) = true := by
    have last : (unit '[' :: (join (unit ',') texts ++ [unit ']'])).getLast? = some (unit ']') :=
      List.getLast?_concat (l := unit '[' :: join (unit ',') texts)
    rw [endsWith, last]
    exact beq_self_eq_true _
  refine ⟨fun delimiter separator => ?_, List.cons_ne_nil _ _, ends, ?_, fun line column => ?_⟩
  · have inside := forall₂_right each fun _ _ one => (one.solid delimiter separator).enclosed
    exact solid_bracketed (.inl rfl) (.inl rfl) (separator_quote separator).1 (enclosed_join inside)
  · exact printable_bracketed (by decide) (by decide) (forall₂_right each fun _ _ one => one.printable)
  · rw [parseValue_eq, parseStep_cons (by decide) ends (by decide) (by decide), if_neg (by decide), if_neg (by decide),
      if_pos rfl, closed, parseArray, innerText_bracketed]
    simp only [join_eq_nil filled, Bool.not_true, Bool.false_eq_true, if_false]
    cases each with
    | nil => rfl
    | cons one rest =>
      have solid := forall₂_right (List.Forall₂.cons one rest) fun _ _ one => one.solid (unit ',') (.inl rfl)
      obtain ⟨parts, split, same⟩ := splitTopLevel_join line (column + 1) (by decide)
        (List.cons_ne_nil _ _) solid
      rw [if_neg (List.cons_ne_nil _ _), split]
      simp only [bind, Except.bind]
      rw [parseItems_readBack (.cons one rest) same, spell, spellItems_eq]
      rfl

/-! Objects: each property is read and comes after those before it. -/

/-- One property as it is written, with a value that is read back. -/
def ReadBackProperty (property : JsString × OcfValue) (text : JsString) : Prop :=
  property.1 ∉ dangerousKeys ∧ ∃ valueText, ReadBack property.2 valueText ∧ text = quote property.1 ++ unit ':' :: valueText

theorem ReadBackProperty.filled {property : JsString × OcfValue} (one : ReadBackProperty property text) : text ≠ [] := by
  obtain ⟨-, valueText, -, rfl⟩ := one
  exact List.cons_ne_nil _ _

theorem ReadBackProperty.printable {property : JsString × OcfValue} (one : ReadBackProperty property text) :
    ∀ u ∈ text, 32 ≤ u := by
  obtain ⟨-, valueText, read, rfl⟩ := one
  intro u member
  rw [List.mem_append, List.mem_cons] at member
  rcases member with key | rfl | value
  · exact quote_printable u key
  · decide
  · exact read.printable u value

theorem ReadBackProperty.solid {property : JsString × OcfValue} (one : ReadBackProperty property text) {delimiter : Nat}
    (separator : Separator delimiter) : Solid delimiter text := by
  obtain ⟨-, valueText, read, rfl⟩ := one
  have colon : Solid delimiter [unit ':'] := solid_plain (by rcases separator with rfl | rfl <;> decide)
  exact (solid_quote (separator_quote separator).2.2 _).append (colon.append (read.solid delimiter separator))

theorem parseProperty_readBack (line column : Nat) {property : JsString × OcfValue} {part : SplitPart} {result : OcfProperties}
    (one : ReadBackProperty property part.text) (fresh : ∀ entry ∈ result, entry.1 < property.1) :
    parseProperty parseValue line column result part = .ok (result ++ [(property.1, spell property.2)]) := by
  have filled := one.filled
  obtain ⟨safe, valueText, read, written⟩ := one
  have start : startsWith (unit '"') (quote property.1) = true := rfl
  have last : endsWith (unit '"') (quote property.1) = true := by
    have last : (quote property.1).getLast? = some (unit '"') := List.getLast?_concat (l := unit '"' :: quoteUnits property.1)
    rw [endsWith, last]
    exact beq_self_eq_true _
  have unread : result.lookup property.1 = none :=
    Entries.lookup_eq_none.mpr fun entry member => (fresh entry member).ne
  have found := findTopLevel_first line (column + 1 + part.offset) (unit ':') (by decide)
    (solid_quote (by decide) property.1) (read.solid (unit ',') (.inl rfl))
  have key : (quote property.1 ++ unit ':' :: valueText).take (quote property.1).length = quote property.1 := List.take_left
  have value : (quote property.1 ++ unit ':' :: valueText).drop ((quote property.1).length + 1) = valueText := by
    rw [← List.singleton_append, ← List.append_assoc]
    exact List.drop_left' (by simp)
  obtain ⟨count, long⟩ : ∃ count, (quote property.1).length = count + 1 := ⟨_, rfl⟩
  rw [written] at filled
  rw [long] at found key value
  unfold parseProperty
  simp only [written, if_neg filled, found, key, value, start, last, parseQuotedString, unquote_quote, safe, unread, read.filled,
    read.parsed, Entries.set_last fresh, bind, Except.bind, pure, Except.pure, Bool.and_self, Bool.not_true, Bool.false_eq_true,
    if_false, Option.isSome_none]

theorem parseProperties_readBack (each : List.Forall₂ ReadBackProperty properties texts) (sorted : Entries.Sorted properties)
    {parts : List SplitPart} (same : parts.map (·.text) = texts) {result : OcfProperties}
    (before : ∀ entry ∈ result, ∀ property ∈ properties, entry.1 < property.1) :
    parts.foldlM (parseProperty parseValue line column) result = .ok (result ++ spellProperties properties) := by
  induction each generalizing parts result with
  | nil =>
    rw [List.map_eq_nil_iff.mp same]
    simp [spellProperties, pure, Except.pure]
  | @cons property text properties texts one rest ih =>
    obtain ⟨part, parts, rfl, rfl, others⟩ := List.map_eq_cons_iff.mp same
    have read := parseProperty_readBack line column one fun entry member =>
      before entry member property (List.mem_cons_self ..)
    have later : ∀ entry ∈ result ++ [(property.1, spell property.2)], ∀ other ∈ properties, entry.1 < other.1 := by
      intro entry member other inside
      rcases List.mem_append.mp member with old | new
      · exact before entry old other (List.mem_cons_of_mem _ inside)
      · rw [List.mem_singleton.mp new]
        exact sorted.head other inside
    have tail := ih sorted.tail others later
    rw [List.foldlM_cons, read]
    simp only [bind, Except.bind]
    rw [tail, spellProperties, List.append_assoc, List.singleton_append]

theorem readBack_object (plain : isReference (.object properties) = false) (sorted : Entries.Sorted properties)
    (each : List.Forall₂ ReadBackProperty properties texts) :
    ReadBack (.object properties) (unit '{' :: (join (unit ',') texts ++ [unit '}'])) := by
  have filled := forall₂_right each fun _ _ one => one.filled
  have ends : Ends (unit '{' :: (join (unit ',') texts ++ [unit '}'])) :=
    ends_append [unit '{'] (ends_concat (by decide)) (by simp)
  have closed : endsWith (unit '}') (unit '{' :: (join (unit ',') texts ++ [unit '}'])) = true := by
    have last : (unit '{' :: (join (unit ',') texts ++ [unit '}'])).getLast? = some (unit '}') :=
      List.getLast?_concat (l := unit '{' :: join (unit ',') texts)
    rw [endsWith, last]
    exact beq_self_eq_true _
  refine ⟨fun delimiter separator => ?_, List.cons_ne_nil _ _, ends, ?_, fun line column => ?_⟩
  · have inside := forall₂_right each fun _ _ one => (one.solid separator).enclosed
    exact solid_bracketed (.inr rfl) (.inr rfl) (separator_quote separator).2.1 (enclosed_join inside)
  · exact printable_bracketed (by decide) (by decide) (forall₂_right each fun _ _ one => one.printable)
  · have value : spell (.object properties) = .object (spellProperties properties) := by
      rw [spell, plain]
      rfl
    rw [parseValue_eq, parseStep_cons (by decide) ends (by decide) (by decide), if_neg (by decide), if_neg (by decide),
      if_neg (by decide), if_pos rfl, closed, parseObject, innerText_bracketed, value]
    simp only [join_eq_nil filled, Bool.not_true, Bool.false_eq_true, if_false]
    cases each with
    | nil => rfl
    | cons one rest =>
      have solid := forall₂_right (List.Forall₂.cons one rest) fun _ _ one => one.solid (.inl rfl : Separator (unit ','))
      obtain ⟨parts, split, same⟩ := splitTopLevel_join line (column + 1) (by decide)
        (List.cons_ne_nil _ _) solid
      rw [if_neg (List.cons_ne_nil _ _), split]
      simp only [bind, Except.bind]
      rw [parseProperties_readBack (.cons one rest) sorted same (fun _ none => by cases none), List.nil_append]
      rfl

theorem readBack_reference {schema id : OcfValue}
    (reference : isReference (.object [(units "$ref", schema), (units "id", id)]) = true)
    (token : isSchemaToken (schemaText schema) = true) {idText : JsString} (read : ReadBack id idText) :
    ReadBack (.object [(units "$ref", schema), (units "id", id)]) (unit '&' :: (schemaText schema ++ unit ':' :: idText)) := by
  have quiet := quiet_token token
  have scalar : id.isScalar = true := by
    obtain ⟨_, _, same, scalar, -⟩ := isReference_iff.mp reference
    cases same
    exact scalar
  obtain ⟨first, more, named⟩ : ∃ first more, schemaText schema = first :: more := by
    refine List.exists_cons_of_ne_nil fun none => ?_
    rw [none] at token
    cases token
  have ends : Ends (unit '&' :: (schemaText schema ++ unit ':' :: idText)) := by
    have tail := ends_append (unit '&' :: (schemaText schema ++ [unit ':'])) read.ends read.filled
    simpa using tail
  refine ⟨fun delimiter separator => ?_, List.cons_ne_nil _ _, ends, ?_, fun line column => ?_⟩
  · have mark : Solid delimiter [unit '&'] := solid_plain (by rcases separator with rfl | rfl <;> decide)
    have colon : Solid delimiter [unit ':'] := solid_plain (by rcases separator with rfl | rfl <;> decide)
    have name := solid_quiet (fun u member => (quiet u member).1) delimiter separator
    exact mark.append (name.append (colon.append (read.solid delimiter separator)))
  · intro u member
    rw [List.mem_cons, List.mem_append, List.mem_cons] at member
    rcases member with rfl | inside | rfl | later
    · decide
    · exact printable_quiet (fun u member => (quiet u member).1) u inside
    · decide
    · exact read.printable u later
  · have solid : Solid (unit ':') (schemaText schema) :=
      solid_plain fun u member => ⟨(quiet_plain (.inl rfl) (quiet u member).1).1, (quiet u member).2⟩
    have found := findTopLevel_first line (column + 1) (unit ':') (by decide) solid
      (read.solid (unit ',') (.inl rfl))
    have name : (schemaText schema ++ unit ':' :: idText).take (schemaText schema).length = schemaText schema := List.take_left
    have rest : (schemaText schema ++ unit ':' :: idText).drop ((schemaText schema).length + 1) = idText := by
      rw [← List.singleton_append, ← List.append_assoc]
      exact List.drop_left' (by simp)
    have value : spell (.object [(units "$ref", schema), (units "id", id)]) =
        .object [(units "$ref", .string (schemaText schema)), (units "id", id)] := by
      rw [spell, reference]
      rfl
    obtain ⟨count, long⟩ : ∃ count, (schemaText schema).length = count + 1 := ⟨more.length, by rw [named]; rfl⟩
    rw [long] at found name rest
    rw [parseValue_eq, parseStep_cons (by decide) ends (by decide) (by decide), if_neg (by decide), if_neg (by decide),
      if_neg (by decide), if_neg (by decide), if_pos rfl, value]
    unfold parseReference
    simp only [List.drop_succ_cons, List.drop_zero, found, name, rest, token, read.filled, read.parsed, spell_scalar scalar, scalar,
      bind, Except.bind, pure, Except.pure, Bool.not_true, Bool.false_eq_true, if_false]

def Recovers (value : OcfValue) : Prop := ∀ text, Ordered value → encodeValue value = .ok text → ReadBack value text

theorem recovers (value : OcfValue) : Recovers value := by
  induction value using OcfValue.induct with
  | null =>
    intro text ordered encoded
    cases encoded
    exact readBack_null
  | boolean value =>
    intro text ordered encoded
    cases value <;> cases encoded
    · exact readBack_false
    · exact readBack_true
  | number value =>
    intro text ordered encoded
    simp only [encodeValue, except_bind_ok, except_pure_ok] at encoded
    obtain ⟨_, safe, rfl⟩ := encoded
    cases (assertSerializable_ok _).mp safe with
    | number finite => exact readBack_number finite
  | bigint value =>
    intro text ordered encoded
    cases encoded
    exact readBack_bigint value
  | string value =>
    intro text ordered encoded
    simp only [encodeValue, except_pure_ok] at encoded
    rw [← encoded]
    split
    next bare => exact readBack_bare bare
    next => exact readBack_quoted value
  | array items each =>
    intro text ordered encoded
    obtain ⟨-, texts, written, rfl⟩ := encodeValue_array_ok.mp encoded
    cases ordered with
    | array ordered =>
      have both := (List.forall₂_and_left items texts).mpr ⟨fun item member => And.intro (each item member) (ordered item member),
        written⟩
      exact readBack_array (both.imp fun item text one => one.1.1 text one.1.2 one.2)
  | object properties each =>
    intro text ordered encoded
    cases ordered with
    | object sorted ordered =>
      cases reference : isReference (.object properties) with
      | true =>
        obtain ⟨schema, id, rfl, -, -⟩ := isReference_iff.mp reference
        obtain ⟨-, token, idText, written, rfl⟩ := (encodeValue_reference_ok reference).mp encoded
        have member : (units "id", id) ∈ [(units "$ref", schema), (units "id", id)] := by simp
        exact readBack_reference reference token (each _ member idText (ordered _ member) written)
      | false =>
        obtain ⟨safe, texts, written, rfl⟩ := (encodeValue_object_ok reference).mp encoded
        cases safe with
        | object safe _ =>
          have all := (List.forall₂_and_left properties texts).mpr ⟨fun property member =>
            And.intro (each property member) (And.intro (ordered property member) (safe property member)), written⟩
          refine readBack_object reference sorted (all.imp fun property text one => ?_)
          obtain ⟨⟨reads, ordered, safe⟩, valueText, encoded, same⟩ := one
          exact ⟨safe, valueText, reads valueText ordered encoded, same⟩

/-- What the encoder writes is read back, and can stand in lists and records. -/
theorem encoded_readBack {value : OcfValue} (ordered : Ordered value) (encoded : encodeValue value = .ok text) :
    ReadBack value text := recovers value text ordered encoded

end Read

/-- The text of a value is read back as the value, with a string for the schema of a reference, and
no value that differs from it otherwise has the same text. -/
theorem value_round_trip (value : PlainValue) (text : JsString) (encoded : encodeValue value.value = .ok text) :
    (∀ line column, parseValue text line column = .ok (spell value.value)) ∧
      ∀ other : PlainValue, encodeValue other.value = .ok text → spell other.value = spell value.value := by
  have read := (encoded_readBack value.ordered encoded).parsed
  refine ⟨read, fun other same => ?_⟩
  have back := (encoded_readBack other.ordered same).parsed 1 1
  exact Except.ok.inj (back.symm.trans (read 1 1))

/-- A list of a zero with a sign, a large integer, a bare string and a reference. -/
def sampleValue : PlainValue where
  value := .array [.number .negativeZero, .bigint (10 ^ 20), .string (units "a/b:c"),
    .object [(units "$ref", .number .negativeZero), (units "id", .string (units "x,y"))]]
  ordered := by
    refine .array fun item member => ?_
    simp only [List.mem_cons, List.not_mem_nil, or_false] at member
    rcases member with rfl | rfl | rfl | rfl
    · exact .number _
    · exact .bigint _
    · exact .string _
    · refine .object (List.pairwise_pair.mpr (by decide)) fun property inside => ?_
      simp only [List.mem_cons, List.not_mem_nil, or_false] at inside
      rcases inside with rfl | rfl
      · exact .number _
      · exact .string _

theorem sampleValue_round_trip : parseValue (units "[#-0,#100000000000000000000n,a/b:c,&0:\"x,y\"]") 1 1 =
    .ok (spell sampleValue.value) :=
  (value_round_trip sampleValue _ rfl).1 1 1

end OttiliCoder.ContextFormat
