import OttiliCoder.Library.NumberLiteral
import OttiliCoder.Library.Utf8

/-! JSON text as the host writes and reads it. A number stands for the literal it is written
as; an object is the list of its members, of which the last counts when two share a name. -/

namespace Host

inductive JsonValue where
  | null
  | boolean (value : Bool)
  | number (literal : NumberLiteral)
  | string (value : JsString)
  | array (items : List JsonValue)
  | object (members : List (JsString × JsonValue))

namespace JsonValue

/-- `value[name]`. -/
def get? (name : JsString) : JsonValue → Option JsonValue
  | .object members => (members.reverse.find? fun member => member.1 == name).map (·.2)
  | _ => none

def isNumber : JsonValue → Bool
  | .number _ => true
  | _ => false

def isString : JsonValue → Bool
  | .string _ => true
  | _ => false

def isObject : JsonValue → Bool
  | .object _ => true
  | _ => false

/-! `JSON.stringify`. -/

mutual
def stringify : JsonValue → JsString
  | .null => units "null"
  | .boolean true => units "true"
  | .boolean false => units "false"
  | .number literal => literal.text
  | .string value => quote value
  | .array items => unit '[' :: (stringifyItems items ++ [unit ']'])
  | .object members => unit '{' :: (stringifyMembers members ++ [unit '}'])

def stringifyItems : List JsonValue → JsString
  | [] => []
  | [item] => stringify item
  | item :: other :: items => stringify item ++ unit ',' :: stringifyItems (other :: items)

def stringifyMembers : List (JsString × JsonValue) → JsString
  | [] => []
  | [(name, value)] => quote name ++ unit ':' :: stringify value
  | (name, value) :: other :: members =>
    quote name ++ unit ':' :: (stringify value ++ unit ',' :: stringifyMembers (other :: members))
end

mutual
/-- The strings a value holds, names of members included. -/
def strings : JsonValue → List JsString
  | .string value => [value]
  | .array items => stringsItems items
  | .object members => stringsMembers members
  | _ => []

def stringsItems : List JsonValue → List JsString
  | [] => []
  | item :: items => strings item ++ stringsItems items

def stringsMembers : List (JsString × JsonValue) → List JsString
  | [] => []
  | (name, value) :: members => name :: (strings value ++ stringsMembers members)
end

end JsonValue

/-! `JSON.parse`. -/

def isJsonSpace (u : Nat) : Bool := u == 9 || u == 10 || u == 13 || u == 32

def skipSpaces (text : JsString) : JsString := text.dropWhile isJsonSpace

def isNumberUnit (u : Nat) : Bool := isDigit u || u == unit '+' || u == unit '-' || u == unit '.' || u == unit 'e' || u == unit 'E'

/-- The exponent of a JSON number, leading zeros included. -/
def scanJsonExponent : JsString → Option (Option Int)
  | [] => some none
  | first :: rest =>
    if first = unit 'e' ∨ first = unit 'E' then
      let (negative, unsigned) :=
        match rest with
        | [] => (false, [])
        | sign :: more =>
          if sign = unit '-' then (true, more) else if sign = unit '+' then (false, more) else (false, rest)
      let (digits, left) := scanDigits unsigned
      if digits ≠ [] ∧ left = [] then
        some (some (if negative then -(digitsValue digits : Int) else digitsValue digits))
      else none
    else none

def scanJsonNumber (text : JsString) : Option NumberLiteral :=
  let (negative, unsigned) := scanSign text
  let (whole, afterWhole) := scanDigits unsigned
  if canonical : Canonical whole then do
    let (fraction, afterFraction) ← scanFraction afterWhole
    let exponent ← scanJsonExponent afterFraction
    return { negative, whole, fraction, exponent, canonical }
  else none

/-- The units up to the closing quote, and the text after it. -/
def scanString : JsString → Option (JsString × JsString)
  | [] => none
  | first :: rest =>
    if first = unit '"' then some ([], rest)
    else if first = unit '\\' then
      match rest with
      | letter :: more =>
        if letter = unit 'u' then
          match more with
          | a :: b :: c :: d :: tail => do
            let value := 4096 * (← hexDigitValue a) + 256 * (← hexDigitValue b) + 16 * (← hexDigitValue c) +
              (← hexDigitValue d)
            let (read, left) ← scanString tail
            return (value :: read, left)
          | _ => none
        else do
          let escaped ← unescape letter
          let (read, left) ← scanString more
          return (escaped :: read, left)
      | [] => none
    else if first < 32 then none
    else do
      let (read, left) ← scanString rest
      return (first :: read, left)

def stripPrefix (word text : JsString) : Option JsString :=
  if word.isPrefixOf text then some (text.drop word.length) else none

/-- `true`, `false` or `null`. -/
def scanWord (text : JsString) : Option (JsonValue × JsString) :=
  ((stripPrefix (units "true") text).map (.boolean true, ·)).or
    (((stripPrefix (units "false") text).map (.boolean false, ·)).or ((stripPrefix (units "null") text).map (.null, ·)))

mutual
/-- The value a text begins with, and the rest of the text. -/
def scanValue : Nat → JsString → Option (JsonValue × JsString)
  | 0, _ => none
  | fuel + 1, text =>
    match skipSpaces text with
    | [] => none
    | first :: rest =>
      if first = unit '"' then (scanString rest).map fun (value, left) => (.string value, left)
      else if first = unit '[' then
        match skipSpaces rest with
        | [] => none
        | next :: more =>
          if next = unit ']' then some (.array [], more)
          else (scanItems fuel (next :: more)).map fun (items, left) => (.array items, left)
      else if first = unit '{' then
        match skipSpaces rest with
        | [] => none
        | next :: more =>
          if next = unit '}' then some (.object [], more)
          else (scanMembers fuel (next :: more)).map fun (members, left) => (.object members, left)
      else if isNumberUnit first then
        (scanJsonNumber ((first :: rest).takeWhile isNumberUnit)).map fun literal =>
          (.number literal, (first :: rest).dropWhile isNumberUnit)
      else scanWord (first :: rest)

/-- The items up to the closing bracket. -/
def scanItems : Nat → JsString → Option (List JsonValue × JsString)
  | 0, _ => none
  | fuel + 1, text => do
    let (item, rest) ← scanValue fuel text
    match skipSpaces rest with
    | [] => none
    | next :: more =>
      if next = unit ',' then (scanItems fuel more).map fun (items, left) => (item :: items, left)
      else if next = unit ']' then some ([item], more)
      else none

/-- The members up to the closing brace. -/
def scanMembers : Nat → JsString → Option (List (JsString × JsonValue) × JsString)
  | 0, _ => none
  | fuel + 1, text =>
    match skipSpaces text with
    | [] => none
    | first :: afterQuote =>
      if first = unit '"' then do
        let (name, afterName) ← scanString afterQuote
        match skipSpaces afterName with
        | [] => none
        | colon :: afterColon =>
          if colon = unit ':' then do
            let (value, rest) ← scanValue fuel afterColon
            match skipSpaces rest with
            | [] => none
            | next :: more =>
              if next = unit ',' then (scanMembers fuel more).map fun (members, left) => ((name, value) :: members, left)
              else if next = unit '}' then some ([(name, value)], more)
              else none
          else none
      else none
end

/-- A text of one value, with nothing but spaces around it. -/
def parseJson (text : JsString) : Option JsonValue := do
  let (value, rest) ← scanValue (text.length + 1) text
  if skipSpaces rest = [] then some value else none

/-! What is written is read back. -/

theorem JsonValue.induct {motive : JsonValue → Prop} (null : motive .null) (boolean : ∀ value, motive (.boolean value))
    (number : ∀ literal, motive (.number literal)) (string : ∀ value, motive (.string value))
    (array : ∀ items, (∀ item ∈ items, motive item) → motive (.array items))
    (object : ∀ members, (∀ member ∈ members, motive member.2) → motive (.object members)) (value : JsonValue) :
    motive value :=
  @JsonValue.rec motive (fun items => ∀ item ∈ items, motive item) (fun members => ∀ member ∈ members, motive member.2)
    (fun member => motive member.2) null boolean number string array object (by simp) (by simp +contextual) (by simp)
    (by simp +contextual) (fun _ _ held => held) value

theorem stringsItems_of_mem {items : List JsonValue} {item : JsonValue} {text : JsString} (member : item ∈ items)
    (named : text ∈ item.strings) : text ∈ JsonValue.stringsItems items := by
  induction items with
  | nil => cases member
  | cons other items ih =>
    rw [JsonValue.stringsItems, List.mem_append]
    rcases List.mem_cons.mp member with rfl | later
    · exact .inl named
    · exact .inr (ih later)

theorem name_mem_stringsMembers {members : List (JsString × JsonValue)} {member : JsString × JsonValue}
    (listed : member ∈ members) : member.1 ∈ JsonValue.stringsMembers members := by
  induction members with
  | nil => cases listed
  | cons other members ih =>
    rw [JsonValue.stringsMembers, List.mem_cons, List.mem_append]
    rcases List.mem_cons.mp listed with rfl | later
    · exact .inl rfl
    · exact .inr (.inr (ih later))

theorem stringsMembers_of_mem {members : List (JsString × JsonValue)} {member : JsString × JsonValue} {text : JsString}
    (listed : member ∈ members) (named : text ∈ member.2.strings) : text ∈ JsonValue.stringsMembers members := by
  induction members with
  | nil => cases listed
  | cons other members ih =>
    rw [JsonValue.stringsMembers, List.mem_cons, List.mem_append]
    rcases List.mem_cons.mp listed with rfl | later
    · exact .inr (.inl named)
    · exact .inr (.inr (ih later))

section Numbers
variable {text rest : JsString}

theorem canonical_ne_nil {digits : List Digit} (canonical : Canonical digits) : digits ≠ [] := by
  rcases canonical with rfl | ⟨first, more, rfl, -⟩
  · exact List.cons_ne_nil _ _
  · exact List.cons_ne_nil _ _

theorem scanJsonExponent_of_scanExponent {exponent : Option Int} (scanned : scanExponent text = some exponent) :
    scanJsonExponent text = some exponent := by
  unfold scanExponent at scanned
  unfold scanJsonExponent
  cases text with
  | nil => exact scanned
  | cons first rest =>
    have digits : ∀ {digits : List Digit}, Canonical digits → digits ≠ [] := canonical_ne_nil
    grind

theorem scanJsonNumber_text (literal : NumberLiteral) : scanJsonNumber literal.text = some literal := by
  have scanned := scanNumber_text literal
  simp only [scanNumber] at scanned
  simp only [scanJsonNumber]
  split at scanned
  next canonical =>
    rw [dif_pos canonical]
    simp only [Option.bind_eq_bind, Option.bind_eq_some_iff, Option.pure_def] at scanned ⊢
    obtain ⟨fraction, fractional, exponent, exponential, made⟩ := scanned
    exact ⟨fraction, fractional, exponent, scanJsonExponent_of_scanExponent exponential, made⟩
  next => cases scanned

theorem digitUnits_number (digits : List Digit) : ∀ u ∈ digitUnits digits, isNumberUnit u = true := by
  intro u member
  obtain ⟨digit, -, rfl⟩ := List.mem_map.mp member
  simp [isNumberUnit, isDigit_digit]

theorem text_number (literal : NumberLiteral) : ∀ u ∈ literal.text, isNumberUnit u = true := by
  intro u member
  simp only [NumberLiteral.text, List.mem_append] at member
  rcases member with sign | whole | fraction | exponent
  · split at sign
    · rw [List.mem_singleton.mp sign]
      decide
    · cases sign
  · exact digitUnits_number _ u whole
  · split at fraction
    · cases fraction
    · rcases List.mem_cons.mp fraction with rfl | digit
      · decide
      · exact digitUnits_number _ u digit
  · cases given : literal.exponent with
    | none =>
      rw [given] at exponent
      cases exponent
    | some power =>
      rw [given] at exponent
      simp only [Option.map_some, Option.getD_some, exponentUnits, List.mem_cons] at exponent
      rcases exponent with rfl | rfl | digit
      · decide
      · split <;> decide
      · exact digitUnits_number _ u digit

theorem text_ne_nil (literal : NumberLiteral) : literal.text ≠ [] := by
  intro none
  have scanned := scanNumber_text literal
  rw [none] at scanned
  cases scanned

end Numbers

section Strings
variable {text rest : JsString}

theorem scanString_of_unquoteUnits {value : JsString} (read : unquoteUnits text = some value) (rest : JsString) :
    scanString (text ++ rest) = some (value, rest) := by
  fun_induction unquoteUnits text generalizing value with
  | case1 => cases read
  | case2 =>
    cases read
    rw [List.singleton_append, scanString.eq_def]
    simp only [if_true]
  | case3 => cases read
  | case4 a b c d tail quoted ih =>
    simp only [Option.bind_eq_bind, Option.bind_eq_some_iff, Option.pure_def, Option.some.injEq] at read
    obtain ⟨one, first, two, second, three, third, four, fourth, units, more, rfl⟩ := read
    rw [scanString.eq_def]
    simp [quoted, first, second, third, fourth, ih more]
  | case5 => cases read
  | case6 letter more _ _ ih =>
    simp only [Option.bind_eq_bind, Option.bind_eq_some_iff, Option.pure_def, Option.some.injEq] at read
    obtain ⟨u, escaped, units, more, rfl⟩ := read
    rw [scanString.eq_def]
    simp [*, ih more]
  | case7 => cases read
  | case8 => cases read
  | case9 first more quoted escape control ih =>
    simp only [Option.bind_eq_bind, Option.bind_eq_some_iff, Option.pure_def, Option.some.injEq] at read
    obtain ⟨units, more, rfl⟩ := read
    rw [scanString.eq_def]
    simp [quoted, escape, control, ih more]

theorem scanString_quote (value rest : JsString) : scanString (quoteUnits value ++ unit '"' :: rest) = some (value, rest) := by
  have read := scanString_of_unquoteUnits (unquoteUnits_quoteUnits value) rest
  rwa [List.append_assoc] at read

end Strings

/-- The text does not go on with a number. -/
def EndsNumber (text : JsString) : Prop := ∀ first rest, text = first :: rest → isNumberUnit first = false

section Values
open JsonValue
variable {text rest : JsString} {fuel : Nat}

theorem skipSpaces_cons {first : Nat} (dense : isJsonSpace first = false) (rest : JsString) :
    skipSpaces (first :: rest) = first :: rest := by
  rw [skipSpaces, List.dropWhile_cons_of_neg (by simp [dense])]

/-- How the text of a value begins: with no space and no closing bracket. -/
theorem stringify_head (value : JsonValue) : ∃ first rest, stringify value = first :: rest ∧ isJsonSpace first = false ∧
    first ≠ unit ']' := by
  cases value with
  | null => exact ⟨_, _, rfl, by decide, by decide⟩
  | boolean value => cases value <;> exact ⟨_, _, rfl, by decide, by decide⟩
  | number literal =>
    obtain ⟨first, rest, same⟩ := List.exists_cons_of_ne_nil (text_ne_nil literal)
    have number : isNumberUnit first = true := text_number literal first (same ▸ List.mem_cons_self ..)
    refine ⟨first, rest, same, ?_, ?_⟩
    · by_contra space
      have spaces : first = 9 ∨ first = 10 ∨ first = 13 ∨ first = 32 := by
        simp only [isJsonSpace, Bool.not_eq_false, Bool.or_eq_true, beq_iff_eq, or_assoc] at space
        exact space
      rcases spaces with rfl | rfl | rfl | rfl <;> exact absurd number (by decide)
    · rintro rfl
      exact absurd number (by decide)
  | string value => exact ⟨_, _, rfl, by decide, by decide⟩
  | array items => exact ⟨_, _, rfl, by decide, by decide⟩
  | object members => exact ⟨_, _, rfl, by decide, by decide⟩

theorem stringifyItems_head {items : List JsonValue} (some : items ≠ []) : ∃ first rest, stringifyItems items = first :: rest ∧
    isJsonSpace first = false ∧ first ≠ unit ']' := by
  cases items with
  | nil => exact absurd rfl some
  | cons item items =>
    obtain ⟨first, rest, same, dense, opens⟩ := stringify_head item
    cases items with
    | nil => exact ⟨first, rest, same, dense, opens⟩
    | cons other items =>
      refine ⟨first, rest ++ unit ',' :: stringifyItems (other :: items), ?_, dense, opens⟩
      rw [stringifyItems, same, List.cons_append]

/-- The value is read from the front of any text that does not go on with a number. -/
def Reads (value : JsonValue) : Prop :=
  ∀ fuel rest, (stringify value).length ≤ fuel → EndsNumber rest → scanValue fuel (stringify value ++ rest) = some (value, rest)

theorem endsNumber_cons {first : Nat} (other : isNumberUnit first = false) (rest : JsString) : EndsNumber (first :: rest) := by
  intro _ _ same
  cases same
  exact other

theorem reads_number (literal : NumberLiteral) : Reads (.number literal) := by
  intro fuel rest enough ends
  obtain ⟨first, more, same⟩ := List.exists_cons_of_ne_nil (text_ne_nil literal)
  have number : isNumberUnit first = true := text_number literal first (same ▸ List.mem_cons_self ..)
  have apart : ∀ u, isNumberUnit u = false → first ≠ u := by
    rintro u other rfl
    exact absurd number (by simp [other])
  obtain ⟨first', more', same', dense, -⟩ := stringify_head (.number literal)
  have written : stringify (.number literal) = literal.text := rfl
  rw [written] at same' enough ⊢
  obtain ⟨rfl, rfl⟩ := List.cons.inj (same.symm.trans same')
  have taken : (literal.text ++ rest).takeWhile isNumberUnit = literal.text ∧
      (literal.text ++ rest).dropWhile isNumberUnit = rest := by
    constructor
    · rw [List.takeWhile_append_of_pos (text_number literal)]
      cases rest with
      | nil => simp
      | cons next rest => rw [List.takeWhile_cons_of_neg (by simp [ends next rest rfl]), List.append_nil]
    · rw [List.dropWhile_append_of_pos (text_number literal)]
      cases rest with
      | nil => rfl
      | cons next rest => rw [List.dropWhile_cons_of_neg (by simp [ends next rest rfl])]
  cases fuel with
  | zero =>
    rw [same] at enough
    exact absurd enough (by simp)
  | succ fuel =>
    rw [same, List.cons_append] at taken ⊢
    simp only [scanValue, skipSpaces_cons dense, if_neg (apart (unit '"') (by decide)), if_neg (apart (unit '[') (by decide)),
      if_neg (apart (unit '{') (by decide)), number, if_true, taken.1, taken.2]
    rw [← same, scanJsonNumber_text]
    rfl

theorem scanItems_stringifyItems {items : List JsonValue} (some : items ≠ []) (each : ∀ item ∈ items, Reads item)
    (fuel : Nat) (rest : JsString) (enough : (stringifyItems items).length + 1 ≤ fuel) :
    scanItems fuel (stringifyItems items ++ unit ']' :: rest) = .some (items, rest) := by
  induction items generalizing fuel with
  | nil => exact absurd rfl some
  | cons item items ih =>
    cases fuel with
    | zero => exact absurd enough (by omega)
    | succ fuel =>
      have reads := each item (List.mem_cons_self ..)
      cases items with
      | nil =>
        rw [stringifyItems] at enough ⊢
        rw [scanItems, reads fuel _ (by omega) (endsNumber_cons (by decide) _)]
        simp [skipSpaces_cons (show isJsonSpace (unit ']') = false by decide), show unit ']' ≠ unit ',' by decide]
      | cons other items =>
        rw [stringifyItems, List.length_append, List.length_cons] at enough
        have rest' := ih (List.cons_ne_nil _ _) (fun item member => each item (List.mem_cons_of_mem _ member)) fuel (by omega)
        rw [stringifyItems, List.append_assoc, List.cons_append, scanItems,
          reads fuel _ (by omega) (endsNumber_cons (by decide) _)]
        simp [skipSpaces_cons (show isJsonSpace (unit ',') = false by decide), rest']

theorem scanMembers_stringifyMembers {members : List (JsString × JsonValue)} (some : members ≠ [])
    (each : ∀ member ∈ members, Reads member.2) (fuel : Nat) (rest : JsString)
    (enough : (stringifyMembers members).length + 1 ≤ fuel) :
    scanMembers fuel (stringifyMembers members ++ unit '}' :: rest) = .some (members, rest) := by
  induction members generalizing fuel with
  | nil => exact absurd rfl some
  | cons member members ih =>
    obtain ⟨name, value⟩ := member
    cases fuel with
    | zero => exact absurd enough (by omega)
    | succ fuel =>
      have reads : Reads value := each (name, value) (List.mem_cons_self ..)
      cases members with
      | nil =>
        rw [stringifyMembers, List.length_append, List.length_cons] at enough
        rw [stringifyMembers, quote, scanMembers]
        simp only [List.cons_append, List.append_assoc, List.nil_append,
          skipSpaces_cons (show isJsonSpace (unit '"') = false by decide), if_true, scanString_quote, Option.bind_eq_bind,
          Option.bind_some, skipSpaces_cons (show isJsonSpace (unit ':') = false by decide),
          reads fuel _ (by omega) (endsNumber_cons (show isNumberUnit (unit '}') = false by decide) _)]
        simp [skipSpaces_cons (show isJsonSpace (unit '}') = false by decide), show unit '}' ≠ unit ',' by decide]
      | cons other members =>
        rw [stringifyMembers, List.length_append, List.length_cons, List.length_append, List.length_cons] at enough
        have rest' := ih (List.cons_ne_nil _ _) (fun member inside => each member (List.mem_cons_of_mem _ inside)) fuel (by omega)
        rw [stringifyMembers, quote, scanMembers]
        simp only [List.cons_append, List.append_assoc, List.nil_append,
          skipSpaces_cons (show isJsonSpace (unit '"') = false by decide), if_true, scanString_quote, Option.bind_eq_bind,
          Option.bind_some, skipSpaces_cons (show isJsonSpace (unit ':') = false by decide),
          reads fuel _ (by omega) (endsNumber_cons (show isNumberUnit (unit ',') = false by decide) _)]
        simp [skipSpaces_cons (show isJsonSpace (unit ',') = false by decide), rest']

/-- A word is read as the value it names. -/
theorem scanValue_word {word : JsString} {value : JsonValue} {first : Nat} {more : JsString} (named : word = first :: more)
    (letter : isLetter first = true) (number : isNumberUnit first = false) (reads : scanWord (word ++ rest) = some (value, rest))
    (enough : word.length ≤ fuel) : scanValue fuel (word ++ rest) = some (value, rest) := by
  have other : ∀ u, isLetter u = false → first ≠ u := by
    rintro u other rfl
    exact absurd letter (by simp [other])
  have dense : isJsonSpace first = false := by
    simp only [isLetter, Bool.or_eq_true, Bool.and_eq_true, decide_eq_true_eq] at letter
    have spaces : first ≠ 9 ∧ first ≠ 10 ∧ first ≠ 13 ∧ first ≠ 32 := by
      simp only [unit, Char.reduceToNat] at letter
      omega
    simp [isJsonSpace, spaces]
  cases fuel with
  | zero =>
    rw [named] at enough
    exact absurd enough (by simp)
  | succ fuel =>
    rw [named, List.cons_append] at reads ⊢
    simp only [scanValue, skipSpaces_cons dense, if_neg (other (unit '"') (by decide)), if_neg (other (unit '[') (by decide)),
      if_neg (other (unit '{') (by decide)), number, Bool.false_eq_true, if_false, reads]

theorem reads (value : JsonValue) : Reads value := by
  induction value using JsonValue.induct with
  | number literal => exact reads_number literal
  | null =>
    intro fuel rest enough _
    refine scanValue_word rfl (by decide) (by decide) ?_ enough
    rfl
  | boolean value =>
    intro fuel rest enough _
    cases value with
    | true =>
      refine scanValue_word rfl (by decide) (by decide) ?_ enough
      rfl
    | false =>
      refine scanValue_word rfl (by decide) (by decide) ?_ enough
      rfl
  | string value =>
    intro fuel rest enough _
    rw [stringify, quote] at enough ⊢
    cases fuel with
    | zero => exact absurd enough (by simp)
    | succ fuel =>
      simp only [List.cons_append, List.append_assoc, List.nil_append, scanValue,
        skipSpaces_cons (show isJsonSpace (unit '"') = false by decide), if_true, scanString_quote, Option.map_some]
  | array items each =>
    intro fuel rest enough _
    rw [stringify, List.length_cons, List.length_append, List.length_singleton] at enough
    rw [stringify]
    cases fuel with
    | zero => exact absurd enough (by omega)
    | succ fuel =>
      simp only [List.cons_append, List.append_assoc, List.nil_append, scanValue,
        skipSpaces_cons (show isJsonSpace (unit '[') = false by decide), if_neg (show unit '[' ≠ unit '"' by decide), if_true]
      cases items with
      | nil =>
        simp only [stringifyItems, List.nil_append, skipSpaces_cons (show isJsonSpace (unit ']') = false by decide), if_true]
      | cons item items =>
        obtain ⟨first, more, same, dense, opens⟩ := stringifyItems_head (List.cons_ne_nil item items)
        have scanned := scanItems_stringifyItems (List.cons_ne_nil item items) each fuel rest (by omega)
        rw [same, List.cons_append] at scanned ⊢
        simp only [skipSpaces_cons dense, if_neg opens, scanned, Option.map_some]
  | object members each =>
    intro fuel rest enough _
    rw [stringify, List.length_cons, List.length_append, List.length_singleton] at enough
    rw [stringify]
    cases fuel with
    | zero => exact absurd enough (by omega)
    | succ fuel =>
      simp only [List.cons_append, List.append_assoc, List.nil_append, scanValue,
        skipSpaces_cons (show isJsonSpace (unit '{') = false by decide), if_neg (show unit '{' ≠ unit '"' by decide),
        if_neg (show unit '{' ≠ unit '[' by decide), if_true]
      cases members with
      | nil =>
        simp only [stringifyMembers, List.nil_append, skipSpaces_cons (show isJsonSpace (unit '}') = false by decide), if_true]
      | cons member members =>
        obtain ⟨more, same⟩ : ∃ more, stringifyMembers (member :: members) = unit '"' :: more := by
          cases members <;> exact ⟨_, rfl⟩
        have scanned := scanMembers_stringifyMembers (List.cons_ne_nil member members) each fuel rest (by omega)
        rw [same, List.cons_append] at scanned ⊢
        simp only [skipSpaces_cons (show isJsonSpace (unit '"') = false by decide), if_neg (show unit '"' ≠ unit '}' by decide),
          scanned, Option.map_some]

theorem parseJson_stringify (value : JsonValue) : parseJson (stringify value) = some value := by
  have read := reads value ((stringify value).length + 1) [] (Nat.le_succ _) (fun _ _ none => by cases none)
  rw [List.append_nil] at read
  rw [parseJson, read]
  rfl

end Values

/-! The text is made of quoted strings and printable ASCII. -/

section Units
open JsonValue
variable {holds : JsString → Prop} (append : ∀ {first second}, holds first → holds second → holds (first ++ second))
  (plain : ∀ text, (∀ u ∈ text, 32 ≤ u ∧ u < 128) → holds text)

theorem isNumberUnit_plain {u : Nat} (number : isNumberUnit u = true) : 32 ≤ u ∧ u < 128 := by
  simp only [isNumberUnit, isDigit, Bool.or_eq_true, Bool.and_eq_true, decide_eq_true_eq, beq_iff_eq, unit,
    Char.reduceToNat] at number
  omega

include append plain

theorem stringifyItems_holds {items : List JsonValue} (each : ∀ item ∈ items, holds (stringify item)) :
    holds (stringifyItems items) := by
  induction items with
  | nil => exact plain _ (by simp [stringifyItems])
  | cons item items ih =>
    have first := each item (List.mem_cons_self ..)
    cases items with
    | nil => exact first
    | cons other items =>
      have comma : holds [unit ','] := plain _ (by decide)
      exact append first (append comma (ih fun item member => each item (List.mem_cons_of_mem _ member)))

theorem stringifyMembers_holds {members : List (JsString × JsonValue)} (names : ∀ member ∈ members, holds (quote member.1))
    (each : ∀ member ∈ members, holds (stringify member.2)) : holds (stringifyMembers members) := by
  induction members with
  | nil => exact plain _ (by simp [stringifyMembers])
  | cons member members ih =>
    have name := names member (List.mem_cons_self ..)
    have value := each member (List.mem_cons_self ..)
    have colon : holds [unit ':'] := plain _ (by decide)
    cases members with
    | nil => exact append name (append colon value)
    | cons other members =>
      have comma : holds [unit ','] := plain _ (by decide)
      have rest := ih (fun item inside => names item (List.mem_cons_of_mem _ inside))
        fun item inside => each item (List.mem_cons_of_mem _ inside)
      exact append name (append colon (append value (append comma rest)))

theorem stringify_holds {value : JsonValue} (quoted : ∀ text ∈ value.strings, holds (quote text)) : holds (stringify value) := by
  induction value using JsonValue.induct with
  | null => exact plain _ (by decide)
  | boolean value => cases value <;> exact plain _ (by decide)
  | number literal => exact plain _ fun u member => isNumberUnit_plain (text_number literal u member)
  | string value => exact quoted value (List.mem_singleton_self _)
  | array items each =>
    have inside : holds (stringifyItems items) := by
      refine stringifyItems_holds append plain fun item member => each item member fun text named => quoted text ?_
      rw [strings]
      exact stringsItems_of_mem member named
    have opening : holds [unit '['] := plain _ (by decide)
    have closing : holds [unit ']'] := plain _ (by decide)
    exact append opening (append inside closing)
  | object members each =>
    have inside : holds (stringifyMembers members) := by
      refine stringifyMembers_holds append plain (fun member listed => quoted member.1 ?_)
        fun member listed => each member listed fun text named => quoted text ?_
      · rw [strings]
        exact name_mem_stringsMembers listed
      · rw [strings]
        exact stringsMembers_of_mem listed named
    have opening : holds [unit '{'] := plain _ (by decide)
    have closing : holds [unit '}'] := plain _ (by decide)
    exact append opening (append inside closing)

omit append plain

theorem stringify_printable (value : JsonValue) : ∀ u ∈ stringify value, 32 ≤ u := by
  let Printable (text : JsString) : Prop := ∀ u ∈ text, 32 ≤ u
  have append : ∀ {first second}, Printable first → Printable second → Printable (first ++ second) := by
    intro first second one other u member
    rcases List.mem_append.mp member with here | later
    · exact one u here
    · exact other u later
  have plain : ∀ text, (∀ u ∈ text, 32 ≤ u ∧ u < 128) → Printable text := fun _ each u member => (each u member).1
  exact stringify_holds append plain fun _ _ => quote_printable

theorem wellFormed_stringify {value : JsonValue} (bounded : ∀ text ∈ value.strings, ∀ u ∈ text, u < 0x10000) :
    WellFormed (stringify value) := by
  have plain : ∀ text, (∀ u ∈ text, 32 ≤ u ∧ u < 128) → WellFormed text := by
    intro text each
    refine .of_plain fun u member => ?_
    have ascii := each u member
    omega
  exact stringify_holds WellFormed.append plain fun text named => wellFormed_quote (bounded text named)

end Units

/-! A text that was read reads the same when it goes on, unless it ends inside a number. -/

section Longer
open JsonValue
variable {text rest : JsString}

theorem skipSpaces_append {first : Nat} (found : skipSpaces text = first :: rest) (more : JsString) :
    skipSpaces (text ++ more) = first :: (rest ++ more) := by
  unfold skipSpaces at found ⊢
  rw [List.dropWhile_append, found]
  rfl

theorem scanString_append {value : JsString} (read : scanString text = some (value, rest)) (more : JsString) :
    scanString (text ++ more) = some (value, rest ++ more) := by
  fun_induction scanString text generalizing value with
  | case1 => cases read
  | case2 =>
    cases read
    rw [List.cons_append, scanString.eq_def]
    simp only [if_true]
  | case3 a b c d tail escape ih =>
    simp only [Option.bind_eq_bind, Option.bind_eq_some_iff, Option.pure_def, Option.some.injEq] at read
    obtain ⟨one, first, two, second, three, third, four, fourth, ⟨units, left⟩, more', same⟩ := read
    cases same
    have longer := ih more'
    rw [List.cons_append, scanString.eq_def]
    simp [escape, first, second, third, fourth, longer]
  | case4 => cases read
  | case5 letter tail other escape ih =>
    simp only [Option.bind_eq_bind, Option.bind_eq_some_iff, Option.pure_def, Option.some.injEq] at read
    obtain ⟨u, escaped, ⟨units, left⟩, more', same⟩ := read
    cases same
    have longer := ih more'
    rw [List.cons_append, scanString.eq_def]
    simp [escape, other, escaped, longer]
  | case6 => cases read
  | case7 => cases read
  | case8 first tail quoted escape control ih =>
    simp only [Option.bind_eq_bind, Option.bind_eq_some_iff, Option.pure_def, Option.some.injEq] at read
    obtain ⟨⟨units, left⟩, more', same⟩ := read
    cases same
    have longer := ih more'
    rw [List.cons_append, scanString.eq_def]
    simp [quoted, escape, control, longer]

theorem stripPrefix_some {word : JsString} (stripped : stripPrefix word text = some rest) : text = word ++ rest := by
  unfold stripPrefix at stripped
  split at stripped
  next starts =>
    obtain ⟨tail, rfl⟩ := List.isPrefixOf_iff_prefix.mp starts
    rw [List.drop_left] at stripped
    rw [Option.some.inj stripped]
  next => cases stripped

theorem scanWord_append {value : JsonValue} (read : scanWord text = some (value, rest)) (more : JsString) :
    scanWord (text ++ more) = some (value, rest ++ more) := by
  have named : ∃ word, text = word ++ rest ∧ ((word = units "true" ∧ value = .boolean true) ∨
      (word = units "false" ∧ value = .boolean false) ∨ (word = units "null" ∧ value = .null)) := by
    simp only [scanWord, Option.or_eq_some_iff, Option.map_eq_some_iff, Prod.mk.injEq, Option.map_eq_none_iff] at read
    obtain ⟨left, stripped, rfl, rfl⟩ | ⟨-, ⟨left, stripped, rfl, rfl⟩ | ⟨-, left, stripped, rfl, rfl⟩⟩ := read
    · exact ⟨_, stripPrefix_some stripped, .inl ⟨rfl, rfl⟩⟩
    · exact ⟨_, stripPrefix_some stripped, .inr (.inl ⟨rfl, rfl⟩)⟩
    · exact ⟨_, stripPrefix_some stripped, .inr (.inr ⟨rfl, rfl⟩)⟩
  obtain ⟨word, rfl, words⟩ := named
  rw [List.append_assoc]
  obtain ⟨rfl, rfl⟩ | ⟨rfl, rfl⟩ | ⟨rfl, rfl⟩ := words <;> rfl

/-- The units of a number end before the text does. -/
theorem number_append (left : text.dropWhile isNumberUnit ≠ []) (more : JsString) :
    (text ++ more).takeWhile isNumberUnit = text.takeWhile isNumberUnit ∧
      (text ++ more).dropWhile isNumberUnit = text.dropWhile isNumberUnit ++ more := by
  induction text with
  | nil => exact absurd rfl left
  | cons first text ih =>
    by_cases number : isNumberUnit first = true
    · rw [List.dropWhile_cons_of_pos number] at left
      obtain ⟨taken, dropped⟩ := ih left
      simp [number, taken, dropped]
    · simp [number]

/-- The value ends where it does whatever the text goes on with: it is no number, or more text follows it. -/
def Closed (value : JsonValue) (rest : JsString) : Prop := value.isNumber = false ∨ rest ≠ []

theorem closed_of_next {value : JsonValue} {first : Nat} {left : JsString} (next : skipSpaces rest = first :: left) :
    Closed value rest := by
  right
  rintro rfl
  cases next

/-- With this fuel, whatever is read is read from any longer text too. -/
structure Extends (fuel : Nat) : Prop where
  value : ∀ {text value rest}, scanValue fuel text = some (value, rest) → Closed value rest →
    ∀ more enough, fuel ≤ enough → scanValue enough (text ++ more) = some (value, rest ++ more)
  items : ∀ {text items rest}, scanItems fuel text = some (items, rest) →
    ∀ more enough, fuel ≤ enough → scanItems enough (text ++ more) = some (items, rest ++ more)
  members : ∀ {text members rest}, scanMembers fuel text = some (members, rest) →
    ∀ more enough, fuel ≤ enough → scanMembers enough (text ++ more) = some (members, rest ++ more)

theorem scanItems_append {fuel : Nat} (ih : Extends fuel) {items : List JsonValue}
    (read : scanItems (fuel + 1) text = some (items, rest)) (more : JsString) {enough : Nat} (fits : fuel ≤ enough) :
    scanItems (enough + 1) (text ++ more) = some (items, rest ++ more) := by
  rw [scanItems] at read ⊢
  simp only [Option.bind_eq_bind, Option.bind_eq_some_iff] at read
  obtain ⟨⟨item, left⟩, one, read⟩ := read
  cases next : skipSpaces left with
  | nil =>
    rw [next] at read
    cases read
  | cons first tail =>
    rw [next] at read
    simp only at read
    simp only [ih.value one (closed_of_next next) more enough fits, Option.bind_eq_bind, Option.bind_some,
      skipSpaces_append next]
    split at read
    next comma =>
      obtain ⟨⟨others, last⟩, others', same⟩ := Option.map_eq_some_iff.mp read
      cases same
      rw [if_pos comma, ih.items others' more enough fits]
      rfl
    next other =>
      split at read
      next closing =>
        cases read
        rw [if_neg other, if_pos closing]
      next => cases read

theorem scanMembers_append {fuel : Nat} (ih : Extends fuel) {members : List (JsString × JsonValue)}
    (read : scanMembers (fuel + 1) text = some (members, rest)) (more : JsString) {enough : Nat} (fits : fuel ≤ enough) :
    scanMembers (enough + 1) (text ++ more) = some (members, rest ++ more) := by
  rw [scanMembers] at read ⊢
  cases opened : skipSpaces text with
  | nil =>
    rw [opened] at read
    cases read
  | cons first afterQuote =>
    rw [opened] at read
    simp only at read
    split at read
    next quoted =>
      simp only [Option.bind_eq_bind, Option.bind_eq_some_iff] at read
      obtain ⟨⟨name, afterName⟩, named, read⟩ := read
      simp only [skipSpaces_append opened, if_pos quoted, scanString_append named, Option.bind_eq_bind, Option.bind_some]
      cases colon : skipSpaces afterName with
      | nil =>
        rw [colon] at read
        cases read
      | cons mark afterColon =>
        rw [colon] at read
        simp only at read
        split at read
        next marked =>
          simp only [Option.bind_eq_some_iff] at read
          obtain ⟨⟨value, left⟩, one, read⟩ := read
          cases next : skipSpaces left with
          | nil =>
            rw [next] at read
            cases read
          | cons following tail =>
            rw [next] at read
            simp only at read
            simp only [skipSpaces_append colon, if_pos marked, ih.value one (closed_of_next next) more enough fits,
              Option.bind_some, skipSpaces_append next]
            split at read
            next comma =>
              obtain ⟨⟨others, last⟩, others', same⟩ := Option.map_eq_some_iff.mp read
              cases same
              rw [if_pos comma, ih.members others' more enough fits]
              rfl
            next other =>
              split at read
              next closing =>
                cases read
                rw [if_neg other, if_pos closing]
              next => cases read
        next => cases read
    next => cases read

theorem scanValue_append {fuel : Nat} (ih : Extends fuel) {value : JsonValue}
    (read : scanValue (fuel + 1) text = some (value, rest)) (closed : Closed value rest) (more : JsString) {enough : Nat}
    (fits : fuel ≤ enough) : scanValue (enough + 1) (text ++ more) = some (value, rest ++ more) := by
  rw [scanValue] at read ⊢
  cases opened : skipSpaces text with
  | nil =>
    rw [opened] at read
    cases read
  | cons first tail =>
    rw [opened] at read
    simp only [skipSpaces_append opened] at read ⊢
    split at read
    next quoted =>
      obtain ⟨⟨units, left⟩, scanned, same⟩ := Option.map_eq_some_iff.mp read
      cases same
      rw [if_pos quoted, scanString_append scanned]
      rfl
    next quoted =>
    split at read
    next bracket =>
      rw [if_neg quoted, if_pos bracket]
      cases inside : skipSpaces tail with
      | nil =>
        rw [inside] at read
        cases read
      | cons next left =>
        rw [inside] at read
        simp only [skipSpaces_append inside] at read ⊢
        split at read
        next closing =>
          cases read
          rw [if_pos closing]
        next other =>
          obtain ⟨⟨items, last⟩, scanned, same⟩ := Option.map_eq_some_iff.mp read
          cases same
          rw [if_neg other, ← List.cons_append, ih.items scanned more enough fits]
          rfl
    next bracket =>
    split at read
    next brace =>
      rw [if_neg quoted, if_neg bracket, if_pos brace]
      cases inside : skipSpaces tail with
      | nil =>
        rw [inside] at read
        cases read
      | cons next left =>
        rw [inside] at read
        simp only [skipSpaces_append inside] at read ⊢
        split at read
        next closing =>
          cases read
          rw [if_pos closing]
        next other =>
          obtain ⟨⟨members, last⟩, scanned, same⟩ := Option.map_eq_some_iff.mp read
          cases same
          rw [if_neg other, ← List.cons_append, ih.members scanned more enough fits]
          rfl
    next brace =>
    split at read
    next number =>
      obtain ⟨literal, scanned, same⟩ := Option.map_eq_some_iff.mp read
      cases same
      rcases closed with no | left
      · cases no
      · obtain ⟨taken, dropped⟩ := number_append left more
        rw [if_neg quoted, if_neg bracket, if_neg brace, if_pos number, ← List.cons_append, taken, dropped, scanned]
        rfl
    next number =>
      rw [if_neg quoted, if_neg bracket, if_neg brace, if_neg number, ← List.cons_append]
      exact scanWord_append read more

theorem extends_all (fuel : Nat) : Extends fuel := by
  induction fuel with
  | zero => refine ⟨?_, ?_, ?_⟩ <;> (intro _ _ _ read; cases read)
  | succ fuel ih =>
    refine ⟨?_, ?_, ?_⟩
    · intro text value rest read closed more enough fits
      obtain ⟨enough, rfl⟩ := Nat.exists_eq_add_of_lt fits
      exact scanValue_append ih read closed more (by omega)
    · intro text items rest read more enough fits
      obtain ⟨enough, rfl⟩ := Nat.exists_eq_add_of_lt fits
      exact scanItems_append ih read more (by omega)
    · intro text members rest read more enough fits
      obtain ⟨enough, rfl⟩ := Nat.exists_eq_add_of_lt fits
      exact scanMembers_append ih read more (by omega)

/-- No text that the text of an object only begins with is JSON. -/
theorem parseJson_prefix {members : List (JsString × JsonValue)} {value : JsonValue}
    (part : text <+: stringify (.object members)) (read : parseJson text = some value) : text = stringify (.object members) := by
  obtain ⟨more, whole⟩ := part
  rw [parseJson] at read
  simp only [Option.bind_eq_bind, Option.bind_eq_some_iff] at read
  obtain ⟨⟨value', left⟩, scanned, -⟩ := read
  have closed : Closed value' left := by
    left
    cases text with
    | nil => cases scanned
    | cons first tail =>
      rw [stringify, List.cons_append] at whole
      obtain ⟨rfl, -⟩ := List.cons.inj whole
      rw [scanValue, skipSpaces_cons (show isJsonSpace (unit '{') = false by decide)] at scanned
      simp only [if_neg (show unit '{' ≠ unit '"' by decide), if_neg (show unit '{' ≠ unit '[' by decide), if_true] at scanned
      split at scanned
      next => cases scanned
      next =>
        split at scanned
        next => cases scanned; rfl
        next =>
          obtain ⟨_, -, same⟩ := Option.map_eq_some_iff.mp scanned
          cases same
          rfl
  have longer := (extends_all _).value scanned closed more _ (Nat.le_add_right _ (stringify (.object members)).length)
  rw [whole] at longer
  have self := reads (.object members) (text.length + 1 + (stringify (.object members)).length) [] (by omega)
    (fun _ _ none => by cases none)
  rw [List.append_nil, longer] at self
  simp only [Option.some.injEq, Prod.mk.injEq, List.append_eq_nil_iff] at self
  rw [← whole, self.2.2, List.append_nil]

end Longer

end Host
