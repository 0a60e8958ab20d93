import OttiliCoder.Runtime.Decoding
import OttiliCoder.Runtime.Turn

/-! Which bodies of a response are decoded strictly: to a response of the documented shape, or to a
failure that is not retried. -/

namespace OttiliCoder
open Host

/-! What a response should be. -/

def DecodedResponse.calls (response : DecodedResponse) : List DecodedCall := response.toolCalls.getD []

def DecodedUsage.figures (usage : DecodedUsage) : List JsonValue :=
  [usage.inputTokens, usage.outputTokens, usage.cachedTokens].reduceOption

structure StrictResponse (response : DecodedResponse) : Prop where
  content : response.text ≠ none ∨ response.calls ≠ []
  text : ∀ text, response.text = some text → text.isString = true
  names : ∀ call ∈ response.calls, ∃ name, call.name = .string name ∧ name ≠ []
  inputs : ∀ call ∈ response.calls, call.input.isObject = true
  ids : (response.calls.map (·.id)).Pairwise fun id other => id.strictEqual other = false
  usage : ∀ usage, response.usage = some usage → ∀ figure ∈ usage.figures, figure.isNumber = true

/-- The outcome of a decoding. -/
def Strict : Decoding DecodedResponse → Prop
  | .ok response => StrictResponse response
  | .error (.providerFailure kind _) => kind = .malformedOutput ∨ kind = .contextOverflow
  | .error .typeError => False

/-! Calls are read one after the other, and the first that is refused ends the decoding. -/

/-- An item is refused before any item that is misused. -/
def Stops (accepted refused : JsonValue → Prop) : List JsonValue → Prop
  | [] => False
  | item :: items => refused item ∨ accepted item ∧ Stops accepted refused items

/-- What a reader of calls does with an item, by the shape of the item: `counts` says whether it is a call and `call`
which one. -/
structure Reader (read : Nat → JsonValue → Decoding (Option DecodedCall)) (accepted refused : JsonValue → Prop)
    (counts : JsonValue → Bool) (call : Nat → JsonValue → DecodedCall) : Prop where
  reads : ∀ made item, accepted item → read made item = .ok (if counts item then some (call made item) else none)
  refuses : ∀ made item, refused item → ∃ message, read made item = .error (malformed message)
  throws : ∀ made item, ¬accepted item → ¬refused item → read made item = .error .typeError

section Calls
variable {read : Nat → JsonValue → Decoding (Option DecodedCall)} {accepted refused : JsonValue → Prop}
  {counts : JsonValue → Bool} {call : Nat → JsonValue → DecodedCall} {items : List JsonValue}

theorem Reader.collect_accepted (reader : Reader read accepted refused counts call) (each : ∀ item ∈ items, accepted item)
    (made : Nat) : collectCalls read made items =
      .ok ((items.filter counts).mapIdx fun place item => call (made + place) item) := by
  induction items generalizing made with
  | nil => rfl
  | cons item items ih =>
    obtain ⟨first, later⟩ := List.forall_mem_cons.mp each
    rw [collectCalls, reader.reads made item first]
    cases counted : counts item with
    | false =>
      rw [List.filter_cons_of_neg (by simp [counted])]
      exact ih later made
    | true =>
      have places : (fun place item => call (made + 1 + place) item) = fun place item => call (made + (place + 1)) item := by
        funext place item
        rw [Nat.add_assoc, Nat.add_comm 1]
      rw [List.filter_cons_of_pos counted, List.mapIdx_cons, ← places]
      simp only [if_true, bind, Except.bind, ih later (made + 1)]
      rfl

theorem Reader.collect_stops (reader : Reader read accepted refused counts call) (stops : Stops accepted refused items)
    (made : Nat) : ∃ message, collectCalls read made items = .error (malformed message) := by
  induction items generalizing made with
  | nil => exact stops.elim
  | cons item items ih =>
    rw [collectCalls]
    rcases stops with first | ⟨first, later⟩
    · obtain ⟨message, refusal⟩ := reader.refuses made item first
      exact ⟨message, by rw [refusal]; rfl⟩
    · rw [reader.reads made item first]
      cases counts item with
      | false => exact ih later made
      | true =>
        obtain ⟨message, refusal⟩ := ih later (made + 1)
        exact ⟨message, by simp only [if_true, bind, Except.bind, refusal]⟩

theorem Reader.collect_throws (reader : Reader read accepted refused counts call) (misused : ¬∀ item ∈ items, accepted item)
    (goesOn : ¬Stops accepted refused items) (made : Nat) : collectCalls read made items = .error .typeError := by
  induction items generalizing made with
  | nil => exact absurd (fun _ member => by cases member) misused
  | cons item items ih =>
    rw [collectCalls]
    rw [Stops, not_or, not_and] at goesOn
    by_cases first : accepted item
    · rw [reader.reads made item first]
      have rest : ¬∀ item ∈ items, accepted item := fun each => misused (List.forall_mem_cons.mpr ⟨first, each⟩)
      have later := ih rest (goesOn.2 first)
      cases counts item with
      | false => exact later made
      | true => simp only [if_true, bind, Except.bind, later (made + 1)]
    · rw [reader.throws made item first goesOn.1]
      rfl

end Calls

/-! Names and inputs. -/

section Names
variable {name input : Option JsonValue} {failure : DecodingError} {before after : String} {value : JsonValue}

def HasName (name : Option JsonValue) : Prop := ∃ value, name = some value ∧ value.isEmpty = some false

def LacksName (name : Option JsonValue) : Prop := ∀ value, name = some value → value.isEmpty = some true

def IsName (name : Option JsonValue) : Prop := ∃ text, name = some (.string text)

def IsInput (input : Option JsonValue) : Prop := ∃ members, input = some (.object members)

/-- The name can stand in the message of a failure. -/
def Spells (name : Option JsonValue) : Prop := ∃ value text, name = some value ∧ value.spelled = some text

/-- The call is refused: without a name, or for an input that is no object. -/
def RefusedCall (name input : Option JsonValue) : Prop := LacksName name ∨ HasName name ∧ ¬IsInput input ∧ Spells name

theorem used_some {α : Type} (value : α) : used (some value) = .ok value := rfl

theorem used_none {α : Type} : used (none : Option α) = .error .typeError := rfl

theorem requireName_has (found : value.isEmpty = some false) : requireName failure (some value) = .ok value := by
  rw [requireName, found]
  rfl

theorem requireName_lacks (lacks : LacksName name) : requireName failure name = .error failure := by
  cases name with
  | none => rfl
  | some value =>
    rw [requireName, lacks value rfl]
    rfl

/-- A name that is neither there nor missing is null. -/
theorem requireName_null (has : ¬HasName name) (lacks : ¬LacksName name) : requireName failure name = .error .typeError := by
  cases name with
  | none => exact absurd (fun _ found => by cases found) lacks
  | some value =>
    cases empty : value.isEmpty with
    | none =>
      rw [requireName, empty]
      rfl
    | some flag =>
      cases flag with
      | true => exact absurd (fun other same => by cases same; exact empty) lacks
      | false => exact absurd ⟨value, rfl, empty⟩ has

/-- The input must be an object, and the failure otherwise names the tool. -/
structure Demands (require : JsonValue → Decoding JsonValue) (input : Option JsonValue) : Prop where
  object : ∀ value members, input = some (.object members) → require value = .ok (.object members)
  other : ¬IsInput input → ∃ message : JsString → JsString, ∀ value,
    require value = used value.spelled >>= fun text => .error (malformed (message text))

theorem demands_input (before after : String) (input : Option JsonValue) :
    Demands (fun name => requireInput before after name input) input where
  object := by
    intro value members same
    rw [same]
    rfl
  other := by
    intro other
    refine ⟨fun text => units before ++ text ++ units after, fun value => ?_⟩
    unfold requireInput
    split
    next members => exact absurd ⟨members, rfl⟩ other
    next => rfl

theorem demands_arguments (input : Option JsonValue) : Demands (fun name => requireArguments name input) input where
  object := by
    intro value members same
    rw [same]
    rfl
  other := by
    intro other
    cases input with
    | none => exact ⟨fun text => units "Tool '" ++ text ++ units "' has invalid JSON arguments.", fun value => rfl⟩
    | some input => exact (demands_input _ _ _).other other

variable {α : Type} {require : JsonValue → Decoding JsonValue} {next : JsonValue → JsonValue → Decoding α} {text : JsString}

theorem named_accepted (demands : Demands require input) (has : HasName name) (object : IsInput input) :
    ∃ value members, name = some value ∧ input = some (.object members) ∧
      (do let name ← requireName failure name; let input ← require name; next name input) = next value (.object members) := by
  obtain ⟨value, rfl, filled⟩ := has
  obtain ⟨members, same⟩ := object
  refine ⟨value, members, rfl, same, ?_⟩
  rw [requireName_has filled]
  change require value >>= _ = _
  rw [demands.object value members same]
  rfl

theorem named_refused (demands : Demands require input) (refused : RefusedCall name input) :
    ∃ message, (do let name ← requireName (malformed text) name; let input ← require name; next name input) =
      .error (malformed message) := by
  rcases refused with lacks | ⟨⟨value, rfl, filled⟩, other, ⟨_, spelled, same, spells⟩⟩
  · rw [requireName_lacks lacks]
    exact ⟨text, rfl⟩
  · cases same
    obtain ⟨message, refuses⟩ := demands.other other
    refine ⟨message spelled, ?_⟩
    rw [requireName_has filled]
    change require value >>= _ = _
    rw [refuses, spells]
    rfl

theorem named_misused (demands : Demands require input) (other : ¬(HasName name ∧ IsInput input)) (misused : ¬RefusedCall name input) :
    (do let name ← requireName failure name; let input ← require name; next name input) = .error .typeError := by
  rw [RefusedCall, not_or] at misused
  by_cases has : HasName name
  · have noObject : ¬IsInput input := fun object => other ⟨has, object⟩
    obtain ⟨value, rfl, filled⟩ := has
    obtain ⟨message, refuses⟩ := demands.other noObject
    rw [requireName_has filled]
    change require value >>= _ = _
    rw [refuses]
    cases spells : value.spelled with
    | none => rfl
    | some spelled => exact absurd ⟨⟨value, rfl, filled⟩, noObject, value, spelled, rfl, spells⟩ misused.2
  · rw [requireName_null has misused.1]
    rfl

end Names

/-! The figures of a usage. -/

/-- The usage is missing, or something whose figures are numbers. -/
def UsageHeld (figures : JsonValue → DecodedUsage) (usage : Option JsonValue) : Prop :=
  ∀ value, usage = some value → value.isNull = false ∧ ∀ figure ∈ (figures value).figures, figure.isNumber = true

theorem readUsage_eq (figures : JsonValue → DecodedUsage) (usage : Option JsonValue) : readUsage figures usage =
    if usage.any JsonValue.isNull then .error .typeError else .ok (usage.map figures) := by
  cases usage with
  | none => rfl
  | some value => cases value <;> rfl

/-! The calls of each adapter, by the shape of what they are read from. -/

section Readers

def openAiName (call : JsonValue) : Option JsonValue := optionalProperty "name" (call.get? (units "function"))

def openAiInput (call : JsonValue) : Option JsonValue := parseArguments (call.get? (units "function"))

def OpenAiAccepted (call : JsonValue) : Prop := HasName (openAiName call) ∧ IsInput (openAiInput call)

def OpenAiRefused (call : JsonValue) : Prop := call.isNull = false ∧ RefusedCall (openAiName call) (openAiInput call)

def openAiCall (made : Nat) (call : JsonValue) : DecodedCall where
  id := callId made (call.get? (units "id"))
  input := (openAiInput call).getD .null
  name := (openAiName call).getD .null

variable {call block part item : JsonValue}

theorem isNull_of_hasName (has : HasName (openAiName call)) : call.isNull = false := by
  obtain ⟨name, found, -⟩ := has
  obtain ⟨function, held, -⟩ := Option.bind_eq_some_iff.mp found
  exact isNull_of_get? held

theorem parseToolCall_eq (object : call.isNull = false) (made : Nat) : parseToolCall made call = (do
    let name ← requireName (malformed (units "Provider tool call has no function name.")) (openAiName call)
    let input ← requireArguments name (openAiInput call)
    return some { id := callId made (call.get? (units "id")), input, name }) := by
  rw [parseToolCall, property_eq object]
  rfl

theorem reader_openAi : Reader parseToolCall OpenAiAccepted OpenAiRefused (fun _ => true) openAiCall where
  reads := by
    rintro made call ⟨has, object⟩
    rw [parseToolCall_eq (isNull_of_hasName has)]
    obtain ⟨value, members, named, held, same⟩ := named_accepted (demands_arguments (openAiInput call)) has object
    rw [same, openAiCall, named, held]
    rfl
  refuses := by
    rintro made call ⟨object, refused⟩
    rw [parseToolCall_eq object]
    exact named_refused (demands_arguments _) refused
  throws := by
    intro made call other misused
    cases object : call.isNull with
    | true =>
      cases call with
      | null => rfl
      | _ => cases object
    | false =>
      rw [parseToolCall_eq object]
      exact named_misused (demands_arguments _) other fun refused => misused ⟨object, refused⟩

def AnthropicAccepted (block : JsonValue) : Prop :=
  isToolUse block = true → HasName (block.get? (units "name")) ∧ IsInput (block.get? (units "input"))

def AnthropicRefused (block : JsonValue) : Prop :=
  isToolUse block = true ∧ RefusedCall (block.get? (units "name")) (block.get? (units "input"))

def anthropicCall (made : Nat) (block : JsonValue) : DecodedCall where
  id := callId made (block.get? (units "id"))
  input := (block.get? (units "input")).getD .null
  name := (block.get? (units "name")).getD .null

theorem reader_anthropic : Reader readToolUse AnthropicAccepted AnthropicRefused isToolUse anthropicCall where
  reads := by
    intro made block accepted
    cases counts : isToolUse block with
    | false => simp [readToolUse, counts, pure, Except.pure]
    | true =>
      obtain ⟨has, object⟩ := accepted counts
      obtain ⟨value, members, named, held, same⟩ := named_accepted (demands_input _ _ _) has object
      rw [readToolUse, if_neg (by simp [counts]), same, anthropicCall, named, held]
      rfl
  refuses := by
    rintro made block ⟨counts, refused⟩
    rw [readToolUse, if_neg (by simp [counts])]
    exact named_refused (demands_input _ _ _) refused
  throws := by
    intro made block other misused
    cases counts : isToolUse block with
    | false => exact absurd (fun used => by simp [counts] at used) other
    | true =>
      rw [readToolUse, if_neg (by simp [counts])]
      exact named_misused (demands_input _ _ _) (fun both => other fun _ => both) fun refused => misused ⟨counts, refused⟩

/-- `call.args ?? {}`. -/
def geminiArguments (call : JsonValue) : Option JsonValue := some ((nonNull (call.get? (units "args"))).getD (.object []))

def GeminiAccepted (part : JsonValue) : Prop := ∀ call, part.get? (units "functionCall") = some call →
  HasName (call.get? (units "name")) ∧ IsInput (geminiArguments call) ∧ Spells (call.get? (units "name"))

def GeminiRefused (part : JsonValue) : Prop := ∃ call, part.get? (units "functionCall") = some call ∧
  call.isNull = false ∧ RefusedCall (call.get? (units "name")) (geminiArguments call)

def isFunctionCall (part : JsonValue) : Bool := (part.get? (units "functionCall")).isSome

def geminiName (part : JsonValue) : Option JsonValue := optionalProperty "name" (part.get? (units "functionCall"))

def geminiCall (made : Nat) (part : JsonValue) : DecodedCall where
  id := .string (((geminiName part).bind JsonValue.spelled).getD [] ++ unit '-' :: digitUnits (digitsOf (made + 1)))
  input := ((part.get? (units "functionCall")).bind geminiArguments).getD .null
  name := (geminiName part).getD .null

theorem readFunctionCall_eq (found : part.get? (units "functionCall") = some call) (object : call.isNull = false) (made : Nat) :
    readFunctionCall made part = (do
      let name ← requireName (malformed (units "Gemini functionCall has no name.")) (call.get? (units "name"))
      let input ← requireInput "Gemini tool '" "' args must be an object." name (geminiArguments call)
      let text ← used name.spelled
      return some { id := .string (text ++ unit '-' :: digitUnits (digitsOf (made + 1))), input, name }) := by
  rw [readFunctionCall, found]
  simp only
  rw [property_eq object]
  rfl

theorem reader_gemini : Reader readFunctionCall GeminiAccepted GeminiRefused isFunctionCall geminiCall where
  reads := by
    intro made part accepted
    cases found : part.get? (units "functionCall") with
    | none => simp [readFunctionCall, found, isFunctionCall, pure, Except.pure]
    | some call =>
      obtain ⟨has, object, name, text, spelled, spells⟩ := accepted call found
      have object' : call.isNull = false := by
        obtain ⟨value, held, -⟩ := has
        exact isNull_of_get? held
      rw [readFunctionCall_eq found object']
      obtain ⟨value, members, named, held, same⟩ := named_accepted (demands_input _ _ _) has object
      rw [same]
      have name' : geminiName part = some value := by rw [geminiName, found]; exact named
      obtain rfl : name = value := Option.some.inj (spelled.symm.trans named)
      simp [isFunctionCall, found, geminiCall, name', spells, held, used_some, bind, Except.bind, pure, Except.pure]
  refuses := by
    rintro made part ⟨call, found, object, refused⟩
    rw [readFunctionCall_eq found object]
    exact named_refused (demands_input _ _ _) refused
  throws := by
    intro made part other misused
    cases found : part.get? (units "functionCall") with
    | none => exact absurd (fun call held => by simp [found] at held) other
    | some call =>
      cases object : call.isNull with
      | true =>
        cases call with
        | null =>
          rw [readFunctionCall, found]
          rfl
        | _ => cases object
      | false =>
        rw [readFunctionCall_eq found object]
        have notRefused : ¬RefusedCall (call.get? (units "name")) (geminiArguments call) := fun refused =>
          misused ⟨call, found, object, refused⟩
        by_cases both : HasName (call.get? (units "name")) ∧ IsInput (geminiArguments call)
        · obtain ⟨value, members, named, held, same⟩ := named_accepted (demands_input _ _ _) both.1 both.2
          rw [same]
          have silent : value.spelled = none := by
            cases spells : value.spelled with
            | none => rfl
            | some text =>
              refine absurd (fun other held => ?_) other
              cases found.symm.trans held
              exact ⟨both.1, both.2, value, text, named, spells⟩
          rw [silent]
          rfl
        · exact named_misused (demands_input _ _ _) both notRefused

end Readers

/-! The answer that is put together at the end. -/

/-- No two calls have one id. -/
def Distinct (ids : List JsonValue) : Prop := ids.Pairwise fun id other => id.strictEqual other = false

section Answers
variable {text : Option JsonValue} {calls : List DecodedCall} {items : List JsonValue} {figures : JsonValue → DecodedUsage}
  {usage : Option JsonValue} {call : Nat → JsonValue → DecodedCall} {name input : JsonValue → Option JsonValue}

theorem calls_someCalls (text : Option JsonValue) (calls : List DecodedCall) (usage : Option DecodedUsage) :
    DecodedResponse.calls { text, toolCalls := someCalls calls, usage } = calls := by
  cases calls <;> rfl

theorem strict_response (usage : Option DecodedUsage) :
    StrictResponse { text, toolCalls := someCalls calls, usage } ↔
      (text ≠ none ∨ calls ≠ []) ∧ (∀ value, text = some value → value.isString = true) ∧
        (∀ call ∈ calls, ∃ name, call.name = .string name ∧ name ≠ []) ∧ (∀ call ∈ calls, call.input.isObject = true) ∧
        Distinct (calls.map (·.id)) ∧ ∀ shown, usage = some shown → ∀ figure ∈ shown.figures, figure.isNumber = true := by
  have read := calls_someCalls text calls usage
  constructor
  · rintro ⟨content, texts, names, inputs, ids, shown⟩
    rw [read] at content names inputs ids
    exact ⟨content, texts, names, inputs, ids, shown⟩
  · rintro ⟨content, texts, names, inputs, ids, shown⟩
    constructor
    · rwa [read]
    · exact texts
    · rwa [read]
    · rwa [read]
    · rwa [read]
    · exact shown

theorem strict_answer : Strict (do
      let usage ← readUsage figures usage
      return { text, toolCalls := someCalls calls, usage }) ↔
    (text ≠ none ∨ calls ≠ []) ∧ (∀ value, text = some value → value.isString = true) ∧
      (∀ call ∈ calls, ∃ name, call.name = .string name ∧ name ≠ []) ∧ (∀ call ∈ calls, call.input.isObject = true) ∧
      Distinct (calls.map (·.id)) ∧ UsageHeld figures usage := by
  rw [readUsage_eq]
  cases usage with
  | none =>
    change StrictResponse _ ↔ _
    rw [strict_response]
    simp [UsageHeld]
  | some value =>
    cases null : value.isNull with
    | true =>
      have thrown : ¬UsageHeld figures (some value) := fun held => by simp [(held value rfl).1] at null
      simp [null, thrown, Strict, bind, Except.bind]
    | false =>
      simp only [Option.any_some, null, Bool.false_eq_true, if_false]
      change StrictResponse _ ↔ _
      rw [strict_response]
      simp [UsageHeld, null]

theorem names_mapIdx (has : ∀ item ∈ items, HasName (name item))
    (named : ∀ made item, (call made item).name = (name item).getD .null) :
    (∀ made ∈ items.mapIdx call, ∃ text, made.name = .string text ∧ text ≠ []) ↔ ∀ item ∈ items, IsName (name item) := by
  constructor
  · intro each item member
    obtain ⟨place, inside, rfl⟩ := List.mem_iff_getElem.mp member
    obtain ⟨text, same, -⟩ := each _ (List.mem_mapIdx.mpr ⟨place, inside, rfl⟩)
    obtain ⟨value, found, -⟩ := has _ member
    rw [named, found, Option.getD_some] at same
    exact ⟨text, same ▸ found⟩
  · intro each made member
    obtain ⟨place, inside, rfl⟩ := List.mem_mapIdx.mp member
    obtain ⟨text, found⟩ := each _ (List.getElem_mem inside)
    obtain ⟨value, same, filled⟩ := has _ (List.getElem_mem inside)
    obtain rfl : JsonValue.string text = value := Option.some.inj (found.symm.trans same)
    refine ⟨text, by rw [named, found, Option.getD_some], ?_⟩
    simpa [isEmpty_string] using filled

theorem inputs_mapIdx (objects : ∀ item ∈ items, IsInput (input item))
    (held : ∀ made item, (call made item).input = (input item).getD .null) :
    ∀ made ∈ items.mapIdx call, made.input.isObject = true := by
  intro made member
  obtain ⟨place, inside, rfl⟩ := List.mem_mapIdx.mp member
  obtain ⟨members, same⟩ := objects _ (List.getElem_mem inside)
  rw [held, same]
  rfl

theorem strict_calls (has : ∀ item ∈ items, HasName (name item)) (objects : ∀ item ∈ items, IsInput (input item))
    (named : ∀ made item, (call made item).name = (name item).getD .null)
    (held : ∀ made item, (call made item).input = (input item).getD .null) : Strict (do
      let usage ← readUsage figures usage
      return { text, toolCalls := someCalls (items.mapIdx call), usage }) ↔
    (text ≠ none ∨ items ≠ []) ∧ (∀ value, text = some value → value.isString = true) ∧ (∀ item ∈ items, IsName (name item)) ∧
      Distinct (items.mapIdx fun place item => (call place item).id) ∧ UsageHeld figures usage := by
  have ids : (items.mapIdx call).map (·.id) = items.mapIdx fun place item => (call place item).id := by
    apply List.ext_getElem <;> simp
  rw [strict_answer, names_mapIdx has named, ids, ne_eq (items.mapIdx call), List.mapIdx_eq_nil_iff]
  constructor
  · rintro ⟨content, texts, names, _, rest⟩
    exact ⟨content, texts, names, rest⟩
  · rintro ⟨content, texts, names, rest⟩
    exact ⟨content, texts, names, inputs_mapIdx objects held, rest⟩

theorem someText_isString {text : JsString} {value : JsonValue} (found : someText text = some value) : value.isString = true := by
  unfold someText at found
  split at found
  next => cases found
  next =>
    cases found
    rfl

theorem someText_eq_none {text : JsString} : someText text = none ↔ text = [] := by
  cases text <;> simp [someText]

/-! A number at the end of an id, behind a dash, is its own. -/

theorem digits_reversed (before : JsString) (n : Nat) :
    (before ++ unit '-' :: digitUnits (digitsOf n)).reverse.takeWhile isDigit = (digitUnits (digitsOf n)).reverse := by
  have digits : ∀ u ∈ (digitUnits (digitsOf n)).reverse, isDigit u = true := by
    intro u member
    obtain ⟨digit, -, rfl⟩ := List.mem_map.mp (List.mem_reverse.mp member)
    exact isDigit_digit digit
  rw [List.reverse_append, List.reverse_cons, List.append_assoc, List.takeWhile_append_of_pos digits, List.singleton_append,
    List.takeWhile_cons_of_neg (by decide), List.append_nil]

theorem numbered_injective {before after : JsString} {m n : Nat}
    (same : before ++ unit '-' :: digitUnits (digitsOf m) = after ++ unit '-' :: digitUnits (digitsOf n)) : m = n := by
  have reversed := congrArg (fun text : JsString => text.reverse.takeWhile isDigit) same
  simp only [digits_reversed] at reversed
  have units := List.reverse_injective reversed
  have digits : digitsOf m = digitsOf n := by
    refine List.map_injective_iff.mpr ?_ units
    intro one other equal
    exact Fin.ext (by simpa using equal)
  rw [← digitsValue_digitsOf m, digits, digitsValue_digitsOf]

theorem distinct_geminiCalls (items : List JsonValue) : Distinct ((items.mapIdx geminiCall).map (·.id)) := by
  rw [Distinct, List.pairwise_iff_getElem]
  intro one other first second before
  simp only [List.getElem_map, List.getElem_mapIdx, geminiCall, JsonValue.strictEqual, beq_eq_false_iff_ne, ne_eq]
  intro same
  have places := numbered_injective same
  omega

end Answers

/-! The bodies that are decoded strictly. -/

/-- What follows from the message of an OpenAI-compatible response. -/
def OpenAiMessage (payload message : JsonValue) : Prop :=
  message.isNull = false ∧ ∃ calls, itemsOf (message.get? (units "tool_calls")) = some calls ∧
    (Stops OpenAiAccepted OpenAiRefused calls ∨ (∀ call ∈ calls, OpenAiAccepted call) ∧
      (nonNull (message.get? (units "content")) = none ∧ calls = [] ∨
        (∀ text, nonNull (message.get? (units "content")) = some text → text.isString = true) ∧
        (∀ call ∈ calls, IsName (openAiName call)) ∧
        Distinct (calls.mapIdx fun place call => callId place (call.get? (units "id"))) ∧
        UsageHeld openAiUsage (payload.get? (units "usage"))))

def OpenAiShape (payload : JsonValue) : Prop :=
  isOpenAiTurnPayload payload = true → ∀ message, firstMessage payload = some message → OpenAiMessage payload message

def AnthropicShape (payload : JsonValue) : Prop :=
  isPayload payload = true → ∃ blocks texts, itemsOf (nonNull (payload.get? (units "content"))) = some blocks ∧
    blocks.mapM blockText = some texts ∧
      (Stops AnthropicAccepted AnthropicRefused blocks ∨ (∀ block ∈ blocks, AnthropicAccepted block) ∧
        (blocks.filter isToolUse = [] ∧
            (texts.flatten = [] ∨ (payload.get? (units "stop_reason")).any (JsonValue.isText "max_tokens") = true) ∨
          (∀ block ∈ blocks.filter isToolUse, IsName (block.get? (units "name"))) ∧
          Distinct ((blocks.filter isToolUse).mapIdx fun place block => callId place (block.get? (units "id"))) ∧
          UsageHeld anthropicUsage (payload.get? (units "usage"))))

/-- What follows from the candidate of a Gemini response. -/
def GeminiCandidate (payload candidate : JsonValue) : Prop :=
  candidate.isNull = false ∧ ∃ parts texts,
    itemsOf (nonNull (optionalProperty "parts" (candidate.get? (units "content")))) = some parts ∧
    parts.mapM partText = some texts ∧
      (Stops GeminiAccepted GeminiRefused parts ∨ (∀ part ∈ parts, GeminiAccepted part) ∧
        (parts.filter isFunctionCall = [] ∧
            (candidate.get? (units "finishReason")).any (JsonValue.isText "MAX_TOKENS") = true ∨
          parts.filter isFunctionCall = [] ∧ trim texts.flatten = [] ∧
            (((nonNull (candidate.get? (units "finishReason"))).getD (.string (units "unknown"))).spelled).isSome = true ∨
          ¬(parts.filter isFunctionCall = [] ∧ trim texts.flatten = []) ∧
            (∀ part ∈ parts.filter isFunctionCall, IsName (geminiName part)) ∧
            UsageHeld geminiUsage (payload.get? (units "usageMetadata"))))

def GeminiShape (payload : JsonValue) : Prop :=
  payload.isNull = false ∧ ∀ candidate, (payload.get? (units "candidates")).bind JsonValue.first = some candidate →
    GeminiCandidate payload candidate

section Shapes
variable {payload message candidate : JsonValue}

theorem strict_malformed (message : JsString) : Strict (.error (malformed message)) := .inl rfl

theorem strict_overflow (message : JsString) : Strict (.error (.providerFailure .contextOverflow message)) := .inr rfl

theorem null_of_isNull {value : JsonValue} (null : value.isNull = true) : value = .null := by
  cases value with
  | null => rfl
  | _ => cases null

theorem Reader.strict_collected {read : Nat → JsonValue → Decoding (Option DecodedCall)} {accepted refused : JsonValue → Prop}
    {counts : JsonValue → Bool} {call : Nat → JsonValue → DecodedCall} (reader : Reader read accepted refused counts call)
    (items : List JsonValue) (next : List DecodedCall → Decoding DecodedResponse) :
    Strict (collectCalls read 0 items >>= next) ↔ Stops accepted refused items ∨
      (∀ item ∈ items, accepted item) ∧ Strict (next ((items.filter counts).mapIdx call)) := by
  by_cases stops : Stops accepted refused items
  · obtain ⟨message, refusal⟩ := reader.collect_stops stops 0
    rw [refusal]
    exact ⟨fun _ => .inl stops, fun _ => strict_malformed message⟩
  · by_cases each : ∀ item ∈ items, accepted item
    · have read := reader.collect_accepted each 0
      simp only [Nat.zero_add] at read
      rw [read]
      exact ⟨fun strict => .inr ⟨each, strict⟩, fun held => (held.resolve_left stops).2⟩
    · rw [reader.collect_throws each stops 0]
      exact ⟨fun strict => strict.elim, fun held => absurd (held.resolve_left stops).1 each⟩

theorem strict_openAiMessage : Strict (do
      let calls ← used (message.property "tool_calls")
      let toolCalls ← parseToolCalls calls
      let text := nonNull (message.get? (units "content"))
      if text.isNone && toolCalls.isEmpty then
        throw (malformed (units "Provider response has neither text nor tool calls."))
      else do
        let usage ← readUsage openAiUsage (payload.get? (units "usage"))
        return { text, toolCalls := someCalls toolCalls, usage }) ↔ OpenAiMessage payload message := by
  unfold OpenAiMessage
  cases null : message.isNull with
  | true =>
    rw [null_of_isNull null]
    exact ⟨fun strict => strict.elim, fun shape => by cases shape.1⟩
  | false =>
    rw [property_eq null, used_some]
    change Strict (parseToolCalls (message.get? (units "tool_calls")) >>= _) ↔ _
    unfold parseToolCalls
    cases listed : itemsOf (message.get? (units "tool_calls")) with
    | none => exact ⟨fun strict => strict.elim, fun ⟨_, _, same, _⟩ => by cases same⟩
    | some calls =>
      simp only [true_and, Option.some.injEq, exists_eq_left']
      rw [used_some]
      change Strict (collectCalls parseToolCall 0 calls >>= _) ↔ _
      rw [reader_openAi.strict_collected]
      refine or_congr Iff.rfl (and_congr_right fun each => ?_)
      have everyCall : calls.filter (fun _ => true) = calls := List.filter_eq_self.mpr fun _ _ => rfl
      rw [everyCall]
      by_cases refused : nonNull (message.get? (units "content")) = none ∧ calls = []
      · rw [if_pos (by simp [refused])]
        exact ⟨fun _ => .inl refused, fun _ => strict_malformed _⟩
      · rw [if_neg (by simpa using refused)]
        refine Iff.trans (strict_calls (fun call member => (each call member).1) (fun call member => (each call member).2)
          (fun _ _ => rfl) fun _ _ => rfl) ?_
        have content : nonNull (message.get? (units "content")) ≠ none ∨ calls ≠ [] := by
          rwa [ne_eq, ne_eq, ← not_and_or]
        exact ⟨fun held => .inr held.2, fun held => ⟨content, held.resolve_left refused⟩⟩

theorem strict_openAi : Strict (decodeOpenAi payload) ↔ OpenAiShape payload := by
  unfold decodeOpenAi OpenAiShape
  cases isOpenAiTurnPayload payload with
  | false => exact ⟨fun _ claimed => (by cases claimed), fun _ => strict_malformed _⟩
  | true =>
    cases firstMessage payload with
    | none => exact ⟨fun _ _ _ found => (by cases found), fun _ => strict_malformed _⟩
    | some message =>
      simp only [Bool.not_true, Bool.false_eq_true, if_false, Option.some.injEq, forall_eq', forall_const]
      exact strict_openAiMessage

theorem strict_anthropic : Strict (decodeAnthropic payload) ↔ AnthropicShape payload := by
  unfold decodeAnthropic AnthropicShape
  cases isPayload payload with
  | false => exact ⟨fun _ claimed => (by cases claimed), fun _ => strict_malformed _⟩
  | true =>
    simp only [Bool.not_true, Bool.false_eq_true, if_false, forall_const]
    cases itemsOf (nonNull (payload.get? (units "content"))) with
    | none => exact ⟨fun strict => strict.elim, fun ⟨_, _, same, _⟩ => (by cases same)⟩
    | some blocks =>
      rw [used_some]
      change Strict (used (blocks.mapM blockText) >>= _) ↔ _
      cases read : blocks.mapM blockText with
      | none =>
        refine ⟨fun strict => strict.elim, fun ⟨other, _, same, texts, _⟩ => ?_⟩
        cases same
        rw [read] at texts
        cases texts
      | some texts =>
        rw [used_some]
        change Strict (collectCalls readToolUse 0 blocks >>= _) ↔ _
        simp only [Option.some.injEq, exists_and_left, exists_eq_left', read]
        rw [reader_anthropic.strict_collected]
        refine or_congr Iff.rfl (and_congr_right fun each => ?_)
        have uses : ∀ block ∈ blocks.filter isToolUse, HasName (block.get? (units "name")) ∧ IsInput (block.get? (units "input")) := by
          intro block member
          obtain ⟨inside, counts⟩ := List.mem_filter.mp member
          exact each block inside counts
        by_cases refused : blocks.filter isToolUse = [] ∧
            (texts.flatten = [] ∨ (payload.get? (units "stop_reason")).any (JsonValue.isText "max_tokens") = true)
        · refine ⟨fun _ => .inl refused, fun _ => ?_⟩
          obtain ⟨noUse, empty | cutOff⟩ := refused
          · rw [if_pos (by simp [noUse, empty])]
            exact strict_malformed _
          · split
            next => exact strict_malformed _
            next =>
              rw [if_pos (by simp [noUse, cutOff])]
              exact strict_overflow _
        · have filled : ¬(texts.flatten.isEmpty && ((blocks.filter isToolUse).mapIdx anthropicCall).isEmpty) = true := by
            simp only [Bool.and_eq_true, List.isEmpty_iff, List.mapIdx_eq_nil_iff]
            exact fun ⟨empty, noUse⟩ => refused ⟨noUse, .inl empty⟩
          have complete : ¬((payload.get? (units "stop_reason")).any (JsonValue.isText "max_tokens") &&
              ((blocks.filter isToolUse).mapIdx anthropicCall).isEmpty) = true := by
            rw [Bool.and_eq_true, List.isEmpty_iff, List.mapIdx_eq_nil_iff]
            exact fun ⟨cutOff, noUse⟩ => refused ⟨noUse, .inr cutOff⟩
          rw [if_neg filled, if_neg complete]
          refine Iff.trans (strict_calls (fun block member => (uses block member).1) (fun block member => (uses block member).2)
            (fun _ _ => rfl) fun _ _ => rfl) ?_
          have content : someText texts.flatten ≠ none ∨ blocks.filter isToolUse ≠ [] := by
            by_cases noUse : blocks.filter isToolUse = []
            · exact .inl fun none => refused ⟨noUse, .inl (someText_eq_none.mp none)⟩
            · exact .inr noUse
          constructor
          · rintro ⟨_, _, names, ids, usage⟩
            exact .inr ⟨names, ids, usage⟩
          · intro held
            exact ⟨content, fun _ => someText_isString, held.resolve_left refused⟩

/-- The id of a call holds its name and its number. -/
theorem geminiName_isFunctionCall {part : JsonValue} (counts : isFunctionCall part = true) (accepted : GeminiAccepted part) :
    HasName (geminiName part) ∧ IsInput ((part.get? (units "functionCall")).bind geminiArguments) := by
  obtain ⟨call, found⟩ := Option.isSome_iff_exists.mp counts
  obtain ⟨has, object, -⟩ := accepted call found
  rw [geminiName, found]
  exact ⟨has, object⟩

theorem strict_geminiCandidate : Strict (do
      let content ← used (candidate.property "content")
      let parts ← used (itemsOf (nonNull (optionalProperty "parts" content)))
      let texts ← used (parts.mapM partText)
      let text := trim texts.flatten
      let toolCalls ← collectCalls readFunctionCall 0 parts
      let finishReason := candidate.get? (units "finishReason")
      if finishReason.any (JsonValue.isText "MAX_TOKENS") && toolCalls.isEmpty then
        throw (.providerFailure .contextOverflow (units "Gemini stopped at the output token limit."))
      else if text.isEmpty && toolCalls.isEmpty then do
        let reason ← used ((nonNull finishReason).getD (.string (units "unknown"))).spelled
        throw (malformed (units "Gemini returned no usable content (finishReason=" ++ reason ++ units ")."))
      else do
        let usage ← readUsage geminiUsage (payload.get? (units "usageMetadata"))
        return { text := someText text, toolCalls := someCalls toolCalls, usage }) ↔ GeminiCandidate payload candidate := by
  unfold GeminiCandidate
  cases null : candidate.isNull with
  | true =>
    rw [null_of_isNull null]
    exact ⟨fun strict => strict.elim, fun shape => by cases shape.1⟩
  | false =>
    rw [property_eq null, used_some]
    change Strict (used (itemsOf (nonNull (optionalProperty "parts" (candidate.get? (units "content"))))) >>= _) ↔ _
    cases itemsOf (nonNull (optionalProperty "parts" (candidate.get? (units "content")))) with
    | none => exact ⟨fun strict => strict.elim, fun ⟨_, _, _, same, _⟩ => (by cases same)⟩
    | some parts =>
      rw [used_some]
      change Strict (used (parts.mapM partText) >>= _) ↔ _
      cases read : parts.mapM partText with
      | none =>
        refine ⟨fun strict => strict.elim, fun ⟨_, other, _, same, texts, _⟩ => ?_⟩
        cases same
        rw [read] at texts
        cases texts
      | some texts =>
        rw [used_some]
        change Strict (collectCalls readFunctionCall 0 parts >>= _) ↔ _
        simp only [true_and, Option.some.injEq, exists_and_left, exists_eq_left', read]
        rw [reader_gemini.strict_collected]
        refine or_congr Iff.rfl (and_congr_right fun each => ?_)
        have calls : ∀ part ∈ parts.filter isFunctionCall, HasName (geminiName part) ∧
            IsInput ((part.get? (units "functionCall")).bind geminiArguments) := by
          intro part member
          obtain ⟨inside, counts⟩ := List.mem_filter.mp member
          exact geminiName_isFunctionCall counts (each part inside)
        by_cases overflow : parts.filter isFunctionCall = [] ∧
            (candidate.get? (units "finishReason")).any (JsonValue.isText "MAX_TOKENS") = true
        · rw [if_pos (by simp [overflow])]
          exact ⟨fun _ => .inl overflow, fun _ => strict_overflow _⟩
        · have complete : ¬((candidate.get? (units "finishReason")).any (JsonValue.isText "MAX_TOKENS") &&
              ((parts.filter isFunctionCall).mapIdx geminiCall).isEmpty) = true := by
            rw [Bool.and_eq_true, List.isEmpty_iff, List.mapIdx_eq_nil_iff]
            exact fun ⟨cutOff, noCall⟩ => overflow ⟨noCall, cutOff⟩
          rw [if_neg complete]
          by_cases refused : parts.filter isFunctionCall = [] ∧ trim texts.flatten = []
          · rw [if_pos (by simp [refused])]
            cases spells : ((nonNull (candidate.get? (units "finishReason"))).getD (.string (units "unknown"))).spelled with
            | none =>
              refine ⟨fun strict => strict.elim, fun held => ?_⟩
              rcases held with cutOff | ⟨_, _, spelled⟩ | ⟨filled, _⟩
              · exact overflow cutOff
              · cases spelled
              · exact filled refused
            | some reason => exact ⟨fun _ => .inr (.inl ⟨refused.1, refused.2, rfl⟩), fun _ => strict_malformed _⟩
          · have filled : ¬((trim texts.flatten).isEmpty && ((parts.filter isFunctionCall).mapIdx geminiCall).isEmpty) = true := by
              simp only [Bool.and_eq_true, List.isEmpty_iff, List.mapIdx_eq_nil_iff]
              exact fun ⟨empty, noCall⟩ => refused ⟨noCall, empty⟩
            rw [if_neg filled]
            refine Iff.trans (strict_calls (fun part member => (calls part member).1) (fun part member => (calls part member).2)
              (fun _ _ => rfl) fun _ _ => rfl) ?_
            have content : someText (trim texts.flatten) ≠ none ∨ parts.filter isFunctionCall ≠ [] := by
              by_cases noCall : parts.filter isFunctionCall = []
              · exact .inl fun none => refused ⟨noCall, someText_eq_none.mp none⟩
              · exact .inr noCall
            have ids : ((parts.filter isFunctionCall).mapIdx geminiCall).map (·.id) =
                (parts.filter isFunctionCall).mapIdx fun place part => (geminiCall place part).id := by
              apply List.ext_getElem <;> simp
            constructor
            · rintro ⟨_, _, names, _, usage⟩
              exact .inr (.inr ⟨refused, names, usage⟩)
            · intro held
              rcases held with cutOff | ⟨noCall, empty, _⟩ | ⟨_, names, usage⟩
              · exact absurd cutOff overflow
              · exact absurd ⟨noCall, empty⟩ refused
              · exact ⟨content, fun _ => someText_isString, names, ids ▸ distinct_geminiCalls _, usage⟩

theorem strict_gemini : Strict (decodeGemini payload) ↔ GeminiShape payload := by
  unfold decodeGemini GeminiShape
  cases null : payload.isNull with
  | true =>
    rw [null_of_isNull null]
    exact ⟨fun strict => strict.elim, fun shape => by cases shape.1⟩
  | false =>
    rw [property_eq null, used_some]
    simp only [true_and, bind, Except.bind]
    cases (payload.get? (units "candidates")).bind JsonValue.first with
    | none => exact ⟨fun _ _ found => (by cases found), fun _ => strict_malformed _⟩
    | some candidate =>
      simp only [Option.some.injEq, forall_eq']
      exact strict_geminiCandidate

end Shapes

/-- Each adapter decodes a body strictly exactly when the body has the shape that the adapter takes it to have, or is
refused before anything in it is misused. -/
theorem decoded_strictly_iff (payload : JsonValue) :
    (Strict (decodeOpenAi payload) ↔ OpenAiShape payload) ∧ (Strict (decodeAnthropic payload) ↔ AnthropicShape payload) ∧
      (Strict (decodeGemini payload) ↔ GeminiShape payload) :=
  ⟨strict_openAi, strict_anthropic, strict_gemini⟩

/-! A null is enough, and then the turn is tried again. -/

/-- What the turn catches; the message of a TypeError is the host's. -/
def DecodingError.thrown (message : String) : DecodingError → TurnError
  | .providerFailure kind text => .providerFailure kind (storedText text)
  | .typeError => .error message

def nullUsage : JsonValue := .object [
  (units "choices", .array [.object [(units "message", .object [(units "content", .string (units "Done."))])]]),
  (units "usage", .null)]

def nullBlock : JsonValue := .object [(units "content", .array [.null])]

theorem null_retried :
    (decodeOpenAi nullUsage = .error .typeError ∧ decodeAnthropic nullBlock = .error .typeError ∧
      decodeGemini .null = .error .typeError) ∧
      ¬Strict (.error .typeError) ∧ ∀ message, (classifyProviderFailure (DecodingError.typeError.thrown message)).kind = .network ∧
        (classifyProviderFailure (DecodingError.typeError.thrown message)).kind.retryable = true :=
  ⟨⟨rfl, rfl, rfl⟩, id, fun _ => ⟨rfl, rfl⟩⟩

end OttiliCoder
