import OttiliCoder.Library.JsString

/-! Command lines as the C runtime of Windows splits them: blanks and tabs end an argument outside quotation marks, and
backslashes mean something only in front of a quotation mark. -/

namespace Host.ArgumentLine

def backslash : Nat := unit '\\'

def quotation : Nat := unit '"'

def isDelimiter (u : Nat) : Bool := u == unit ' ' || u == 9

/-- An argument begun, with more text; nothing stands for none begun. -/
def more (part : Option JsString) (text : JsString) : Option JsString := some (part.getD [] ++ text)

/-- The same with the backslashes read so far, as they are. -/
def withSlashes (part : Option JsString) (slashes : Nat) : Option JsString :=
  if slashes = 0 then part else more part (List.replicate slashes backslash)

/-- The arguments of the rest of a line, in an argument or between two, inside quotation marks or not, behind so many
backslashes. -/
def readArguments (part : Option JsString) (quoted : Bool) (slashes : Nat) : JsString → List JsString
  | [] => (withSlashes part slashes).toList
  | u :: rest =>
    if u = backslash then readArguments part quoted (slashes + 1) rest
    else if u = quotation then
      -- half of the backslashes are kept, and an odd one makes the mark an ordinary character
      let held := more part (List.replicate (slashes / 2) backslash)
      if slashes % 2 = 1 then readArguments (more held [quotation]) quoted 0 rest
      else
        match rest with
        | [] => held.toList
        | second :: later =>
          -- two marks inside a quoted part are one ordinary character
          if quoted && second == quotation then readArguments (more held [quotation]) quoted 0 later
          else readArguments held (!quoted) 0 (second :: later)
    else if !quoted && isDelimiter u then (withSlashes part slashes).toList ++ readArguments none false 0 rest
    else readArguments (more (withSlashes part slashes) [u]) quoted 0 rest

attribute [grind =] readArguments

def splitArguments (line : JsString) : List JsString := readArguments none false 0 line

section Reading
variable {part : Option JsString} {quoted : Bool} {slashes : Nat} {u : Nat} {text rest : JsString}

theorem more_more (first second : JsString) : more (more part first) second = more part (first ++ second) := by
  simp [more]

/-- A character that is no delimiter here. -/
def Ordinary (quoted : Bool) (u : Nat) : Prop := u ≠ quotation ∧ (quoted || !isDelimiter u) = true

theorem readArguments_slashes (count : Nat) :
    readArguments part quoted slashes (List.replicate count backslash ++ rest) = readArguments part quoted (slashes + count) rest := by
  induction count generalizing slashes with
  | zero => rfl
  | succ count ih =>
    rw [List.replicate_succ, List.cons_append, readArguments, if_pos rfl, ih, Nat.add_assoc, Nat.add_comm 1]

theorem readArguments_opens : readArguments none false 0 (quotation :: rest) = readArguments (some []) true 0 rest := by
  cases rest <;> rfl

/-- Behind an even number of backslashes, and in front of no other mark, a mark closes. -/
theorem readArguments_closes (half : Nat) (apart : rest.head? ≠ some quotation) :
    readArguments part true (half + half) (quotation :: rest) = readArguments (more part (List.replicate half backslash)) false 0 rest := by
  have mark : quotation ≠ backslash := by decide
  have even : (half + half) % 2 ≠ 1 := by omega
  have halved : (half + half) / 2 = half := by omega
  rw [readArguments.eq_def]
  simp only [mark, even, halved, if_false, if_true]
  cases rest with
  | nil => rfl
  | cons second later =>
    have other : (second == quotation) = false := by simpa using apart
    simp only [other, Bool.and_false, Bool.false_eq_true, if_false]
    rfl

theorem readArguments_blank : readArguments part false slashes (unit ' ' :: rest) =
    (withSlashes part slashes).toList ++ readArguments none false 0 rest := by
  rw [readArguments.eq_def]
  rfl

theorem readArguments_ordinary (ordinary : Ordinary quoted u) (plain : u ≠ backslash) :
    readArguments part quoted slashes (u :: rest) = readArguments (more (withSlashes part slashes) [u]) quoted 0 rest := by
  obtain ⟨mark, inside⟩ := ordinary
  rw [readArguments.eq_def]
  simp only [plain, mark, if_false]
  apply if_neg
  cases quoted <;> simp_all

/-- Ordinary text, of which the last character is no backslash, is read as it is. -/
theorem readArguments_text (ordinary : ∀ u ∈ text, Ordinary quoted u) (ends : ∀ u, text.getLast? = some u → u ≠ backslash)
    (filled : text ≠ []) :
    readArguments part quoted slashes (text ++ rest) = readArguments (more (withSlashes part slashes) text) quoted 0 rest := by
  induction text generalizing part slashes with
  | nil => exact absurd rfl filled
  | cons u text ih =>
    obtain ⟨here, later⟩ := List.forall_mem_cons.mp ordinary
    cases text with
    | nil => exact readArguments_ordinary here (ends u rfl)
    | cons second text =>
      have following : ∀ u, (second :: text).getLast? = some u → u ≠ backslash := fun u last => ends u (by simpa using last)
      by_cases slash : u = backslash
      · rw [List.cons_append, readArguments, if_pos slash, ih later following (List.cons_ne_nil _ _), slash]
        congr 1
        by_cases none : slashes = 0
        · simp [withSlashes, none, more]
        · simp [withSlashes, none, more, List.replicate_succ']
      · rw [List.cons_append, readArguments_ordinary here slash, ih later following (List.cons_ne_nil _ _), withSlashes, if_pos rfl,
          more_more]
        rfl

/-! The backslashes at the end of a text. -/

def trailing (text : JsString) : JsString := text.rtakeWhile fun u => u == backslash

def body (text : JsString) : JsString := text.rdropWhile fun u => u == backslash

theorem body_trailing (text : JsString) : body text ++ trailing text = text := List.rdropWhile_append_rtakeWhile

theorem trailing_eq (text : JsString) : trailing text = List.replicate (trailing text).length backslash := by
  apply List.eq_replicate_of_mem
  intro u member
  exact beq_iff_eq.mp (List.mem_rtakeWhile_imp (p := fun u => u == backslash) member)

theorem body_ends (last : (body text).getLast? = some u) : u ≠ backslash := by
  have filled : body text ≠ [] := by
    intro none
    rw [none] at last
    cases last
  rw [List.getLast?_eq_some_getLast filled] at last
  obtain rfl := Option.some.inj last
  intro slash
  exact List.rdropWhile_last_not (fun u => u == backslash) text filled (beq_iff_eq.mpr slash)

/-- Goes on with an argument if there is text. -/
def begun (part : Option JsString) (text : JsString) : Option JsString := if text = [] then part else more part text

theorem readArguments_all (ordinary : ∀ u ∈ text, Ordinary quoted u) :
    readArguments part quoted 0 (text ++ rest) = readArguments (begun part (body text)) quoted (trailing text).length rest := by
  have inside : ∀ u ∈ body text, Ordinary quoted u := fun u member => ordinary u ((List.rdropWhile_prefix _ (l := text)).subset member)
  calc readArguments part quoted 0 (text ++ rest)
    _ = readArguments part quoted 0 (body text ++ (List.replicate (trailing text).length backslash ++ rest)) := by
        rw [← trailing_eq, ← List.append_assoc, body_trailing]
    _ = readArguments (begun part (body text)) quoted 0 (List.replicate (trailing text).length backslash ++ rest) := by
        unfold begun
        split
        next none => rw [none, List.nil_append]
        next filled => exact readArguments_text inside (fun _ => body_ends) filled
    _ = readArguments (begun part (body text)) quoted (trailing text).length rest := by
        rw [readArguments_slashes, Nat.zero_add]

theorem withSlashes_begun (filled : text ≠ []) : withSlashes (begun none (body text)) (trailing text).length = some text := by
  have whole := body_trailing text
  unfold withSlashes begun
  split
  next none =>
    rw [List.eq_nil_of_length_eq_zero none, List.append_nil] at whole
    rw [whole, if_neg filled]
    rfl
  next slashes =>
    rw [← trailing_eq]
    split
    next none =>
      rw [none, List.nil_append] at whole
      rw [whole]
      rfl
    next _ => rw [more_more, whole]; rfl

/-! Texts that are read as one argument. -/

/-- Where no argument has begun, the text is read as this argument, unless a quotation mark follows it. -/
def Token (text value : JsString) : Prop :=
  ∀ rest : JsString, rest.head? ≠ some quotation →
    ∃ part slashes, withSlashes part slashes = some value ∧ readArguments none false 0 (text ++ rest) = readArguments part false slashes rest

theorem token_plain (ordinary : ∀ u ∈ text, Ordinary false u) (filled : text ≠ []) : Token text text :=
  fun _ _ => ⟨_, _, withSlashes_begun filled, readArguments_all ordinary⟩

/-- Between quotation marks, with the backslashes at the end doubled. -/
theorem token_quoted (ordinary : ∀ u ∈ text, Ordinary true u) : Token (quotation :: (text ++ trailing text ++ [quotation])) text := by
  intro rest apart
  refine ⟨some text, 0, rfl, ?_⟩
  have doubled : trailing text ++ quotation :: rest = List.replicate (trailing text).length backslash ++ quotation :: rest := by
    rw [← trailing_eq]
  calc readArguments none false 0 (quotation :: (text ++ trailing text ++ [quotation]) ++ rest)
    _ = readArguments (some []) true 0 (text ++ (trailing text ++ quotation :: rest)) := by
        rw [List.cons_append, readArguments_opens]
        simp
    _ = readArguments (begun (some []) (body text)) true ((trailing text).length + (trailing text).length) (quotation :: rest) := by
        rw [readArguments_all ordinary, doubled, readArguments_slashes]
    _ = readArguments (some text) false 0 rest := by
        have whole := body_trailing text
        rw [readArguments_closes _ apart, ← trailing_eq]
        unfold begun
        split
        next none =>
          rw [none, List.nil_append] at whole
          rw [whole]
          rfl
        next filled => rw [more_more, whole]; rfl

theorem splitArguments_intercalate {texts values : List JsString} (tokens : List.Forall₂ Token texts values) (filled : texts ≠ []) :
    splitArguments ([unit ' '].intercalate texts) = values := by
  unfold splitArguments
  induction tokens with
  | nil => exact absurd rfl filled
  | @cons text value texts values token tokens ih =>
    cases texts with
    | nil =>
      obtain ⟨part, slashes, held, reads⟩ := token [] (by simp)
      rw [List.append_nil] at reads
      cases tokens
      rw [List.intercalate_singleton, reads, readArguments, held]
      rfl
    | cons second texts =>
      have apart : (unit ' ' :: [unit ' '].intercalate (second :: texts)).head? ≠ some quotation := by
        rw [List.head?_cons]
        decide
      obtain ⟨part, slashes, held, reads⟩ := token _ apart
      rw [List.intercalate_cons_cons, List.append_assoc, List.singleton_append, reads, readArguments_blank, held,
        ih (List.cons_ne_nil _ _)]
      rfl

end Reading

end Host.ArgumentLine
