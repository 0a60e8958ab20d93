import Mathlib.Data.List.Basic
import OttiliCoder.Library.JsString

/-! Text as bytes: UTF-8 as it is written, and the decoder that reads it byte by byte. -/

namespace Host

abbrev Bytes := List Nat

/-- A code point that is not a surrogate. -/
def IsScalar (point : Nat) : Prop := point < 0xD800 ∨ (0xDFFF < point ∧ point < 0x110000)

/-- The code units of a code point. -/
def pointUnits (point : Nat) : JsString :=
  if point < 0x10000 then [point] else [0xD800 + (point - 0x10000) / 0x400, 0xDC00 + (point - 0x10000) % 0x400]

/-- The code units of any text. -/
def utf16 (text : String) : JsString := text.toList.flatMap fun character => pointUnits character.toNat

def pointBytes (point : Nat) : Bytes :=
  if point < 0x80 then [point]
  else if point < 0x800 then [0xC0 + point / 0x40, 0x80 + point % 0x40]
  else if point < 0x10000 then [0xE0 + point / 0x1000, 0x80 + point / 0x40 % 0x40, 0x80 + point % 0x40]
  else [0xF0 + point / 0x40000, 0x80 + point / 0x1000 % 0x40, 0x80 + point / 0x40 % 0x40, 0x80 + point % 0x40]

def replacementPoint : Nat := 0xFFFD

def isSurrogate (u : Nat) : Bool := isHighSurrogate u || isLowSurrogate u

/-- The bytes of a text; a surrogate without a partner is replaced. -/
def encodeUtf8 : JsString → Bytes
  | [] => []
  | [last] => pointBytes (if isSurrogate last then replacementPoint else last)
  | first :: second :: more =>
    if isHighSurrogate first ∧ isLowSurrogate second then
      pointBytes (0x10000 + (first - 0xD800) * 0x400 + (second - 0xDC00)) ++ encodeUtf8 more
    else pointBytes (if isSurrogate first then replacementPoint else first) ++ encodeUtf8 (second :: more)

/-- What the decoder knows between two bytes: the code point so far, how many bytes it still
needs, and the bounds of the next one. -/
structure Utf8Decoder where
  point : Nat := 0
  needed : Nat := 0
  lower : Nat := 0x80
  upper : Nat := 0xBF
deriving DecidableEq

namespace Utf8Decoder

def ready : Utf8Decoder := {}

/-- The first byte of a code point. -/
def lead (byte : Nat) : Utf8Decoder × JsString :=
  if byte < 0x80 then (ready, [byte])
  else if 0xC2 ≤ byte ∧ byte ≤ 0xDF then ({ point := byte - 0xC0, needed := 1 }, [])
  else if 0xE0 ≤ byte ∧ byte ≤ 0xEF then
    ({ point := byte - 0xE0, needed := 2, lower := if byte = 0xE0 then 0xA0 else 0x80
       upper := if byte = 0xED then 0x9F else 0xBF }, [])
  else if 0xF0 ≤ byte ∧ byte ≤ 0xF4 then
    ({ point := byte - 0xF0, needed := 3, lower := if byte = 0xF0 then 0x90 else 0x80
       upper := if byte = 0xF4 then 0x8F else 0xBF }, [])
  else (ready, [replacementPoint])

/-- A byte that does not fit ends the code point and is looked at again. -/
def next (decoder : Utf8Decoder) (byte : Nat) : Utf8Decoder × JsString :=
  if decoder.needed = 0 then lead byte
  else if byte < decoder.lower ∨ decoder.upper < byte then ((lead byte).1, replacementPoint :: (lead byte).2)
  else
    let point := decoder.point * 0x40 + (byte - 0x80)
    if decoder.needed = 1 then (ready, pointUnits point) else ({ point := point, needed := decoder.needed - 1 }, [])

/-- `decode(bytes, { stream: true })`. -/
def decode (decoder : Utf8Decoder) : Bytes → Utf8Decoder × JsString
  | [] => (decoder, [])
  | byte :: rest =>
    let (following, out) := decoder.next byte
    let (last, more) := following.decode rest
    (last, out ++ more)

theorem decode_cons (decoder : Utf8Decoder) (byte : Nat) (rest : Bytes) :
    decoder.decode (byte :: rest) =
      (((decoder.next byte).1.decode rest).1, (decoder.next byte).2 ++ ((decoder.next byte).1.decode rest).2) := rfl

theorem decode_append (decoder : Utf8Decoder) (first second : Bytes) :
    decoder.decode (first ++ second) =
      (((decoder.decode first).1.decode second).1, (decoder.decode first).2 ++ ((decoder.decode first).1.decode second).2) := by
  induction first generalizing decoder with
  | nil => rfl
  | cons byte rest ih =>
    rw [List.cons_append, decode_cons, ih, decode_cons]
    simp only [List.append_assoc]

end Utf8Decoder

/-! What is written is read back. -/

open Utf8Decoder

theorem next_last {decoder : Utf8Decoder} {byte : Nat} (needed : decoder.needed = 1)
    (bounds : decoder.lower ≤ byte ∧ byte ≤ decoder.upper) :
    decoder.next byte = (ready, pointUnits (decoder.point * 0x40 + (byte - 0x80))) := by
  rw [Utf8Decoder.next, if_neg (by omega), if_neg (by omega)]
  simp only [needed, if_true]

theorem next_more {decoder : Utf8Decoder} {byte : Nat} (needed : 1 < decoder.needed)
    (bounds : decoder.lower ≤ byte ∧ byte ≤ decoder.upper) :
    decoder.next byte = ({ point := decoder.point * 0x40 + (byte - 0x80), needed := decoder.needed - 1 }, []) := by
  rw [Utf8Decoder.next, if_neg (by omega), if_neg (by omega)]
  simp only
  rw [if_neg (by omega)]

theorem decode_lead {byte : Nat} {rest : Bytes} {decoder : Utf8Decoder} (led : lead byte = (decoder, [])) :
    ready.decode (byte :: rest) = decoder.decode rest := by
  have start : ready.next byte = lead byte := rfl
  rw [decode_cons, start, led]
  rfl

theorem decode_more {decoder : Utf8Decoder} {byte : Nat} {rest : Bytes} (needed : 1 < decoder.needed)
    (bounds : decoder.lower ≤ byte ∧ byte ≤ decoder.upper) :
    decoder.decode (byte :: rest) =
      ({ point := decoder.point * 0x40 + (byte - 0x80), needed := decoder.needed - 1 } : Utf8Decoder).decode rest := by
  rw [decode_cons, next_more needed bounds]
  rfl

theorem decode_last {decoder : Utf8Decoder} {byte : Nat} (needed : decoder.needed = 1)
    (bounds : decoder.lower ≤ byte ∧ byte ≤ decoder.upper) :
    decoder.decode [byte] = (ready, pointUnits (decoder.point * 0x40 + (byte - 0x80))) := by
  rw [decode_cons, next_last needed bounds]
  simp [decode]

theorem decode_pointBytes {point : Nat} (scalar : IsScalar point) :
    ready.decode (pointBytes point) = (ready, pointUnits point) := by
  unfold pointBytes
  unfold IsScalar at scalar
  by_cases one : point < 0x80
  · have led : lead point = (ready, [point]) := by rw [lead, if_pos one]
    have start : ready.next point = lead point := rfl
    rw [if_pos one, decode_cons, start, led, pointUnits, if_pos (by omega)]
    rfl
  · rw [if_neg one]
    by_cases two : point < 0x800
    · have led : lead (0xC0 + point / 0x40) = ({ point := point / 0x40, needed := 1 }, []) := by
        rw [lead, if_neg (by omega), if_pos (by omega), Nat.add_sub_cancel_left]
      have value : point / 0x40 * 0x40 + (0x80 + point % 0x40 - 0x80) = point := by omega
      rw [if_pos two, decode_lead led, decode_last rfl ⟨by simp only; omega, by simp only; omega⟩, value]
    · rw [if_neg two]
      by_cases plane : point < 0x10000
      · have led : lead (0xE0 + point / 0x1000) =
            ({ point := point / 0x1000, needed := 2, lower := if 0xE0 + point / 0x1000 = 0xE0 then 0xA0 else 0x80
               upper := if 0xE0 + point / 0x1000 = 0xED then 0x9F else 0xBF }, []) := by
          rw [lead, if_neg (by omega), if_neg (by omega), if_pos (by omega), Nat.add_sub_cancel_left]
        have bounds : (if 0xE0 + point / 0x1000 = 0xE0 then 0xA0 else 0x80) ≤ 0x80 + point / 0x40 % 0x40 ∧
            0x80 + point / 0x40 % 0x40 ≤ (if 0xE0 + point / 0x1000 = 0xED then 0x9F else 0xBF) := by
          split <;> split <;> omega
        have value : (point / 0x1000 * 0x40 + (0x80 + point / 0x40 % 0x40 - 0x80)) * 0x40 +
            (0x80 + point % 0x40 - 0x80) = point := by omega
        rw [if_pos plane, decode_lead led, decode_more (Nat.lt_succ_self 1) bounds,
          decode_last rfl ⟨by simp only; omega, by simp only; omega⟩, value]
      · have led : lead (0xF0 + point / 0x40000) =
            ({ point := point / 0x40000, needed := 3, lower := if 0xF0 + point / 0x40000 = 0xF0 then 0x90 else 0x80
               upper := if 0xF0 + point / 0x40000 = 0xF4 then 0x8F else 0xBF }, []) := by
          rw [lead, if_neg (by omega), if_neg (by omega), if_neg (by omega), if_pos (by omega), Nat.add_sub_cancel_left]
        have bounds : (if 0xF0 + point / 0x40000 = 0xF0 then 0x90 else 0x80) ≤ 0x80 + point / 0x1000 % 0x40 ∧
            0x80 + point / 0x1000 % 0x40 ≤ (if 0xF0 + point / 0x40000 = 0xF4 then 0x8F else 0xBF) := by
          split <;> split <;> omega
        have value : ((point / 0x40000 * 0x40 + (0x80 + point / 0x1000 % 0x40 - 0x80)) * 0x40 +
            (0x80 + point / 0x40 % 0x40 - 0x80)) * 0x40 + (0x80 + point % 0x40 - 0x80) = point := by omega
        rw [if_neg plane, decode_lead led, decode_more (show 1 < 3 by decide) bounds,
          decode_more (Nat.lt_succ_self 1) ⟨by simp only; omega, by simp only; omega⟩,
          decode_last rfl ⟨by simp only; omega, by simp only; omega⟩, value]

/-- The text is the code units of code points. -/
def WellFormed (text : JsString) : Prop :=
  ∃ points : List Nat, (∀ point ∈ points, IsScalar point) ∧ text = points.flatMap pointUnits

namespace WellFormed

variable {first second text : JsString}

theorem nil : WellFormed [] := ⟨[], by simp, rfl⟩

theorem append (one : WellFormed first) (other : WellFormed second) : WellFormed (first ++ second) := by
  obtain ⟨points, scalars, rfl⟩ := one
  obtain ⟨more, scalars', rfl⟩ := other
  refine ⟨points ++ more, fun point member => ?_, by rw [List.flatMap_append]⟩
  rcases List.mem_append.mp member with inside | inside
  · exact scalars point inside
  · exact scalars' point inside

theorem point {point : Nat} (scalar : IsScalar point) : WellFormed (pointUnits point) :=
  ⟨[point], by simpa using scalar, by simp⟩

/-- Text without surrogates is well-formed. -/
theorem of_plain (plain : ∀ u ∈ text, u < 0xD800) : WellFormed text := by
  refine ⟨text, fun u member => .inl (plain u member), ?_⟩
  have each : text.flatMap pointUnits = text.flatMap fun u => [u] := by
    refine List.flatMap_congr fun u member => ?_
    have small := plain u member
    rw [pointUnits, if_pos (by omega)]
  rw [each, List.flatMap_singleton']

theorem flatten {texts : List JsString} (each : ∀ text ∈ texts, WellFormed text) : WellFormed texts.flatten := by
  induction texts with
  | nil => exact nil
  | cons text rest ih =>
    rw [List.flatten_cons]
    exact (each text (List.mem_cons_self ..)).append (ih fun other member => each other (List.mem_cons_of_mem _ member))

end WellFormed

/-- A unit below the surrogates is a character of the text. -/
theorem exists_of_mem_utf16 {text : String} {u : Nat} (inside : u ∈ utf16 text) (low : u < 0xD800) :
    ∃ character ∈ text.toList, character.toNat = u := by
  obtain ⟨character, listed, inside⟩ := List.mem_flatMap.mp inside
  refine ⟨character, listed, ?_⟩
  unfold pointUnits at inside
  split at inside
  · exact (List.mem_singleton.mp inside).symm
  · simp only [List.mem_cons, List.not_mem_nil, or_false] at inside
    omega

theorem pointUnits_bounded {point : Nat} (top : point < 0x110000) : ∀ u ∈ pointUnits point, u < 0x10000 := by
  intro u member
  unfold pointUnits at member
  split at member
  next small => rwa [List.mem_singleton.mp member]
  next =>
    rcases List.mem_pair.mp member with same | same
    · omega
    · omega

theorem utf16_bounded (text : String) : ∀ u ∈ utf16 text, u < 0x10000 := by
  intro u member
  obtain ⟨character, -, inside⟩ := List.mem_flatMap.mp member
  refine pointUnits_bounded ?_ u inside
  rcases character.valid with low | high
  · exact Nat.lt_trans low (by decide)
  · exact high.2

/-- A quoted string is well-formed, since surrogates without a partner are escaped. -/
theorem wellFormed_quoteUnit {u : Nat} (bounded : u < 0x10000) : WellFormed (quoteUnit u) := by
  unfold quoteUnit
  split
  next letter short =>
    refine .of_plain fun other member => ?_
    have letters := shortEscape_letter short
    rcases List.mem_pair.mp member with rfl | rfl
    · decide
    · omega
  next =>
    split
    next =>
      refine .of_plain fun other member => ?_
      rcases List.mem_cons.mp member with rfl | member
      · decide
      rcases List.mem_cons.mp member with rfl | member
      · decide
      · have digits := hexDigits_bounds other member
        omega
    next plain =>
      have surrogates : ¬(0xD800 ≤ u ∧ u ≤ 0xDBFF) ∧ ¬(0xDC00 ≤ u ∧ u ≤ 0xDFFF) := by
        simp only [isHighSurrogate, isLowSurrogate, Bool.and_eq_true, decide_eq_true_eq] at plain
        omega
      have scalar : IsScalar u := by
        unfold IsScalar
        omega
      have alone := WellFormed.point scalar
      rwa [pointUnits, if_pos bounded] at alone

theorem wellFormed_quoteUnits {value : JsString} (bounded : ∀ u ∈ value, u < 0x10000) : WellFormed (quoteUnits value) := by
  fun_induction quoteUnits value with
  | case1 => exact .nil
  | case2 last => exact wellFormed_quoteUnit (bounded last (List.mem_singleton_self _))
  | case3 first second more pair ih =>
    have rest := ih fun u member => bounded u (by simp [member])
    have scalar : IsScalar (0x10000 + (first - 0xD800) * 0x400 + (second - 0xDC00)) := by
      simp only [isHighSurrogate, isLowSurrogate, Bool.and_eq_true, decide_eq_true_eq] at pair
      unfold IsScalar
      omega
    have point := WellFormed.point scalar
    have whole : pointUnits (0x10000 + (first - 0xD800) * 0x400 + (second - 0xDC00)) = [first, second] := by
      simp only [isHighSurrogate, isLowSurrogate, Bool.and_eq_true, decide_eq_true_eq] at pair
      have high : 0xD800 + (0x10000 + (first - 0xD800) * 0x400 + (second - 0xDC00) - 0x10000) / 0x400 = first := by omega
      have low : 0xDC00 + (0x10000 + (first - 0xD800) * 0x400 + (second - 0xDC00) - 0x10000) % 0x400 = second := by omega
      rw [pointUnits, if_neg (by omega), high, low]
    rw [whole] at point
    exact point.append rest
  | case4 first second more _ ih =>
    have rest := ih fun u member => bounded u (List.mem_cons_of_mem _ member)
    exact (wellFormed_quoteUnit (bounded first (List.mem_cons_self ..))).append rest

theorem wellFormed_quote {value : JsString} (bounded : ∀ u ∈ value, u < 0x10000) : WellFormed (quote value) := by
  have mark : WellFormed [unit '"'] := .of_plain fun u member => by rw [List.mem_singleton.mp member]; decide
  exact mark.append ((wellFormed_quoteUnits bounded).append mark)

theorem encodeUtf8_point {point : Nat} (scalar : IsScalar point) (rest : JsString) :
    encodeUtf8 (pointUnits point ++ rest) = pointBytes point ++ encodeUtf8 rest := by
  unfold IsScalar at scalar
  by_cases plane : point < 0x10000
  · have plain : isHighSurrogate point = false ∧ isLowSurrogate point = false := by
      simp only [isHighSurrogate, isLowSurrogate, Bool.and_eq_false_iff, decide_eq_false_iff_not]
      omega
    rw [pointUnits, if_pos plane, List.singleton_append]
    cases rest with
    | nil => simp [encodeUtf8, isSurrogate, plain]
    | cons second more => simp [encodeUtf8, isSurrogate, plain]
  · have high : isHighSurrogate (0xD800 + (point - 0x10000) / 0x400) = true := by
      simp only [isHighSurrogate, Bool.and_eq_true, decide_eq_true_eq]
      omega
    have low : isLowSurrogate (0xDC00 + (point - 0x10000) % 0x400) = true := by
      simp only [isLowSurrogate, Bool.and_eq_true, decide_eq_true_eq]
      omega
    have value : 0x10000 + (0xD800 + (point - 0x10000) / 0x400 - 0xD800) * 0x400 +
        (0xDC00 + (point - 0x10000) % 0x400 - 0xDC00) = point := by omega
    rw [pointUnits, if_neg plane, List.cons_append, List.cons_append, List.nil_append, encodeUtf8, if_pos ⟨high, low⟩, value]

theorem encodeUtf8_points {points : List Nat} (scalars : ∀ point ∈ points, IsScalar point) (rest : JsString) :
    encodeUtf8 (points.flatMap pointUnits ++ rest) = points.flatMap pointBytes ++ encodeUtf8 rest := by
  induction points with
  | nil => rfl
  | cons point more ih =>
    rw [List.flatMap_cons, List.flatMap_cons, List.append_assoc, encodeUtf8_point (scalars point (List.mem_cons_self ..)),
      ih fun other member => scalars other (List.mem_cons_of_mem _ member), List.append_assoc]

/-- Texts written one after the other are one text. -/
theorem encodeUtf8_append {first : JsString} (formed : WellFormed first) (second : JsString) :
    encodeUtf8 (first ++ second) = encodeUtf8 first ++ encodeUtf8 second := by
  obtain ⟨points, scalars, rfl⟩ := formed
  have alone := encodeUtf8_points scalars []
  rw [List.append_nil] at alone
  rw [encodeUtf8_points scalars, alone, encodeUtf8, List.append_nil]

/-- The decoder reads back what was written. -/
theorem decode_encodeUtf8 {text : JsString} (formed : WellFormed text) :
    ready.decode (encodeUtf8 text) = (ready, text) := by
  obtain ⟨points, scalars, rfl⟩ := formed
  have encoded := encodeUtf8_points scalars []
  rw [List.append_nil, encodeUtf8, List.append_nil] at encoded
  rw [encoded]
  clear encoded
  induction points with
  | nil => rfl
  | cons point more ih =>
    rw [List.flatMap_cons, decode_append, decode_pointBytes (scalars point (List.mem_cons_self ..))]
    simp only
    rw [ih fun other member => scalars other (List.mem_cons_of_mem _ member), List.flatMap_cons]

/-- The text of the first bytes is the first part of the text. -/
theorem decode_prefix {first bytes : Bytes} (part : first <+: bytes) (decoder : Utf8Decoder) :
    (decoder.decode first).2 <+: (decoder.decode bytes).2 := by
  obtain ⟨rest, rfl⟩ := part
  rw [decode_append]
  exact List.prefix_append ..

end Host
