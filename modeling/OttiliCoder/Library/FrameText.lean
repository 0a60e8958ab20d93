import Mathlib.Data.List.Basic
import OttiliCoder.Library.JsString

/-! Text cut into frames at empty lines, as a whole or piece by piece as it arrives. -/

namespace Host

/-- `text.split("\n\n")`, with the last part apart. -/
def splitFrames : JsString → List JsString × JsString
  | [] => ([], [])
  | [last] => ([], [last])
  | first :: second :: rest =>
    if first = unit '\n' ∧ second = unit '\n' then ([] :: (splitFrames rest).1, (splitFrames rest).2)
    else
      match splitFrames (second :: rest) with
      | ([], left) => ([], first :: left)
      | (frame :: frames, left) => ((first :: frame) :: frames, left)

attribute [grind =] splitFrames

/-- Nothing is cut off, also when the line ends here. -/
def Uncut (text : JsString) : Prop := splitFrames (text ++ [unit '\n']) = ([], text ++ [unit '\n'])

/-- A first part of two texts ends inside the first one, or goes on into the second. -/
theorem prefix_cases {text first second : JsString} (part : text <+: first ++ second) :
    text <+: first ∨ ∃ more, text = first ++ more ∧ more <+: second := by
  rcases List.prefix_or_prefix_of_prefix part (List.prefix_append first second) with inside | ⟨more, rfl⟩
  · exact .inl inside
  · exact .inr ⟨more, rfl, (List.prefix_append_right_inj first).mp part⟩

section Split
variable {text rest line : JsString}

theorem splitFrames_rest (none : (splitFrames text).1 = []) : (splitFrames text).2 = text := by
  fun_induction splitFrames text with
  | case1 => rfl
  | case2 => rfl
  | case3 => cases none
  | case4 first second rest apart left cut ih => rw [← ih (by rw [cut]), cut]
  | case5 => cases none

/-- Text that arrives later is cut together with what was left. -/
theorem splitFrames_append (first second : JsString) : splitFrames (first ++ second) =
    ((splitFrames first).1 ++ (splitFrames ((splitFrames first).2 ++ second)).1,
      (splitFrames ((splitFrames first).2 ++ second)).2) := by
  fun_induction splitFrames first with
  | case1 => rfl
  | case2 => rfl
  | case3 head next rest both ih =>
    rw [List.cons_append, List.cons_append, splitFrames, if_pos both, ih]
    rfl
  | case4 head next rest apart left cut ih =>
    have none : (splitFrames (next :: rest)).1 = [] := by rw [cut]
    have whole := splitFrames_rest none
    rw [cut] at whole
    simp only at whole
    rw [whole]
    rfl
  | case5 head next rest apart frame frames left cut ih =>
    rw [cut] at ih
    rw [List.cons_append, List.cons_append, splitFrames, if_neg apart, ← List.cons_append, ih]
    rfl

theorem splitFrames_frame (uncut : Uncut text) (rest : JsString) :
    splitFrames (text ++ unit '\n' :: unit '\n' :: rest) = (text :: (splitFrames rest).1, (splitFrames rest).2) := by
  induction text with
  | nil => rw [List.nil_append, splitFrames, if_pos ⟨rfl, rfl⟩]
  | cons first text ih =>
    obtain ⟨second, more, next⟩ : ∃ second more, text ++ [unit '\n'] = second :: more :=
      List.exists_cons_of_ne_nil (by simp)
    have longer : text ++ unit '\n' :: unit '\n' :: rest = second :: (more ++ unit '\n' :: rest) := by
      rw [← List.cons_append, ← next]
      simp
    rw [Uncut, List.cons_append, next, splitFrames] at uncut
    split at uncut
    next => cases uncut
    next apart =>
      split at uncut
      next left cut =>
        have kept : Uncut text := by
          have none : (splitFrames (second :: more)).1 = [] := by rw [cut]
          rw [Uncut, next, cut, ← splitFrames_rest none, cut]
        rw [List.cons_append, longer, splitFrames, if_neg apart, ← longer, ih kept]
      next => cases uncut

/-- Any first part of a frame is left over as it is. -/
theorem splitFrames_prefix (uncut : Uncut text) (part : rest <+: text ++ [unit '\n']) : splitFrames rest = ([], rest) := by
  obtain ⟨more, whole⟩ := part
  rw [Uncut, ← whole, splitFrames_append] at uncut
  have none : (splitFrames rest).1 = [] := (List.append_eq_nil_iff.mp (Prod.mk.inj uncut).1).1
  exact Prod.ext none (splitFrames_rest none)

theorem uncut_line (filled : line ≠ []) (one : unit '\n' ∉ line) : Uncut line := by
  induction line with
  | nil => exact absurd rfl filled
  | cons first line ih =>
    have apart : first ≠ unit '\n' := fun same => one (by simp [same])
    cases line with
    | nil => simp [Uncut, splitFrames, apart]
    | cons second line =>
      have rest := ih (List.cons_ne_nil _ _) fun member => one (List.mem_cons_of_mem _ member)
      rw [Uncut, List.cons_append] at rest ⊢
      rw [List.cons_append, splitFrames, if_neg fun both => apart both.1, rest]

/-- A frame made of lines that are not empty is not cut. -/
theorem uncut_lines (filled : line ≠ []) (one : unit '\n' ∉ line) (uncut : Uncut text)
    (goes : ∃ head tail, text = head :: tail ∧ head ≠ unit '\n') : Uncut (line ++ unit '\n' :: text) := by
  obtain ⟨head, tail, same, other⟩ := goes
  have second : splitFrames (unit '\n' :: (text ++ [unit '\n'])) = ([], unit '\n' :: (text ++ [unit '\n'])) := by
    rw [Uncut, same, List.cons_append] at uncut
    rw [same, List.cons_append, splitFrames, if_neg fun both => other both.2, uncut]
  induction line with
  | nil => exact absurd rfl filled
  | cons first line ih =>
    have apart : first ≠ unit '\n' := fun new => one (by simp [new])
    cases line with
    | nil =>
      rw [Uncut, List.cons_append, List.nil_append, List.cons_append, List.cons_append, splitFrames,
        if_neg fun both => apart both.1, second]
    | cons next line =>
      have rest := ih (List.cons_ne_nil _ _) fun member => one (List.mem_cons_of_mem _ member)
      rw [Uncut, List.cons_append, List.cons_append] at rest ⊢
      rw [List.cons_append, List.cons_append, splitFrames, if_neg fun both => apart both.1, rest]

end Split

/-- Frames as they are written, each with an empty line behind it. -/
def framed (frames : List JsString) : JsString := frames.flatMap fun frame => frame ++ [unit '\n', unit '\n']

section Framed
variable {text : JsString} {frames : List JsString}

/-- How much of the frames a first part of their text shows. -/
structure Shows (frames : List JsString) (text : JsString) (later : List JsString) : Prop where
  cut : frames = (splitFrames text).1 ++ later
  left : (splitFrames text).2 = [] ∨ ∃ next rest, later = next :: rest ∧ (splitFrames text).2 <+: next ++ [unit '\n']

theorem framed_prefix (uncut : ∀ frame ∈ frames, Uncut frame) (part : text <+: framed frames) : ∃ later, Shows frames text later := by
  induction frames generalizing text with
  | nil =>
    rw [List.prefix_nil.mp part]
    exact ⟨[], rfl, .inl rfl⟩
  | cons frame frames ih =>
    have whole := uncut frame (List.mem_cons_self ..)
    have pieces : framed (frame :: frames) = frame ++ [unit '\n'] ++ unit '\n' :: framed frames := by simp [framed]
    rw [pieces] at part
    rcases prefix_cases part with inside | ⟨more, rfl, begins⟩
    · have left := splitFrames_prefix whole inside
      exact ⟨frame :: frames, by rw [left]; rfl, .inr ⟨frame, frames, rfl, by rw [left]; exact inside⟩⟩
    cases more with
    | nil =>
      rw [List.append_nil]
      have left := splitFrames_prefix whole List.prefix_rfl
      exact ⟨frame :: frames, by rw [left]; rfl, .inr ⟨frame, frames, rfl, left ▸ List.prefix_rfl⟩⟩
    | cons first more =>
      obtain ⟨rfl, rest⟩ := List.cons_prefix_cons.mp begins
      obtain ⟨later, cut, left⟩ := ih (fun other member => uncut other (List.mem_cons_of_mem _ member)) rest
      have pieces : splitFrames (frame ++ [unit '\n'] ++ unit '\n' :: more) =
          (frame :: (splitFrames more).1, (splitFrames more).2) := by
        rw [List.append_assoc]
        exact splitFrames_frame whole more
      refine ⟨later, ?_, ?_⟩
      · rw [pieces, List.cons_append, ← cut]
      · rw [pieces]
        exact left

theorem splitFrames_framed (uncut : ∀ frame ∈ frames, Uncut frame) : splitFrames (framed frames) = (frames, []) := by
  induction frames with
  | nil => rfl
  | cons frame frames ih =>
    have pieces : framed (frame :: frames) = frame ++ unit '\n' :: unit '\n' :: framed frames := by simp [framed]
    rw [pieces, splitFrames_frame (uncut frame (List.mem_cons_self ..)),
      ih fun other member => uncut other (List.mem_cons_of_mem _ member)]

end Framed

end Host
