import Mathlib.Data.List.Forall2
import OttiliCoder.Library.ArgumentLine
import OttiliCoder.Runtime.CommandTarget

/-! The command line of a batch file gives back the arguments it was made of. -/

namespace OttiliCoder.CommandTarget
open Host ArgumentLine

theorem isWhiteSpace_of_isDelimiter {u : Nat} (delimits : isDelimiter u = true) : isWhiteSpace u = true := by
  rcases Bool.or_eq_true_iff.mp delimits with blank | tab
  · rw [beq_iff_eq.mp blank]
    decide
  · rw [beq_iff_eq.mp tab]
    decide

theorem not_quotation {value : JsString} (plain : hasMetacharacter value = false) {u : Nat} (member : u ∈ value) : u ≠ quotation := by
  rintro rfl
  have other := List.any_eq_false.mp plain quotation member
  exact other (by decide)

/-- A quoted token is read as the value, whatever blanks and backslashes it has. -/
theorem token_quoteWindowsArgument {value : JsString} (plain : hasMetacharacter value = false) :
    Token (quoteWindowsArgument value) value := by
  unfold quoteWindowsArgument
  split
  next bare =>
    apply token_plain
    · intro u member
      refine ⟨not_quotation plain member, ?_⟩
      have other := List.any_eq_false.mp bare.2 u member
      cases delimits : isDelimiter u with
      | false => rfl
      | true => exact absurd (isWhiteSpace_of_isDelimiter delimits) other
    · exact List.length_pos_iff.mp bare.1
  next _ =>
    apply token_quoted
    intro u member
    exact ⟨not_quotation plain member, rfl⟩

theorem splitArguments_quoted {values : List JsString} (plain : ∀ value ∈ values, hasMetacharacter value = false) (filled : values ≠ []) :
    splitArguments ([unit ' '].intercalate (values.map quoteWindowsArgument)) = values := by
  apply splitArguments_intercalate
  · rw [List.forall₂_map_left_iff, List.forall₂_same]
    exact fun value member => token_quoteWindowsArgument (plain value member)
  · simpa using filled

/-- What a batch file is spawned as has no metacharacter, and splits into its path and the arguments; it is refused for one that has. -/
def Arrives (resolved : JsString) (args : List JsString) : Except JsString ResolvedCommandTarget → Prop
  | .ok target => (∀ value ∈ resolved :: args, hasMetacharacter value = false) ∧
      ∃ line, target.args = [units "/d", units "/s", units "/c", unit '"' :: (line ++ [unit '"'])] ∧
        target.windowsVerbatimArguments = true ∧ splitArguments line = resolved :: args
  | .error _ => ∃ value ∈ resolved :: args, hasMetacharacter value = true

section Target
variable (windows : WindowsHost) (process : Process) (command resolved : JsString) (args : List JsString)
  (options : ResolveCommandTargetOptions)

theorem batch_arguments_arrive (platform : options.platform.getD process.platform = "win32")
    (found : resolveWindowsExecutable windows command options = some resolved) (batch : isBatch resolved = true) :
    Arrives resolved args (resolveCommandTarget windows process command args options) := by
  unfold resolveCommandTarget
  rw [if_neg (by simpa using platform), found]
  simp only [batch, Bool.not_true, Bool.false_eq_true, if_false]
  cases rejected : (resolved :: args).find? hasMetacharacter with
  | some value => exact ⟨value, List.mem_of_find?_eq_some rejected, List.find?_some rejected⟩
  | none =>
    have plain : ∀ value ∈ resolved :: args, hasMetacharacter value = false := by
      intro value member
      simpa using List.find?_eq_none.mp rejected value member
    exact ⟨plain, _, rfl, rfl, splitArguments_quoted plain (List.cons_ne_nil _ _)⟩

end Target

/-! A batch file with a blank in its path, and arguments that are empty, have a blank, and end in backslashes. -/

def sampleWindows : WindowsHost where
  isAbsolute path := path.take 3 == units "C:\\"
  resolve start path := start ++ units "\\" ++ path
  probe candidate := candidate == units "C:\\Program Files\\npm.CMD"

def sampleTarget : ResolveCommandTargetOptions where
  path := some (units "C:\\tools;C:\\Program Files")
  pathExtensions := some (units ".EXE; .CMD")

def sampleBatch : JsString := units "C:\\Program Files\\npm.CMD"

def sampleArguments : List JsString := [[], units "a b\\\\", units "\\c\\"]

theorem sample_arguments_arrive :
    Arrives sampleBatch sampleArguments
        (resolveCommandTarget sampleWindows ⟨"win32", none⟩ (units "npm") sampleArguments sampleTarget) ∧
      (resolveCommandTarget sampleWindows ⟨"win32", none⟩ (units "npm") sampleArguments sampleTarget).isOk = true :=
  ⟨batch_arguments_arrive sampleWindows ⟨"win32", none⟩ (units "npm") sampleBatch sampleArguments sampleTarget rfl (by decide)
    (by decide), by decide⟩

end OttiliCoder.CommandTarget
