import OttiliCoder.Proofs.TurnProgress

/-! Over whole histories: which turns count as progress, and which of their blockers are
counted as repeated. -/

namespace OttiliCoder
open Relational Transaction

def eventsOf (s : Store) (runId : RunId) : List RunEvent := (journalOf s runId).map eventFromRow

theorem progressAttempts_eq (numbered : Numbered s) (runId : RunId) : progressAttempts s runId = attemptsOf none (eventsOf s runId) := by
  rw [progressAttempts, listEvents_eq numbered, List.drop_zero, eventsOf]

/-- Whether a turn of the Run has such a call. -/
def inTurn (runId : RunId) (turn : Nat) (meets : Store → Call → Bool) : Store → List Call → Bool
  | _, [] => false
  | s, call :: calls =>
    (decide (startedIn (eventsOf s runId) = turn + 1) && meets s call) || inTurn runId turn meets (call.perform s) calls

section Turns
variable {runId : RunId} {turn : Nat} {meets other : Store → Call → Bool} {s : Store} {history : List Call} {call : Call}

theorem inTurn_concat : inTurn runId turn meets s (history ++ [call]) = (inTurn runId turn meets s history ||
    (decide (startedIn (eventsOf (performAll Call.perform history s) runId) = turn + 1) && meets (performAll Call.perform history s) call)) := by
  induction history generalizing s with
  | nil =>
    rw [List.nil_append, inTurn, inTurn, inTurn, Bool.or_false, Bool.false_or]
    rfl
  | cons first history ih =>
    rw [List.cons_append, inTurn, inTurn, ih, Bool.or_assoc]
    rfl

theorem inTurn_mono (implies : ∀ s call, meets s call = true → other s call = true) (inside : inTurn runId turn meets s history = true) :
    inTurn runId turn other s history = true := by
  induction history generalizing s with
  | nil => cases inside
  | cons call history ih =>
    simp only [inTurn, Bool.or_eq_true, Bool.and_eq_true] at inside ⊢
    rcases inside with ⟨here, met⟩ | later
    · exact .inl ⟨here, implies s call met⟩
    · exact .inr (ih later)

theorem inTurn_or : inTurn runId turn (fun s call => meets s call || other s call) s history =
    (inTurn runId turn meets s history || inTurn runId turn other s history) := by
  induction history generalizing s with
  | nil => rfl
  | cons call history ih =>
    rw [inTurn, inTurn, inTurn, ih, Bool.and_or_distrib_left]
    cases decide (startedIn (eventsOf s runId) = turn + 1) && meets s call <;> simp [Bool.or_left_comm]

/-- What a call writes to the journal of the Run. -/
def written (runId : RunId) (s : Store) (call : Call) : List RunEventRow := (journalOf (call.perform s) runId).drop (journalOf s runId).length

/-- The call writes an event that counts. -/
def counting (runId : RunId) (s : Store) (call : Call) : Bool := (written runId s call).any fun row => notes row.type row.payload

theorem written_of {more : List RunEventRow} (grown : journalOf (call.perform s) runId = journalOf s runId ++ more) :
    written runId s call = more := by
  rw [written, grown, List.drop_left]

theorem counted_of_counting (s : Store) (call : Call) : counting runId s call = true →
    (achieves runId s call || overcounts runId s call) = true := by
  intro counts
  obtain ⟨more, grown, each⟩ := call.noting
  rw [counting, written_of grown, List.any_eq_true] at counts
  obtain ⟨row, member, noted⟩ := counts
  exact Bool.or_eq_true_iff.mpr (each row member noted)

theorem counting_of_overcounts (s : Store) (call : Call) (overcounted : overcounts runId s call = true) : counting runId s call = true := by
  obtain ⟨more, grown, row, member, noted⟩ := overcounts_wrote call overcounted
  rw [counting, written_of grown, List.any_eq_true]
  exact ⟨row, member, noted⟩

/-- No call starts a turn and counts for one. -/
theorem starts_or_counts (runId : RunId) (s : Store) (call : Call) :
    (∀ row ∈ written runId s call, row.type ≠ .agentTurnStarted) ∨ ∀ row ∈ written runId s call, notes row.type row.payload = false := by
  have grows : Grows runId (fun row => call.journals row.type = true) s (call.perform s) := call.grows
  obtain ⟨more, grown, each⟩ := grows
  rw [written_of grown]
  cases starts : call.journals .agentTurnStarted with
  | false =>
    refine .inl fun row member type => ?_
    have journals : call.journals row.type = true := each row member
    rw [type, starts] at journals
    exact Bool.false_ne_true journals
  | true =>
    refine .inr fun row member => ?_
    cases call with
    | appendFencedEvent input clock =>
      have only (type : RunEventType) (journals : (Call.appendFencedEvent input clock).journals type = true) : input.type = type := by
        simp only [Call.journals, Call.kinds] at journals
        split at journals <;> simpa [Kind.eventType] using journals
      rw [← only row.type (each row member), only .agentTurnStarted starts]
      rfl
    | _ => exact absurd starts Bool.false_ne_true

/-- A turn counts as progress when one of its calls writes an event that counts. -/
theorem noted_history (history : List Call) : notedIn turn 0 (eventsOf (storeAfter history) runId) =
    inTurn runId turn (counting runId) Store.empty history := by
  induction history using List.reverseRecOn with
  | nil => rfl
  | append_singleton history call ih =>
    have grows : Grows runId (fun row => call.journals row.type = true) (storeAfter history) (call.perform (storeAfter history)) := call.grows
    obtain ⟨more, grown, -⟩ := grows
    have wrote : more = written runId (storeAfter history) call := (written_of grown).symm
    have logged : eventsOf (storeAfter (history ++ [call])) runId =
        eventsOf (storeAfter history) runId ++ (written runId (storeAfter history) call).map eventFromRow := by
      rw [storeAfter_concat, eventsOf, grown, List.map_append, wrote]
      rfl
    have counted : ((written runId (storeAfter history) call).map eventFromRow).any (fun event => notes event.type event.payload) =
        counting runId (storeAfter history) call := by
      rw [List.any_map]
      rfl
    rw [logged, notedIn_append, ih, inTurn_concat, Nat.zero_add]
    congr 1
    rcases starts_or_counts runId (storeAfter history) call with plain | silent
    · rw [notedIn_plain (by simpa [eventFromRow] using plain), counted]
      rfl
    · have none : counting runId (storeAfter history) call = false := by
        rw [counting, List.any_eq_false]
        intro row member
        simp [silent row member]
      rw [notedIn_silent (by simpa [eventFromRow] using silent)]
      change false = (_ && counting runId (storeAfter history) call)
      rw [none, Bool.and_false]

/-- Whether the attempt of a turn counts as progress. -/
theorem progressed_iff (history : List Call) : (progressAttempts (storeAfter history) runId)[turn]?.any (·.progress) =
    inTurn runId turn (counting runId) Store.empty history := by
  rw [progressAttempts_eq (numbered_reached (reachable_storeAfter history)), attemptsOf_progress, ← noted_history]
  rfl

end Turns

section Blockers
variable {attempts : List ProgressAttempt} {fingerprint : String} {first : Nat}

/-- Attempts that all met the blocker and made no progress are all counted. -/
theorem repeatedBlockers_ge (blocked : ∀ attempt ∈ attempts.drop first, attempt.blockerFingerprint = some fingerprint ∧ attempt.progress = false) :
    (attempts.drop first).length ≤ repeatedBlockers (some fingerprint) attempts := by
  have split : attempts.reverse = (attempts.drop first).reverse ++ (attempts.take first).reverse := by
    rw [← List.reverse_append, List.take_append_drop]
  have all : ∀ attempt ∈ (attempts.drop first).reverse,
      (attempt.blockerFingerprint == some fingerprint && !attempt.evidenceAdded && !attempt.meaningfulChange) = true := by
    intro attempt member
    obtain ⟨met, idle⟩ := blocked attempt (List.mem_reverse.mp member)
    rw [ProgressAttempt.progress, Bool.or_eq_false_iff] at idle
    simp [met, idle]
  rw [repeatedBlockers, split, List.takeWhile_append_of_pos all, List.length_append, List.length_reverse]
  exact Nat.le_add_right _ _

theorem assessStagnation_count (last : attempts.getLast?.bind (·.blockerFingerprint) = some fingerprint)
    (idle : ∀ attempt, attempts.getLast? = some attempt → attempt.progress = false) :
    (assessStagnation attempts).repeatedBlockerCount = repeatedBlockers (some fingerprint) attempts := by
  obtain ⟨attempt, ends, met⟩ := Option.bind_eq_some_iff.mp last
  have stuck := idle attempt ends
  rw [ProgressAttempt.progress, Bool.or_eq_false_iff] at stuck
  rw [assessStagnation, ends]
  simp only [stuck, met, Option.isNone_some, Bool.or_self, Bool.false_eq_true, if_false]
  split <;> rfl

end Blockers

/-- The turns that count as progress achieved something. -/
def OnlyAchievements (runId : RunId) (history : List Call) : Prop :=
  ∀ turn attempt, (progressAttempts (storeAfter history) runId)[turn]? = some attempt → attempt.progress = true →
    inTurn runId turn (achieves runId) Store.empty history = true

/-- Where every turn from the first on that achieved nothing met the blocker of the last, or met none and only read or had its proposal
refused, all that met it are counted. -/
def CountsAcross (runId : RunId) (history : List Call) : Prop :=
  let attempts := progressAttempts (storeAfter history) runId
  ∀ first fingerprint, attempts.getLast?.bind (·.blockerFingerprint) = some fingerprint →
    (∀ turn attempt, first ≤ turn → attempts[turn]? = some attempt → inTurn runId turn (achieves runId) Store.empty history = false ∧
      (attempt.blockerFingerprint = some fingerprint ∨
        attempt.blockerFingerprint = none ∧ inTurn runId turn (overcounts runId) Store.empty history = true)) →
    (attempts.drop first).countP (fun attempt => attempt.blockerFingerprint = some fingerprint) ≤
      (assessStagnation attempts).repeatedBlockerCount

/-- In the turns where something counts that is no achievement there is an achievement as well. -/
def NothingOvercounted (runId : RunId) (history : List Call) : Prop :=
  ∀ turn, inTurn runId turn (overcounts runId) Store.empty history = true → inTurn runId turn (achieves runId) Store.empty history = true

section Progress
variable {runId : RunId} {history : List Call}

theorem onlyAchievements_iff : OnlyAchievements runId history ↔ NothingOvercounted runId history := by
  constructor
  · intro only turn overcounted
    have counted := inTurn_mono counting_of_overcounts overcounted
    rw [← progressed_iff, Option.any_eq_true] at counted
    obtain ⟨attempt, here, progress⟩ := counted
    exact only turn attempt here progress
  · intro nothing turn attempt here progress
    have counted : inTurn runId turn (counting runId) Store.empty history = true := by
      rw [← progressed_iff, here]
      exact progress
    have either := inTurn_mono counted_of_counting counted
    rw [inTurn_or, Bool.or_eq_true] at either
    exact either.elim id (nothing turn)

theorem NothingOvercounted.countsAcross (nothing : NothingOvercounted runId history) : CountsAcross runId history := by
  intro first fingerprint last stretch
  set attempts := progressAttempts (storeAfter history) runId
  have blocked (attempt : ProgressAttempt) (turn : Nat) (later : first ≤ turn) (here : attempts[turn]? = some attempt) :
      attempt.blockerFingerprint = some fingerprint ∧ attempt.progress = false := by
    obtain ⟨idle, met⟩ := stretch turn attempt later here
    constructor
    · rcases met with met | ⟨-, overcounted⟩
      · exact met
      · rw [nothing turn overcounted] at idle
        cases idle
    · by_contra progress
      rw [onlyAchievements_iff.mpr nothing turn attempt here (by simpa using progress)] at idle
      cases idle
  by_cases reached : first < attempts.length
  · have idle (attempt : ProgressAttempt) (ends : attempts.getLast? = some attempt) : attempt.progress = false := by
      rw [List.getLast?_eq_getElem?] at ends
      exact (blocked attempt _ (by omega) ends).2
    rw [assessStagnation_count last idle]
    apply List.countP_le_length.trans
    apply repeatedBlockers_ge
    intro attempt member
    obtain ⟨i, here⟩ := List.mem_iff_getElem?.mp member
    rw [List.getElem?_drop] at here
    exact blocked attempt _ (by omega) here
  · rw [List.drop_eq_nil_of_le (by omega)]
    exact Nat.zero_le _

/-- Progress is what was achieved exactly when nothing else was done in a turn that counts. -/
theorem progress_achieved_iff (runId : RunId) (history : List Call) :
    OnlyAchievements runId history ∧ CountsAcross runId history ↔ NothingOvercounted runId history :=
  ⟨fun ⟨only, _⟩ => onlyAchievements_iff.mp only, fun nothing => ⟨onlyAchievements_iff.mpr nothing, nothing.countsAcross⟩⟩

end Progress

/-! A turn that reads a file, between two whose provider fails. -/

def sampleTurn : Call := .appendFencedEvent { lease := sampleLease "first" 1, payload := [], type := .agentTurnStarted } .epoch

def sampleOutage : Call := .appendFencedEvent { lease := sampleLease "first" 1, payload := [], type := .providerFailed } .epoch

def readOnlyTurns : List Call :=
  [sampleRun, takeSample "first" .epoch, sampleTurn, sampleOutage, sampleTurn, .recordToolIntent sampleIntent "t1" .epoch,
    .completeToolCall { lease := sampleLease "first" 1, output := some .null, toolCallId := toolCallId sampleIntent "t1" } .epoch,
    sampleTurn, sampleOutage]

/-- The read counts as progress, and of the two failures only the last is counted. -/
theorem read_only_turn_counts : ¬ OnlyAchievements sampleRunId readOnlyTurns ∧ ¬ CountsAcross sampleRunId readOnlyTurns := by
  have attempts : progressAttempts (storeAfter readOnlyTurns) sampleRunId =
      [{ blockerFingerprint := some "provider" }, { meaningfulChange := true }, { blockerFingerprint := some "provider" }] := by
    decide +kernel
  have achieved (turn : Nat) (small : turn < 3) : inTurn sampleRunId turn (achieves sampleRunId) Store.empty readOnlyTurns = false := by
    interval_cases turn <;> decide +kernel
  constructor
  · intro only
    have counts := only 1 { meaningfulChange := true } (by rw [attempts]; rfl) rfl
    rw [achieved 1 (by decide)] at counts
    cases counts
  · intro across
    rw [CountsAcross, attempts] at across
    have both := across 0 "provider" rfl fun turn attempt _ here => by
      have inside : turn < 3 := (List.getElem?_eq_some_iff.mp here).1
      refine ⟨achieved turn inside, ?_⟩
      interval_cases turn <;> obtain rfl := Option.some.inj here
      · exact .inl rfl
      · exact .inr ⟨rfl, by decide +kernel⟩
      · exact .inl rfl
    exact absurd both (by decide)

end OttiliCoder
