import OttiliCoder.Library.StableSort
import OttiliCoder.Proofs.RepoMaps

/-! What the text of a repository map shows: lines under the paths of their entries, as far as the budget goes, and
when nothing is said to be missing. -/

namespace OttiliCoder.RepoMap
open Host Relational

/-! The lines of an entry. -/

/-- All that an entry has. -/
def wholeBlock (entry : RepoMapEntry) : List JsString :=
  entry.path :: (entry.symbols.map symbolLine ++ entry.references.map referenceLine)

/-- An entry with no more references than are ever displayed. -/
def cappedBlock (entry : RepoMapEntry) : List JsString :=
  entry.path :: (entry.symbols.map symbolLine ++ (entry.references.take 4).map referenceLine)

/-- Lines that stand under the paths of entries, in the order of the entries. -/
inductive Under : List RepoMapEntry → List JsString → Prop
  | nil : Under [] []
  | skipped {entries lines} (entry : RepoMapEntry) (rest : Under entries lines) : Under (entry :: entries) lines
  | shown {entries lines symbols references} (entry : RepoMapEntry) (first : symbols <+: entry.symbols.map symbolLine)
      (second : references <+: entry.references.map referenceLine) (rest : Under entries lines) :
      Under (entry :: entries) (entry.path :: (symbols ++ references) ++ lines)

theorem Under.append {first rest : List RepoMapEntry} {lines more : List JsString} (one : Under first lines) (other : Under rest more) :
    Under (first ++ rest) (lines ++ more) := by
  induction one with
  | nil => exact other
  | skipped entry _ ih => exact .skipped entry ih
  | shown entry first second _ ih =>
    rw [List.append_assoc]
    exact .shown entry first second ih

/-! What lines are taken to cost. -/

def linesCost (lines : List JsString) : Nat := (lines.map lineCost).sum

theorem linesCost_append (first rest : List JsString) : linesCost (first ++ rest) = linesCost first + linesCost rest := by
  rw [linesCost, List.map_append, List.sum_append, linesCost, linesCost]

theorem linesCost_cons (line : JsString) (rest : List JsString) : linesCost (line :: rest) = lineCost line + linesCost rest := by
  rw [linesCost, List.map_cons, List.sum_cons, linesCost]

/-- A line counts for no less than it has. -/
theorem lexicalTokens_le_lineCost (line : JsString) : lexicalTokens [] (codePoints line) ≤ lineCost line := by
  have behind : lexicalTokens [] (codePoints (unit '\n' :: line)) = lexicalTokens [] (codePoints line) := by
    rw [codePoints_plain (by decide), lexicalTokens_newline]
  rw [← behind]
  exact lexicalTokens_le _

/-- The text of a map with these lines below the header. -/
def mapText (lines : List JsString) : JsString := [unit '\n'].intercalate (header :: lines)

theorem estimateTokens_mapText (lines : List JsString) : estimateTokens (mapText lines) ≤ estimateTokens header + linesCost lines := by
  have headed : lexicalTokens [] (codePoints header) = estimateTokens header := by decide
  have joined : lexicalTokens [] (codePoints (mapText lines)) =
      estimateTokens header + (lines.map fun line => lexicalTokens [] (codePoints line)).sum := by
    rw [mapText, lexicalTokens_joined, List.map_cons, List.sum_cons, headed]
  have some : 0 < estimateTokens header := by decide
  rw [estimateTokens_of_pos (by omega), joined]
  apply Nat.add_le_add_left
  apply List.sum_le_sum
  intro line _
  exact lexicalTokens_le_lineCost line

/-! Rendering. -/

section Rendering
variable {budget maxSymbols : Nat} {rendering middle after : Rendering}

/-- The lines that have been rendered behind what was there: all of them exactly when they fit. -/
structure Reaches (budget : Nat) (rendering : Rendering) (lines reached : List JsString) (after : Rendering) : Prop where
  part : reached <+: lines
  behind : after.lines = rendering.lines ++ reached
  used : after.used = rendering.used + linesCost reached
  within : after.used ≤ budget
  truncated : after.truncated = false ↔ rendering.truncated = false ∧ rendering.used + linesCost lines ≤ budget
  whole : after.truncated = false → reached = lines

theorem renderLines_reaches (within : rendering.used ≤ budget) (lines : List JsString) :
    ∃ reached, Reaches budget rendering lines reached (renderLines budget rendering lines) := by
  induction lines generalizing rendering with
  | nil =>
    unfold renderLines
    exact ⟨[], List.prefix_rfl, (List.append_nil _).symm, rfl, within, (and_iff_left within).symm, fun _ => rfl⟩
  | cons line rest ih =>
    unfold renderLines
    split
    next beyond =>
      refine ⟨[], List.nil_prefix, (List.append_nil _).symm, rfl, within, ?_, fun complete => by cases complete⟩
      rw [linesCost_cons]
      constructor
      · intro complete
        cases complete
      · rintro ⟨_, fits⟩
        omega
    next room =>
      obtain ⟨reached, reaches⟩ := @ih { rendering with
        lines := rendering.lines ++ [line], used := rendering.used + lineCost line } (Nat.not_lt.mp room)
      refine ⟨line :: reached, List.cons_prefix_cons.mpr ⟨rfl, reaches.part⟩, ?_, ?_, reaches.within, ?_, ?_⟩
      · rw [reaches.behind, List.append_assoc]
        rfl
      · rw [reaches.used, linesCost_cons, Nat.add_assoc]
      · rw [reaches.truncated, linesCost_cons, Nat.add_assoc]
      · intro complete
        rw [reaches.whole complete]

/-- Everything is displayed of the symbols, and it fits. -/
def Fits (budget maxSymbols used : Nat) (entries : List RepoMapEntry) : Prop :=
  (∀ entry ∈ entries, entry.symbols.length ≤ maxSymbols) ∧ used + linesCost (entries.flatMap cappedBlock) ≤ budget

/-- What entries add to a rendering: their lines, all that are ever displayed exactly when these fit. -/
structure Renders (budget maxSymbols : Nat) (rendering : Rendering) (entries : List RepoMapEntry) (added : List JsString)
    (after : Rendering) : Prop where
  under : Under entries added
  behind : after.lines = rendering.lines ++ added
  used : after.used = rendering.used + linesCost added
  within : after.used ≤ budget
  truncated : after.truncated = false ↔ rendering.truncated = false ∧ Fits budget maxSymbols rendering.used entries
  capped : after.truncated = false → added = entries.flatMap cappedBlock

theorem Renders.skipped (within : rendering.used ≤ budget) {entry : RepoMapEntry} (beyond : budget < rendering.used + lineCost entry.path) :
    Renders budget maxSymbols rendering [entry] [] { rendering with truncated := true } := by
  refine ⟨.skipped entry .nil, (List.append_nil _).symm, rfl, within, ?_, fun complete => by cases complete⟩
  constructor
  · intro complete
    cases complete
  · rintro ⟨_, _, fits⟩
    rw [List.flatMap_singleton, cappedBlock, linesCost_cons] at fits
    omega

theorem Renders.shown {entry : RepoMapEntry} {symbols references : List JsString}
    (first : Reaches budget {
      lines := rendering.lines ++ [entry.path]
      used := rendering.used + lineCost entry.path
      truncated := rendering.truncated || decide ((entry.symbols.take maxSymbols).length < entry.symbols.length) }
      ((entry.symbols.take maxSymbols).map symbolLine) symbols middle)
    (second : Reaches budget middle ((entry.references.take 4).map referenceLine) references after) :
    Renders budget maxSymbols rendering [entry] (entry.path :: (symbols ++ references)) after := by
  have visible : (rendering.truncated || decide ((entry.symbols.take maxSymbols).length < entry.symbols.length)) = false ↔
      rendering.truncated = false ∧ entry.symbols.length ≤ maxSymbols := by
    simp only [Bool.or_eq_false_iff, decide_eq_false_iff_not, List.length_take]
    apply and_congr_right
    intro _
    omega
  have all : entry.symbols.length ≤ maxSymbols → entry.symbols.take maxSymbols = entry.symbols := List.take_of_length_le
  have complete : after.truncated = false → entry.symbols.length ≤ maxSymbols ∧
      symbols = entry.symbols.map symbolLine ∧ references = (entry.references.take 4).map referenceLine := by
    intro complete
    have listed := (second.truncated.mp complete).1
    have few := (visible.mp (first.truncated.mp listed).1).2
    refine ⟨few, ?_, second.whole complete⟩
    rw [first.whole listed, all few]
  refine ⟨?_, ?_, ?_, second.within, ?_, ?_⟩
  · have under := Under.shown entry (first.part.trans ((List.take_prefix ..).map _)) (second.part.trans ((List.take_prefix ..).map _)) .nil
    rwa [List.append_nil] at under
  · rw [second.behind, first.behind]
    simp only [List.append_assoc, List.cons_append, List.nil_append]
  · rw [second.used, first.used, linesCost_cons, linesCost_append]
    simp only [Nat.add_assoc]
  · have cost : linesCost ([entry].flatMap cappedBlock) = lineCost entry.path +
        (linesCost (entry.symbols.map symbolLine) + linesCost ((entry.references.take 4).map referenceLine)) := by
      rw [List.flatMap_singleton, cappedBlock, linesCost_cons, linesCost_append]
    unfold Fits
    rw [cost, List.forall_mem_singleton]
    constructor
    · intro ended
      obtain ⟨few, shown, pointed⟩ := complete ended
      obtain ⟨listed, fits⟩ := second.truncated.mp ended
      refine ⟨(visible.mp (first.truncated.mp listed).1).1, few, ?_⟩
      rw [first.used, shown] at fits
      dsimp only at fits
      omega
    · rintro ⟨clear, few, fits⟩
      have listed : middle.truncated = false := by
        rw [first.truncated, visible, all few]
        refine ⟨⟨clear, few⟩, ?_⟩
        dsimp only
        omega
      apply second.truncated.mpr
      refine ⟨listed, ?_⟩
      rw [first.used, first.whole listed, all few]
      dsimp only
      omega
  · intro ended
    obtain ⟨_, shown, pointed⟩ := complete ended
    rw [shown, pointed, List.flatMap_singleton, cappedBlock]

theorem renderEntry_renders (within : rendering.used ≤ budget) (entry : RepoMapEntry) :
    ∃ added, Renders budget maxSymbols rendering [entry] added (renderEntry budget maxSymbols rendering entry) := by
  unfold renderEntry
  split
  next beyond => exact ⟨[], .skipped within beyond⟩
  next room =>
    obtain ⟨symbols, first⟩ := @renderLines_reaches budget {
        lines := rendering.lines ++ [entry.path]
        used := rendering.used + lineCost entry.path
        truncated := rendering.truncated || decide ((entry.symbols.take maxSymbols).length < entry.symbols.length) }
      (Nat.not_lt.mp room) ((entry.symbols.take maxSymbols).map symbolLine)
    obtain ⟨references, second⟩ := renderLines_reaches first.within ((entry.references.take 4).map referenceLine)
    exact ⟨_, .shown first second⟩

theorem fits_append {used : Nat} {first rest : List RepoMapEntry} : Fits budget maxSymbols used (first ++ rest) ↔
    Fits budget maxSymbols used first ∧ Fits budget maxSymbols (used + linesCost (first.flatMap cappedBlock)) rest := by
  unfold Fits
  rw [List.forall_mem_append, List.flatMap_append, linesCost_append]
  constructor
  · rintro ⟨⟨few, others⟩, fits⟩
    exact ⟨⟨few, by omega⟩, others, by omega⟩
  · rintro ⟨⟨few, _⟩, others, fits⟩
    exact ⟨⟨few, others⟩, by omega⟩

theorem Renders.append {first rest : List RepoMapEntry} {added more : List JsString}
    (one : Renders budget maxSymbols rendering first added middle) (other : Renders budget maxSymbols middle rest more after) :
    Renders budget maxSymbols rendering (first ++ rest) (added ++ more) after := by
  refine ⟨one.under.append other.under, ?_, ?_, other.within, ?_, ?_⟩
  · rw [other.behind, one.behind, List.append_assoc]
  · rw [other.used, one.used, linesCost_append, Nat.add_assoc]
  · rw [other.truncated, fits_append, one.truncated]
    have reached : middle.truncated = false → middle.used = rendering.used + linesCost (first.flatMap cappedBlock) := by
      intro complete
      rw [one.used, one.capped complete]
    constructor
    · rintro ⟨⟨clear, fits⟩, others⟩
      rw [reached (one.truncated.mpr ⟨clear, fits⟩)] at others
      exact ⟨clear, fits, others⟩
    · rintro ⟨clear, fits, others⟩
      rw [reached (one.truncated.mpr ⟨clear, fits⟩)]
      exact ⟨⟨clear, fits⟩, others⟩
  · intro complete
    rw [List.flatMap_append, one.capped (other.truncated.mp complete).1, other.capped complete]

theorem renderEntries_renders (within : rendering.used ≤ budget) (entries : List RepoMapEntry) :
    ∃ added, Renders budget maxSymbols rendering entries added (entries.foldl (renderEntry budget maxSymbols) rendering) := by
  induction entries generalizing rendering with
  | nil =>
    refine ⟨[], .nil, (List.append_nil _).symm, rfl, within, ?_, fun _ => rfl⟩
    have none : Fits budget maxSymbols rendering.used [] := ⟨fun _ listed => (List.not_mem_nil listed).elim, within⟩
    exact (and_iff_left none).symm
  | cons entry rest ih =>
    obtain ⟨added, one⟩ := renderEntry_renders within entry
    obtain ⟨more, others⟩ := ih one.within
    exact ⟨added ++ more, one.append others⟩

/-- What is returned for entries that are rendered. -/
structure Rendered (entries : List RepoMapEntry) (budget maxSymbols : Nat) (text : JsString) (missing : Bool) : Prop where
  estimated : estimateTokens text ≤ budget
  placed : text = [] ∨ ∃ lines, Under entries lines ∧ text = mapText lines
  truncated : missing = false ↔ entries = [] ∨ Fits budget maxSymbols (estimateTokens header) entries
  capped : missing = false → entries = [] ∨ text = mapText (entries.flatMap cappedBlock)

theorem Rendered.blank {entries : List RepoMapEntry} (beyond : budget < estimateTokens header) :
    Rendered entries budget maxSymbols [] (!entries.isEmpty) := by
  have none : (!entries.isEmpty) = false ↔ entries = [] := by rw [Bool.not_eq_false', List.isEmpty_iff]
  refine ⟨Nat.zero_le _, .inl rfl, ?_, fun complete => .inl (none.mp complete)⟩
  rw [none]
  constructor
  · exact .inl
  · rintro (empty | ⟨_, fits⟩)
    · exact empty
    · omega

theorem renderWithinBudget_rendered (entries : List RepoMapEntry) (budget maxSymbols : Nat) :
    Rendered entries budget maxSymbols (renderWithinBudget entries budget maxSymbols).1 (renderWithinBudget entries budget maxSymbols).2 := by
  unfold renderWithinBudget
  split
  next zero =>
    apply Rendered.blank
    rw [zero]
    decide
  next =>
    split
    next beyond => exact .blank beyond
    next room =>
      obtain ⟨added, renders⟩ := @renderEntries_renders budget maxSymbols ⟨[header], estimateTokens header, false⟩ (Nat.not_lt.mp room) entries
      have text : [unit '\n'].intercalate (entries.foldl (renderEntry budget maxSymbols) ⟨[header], estimateTokens header, false⟩).lines =
          mapText added := by
        rw [renders.behind]
        rfl
      dsimp only
      rw [text]
      refine ⟨?_, .inr ⟨added, renders.under, rfl⟩, ?_, fun complete => .inr ?_⟩
      · have within := renders.within
        rw [renders.used] at within
        exact (estimateTokens_mapText added).trans within
      · rw [renders.truncated]
        constructor
        · rintro ⟨_, fits⟩
          exact .inr fits
        · rintro (rfl | fits)
          · exact ⟨rfl, fun _ listed => (List.not_mem_nil listed).elim, Nat.not_lt.mp room⟩
          · exact ⟨rfl, fits⟩
      · rw [renders.capped complete]

end Rendering

/-! Completeness. -/

/-- Every entry with all of its symbols and references, in the order of the entries. -/
def ShowsAll (entries : List RepoMapEntry) (text : JsString) : Prop :=
  entries = [] ∨ text = mapText (entries.flatMap wholeBlock)

section Completeness
variable {entries : List RepoMapEntry}

/-- The units that lines take, line breaks included. -/
def linesLength (lines : List JsString) : Nat := (lines.map fun line => line.length + 1).sum

theorem linesLength_append (first rest : List JsString) : linesLength (first ++ rest) = linesLength first + linesLength rest := by
  rw [linesLength, List.map_append, List.sum_append, linesLength, linesLength]

theorem joined_length (first : JsString) (lines : List JsString) :
    ([unit '\n'].intercalate (first :: lines)).length = first.length + linesLength lines := by
  induction lines generalizing first with
  | nil =>
    rw [List.intercalate_singleton]
    rfl
  | cons line rest ih =>
    rw [List.intercalate_cons_cons, List.length_append, List.length_append, ih, linesLength, linesLength, List.map_cons,
      List.sum_cons, List.length_singleton]
    omega

theorem sum_map_flatMap (f : JsString → Nat) (block : RepoMapEntry → List JsString) (entries : List RepoMapEntry) :
    ((entries.flatMap block).map f).sum = (entries.map fun entry => ((block entry).map f).sum).sum := by
  induction entries with
  | nil => rfl
  | cons entry rest ih => rw [List.flatMap_cons, List.map_append, List.sum_append, ih, List.map_cons, List.sum_cons]

theorem wholeBlock_eq (entry : RepoMapEntry) :
    wholeBlock entry = cappedBlock entry ++ (entry.references.drop 4).map referenceLine := by
  rw [wholeBlock, cappedBlock, List.cons_append, List.append_assoc, ← List.map_append, List.take_append_drop]

/-- A text without some of the references is shorter. -/
theorem mapText_whole_iff : mapText (entries.flatMap cappedBlock) = mapText (entries.flatMap wholeBlock) ↔
    ∀ entry ∈ entries, entry.references.length ≤ 4 := by
  constructor
  · intro same entry listed
    by_contra many
    have lengths := congrArg List.length same
    rw [mapText, mapText, joined_length, joined_length, linesLength, linesLength, sum_map_flatMap, sum_map_flatMap] at lengths
    have least : ∀ other ∈ entries, linesLength (cappedBlock other) ≤ linesLength (wholeBlock other) := by
      intro other _
      rw [wholeBlock_eq, linesLength_append]
      exact Nat.le_add_right _ _
    have less : linesLength (cappedBlock entry) < linesLength (wholeBlock entry) := by
      rw [wholeBlock_eq, linesLength_append]
      apply Nat.lt_add_of_pos_right
      cases rest : entry.references.drop 4 with
      | nil => exact absurd (List.drop_eq_nil_iff.mp rest) many
      | cons reference more =>
        rw [linesLength, List.map_cons, List.map_cons, List.sum_cons]
        omega
    exact (List.sum_lt_sum _ _ least ⟨entry, listed, less⟩).ne (Nat.add_left_cancel lengths)
  · intro few
    congr 1
    apply List.flatMap_congr
    intro entry listed
    rw [wholeBlock_eq, List.drop_of_length_le (few entry listed), List.map_nil, List.append_nil]

theorem complete_iff {budget maxSymbols : Nat} {text : JsString} {missing : Bool} (rendered : Rendered entries budget maxSymbols text missing) :
    (missing = false → ShowsAll entries text) ↔
      (Fits budget maxSymbols (estimateTokens header) entries → ∀ entry ∈ entries, entry.references.length ≤ 4) := by
  constructor
  · intro complete fits
    have said := rendered.truncated.mpr (.inr fits)
    rcases rendered.capped said with rfl | capped
    · exact fun _ listed => (List.not_mem_nil listed).elim
    · rcases complete said with rfl | whole
      · exact fun _ listed => (List.not_mem_nil listed).elim
      · exact mapText_whole_iff.mp (capped.symm.trans whole)
  · intro few said
    rcases rendered.truncated.mp said with empty | fits
    · exact .inl empty
    · refine (rendered.capped said).imp_right fun capped => ?_
      rw [capped]
      exact mapText_whole_iff.mpr (few fits)

end Completeness

/-! The files. -/

section Files
variable (platform : Platform) (files : List RepoMapFile)

def symbolsOf (path : JsString) : List RepoMapSymbol := ((symbolsByPath platform (normalizedFiles platform files)).get path).getD []

/-- The files that a file has edges to. -/
def referencesOf (path : JsString) : List JsString :=
  ((((repoGraph platform files).get path).map (·.keys)).getD []).insertionSort (· ≤ ·)

/-- The lines of a file, with no more references than are ever displayed. -/
def displayedLines (path : JsString) : List JsString :=
  path :: ((symbolsOf platform files path).map symbolLine ++ ((referencesOf platform files path).take 4).map referenceLine)

/-- No list of symbols is cut, and the lines of all files fit. -/
def AllDisplayed (budget maxSymbols : Nat) : Prop :=
  (∀ path ∈ mappedPaths platform files, (symbolsOf platform files path).length ≤ maxSymbols) ∧
    estimateTokens header + ((mappedPaths platform files).map fun path => linesCost (displayedLines platform files path)).sum ≤ budget

instance (budget maxSymbols : Nat) : Decidable (AllDisplayed platform files budget maxSymbols) := by
  unfold AllDisplayed
  infer_instance

end Files

/-- The map keeps to its budget, its lines stand under their entries, these are in the order of their scores, and it shows all
of them unless it is said to be truncated. -/
structure SaysWhenIncomplete (budget : Nat) (result : RepoMapResult) : Prop where
  estimated : estimateTokens result.text ≤ budget
  placed : result.text = [] ∨ ∃ lines, Under result.entries lines ∧ result.text = mapText lines
  ranked : result.entries.Pairwise fun left right => right.score ≤ left.score
  complete : result.truncated = false → ShowsAll result.entries result.text

section Maps
variable {platform : Platform} {files : List RepoMapFile} {options : RepoMapOptions} {result : RepoMapResult} {budget maxSymbols : Nat}
  {ranks : Ranks}

theorem rankedEntries_perm : (rankedEntries platform files options ranks).Perm ((mappedPaths platform files).map
    (entryOf platform options (symbolsByPath platform (normalizedFiles platform files)) (repoGraph platform files) ranks)) :=
  List.perm_insertionSort _ _

theorem Built.fits (built : Built platform files options result budget maxSymbols ranks) :
    Fits budget maxSymbols (estimateTokens header) result.entries ↔ AllDisplayed platform files budget maxSymbols := by
  rw [built.entries]
  have cost : linesCost ((rankedEntries platform files options ranks).flatMap cappedBlock) =
      ((mappedPaths platform files).map fun path => linesCost (displayedLines platform files path)).sum := by
    rw [linesCost, sum_map_flatMap, (rankedEntries_perm.map _).sum_eq, List.map_map]
    rfl
  unfold Fits AllDisplayed
  rw [cost]
  simp only [rankedEntries_perm.mem_iff, List.forall_mem_map]
  rfl

theorem Built.few (built : Built platform files options result budget maxSymbols ranks) :
    (∀ entry ∈ result.entries, entry.references.length ≤ 4) ↔
      ∀ path ∈ mappedPaths platform files, (referencesOf platform files path).length ≤ 4 := by
  rw [built.entries]
  simp only [rankedEntries_perm.mem_iff, List.forall_mem_map]
  rfl

theorem ranked_rankedEntries : (rankedEntries platform files options ranks).Pairwise fun left right => right.score ≤ left.score := by
  have transitive : IsTrans RepoMapEntry fun left right => right.score ≤ left.score := ⟨fun _ _ _ first second => second.trans first⟩
  apply StableSort.pairwise_insertionSort_of
  · rintro left right (less | ⟨same, _⟩)
    · exact le_of_lt less
    · exact same.ge
  · intro left right behind
    exact not_lt.mp fun less => behind (.inl less)

theorem saysWhenIncomplete_of_built (built : Built platform files options result budget maxSymbols ranks) :
    SaysWhenIncomplete budget result ↔ (AllDisplayed platform files budget maxSymbols →
      ∀ path ∈ mappedPaths platform files, (referencesOf platform files path).length ≤ 4) := by
  have rendered := renderWithinBudget_rendered result.entries budget maxSymbols
  rw [built.rendered] at rendered
  have complete := complete_iff rendered
  rw [built.fits, built.few] at complete
  constructor
  · exact fun honest => complete.mp honest.complete
  · intro few
    exact ⟨rendered.estimated, rendered.placed, built.entries ▸ ranked_rankedEntries, complete.mpr few⟩

/-- A map says when it is incomplete exactly when no file has edges to more than four others, or something else has to be left
out of it. -/
theorem saysWhenIncomplete_iff (built : buildRepoMap platform files options = .ok result) :
    ∃ budget maxSymbols, validateBudget options.maxTokens 2048 = .ok budget ∧ validateBudget options.maxSymbolsPerFile 24 = .ok maxSymbols ∧
      (SaysWhenIncomplete budget result ↔ (AllDisplayed platform files budget maxSymbols →
        ∀ path ∈ mappedPaths platform files, (referencesOf platform files path).length ≤ 4)) := by
  obtain ⟨budget, maxSymbols, ranks, built⟩ := buildRepoMap_ok built
  exact ⟨budget, maxSymbols, built.withBudget, built.withSymbols, saysWhenIncomplete_of_built built⟩

/-- There is a map of files with different paths. -/
theorem exists_buildRepoMap (withBudget : validateBudget options.maxTokens 2048 = .ok budget)
    (withSymbols : validateBudget options.maxSymbolsPerFile 24 = .ok maxSymbols)
    (unique : duplicateFile (normalizedFiles platform files) = none) (filled : mappedPaths platform files ≠ [])
    (distinct : (mappedPaths platform files).Nodup) : ∃ result, buildRepoMap platform files options = .ok result := by
  obtain ⟨ranks, ranked, _⟩ := pageRank_distribution (repoGraph_sound platform files) filled distinct
  unfold buildRepoMap
  rw [withBudget, withSymbols]
  simp only [bind, Except.bind, unique]
  unfold repoGraph mappedPaths at ranked
  rw [ranked]
  exact ⟨_, rfl⟩

end Maps

/-! A file that imports five others. -/

def hubFiles : List RepoMapFile :=
  ⟨units "m.ts", units "import './a';import './b';import './c';import './d';import './e'"⟩ ::
    ["a.ts", "b.ts", "c.ts", "d.ts", "e.ts"].map fun path => ⟨units path, []⟩

theorem mappedPaths_hubFiles : mappedPaths samplePlatform hubFiles = ["a.ts", "b.ts", "c.ts", "d.ts", "e.ts", "m.ts"].map units := by
  decide +kernel

/-- The map of the file and its imports leaves out a reference and is not said to be truncated. -/
theorem hub_reference_left_out : ∃ result, buildRepoMap samplePlatform hubFiles {} = .ok result ∧ result.truncated = false ∧
    ¬ShowsAll result.entries result.text := by
  obtain ⟨unique, displayed, five⟩ : duplicateFile (normalizedFiles samplePlatform hubFiles) = none ∧
      AllDisplayed samplePlatform hubFiles 2048 24 ∧ (referencesOf samplePlatform hubFiles (units "m.ts")).length = 5 := by
    decide +kernel
  have hub : units "m.ts" ∈ mappedPaths samplePlatform hubFiles := mappedPaths_hubFiles ▸ by decide
  obtain ⟨result, built⟩ := @exists_buildRepoMap samplePlatform hubFiles {} 2048 24 (by decide) (by decide) unique
    (mappedPaths_hubFiles ▸ by decide) (mappedPaths_hubFiles ▸ by decide)
  obtain ⟨budget, maxSymbols, ranks, parts⟩ := buildRepoMap_ok built
  obtain rfl : 2048 = budget := Except.ok.inj parts.withBudget
  obtain rfl : 24 = maxSymbols := Except.ok.inj parts.withSymbols
  have rendered := renderWithinBudget_rendered result.entries 2048 24
  rw [parts.rendered] at rendered
  have fits := parts.fits.mpr displayed
  refine ⟨result, built, rendered.truncated.mpr (.inr fits), fun shown => ?_⟩
  have few := (complete_iff rendered).mp (fun _ => shown) fits
  have most := parts.few.mp few (units "m.ts") hub
  omega

theorem sample_saysWhenIncomplete : ∃ result budget maxSymbols, buildRepoMap samplePlatform sampleFiles {} = .ok result ∧
    validateBudget none 2048 = .ok budget ∧ validateBudget none 24 = .ok maxSymbols ∧
      (SaysWhenIncomplete budget result ↔ (AllDisplayed samplePlatform sampleFiles budget maxSymbols →
        ∀ path ∈ mappedPaths samplePlatform sampleFiles, (referencesOf samplePlatform sampleFiles path).length ≤ 4)) := by
  obtain ⟨result, built⟩ := @exists_buildRepoMap samplePlatform sampleFiles {} 2048 24 (by decide) (by decide) (by decide) (by decide)
    (by decide)
  obtain ⟨budget, maxSymbols, withBudget, withSymbols, exactly⟩ := saysWhenIncomplete_iff built
  exact ⟨result, budget, maxSymbols, built, withBudget, withSymbols, exactly⟩

end OttiliCoder.RepoMap
