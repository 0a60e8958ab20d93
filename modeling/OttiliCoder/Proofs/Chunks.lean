import OttiliCoder.Context.SemanticIndex

/-! The chunks of a file: they cover every line with its exact text, and put together they are the file again. -/

namespace OttiliCoder.Semantic
open Host Relational RepoMap ContextFormat Windows

section Lines

/-- No piece between separators has one. -/
theorem not_mem_of_mem_splitOn {separator : Nat} {text piece : JsString} (listed : piece ∈ text.splitOn separator) :
    separator ∉ piece := by
  induction text generalizing piece with
  | nil =>
    rw [List.splitOn_nil, List.mem_singleton] at listed
    subst listed
    exact List.not_mem_nil
  | cons u rest ih =>
    rw [List.splitOn_cons_eq_if_modifyHead] at listed
    split at listed
    next =>
      rcases List.mem_cons.mp listed with rfl | later
      · exact List.not_mem_nil
      · exact ih later
    next apart =>
      cases pieces : rest.splitOn separator with
      | nil =>
        rw [pieces] at listed
        cases listed
      | cons first others =>
        rw [pieces, List.modifyHead_cons] at listed
        rcases List.mem_cons.mp listed with rfl | later
        · intro inside
          rcases List.mem_cons.mp inside with same | inside
          · exact apart (beq_iff_eq.mpr same.symm)
          · exact ih (pieces ▸ List.mem_cons_self) inside
        · exact ih (pieces ▸ List.mem_cons_of_mem _ later)

theorem contentLines_plain {content line : JsString} (listed : line ∈ contentLines content) : unit '\n' ∉ line :=
  not_mem_of_mem_splitOn listed

/-- The pieces between separators, with the separators between them again. -/
theorem intercalate_splitOn (separator : Nat) (text : JsString) : [separator].intercalate (text.splitOn separator) = text := by
  induction text with
  | nil => rfl
  | cons u rest ih =>
    rw [List.splitOn_cons_eq_if_modifyHead]
    obtain ⟨first, others, pieces⟩ := List.exists_cons_of_ne_nil (List.splitOn_ne_nil separator rest)
    rw [pieces] at ih ⊢
    split
    next same =>
      rw [List.intercalate_cons_cons, ih]
      simp [beq_iff_eq.mp same]
    next =>
      rw [List.modifyHead_cons]
      cases others with
      | nil =>
        rw [List.intercalate_singleton] at ih ⊢
        rw [ih]
      | cons second others =>
        rw [List.intercalate_cons_cons] at ih ⊢
        rw [← ih]
        rfl

theorem intercalate_contentLines (content : JsString) : [unit '\n'].intercalate (contentLines content) = joinLineEnds content :=
  intercalate_splitOn _ _

end Lines

section Cover
variable {platform : Platform} {options : ChunkOptions} {file : RepoMapFile}

/-- The lines of a chunk, by their numbers from 1. -/
def linesBetween (content : JsString) (startLine endLine : Nat) : List JsString :=
  ((contentLines content).drop (startLine - 1)).take (endLine + 1 - startLine)

/-- A chunk is a stretch of lines of the file: their exact text under the path of the file, with its words counted. -/
structure CutFrom (platform : Platform) (options : ChunkOptions) (file : RepoMapFile) (chunk : IndexedChunk) : Prop where
  path : chunk.path = normalizePath file.path
  ordered : 1 ≤ chunk.startLine ∧ chunk.startLine ≤ chunk.endLine
  inside : chunk.endLine ≤ (contentLines file.content).length
  bounded : chunk.endLine + 1 - chunk.startLine ≤ options.chunkLines
  text : chunk.text = [unit '\n'].intercalate (linesBetween file.content chunk.startLine chunk.endLine)
  terms : chunk.terms = countTerms platform chunk.text

theorem mem_toChunks {chunk : IndexedChunk} (listed : chunk ∈ toChunks platform file options) :
    ∃ start < (contentLines file.content).length,
      chunk = chunkOf platform (normalizePath file.path) start (window options.chunkLines (contentLines file.content) start) := by
  obtain ⟨piece, cut, rfl⟩ := List.mem_map.mp listed
  obtain ⟨start, started, rfl⟩ := List.mem_map.mp cut
  exact ⟨start, lt_of_mem_starts started, rfl⟩

theorem cutFrom_of_mem {chunk : IndexedChunk} (listed : chunk ∈ toChunks platform file options) :
    CutFrom platform options file chunk := by
  obtain ⟨start, inside, rfl⟩ := mem_toChunks listed
  have fits := options.fits
  have length : (window options.chunkLines (contentLines file.content) start).length =
      min options.chunkLines ((contentLines file.content).length - start) := by
    unfold window
    rw [List.length_take, List.length_drop]
  refine ⟨rfl, ?_, ?_, ?_, ?_, rfl⟩
  · dsimp only [chunkOf]
    omega
  · dsimp only [chunkOf]
    omega
  · dsimp only [chunkOf]
    omega
  · dsimp only [chunkOf]
    congr 1
    unfold linesBetween
    have count : start + (window options.chunkLines (contentLines file.content) start).length + 1 - (start + 1) =
        (window options.chunkLines (contentLines file.content) start).length := by omega
    rw [count, Nat.add_sub_cancel, length]
    unfold window
    rw [← List.length_drop, ← List.take_eq_take_min]

/-- What the chunks of a file are together. -/
structure CutsUp (platform : Platform) (options : ChunkOptions) (file : RepoMapFile) : Prop where
  each : ∀ chunk ∈ toChunks platform file options, CutFrom platform options file chunk
  covers : ∀ line, 1 ≤ line → line ≤ (contentLines file.content).length →
    ∃ chunk ∈ toChunks platform file options, chunk.startLine ≤ line ∧ line ≤ chunk.endLine
  /-- Put together without the lines that each shares with the chunk before it, they are the text of the file. -/
  whole : [unit '\n'].intercalate (join options.overlapLines
    ((toChunks platform file options).map fun chunk => chunk.text.splitOn (unit '\n'))) = joinLineEnds file.content

theorem toChunks_texts : (toChunks platform file options).map (fun chunk => chunk.text.splitOn (unit '\n')) =
    (windows options.chunkLines options.overlapLines (contentLines file.content)).map Prod.snd := by
  unfold toChunks
  rw [List.map_map]
  apply List.map_congr_left
  intro piece listed
  obtain ⟨start, started, rfl⟩ := List.mem_map.mp listed
  apply List.splitOn_intercalate
  · intro line cut
    exact contentLines_plain (List.mem_of_mem_drop (List.mem_of_mem_take cut))
  · have inside := lt_of_mem_starts started
    have fits := options.fits
    apply List.ne_nil_of_length_pos
    unfold window
    rw [List.length_take, List.length_drop]
    omega

/-- The chunks of a file cover it line by line, and give back its text, for whatever sizes are configured. -/
theorem toChunks_cutsUp (platform : Platform) (options : ChunkOptions) (file : RepoMapFile) : CutsUp platform options file := by
  refine ⟨fun chunk => cutFrom_of_mem, ?_, ?_⟩
  · intro line positive within
    have inside : line - 1 < (contentLines file.content).length := by omega
    obtain ⟨piece, listed, from_, before⟩ := windows_cover options.fits inside
    refine ⟨_, List.mem_map_of_mem listed, ?_, ?_⟩
    · dsimp only [chunkOf]
      omega
    · dsimp only [chunkOf]
      omega
  · rw [toChunks_texts, join_windows options.fits, intercalate_contentLines]

end Cover

end OttiliCoder.Semantic
