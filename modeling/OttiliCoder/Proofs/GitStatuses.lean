import OttiliCoder.Workspace.GitStatus

/-! Reading a status back: fields, records and pieces stay aligned whatever the paths are. -/

namespace OttiliCoder.Git
open Host

theorem splitFields_printed {fields : List JsString} (apart : ∀ field ∈ fields, unit ' ' ∉ field) (tail : JsString) :
    splitFields fields.length (fields.flatMap (· ++ [unit ' ']) ++ tail) = some (fields, tail) := by
  induction fields with
  | nil => rfl
  | cons field fields ih =>
    obtain ⟨here, later⟩ := List.forall_mem_cons.mp apart
    have plain : ∀ u ∈ field, (u != unit ' ') = true := fun u member => bne_iff_ne.mpr fun blank => here (blank ▸ member)
    rw [List.length_cons, splitFields, List.flatMap_cons, List.append_assoc, List.append_assoc, List.singleton_append,
      List.dropWhile_append_of_pos plain, List.takeWhile_append_of_pos plain]
    simp [ih later]

section Slots
variable (slot : StatusSlot)

theorem normalize_printed : normalizeStatusCharacter [slot.printed] = slot.shown := by
  cases slot with
  | unchanged => rfl
  | letter u apart =>
    apply if_neg
    intro dot
    have same : u = unit '.' := (List.cons.inj dot).1
    exact apart (by rw [same]; exact List.mem_cons_self)

theorem printed_apart : slot.printed ≠ unit ' ' ∧ slot.printed ≠ 0 := by
  cases slot with
  | unchanged => decide
  | letter u apart =>
    simp only [List.mem_cons, not_or] at apart
    exact ⟨apart.2.1, apart.2.2.1⟩

end Slots

section Tracked
variable {kind : Char} {index worktree : StatusSlot} {fields : List StatusField} {path : StatusPath} {count : Nat}

/-- A record with an XY status is read as it was printed. -/
theorem parseTracked_printed (plain : unit kind ≠ unit ' ') (counted : fields.length + 2 = count) (entryKind : GitStatusEntryKind)
    (context : String) : parseTracked entryKind (printTracked kind index worktree fields path) count context =
      .ok { kind := entryKind, path := path.text, indexStatus := index.shown, worktreeStatus := worktree.shown } := by
  have apart : ∀ field ∈ [unit kind] :: [index.printed, worktree.printed] :: fields.map (·.text), unit ' ' ∉ field := by
    intro field member
    simp only [List.mem_cons, List.mem_map] at member
    rcases member with rfl | rfl | ⟨field, -, rfl⟩
    · simpa using plain.symm
    · simpa using ⟨(printed_apart index).1.symm, (printed_apart worktree).1.symm⟩
    · exact field.noBlank
  have split := splitFields_printed apart path.text
  rw [List.length_cons, List.length_cons, List.length_map, counted] at split
  obtain ⟨first, rest, filled⟩ := List.exists_cons_of_ne_nil path.filled
  have parted : splitFieldsAndTail (printTracked kind index worktree fields path) count context =
      .ok ([unit kind] :: [index.printed, worktree.printed] :: fields.map (·.text), path.text) := by
    rw [splitFieldsAndTail, printTracked, split, filled]
  rw [parseTracked, parted]
  change Except.ok _ = _
  congr 1
  simp [charAt, normalize_printed]

theorem printTracked_apart (plain : unit kind ≠ 0) : 0 ∉ printTracked kind index worktree fields path := by
  intro inside
  rw [printTracked, List.mem_append, List.mem_flatMap] at inside
  rcases inside with ⟨field, member, inside⟩ | inside
  · simp only [List.mem_append, List.mem_singleton] at inside
    rcases inside with inside | blank
    · simp only [List.mem_cons, List.mem_map] at member
      rcases member with rfl | rfl | ⟨field, -, rfl⟩
      · exact plain (List.mem_singleton.mp inside).symm
      · simp only [List.mem_cons, List.not_mem_nil, or_false] at inside
        rcases inside with zero | zero
        · exact (printed_apart index).2 zero.symm
        · exact (printed_apart worktree).2 zero.symm
      · exact field.noNul inside
    · exact absurd blank (by decide)
  · exact path.noNul inside

end Tracked

theorem pieces_apart (record : StatusRecord) : ∀ piece ∈ record.pieces, 0 ∉ piece := by
  intro piece member
  cases record with
  | ordinary index worktree fields path =>
    obtain rfl := List.mem_singleton.mp member
    exact printTracked_apart (by decide)
  | renamedOrCopied index worktree fields path originalPath =>
    simp only [StatusRecord.pieces, List.mem_cons, List.not_mem_nil, or_false] at member
    rcases member with rfl | rfl
    · exact printTracked_apart (by decide)
    · exact originalPath.noNul
  | unmerged index worktree fields path =>
    obtain rfl := List.mem_singleton.mp member
    exact printTracked_apart (by decide)
  | untracked path | ignored path =>
    obtain rfl := List.mem_singleton.mp member
    intro inside
    rcases List.mem_append.mp inside with start | inside
    · exact absurd start (by decide)
    · exact path.noNul inside

/-- The pieces of a text in which each is followed by a NUL. -/
theorem splitOn_pieces {pieces : List JsString} (apart : ∀ piece ∈ pieces, 0 ∉ piece) (rest : JsString) :
    (pieces.flatMap (· ++ [0]) ++ rest).splitOn 0 = pieces ++ rest.splitOn 0 := by
  induction pieces with
  | nil => rfl
  | cons piece pieces ih =>
    obtain ⟨here, later⟩ := List.forall_mem_cons.mp apart
    rw [List.flatMap_cons, List.append_assoc, List.append_assoc, List.singleton_append,
      List.splitOn_append_cons_self_of_not_mem here, ih later, List.cons_append]

/-! What a record begins with says how it is read. -/

section Kinds
variable (text : JsString) (rest : List JsString)

theorem parseRecords_ordinary : parseRecords ((unit '1' :: unit ' ' :: text) :: rest) = (do
    let entry ← parseTracked .ordinary (unit '1' :: unit ' ' :: text) 8 "ordinary status"
    return entry :: (← parseRecords rest)) := by
  rw [parseRecords]
  rfl

theorem parseRecords_renamed : parseRecords ((unit '2' :: unit ' ' :: text) :: rest) = (do
    let entry ← parseTracked .renamedOrCopied (unit '2' :: unit ' ' :: text) 9 "rename/copy status"
    match rest with
    | [] | [] :: _ => .error (units "Malformed Git output: rename/copy source path is missing.")
    | originalPath :: later => return { entry with originalPath := some originalPath } :: (← parseRecords later)) := by
  rw [parseRecords.eq_def]
  rfl

theorem parseRecords_unmerged : parseRecords ((unit 'u' :: unit ' ' :: text) :: rest) = (do
    let entry ← parseTracked .unmerged (unit 'u' :: unit ' ' :: text) 10 "unmerged status"
    return entry :: (← parseRecords rest)) := by
  rw [parseRecords]
  rfl

theorem parseRecords_untracked : parseRecords ((unit '?' :: unit ' ' :: text) :: rest) =
    ({ kind := .untracked, path := text, indexStatus := units "?", worktreeStatus := units "?" } :: ·) <$> parseRecords rest := by
  rw [parseRecords]
  cases parseRecords rest <;> rfl

theorem parseRecords_ignored : parseRecords ((unit '!' :: unit ' ' :: text) :: rest) =
    ({ kind := .ignored, path := text, indexStatus := units "!", worktreeStatus := units "!" } :: ·) <$> parseRecords rest := by
  rw [parseRecords]
  cases parseRecords rest <;> rfl

theorem parseRecords_digit : parseRecords ([unit '2'] :: rest) = .error (units "Unsupported Git porcelain v2 record: 2") := by
  rw [parseRecords]
  rfl

end Kinds

/-- One record is read, and the rest goes on behind its pieces. -/
theorem parseRecords_record (record : StatusRecord) (rest : List JsString) :
    parseRecords (record.pieces ++ rest) = (record.entry :: ·) <$> parseRecords rest := by
  cases record with
  | ordinary index worktree fields path =>
    have counted : fields.fields.length + 2 = 8 := by rw [fields.counted]
    refine (parseRecords_ordinary _ _).trans ?_
    change (parseTracked .ordinary (printTracked '1' index worktree fields.fields path) 8 "ordinary status" >>= _) = _
    rw [parseTracked_printed (by decide) counted]
    rfl
  | renamedOrCopied index worktree fields path originalPath =>
    have counted : fields.fields.length + 2 = 9 := by rw [fields.counted]
    obtain ⟨first, more, filled⟩ := List.exists_cons_of_ne_nil originalPath.filled
    refine (parseRecords_renamed _ _).trans ?_
    change (parseTracked .renamedOrCopied (printTracked '2' index worktree fields.fields path) 9 "rename/copy status" >>= _) = _
    rw [parseTracked_printed (by decide) counted, filled, StatusRecord.entry, filled]
    rfl
  | unmerged index worktree fields path =>
    have counted : fields.fields.length + 2 = 10 := by rw [fields.counted]
    refine (parseRecords_unmerged _ _).trans ?_
    change (parseTracked .unmerged (printTracked 'u' index worktree fields.fields path) 10 "unmerged status" >>= _) = _
    rw [parseTracked_printed (by decide) counted]
    rfl
  | untracked path => exact parseRecords_untracked path.text rest
  | ignored path => exact parseRecords_ignored path.text rest

/-- Read records stay in front of whatever follows them. -/
theorem parseRecords_records (records : List StatusRecord) (rest : List JsString) :
    parseRecords (records.flatMap StatusRecord.pieces ++ rest) = (records.map StatusRecord.entry ++ ·) <$> parseRecords rest := by
  induction records with
  | nil =>
    rw [List.flatMap_nil, List.nil_append]
    cases parseRecords rest <;> rfl
  | cons record records ih =>
    rw [List.flatMap_cons, List.append_assoc, parseRecords_record, ih]
    cases parseRecords rest <;> rfl

theorem parse_after (records : List StatusRecord) (rest : JsString) :
    parsePorcelainV2 (printStatus records ++ rest) = (records.map StatusRecord.entry ++ ·) <$> parseRecords (rest.splitOn 0) := by
  have apart : ∀ piece ∈ records.flatMap StatusRecord.pieces, 0 ∉ piece := by
    intro piece member
    obtain ⟨record, -, inside⟩ := List.mem_flatMap.mp member
    exact pieces_apart record piece inside
  rw [parsePorcelainV2, printStatus, splitOn_pieces apart, parseRecords_records]

theorem parse_print (records : List StatusRecord) : parsePorcelainV2 (printStatus records) = .ok (records.map StatusRecord.entry) := by
  have parsed := parse_after records []
  rw [List.append_nil, List.splitOn_nil] at parsed
  rw [parsed]
  change Except.ok (records.map StatusRecord.entry ++ []) = _
  rw [List.append_nil]

/-- A record that begins like a rename and has no source behind it is refused. -/
theorem parseRecords_cut {cut : JsString} {rest : List JsString} (missing : rest = [] ∨ rest = [[]]) :
    ∃ message, parseRecords ((unit '2' :: unit ' ' :: cut) :: rest) = .error message := by
  rw [parseRecords_renamed]
  cases parseTracked .renamedOrCopied (unit '2' :: unit ' ' :: cut) 9 "rename/copy status" with
  | error message => exact ⟨message, rfl⟩
  | ok entry => rcases missing with rfl | rfl <;> exact ⟨_, rfl⟩

/-- A status cut off in the first piece of a final rename, or right behind it, is refused. -/
theorem parse_cut (records : List StatusRecord) (index worktree : StatusSlot) (fields : StatusFields 7) (path : StatusPath)
    {cut : JsString} (filled : cut ≠ []) (inside : cut <+: printTracked '2' index worktree fields.fields path ++ [0]) :
    ∃ message, parsePorcelainV2 (printStatus records ++ cut) = .error message := by
  suffices refused : ∃ message, parseRecords (cut.splitOn 0) = .error message by
    obtain ⟨message, refused⟩ := refused
    exact ⟨message, by rw [parse_after, refused]; rfl⟩
  have apart : 0 ∉ printTracked '2' index worktree fields.fields path := printTracked_apart (by decide)
  have begins (text : JsString) (part : text <+: printTracked '2' index worktree fields.fields path) (some : text ≠ [])
      {rest : List JsString} (missing : rest = [] ∨ rest = [[]]) : ∃ message, parseRecords (text :: rest) = .error message := by
    match text, part, some with
    | [u], ⟨rest, whole⟩, _ =>
      obtain rfl : u = unit '2' := (List.cons.inj whole).1
      exact ⟨_, parseRecords_digit _⟩
    | u :: second :: text, ⟨rest, whole⟩, _ =>
      obtain ⟨first, later⟩ := List.cons.inj whole
      obtain rfl : second = unit ' ' := (List.cons.inj later).1
      obtain rfl : u = unit '2' := first
      exact parseRecords_cut missing
  rcases List.prefix_concat_iff.mp inside with whole | part
  · rw [whole, List.splitOn_append_cons_self_of_not_mem apart, List.splitOn_nil]
    exact begins _ (List.prefix_refl _) (List.cons_ne_nil _ _) (.inr rfl)
  · have plain : 0 ∉ cut := fun zero => apart (part.subset zero)
    rw [List.splitOn_eq_singleton plain]
    exact begins cut part filled (.inl rfl)

/-- What git prints is read back exactly, and a status that ends in the middle of a rename is refused. -/
theorem status_round_trip (records : List StatusRecord) : parsePorcelainV2 (printStatus records) = .ok (records.map StatusRecord.entry) ∧
    ∀ (index worktree : StatusSlot) (fields : StatusFields 7) (path : StatusPath) (cut : JsString), cut ≠ [] →
      cut <+: printTracked '2' index worktree fields.fields path ++ [0] →
        ∃ message, parsePorcelainV2 (printStatus records ++ cut) = .error message := by
  refine ⟨parse_print records, ?_⟩
  intro index worktree fields path cut filled inside
  exact parse_cut records index worktree fields path filled inside

end OttiliCoder.Git
