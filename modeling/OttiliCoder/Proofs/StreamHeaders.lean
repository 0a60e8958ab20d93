import OttiliCoder.ContextFormat.Ocf
import OttiliCoder.Proofs.Schemas
import OttiliCoder.Proofs.DeltaWires

/-! The headers and the lines of an OCF stream: what is written is read back, whatever token stands for the schema. -/

namespace OttiliCoder.ContextFormat
open Host OcfSchemaRegistry Results

/-! The two headers. -/

/-- The units of names, aliases and tokens. -/
def isTokenUnit (u : Nat) : Bool := isLetter u || isDigit u || u == unit '_' || u == unit '-'

section Headers
variable {token text : JsString} {schema : RegisteredSchema} {profile : OcfProfile} {shape : OcfShape}

theorem token_units (valid : isSchemaToken token = true) : ∀ u ∈ token, isTokenUnit u = true := by
  cases token with
  | nil => cases valid
  | cons first rest =>
    simp only [isSchemaToken, Bool.or_eq_true, Bool.and_eq_true, List.all_eq_true, beq_iff_eq] at valid
    intro u member
    simp only [isTokenUnit, Bool.or_eq_true, beq_iff_eq]
    rcases valid with ⟨head, tail⟩ | ⟨head, tail⟩
    · rcases List.mem_cons.mp member with rfl | later
      · exact .inl (.inl (.inl head))
      · exact tail u later
    · rcases List.mem_cons.mp member with rfl | later
      · exact .inl (.inl (.inr head))
      · exact .inl (.inl (.inr (tail u later)))

theorem token_filled (valid : isSchemaToken token = true) : token ≠ [] := by
  rintro rfl
  cases valid

theorem token_avoids {mark : Nat} (other : isTokenUnit mark = false) (valid : isSchemaToken token = true) : mark ∉ token := by
  intro member
  rw [token_units valid mark member] at other
  cases other

theorem token_of_identifier (valid : isIdentifier token = true) : isSchemaToken token = true := by
  cases token with
  | nil => cases valid
  | cons first rest =>
    rw [isIdentifier, Bool.and_eq_true] at valid
    rw [isSchemaToken, Bool.or_eq_true, Bool.and_eq_true]
    exact .inl valid

theorem natUnits_avoid {mark : Nat} (other : isDigit mark = false) (n : Nat) : mark ∉ natUnits n := by
  intro member
  rw [natUnits_digits n mark member] at other
  cases other

theorem isVersion_natUnits {n : Nat} (positive : 1 ≤ n) : isVersion (natUnits n) = true := by
  have digits := natUnits_digits n
  rcases digitsOf_canonical n with zero | ⟨first, rest, whole, apart⟩
  · have value := digitsValue_digitsOf n
    rw [zero] at value
    exact absurd (value ▸ positive) (by decide)
  · have spelled : natUnits n = (unit '0' + first.val) :: digitUnits rest := by
      rw [natUnits, whole]
      rfl
    rw [spelled] at digits ⊢
    have lead : unit '0' + first.val ≠ unit '0' := by
      intro same
      exact apart (Fin.ext (by simpa using same))
    simp only [isVersion, Bool.and_eq_true, bne_iff_ne, List.all_eq_true]
    exact ⟨⟨digits _ (List.mem_cons_self ..), lead⟩, fun u member => digits u (List.mem_cons_of_mem _ member)⟩

theorem idxOf_first {mark : Nat} {before after : JsString} (absent : mark ∉ before) :
    (before ++ mark :: after).idxOf mark = before.length := by
  rw [List.idxOf_append_of_notMem absent, List.idxOf_cons_self, Nat.add_zero]

/-- What stands behind the last mark. -/
theorem takeWhile_last {mark : Nat} {before after : JsString} (absent : mark ∉ after) :
    ((before ++ mark :: after).reverse.takeWhile fun u => u != mark).reverse = after := by
  have keeps : ∀ u ∈ after.reverse, (u != mark) = true := by
    intro u member
    rw [bne_iff_ne]
    rintro rfl
    exact absent (List.mem_reverse.mp member)
  rw [List.reverse_append, List.reverse_cons, List.append_assoc, List.takeWhile_append_of_pos keeps, List.singleton_append,
    List.takeWhile_cons_of_neg (by simp), List.append_nil, List.reverse_reverse]

/-- The line that names the schema is read back, whatever token stands for it. -/
theorem decodeSchemaLine_schemaLine {wires : List JsString} {version : Nat} (valid : isSchemaToken token = true)
    (positive : 1 ≤ version) (safe : version < 2 ^ 53) (filled : wires ≠ []) (named : ∀ wire ∈ wires, isSchemaToken wire = true)
    (distinct : wires.Nodup) :
    decodeSchemaLine (unit '@' :: (token ++ unit '/' :: (natUnits version ++ unit '=' :: join (unit ',') wires))) =
      .ok (token, version, wires) := by
  have noSlash : unit '/' ∉ natUnits version := natUnits_avoid (by decide) version
  have noEquals : unit '=' ∉ unit '@' :: (token ++ unit '/' :: natUnits version) := by
    rw [List.mem_cons, List.mem_append, List.mem_cons, not_or, not_or, not_or]
    exact ⟨by decide, token_avoids (by decide) valid, by decide, natUnits_avoid (by decide) version⟩
  have plainFields : unit '=' ∉ join (unit ',') wires := by
    intro member
    exact all_join (· ≠ unit '=') (by decide)
      (fun wire listed u inside same => token_avoids (by decide) (named wire listed) (same ▸ inside)) _ member rfl
  have whole : unit '@' :: (token ++ unit '/' :: (natUnits version ++ unit '=' :: join (unit ',') wires)) =
      (unit '@' :: (token ++ unit '/' :: natUnits version)) ++ unit '=' :: join (unit ',') wires := by
    simp
  have commas : ∀ wire ∈ wires, unit ',' ∉ wire := fun wire listed => token_avoids (by decide) (named wire listed)
  have split : (join (unit ',') wires).splitOn (unit ',') = wires := List.splitOn_intercalate _ commas filled
  have width := List.length_pos_iff.mpr (token_filled valid)
  have digits := List.length_pos_iff.mpr (natUnits_ne_nil version)
  have slash : (token ++ unit '/' :: natUnits version).length - (natUnits version).length - 1 = token.length := by
    rw [List.length_append, List.length_cons]
    omega
  have starts : startsWith (unit '@') ((unit '@' :: (token ++ unit '/' :: natUnits version)) ++ unit '=' :: join (unit ',') wires) =
      true := rfl
  have dropped : ((unit '@' :: (token ++ unit '/' :: natUnits version)) ++ unit '=' :: join (unit ',') wires).drop
      ((unit '@' :: (token ++ unit '/' :: natUnits version)).length + 1) = join (unit ',') wires := by
    rw [List.drop_length_add_append]
    rfl
  have plainFields' : (join (unit ',') wires).contains (unit '=') = false := by simpa using plainFields
  have slashed : (token ++ unit '/' :: natUnits version).contains (unit '/') = true := by simp
  have named' : (wires.any fun wire => !isSchemaToken wire) = false := by simpa using named
  have value := natUnits_value version
  rw [whole]
  unfold decodeSchemaLine
  simp only [starts, idxOf_first noEquals, List.take_left, List.drop_one, List.tail_cons, dropped, plainFields', slashed,
    takeWhile_last noSlash, slash, split, valid, isVersion_natUnits positive, value, named', distinct, natUnits_ne_nil,
    Bool.not_true, decide_true, Bool.false_eq_true, if_false, or_false]
  rw [if_neg (by simp only [List.length_append, List.length_cons]; omega), if_neg (by simp [Nat.pos_iff_ne_zero.mp width]),
    if_neg (Nat.not_le.mpr safe)]
  rfl

theorem streamLine_parts (profile : OcfProfile) (shape : OcfShape) :
    (streamLine profile shape).splitOn (unit '|') = [units "!ocf/1", profile.text, shape.text] := by
  cases profile <;> cases shape <;> decide

theorem profileOf_text (profile : OcfProfile) : profileOf profile.text = some profile := by cases profile <;> decide

theorem shapeOf_text (shape : OcfShape) : shapeOf shape.text = some shape := by cases shape <;> decide

theorem ValidSchema.tokenFor (valid : ValidSchema schema) (named : profile = .dense → isSchemaToken schema.id.text = true) :
    isSchemaToken (schemaTokenFor schema profile) = true := by
  unfold schemaTokenFor
  split
  next dense => exact named dense
  next => exact token_of_identifier valid.named

theorem ValidSchema.wires (valid : ValidSchema schema) (profile : OcfProfile) : wireFields schema profile ≠ [] ∧
    (∀ wire ∈ wireFields schema profile, isSchemaToken wire = true) ∧ (wireFields schema profile).Nodup := by
  refine ⟨?_, ?_, ?_⟩
  · rw [wireFields, ne_eq, List.map_eq_nil_iff]
    exact valid.filled
  · intro wire listed
    obtain ⟨field, inside, rfl⟩ := List.mem_map.mp listed
    apply token_of_identifier
    unfold wireFieldName
    split
    next => exact (valid.fieldNames field inside).2
    next => exact (valid.fieldNames field inside).1
  · by_cases readable : profile = .readable
    · subst readable
      exact valid.distinctNames
    · have compact : wireFields schema profile = schema.fields.map aliasOf := by
        simp [wireFields, wireFieldName, readable, aliasOf]
      rw [compact]
      exact valid.distinctAliases

/-- What the two headers say. -/
def headerOf (schema : RegisteredSchema) (profile : OcfProfile) (shape : OcfShape) : DecodedHeader :=
  { profile, shape, schemaToken := schemaTokenFor schema profile, version := schema.version, fields := wireFields schema profile }

theorem decodeHeaders_written (valid : ValidSchema schema) (named : profile = .dense → isSchemaToken schema.id.text = true)
    (shape : OcfShape) (lines : List JsString) :
    decodeHeaders (streamLine profile shape :: schemaLine schema profile :: lines) = .ok (headerOf schema profile shape) := by
  obtain ⟨filled, tokens, distinct⟩ := valid.wires profile
  have line := decodeSchemaLine_schemaLine (valid.tokenFor named) valid.versioned.1 valid.versioned.2 filled tokens distinct
  unfold decodeHeaders
  simp only [List.headD_cons, streamLine_parts, profileOf_text, shapeOf_text, List.tail_cons, schemaLine, line, ne_eq,
    not_true_eq_false, if_false]
  rfl

theorem decodeSchemaLine_token {line : JsString} {result : JsString × Nat × List JsString}
    (decoded : decodeSchemaLine line = .ok result) : isSchemaToken result.1 = true := by
  unfold decodeSchemaLine at decoded
  simp only [check_ok, except_pure_ok] at decoded
  obtain ⟨-, -, -, valid, -, -, -, -, rfl⟩ := decoded
  simpa using valid

/-- Whatever follows the first header, it gives the profile, and the token of the second one is no other text. -/
theorem decodeHeaders_ok {lines : List JsString} {header : DecodedHeader}
    (decoded : decodeHeaders (streamLine profile shape :: lines) = .ok header) :
    header.profile = profile ∧ isSchemaToken header.schemaToken = true := by
  unfold decodeHeaders at decoded
  simp only [List.headD_cons, streamLine_parts, profileOf_text, shapeOf_text, check_ok, except_bind_ok, except_pure_ok] at decoded
  obtain ⟨-, result, line, rfl⟩ := decoded
  exact ⟨rfl, decodeSchemaLine_token line⟩

theorem checkHeader_headerOf (schema : RegisteredSchema) (profile : OcfProfile) (shape : OcfShape) :
    checkHeader schema (headerOf schema profile shape) = .ok () := by
  unfold checkHeader headerOf
  simp

theorem checkHeader_token {header : DecodedHeader} {u : Unit} (checked : checkHeader schema header = .ok u) :
    header.schemaToken = schemaTokenFor schema header.profile := by
  unfold checkHeader at checked
  simp only [check_ok] at checked
  exact not_not.mp checked.1

end Headers

/-! The lines of a stream. -/

section Lines
variable {lines : List JsString} {text first more : JsString}

theorem parseHeader_join (long : 2 ≤ lines.length) (printable : ∀ line ∈ lines, ∀ u ∈ line, 32 ≤ u)
    (filled : ∀ line ∈ lines, line ≠ []) : parseHeader (join (unit '\n') lines) = .ok lines := by
  have some : lines ≠ [] := by
    rintro rfl
    cases long
  have cut : dropLastEmpty ((joinLineEnds (join (unit '\n') lines)).splitOn (unit '\n')) = lines := deltaLines_join some printable filled
  have text : join (unit '\n') lines ≠ [] := by
    intro empty
    exact some ((join_eq_nil filled).mp empty)
  have noReturn : (join (unit '\n') lines).contains 13 = false := by
    rw [List.contains_eq_mem, decide_eq_false_iff_not]
    intro member
    refine all_join (· ≠ 13) (by decide) (fun line listed u inside => ?_) 13 member rfl
    have visible := printable line listed u inside
    omega
  have noBlank : lines.any (· == []) = false := by
    rw [List.any_eq_false]
    intro line listed
    simpa using filled line listed
  unfold parseHeader
  simp only [check_ok, except_pure_ok, noReturn, cut, noBlank]
  exact ⟨text, by simp, by simp, Nat.not_lt.mpr long, trivial⟩

theorem joinLineEnds_first (plain : ∀ u ∈ first, u ≠ 13) :
    joinLineEnds (first ++ unit '\n' :: more) = first ++ unit '\n' :: joinLineEnds more := by
  have lineEnd : ∀ rest, joinLineEnds (unit '\n' :: rest) = unit '\n' :: joinLineEnds rest := by
    intro rest
    cases rest with
    | nil => rfl
    | cons u rest => rw [joinLineEnds, if_neg (fun both => absurd both.1 (by decide))]
  induction first with
  | nil => exact lineEnd more
  | cons u first ih =>
    have later := ih fun other member => plain other (List.mem_cons_of_mem _ member)
    have other : ∀ rest, joinLineEnds (u :: rest) = u :: joinLineEnds rest := by
      intro rest
      cases rest with
      | nil => rfl
      | cons next rest => rw [joinLineEnds, if_neg fun both => plain u (List.mem_cons_self ..) both.1]
    rw [List.cons_append, other, later, List.cons_append]

theorem parseHeader_first (plain : ∀ u ∈ first, u ≠ 13) (whole : unit '\n' ∉ first)
    (parsed : parseHeader (first ++ unit '\n' :: more) = .ok lines) : ∃ rest, lines = first :: rest := by
  unfold parseHeader at parsed
  simp only [check_ok, except_pure_ok] at parsed
  obtain ⟨-, -, -, -, rfl⟩ := parsed
  rw [joinLineEnds_first plain, List.splitOn_append_cons_self_of_not_mem whole, dropLastEmpty]
  split
  next =>
    obtain ⟨second, rest, split⟩ := List.exists_cons_of_ne_nil (List.splitOn_ne_nil (unit '\n') (joinLineEnds more))
    rw [split]
    exact ⟨_, List.dropLast_cons_cons⟩
  next => exact ⟨_, rfl⟩

end Lines

end OttiliCoder.ContextFormat
