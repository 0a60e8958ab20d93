import OttiliCoder.ContextFormat.Delta
import OttiliCoder.Proofs.Values

/-! What applying a delta leaves of a base value, and when that is the target. -/

namespace OttiliCoder.ContextFormat
open Host Results

/-! Paths: a key escaped into a segment is read back. -/

section Paths
variable {key path : JsString} {segments : List JsString}

theorem unescapeSegment_encoded (key rest : JsString) :
    unescapeSegment (encodePathSegment key ++ rest) = (unescapeSegment rest).map (key ++ ·) := by
  induction key with
  | nil =>
    change unescapeSegment rest = _
    cases unescapeSegment rest <;> rfl
  | cons u key ih =>
    have split : encodePathSegment (u :: key) ++ rest =
        (if u = unit '~' then units "~0" else if u = unit '/' then units "~1" else [u]) ++
          (encodePathSegment key ++ rest) := by
      by_cases tilde : u = unit '~'
      · subst tilde
        rfl
      · by_cases slash : u = unit '/'
        · subst slash
          rfl
        · simp [encodePathSegment, replaceAll, tilde, slash]
    rw [split]
    split
    next tilde =>
      change (unescapeSegment (encodePathSegment key ++ rest)).map (unit '~' :: ·) = _
      rw [ih, Option.map_map, tilde]
      rfl
    next =>
      split
      next slash =>
        change (unescapeSegment (encodePathSegment key ++ rest)).map (unit '/' :: ·) = _
        rw [ih, Option.map_map, slash]
        rfl
      next tilde slash =>
        rw [List.singleton_append, unescapeSegment.eq_def]
        simp only [tilde, if_false, ih, Option.map_map]
        rfl

theorem decodePathSegment_encoded (safe : key ∉ dangerousKeys) :
    decodePathSegment (encodePathSegment key) = .ok key := by
  have read := unescapeSegment_encoded key []
  rw [List.append_nil] at read
  simp [decodePathSegment, read, unescapeSegment, safe]

theorem slash_not_mem_encoded : unit '/' ∉ encodePathSegment key := by
  simp only [encodePathSegment, replaceAll, List.mem_flatMap, not_exists, not_and]
  intro u _ inside
  split at inside
  · exact absurd inside (by decide)
  next apart => exact apart (List.mem_singleton.mp inside).symm

/-- A pointer: empty, or a slash and what follows it. -/
def IsPointer (path : JsString) : Prop := path = [] ∨ ∃ rest, path = unit '/' :: rest

theorem parsePath_joined (safe : key ∉ dangerousKeys) (pointer : IsPointer path)
    (parsed : parsePath path = .ok segments) : parsePath (joinPath [] key ++ path) = .ok (key :: segments) := by
  rcases pointer with rfl | ⟨rest, rfl⟩
  · obtain rfl : [] = segments := except_pure_ok.mp parsed
    simp only [joinPath, List.nil_append, List.append_nil, parsePath, if_true]
    rw [List.splitOn_eq_singleton slash_not_mem_encoded]
    simp [decodePathSegment_encoded safe]
  · simp only [parsePath, if_true] at parsed
    simp only [joinPath, List.nil_append, List.cons_append, parsePath, if_true]
    rw [List.splitOn_append_cons_self_of_not_mem slash_not_mem_encoded, List.mapM_cons, decodePathSegment_encoded safe]
    simp [parsed]

end Paths

/-! The operations of a part are those of the part alone, under its path. -/

def under (path : JsString) (operation : OcfDeltaOperation) : OcfDeltaOperation :=
  { operation with path := path ++ operation.path }

/-- The operations at one key of two objects. -/
def diffKey (base target : OcfProperties) (path key : JsString) : Except OcfError (List OcfDeltaOperation) :=
  match base.lookup key with
  | none => do
    let value ← cloneValue ((target.lookup key).getD .null)
    return [{ op := .add, path := joinPath path key, value := some value }]
  | some baseValue =>
    match target.lookup key with
    | none => return [{ op := .remove, path := joinPath path key }]
    | some targetValue => diff baseValue targetValue (joinPath path key)

section Under
variable {base target : OcfValue} {baseProperties targetProperties : OcfProperties} {path : JsString}

theorem diffKeys_cons (key : JsString) (keys : List JsString) :
    diffKeys baseProperties targetProperties path (key :: keys) = do
      let first ← diffKey baseProperties targetProperties path key
      let rest ← diffKeys baseProperties targetProperties path keys
      return first ++ rest := by
  rw [diffKeys, diffKey]
  split
  next missing => simp [missing]
  next found missing => simp [found, missing]
  next found other => simp [found, other]

theorem diff_of_equal (equal : valuesEqual base target = true) : diff base target path = .ok [] := by
  rw [diff.eq_def, if_pos equal]
  rfl

theorem diff_objects (apart : valuesEqual (.object baseProperties) (.object targetProperties) = false) :
    diff (.object baseProperties) (.object targetProperties) path =
      diffKeys baseProperties targetProperties path (allKeys baseProperties targetProperties) := by
  rw [diff.eq_def]
  simp [apart]

/-- One of the values is not an object. -/
def Mixed (base target : OcfValue) : Prop :=
  ∀ baseProperties targetProperties, ¬ (base = .object baseProperties ∧ target = .object targetProperties)

theorem diff_mixed (apart : valuesEqual base target = false) (mixed : Mixed base target) :
    diff base target path = replacement path target := by
  rw [diff.eq_def]
  simp only [apart, Bool.false_eq_true, if_false]
  split
  next base target => exact absurd ⟨rfl, rfl⟩ (mixed base target)
  next => rfl

/-- The three ways two values can differ. -/
theorem diff_cases (base target : OcfValue) :
    valuesEqual base target = true ∨ valuesEqual base target = false ∧ Mixed base target ∨
      ∃ baseProperties targetProperties, base = .object baseProperties ∧ target = .object targetProperties ∧
        valuesEqual base target = false := by
  cases equal : valuesEqual base target with
  | true => exact .inl rfl
  | false =>
    by_cases mixed : Mixed base target
    · exact .inr (.inl ⟨rfl, mixed⟩)
    · simp only [Mixed, not_forall, not_not] at mixed
      obtain ⟨baseProperties, targetProperties, rfl, rfl⟩ := mixed
      exact .inr (.inr ⟨_, _, rfl, rfl, rfl⟩)

/-- A fact that passes from the properties of an object to the object holds of every value. -/
theorem OcfValue.inductOnParts {motive : OcfValue → Prop}
    (step : ∀ value, (∀ properties key part, value = .object properties → properties.lookup key = some part →
      motive part) → motive value) (value : OcfValue) : motive value := by
  induction value using OcfValue.induct with
  | object properties ih =>
    apply step
    rintro _ key part ⟨⟩ found
    exact ih (key, part) (Entries.mem_of_lookup found)
  | _ =>
    apply step
    intro _ _ _ same
    cases same

theorem joinPath_append (path suffix key : JsString) : joinPath (path ++ suffix) key = path ++ joinPath suffix key := by
  simp [joinPath]

theorem diff_under (suffix : JsString) {operations : List OcfDeltaOperation}
    (found : diff base target suffix = .ok operations) :
    diff base target (path ++ suffix) = .ok (operations.map (under path)) := by
  induction base using OcfValue.inductOnParts generalizing target suffix operations with
  | step base ih =>
    rcases diff_cases base target with equal | ⟨apart, mixed⟩ | ⟨baseProperties, targetProperties, rfl, rfl, apart⟩
    · rw [diff_of_equal equal] at found ⊢
      cases found
      rfl
    · rw [diff_mixed apart mixed] at found ⊢
      simp only [replacement, except_bind_ok, except_pure_ok] at found ⊢
      obtain ⟨value, copied, rfl⟩ := found
      exact ⟨value, copied, rfl⟩
    · rw [diff_objects apart] at found ⊢
      generalize allKeys baseProperties targetProperties = keys at found
      induction keys generalizing operations with
      | nil =>
        simp only [diffKeys, except_pure_ok] at found ⊢
        rw [← found]
        rfl
      | cons key keys later =>
        simp only [diffKeys_cons, except_bind_ok, except_pure_ok] at found ⊢
        obtain ⟨first, here, rest, remaining, rfl⟩ := found
        refine ⟨first.map (under path), ?_, rest.map (under path), later remaining, by simp⟩
        unfold diffKey at here ⊢
        cases inBase : baseProperties.lookup key with
        | none =>
          simp only [inBase, except_bind_ok, except_pure_ok] at here ⊢
          obtain ⟨value, copied, rfl⟩ := here
          exact ⟨value, copied, by simp [under, joinPath_append]⟩
        | some baseValue =>
          cases inTarget : targetProperties.lookup key with
          | none =>
            simp only [inBase, inTarget, except_pure_ok] at here ⊢
            rw [← here]
            simp [under, joinPath_append]
          | some targetValue =>
            simp only [inBase, inTarget] at here ⊢
            rw [joinPath_append]
            exact ih baseProperties key baseValue rfl inBase _ here

end Under

/-! What the operations leave: the target where the values differ, the base where they are
taken to be equal. -/

mutual

def patched (base target : OcfValue) : OcfValue :=
  if valuesEqual base target then base
  else
    match base, target with
    | .object baseProperties, .object targetProperties => .object (patchedProperties baseProperties targetProperties)
    | _, _ => target
termination_by (sizeOf base, 0)

def patchedProperties (base : OcfProperties) : OcfProperties → OcfProperties
  | [] => []
  | (key, targetValue) :: rest =>
    (key, match _found : base.lookup key with
      | some baseValue => patched baseValue targetValue
      | none => targetValue) :: patchedProperties base rest
termination_by target => (sizeOf base, target.length + 1)
decreasing_by
  · exact Prod.Lex.left _ _ (sizeOf_lookup ‹_›)
  · exact Prod.Lex.right _ (by simp)

end

section Patched
variable {base target : OcfValue} {baseProperties targetProperties : OcfProperties} {key : JsString}

/-- What the base value under a key becomes. -/
def patchedValue (base : OcfProperties) (key : JsString) (target : OcfValue) : OcfValue :=
  match base.lookup key with
  | some baseValue => patched baseValue target
  | none => target

theorem patchedProperties_cons (target : OcfValue) (rest : OcfProperties) :
    patchedProperties baseProperties ((key, target) :: rest) =
      (key, patchedValue baseProperties key target) :: patchedProperties baseProperties rest := by
  rw [patchedProperties, patchedValue]
  split
  next found => simp [found]
  next missing => simp [missing]

theorem lookup_patched :
    (patchedProperties baseProperties targetProperties).lookup key =
      (targetProperties.lookup key).map (patchedValue baseProperties key) := by
  induction targetProperties with
  | nil => simp [patchedProperties]
  | cons property rest ih =>
    obtain ⟨other, target⟩ := property
    rw [patchedProperties_cons, List.lookup_cons, List.lookup_cons, ih]
    by_cases same : key = other
    · simp [same]
    · rw [beq_eq_false_iff_ne.mpr same]

theorem sorted_patched (sorted : Entries.Sorted targetProperties) :
    Entries.Sorted (patchedProperties baseProperties targetProperties) := by
  have keys : ∀ properties : OcfProperties,
      (patchedProperties baseProperties properties).map (·.1) = properties.map (·.1) := by
    intro properties
    induction properties with
    | nil => simp [patchedProperties]
    | cons property rest ih => rw [patchedProperties_cons, List.map_cons, ih]; rfl
  have pairs : ∀ properties : OcfProperties, Entries.Sorted properties ↔ (properties.map (·.1)).Pairwise (· < ·) :=
    fun properties => List.pairwise_map.symm
  rw [pairs, keys, ← pairs]
  exact sorted

theorem patched_equal (equal : valuesEqual base target = true) : patched base target = base := by
  rw [patched.eq_def, if_pos equal]

theorem patched_mixed (apart : valuesEqual base target = false) (mixed : Mixed base target) :
    patched base target = target := by
  rw [patched.eq_def]
  simp only [apart, Bool.false_eq_true, if_false]
  split
  next base target => exact absurd ⟨rfl, rfl⟩ (mixed base target)
  next => rfl

theorem patched_objects (apart : valuesEqual (.object baseProperties) (.object targetProperties) = false) :
    patched (.object baseProperties) (.object targetProperties) =
      .object (patchedProperties baseProperties targetProperties) := by
  rw [patched.eq_def]
  simp [apart]

end Patched

/-! Applying operations under a key. -/

section Applied
variable {properties : OcfProperties} {key : JsString} {value result : OcfValue}

/-- An operation a delta may carry, and which only replaces where its path is empty. -/
structure ValidOperation (operation : OcfDeltaOperation) : Prop where
  parses : ∃ segments, parsePath operation.path = .ok segments
  pointer : IsPointer operation.path
  replaces : operation.path = [] → operation.op = .replace
  carries : operation.op = .remove ∧ operation.value = none ∨
    operation.op ≠ .remove ∧ ∃ value, operation.value = some value ∧ Serializable value

theorem ValidOperation.asserted {operation : OcfDeltaOperation} (valid : ValidOperation operation) :
    assertOperation operation = .ok () := by
  obtain ⟨segments, parsed⟩ := valid.parses
  unfold assertOperation
  refine except_bind_ok.mpr ⟨segments, parsed, ?_⟩
  rcases valid.carries with ⟨removes, none⟩ | ⟨keeps, value, some, serializable⟩
  · rw [removes, none]
    rfl
  · rw [some]
    cases op : operation.op with
    | remove => exact absurd op keeps
    | add => exact (assertSerializable_ok _).mpr serializable
    | replace => exact (assertSerializable_ok _).mpr serializable

theorem ValidOperation.under {operation : OcfDeltaOperation} (valid : ValidOperation operation)
    (safe : key ∉ dangerousKeys) : ValidOperation (under (joinPath [] key) operation) := by
  obtain ⟨segments, parsed⟩ := valid.parses
  refine ⟨⟨_, parsePath_joined safe valid.pointer parsed⟩, .inr ⟨_, rfl⟩, ?_, valid.carries⟩
  intro empty
  cases empty

theorem validOperation_at {op : DeltaOp} {value : Option OcfValue} (safe : key ∉ dangerousKeys)
    (carries : op = .remove ∧ value = none ∨ op ≠ .remove ∧ ∃ carried, value = some carried ∧ Serializable carried) :
    ValidOperation { op := op, path := joinPath [] key, value := value } := by
  have parsed : parsePath (joinPath [] key ++ []) = .ok [key] := parsePath_joined safe (.inl rfl) rfl
  rw [List.append_nil] at parsed
  refine ⟨⟨_, parsed⟩, .inr ⟨_, rfl⟩, ?_, carries⟩
  intro empty
  cases empty

theorem set_lookup (sorted : Entries.Sorted properties) (found : properties.lookup key = some value) :
    Entries.set key value properties = properties := by
  apply Entries.ext (Entries.sorted_set sorted) sorted
  intro other
  rw [Entries.lookup_set sorted]
  split
  next same => rw [same, found]
  next => rfl

theorem set_set (sorted : Entries.Sorted properties) (first last : OcfValue) :
    Entries.set key last (Entries.set key first properties) = Entries.set key last properties := by
  apply Entries.ext (Entries.sorted_set (Entries.sorted_set sorted)) (Entries.sorted_set sorted)
  intro other
  rw [Entries.lookup_set (Entries.sorted_set sorted), Entries.lookup_set sorted, Entries.lookup_set sorted]
  split <;> rfl

theorem path_of_no_segments {path : JsString} (parsed : parsePath path = .ok []) : path = [] := by
  cases path with
  | nil => rfl
  | cons first rest =>
    rw [parsePath] at parsed
    split at parsed
    · cases segments : rest.splitOn (unit '/') with
      | nil => exact absurd segments (List.splitOn_ne_nil _ _)
      | cons segment more =>
        rw [segments, List.mapM_cons] at parsed
        simp only [except_bind_ok, except_pure_ok] at parsed
        obtain ⟨_, -, _, -, same⟩ := parsed
        cases same
    · exact absurd parsed except_throw_ok

theorem applyToParent_under {operation : OcfDeltaOperation} {path leaf : JsString} {parent : OcfValue}
    (applied : applyToParent operation value leaf parent = .ok result) :
    applyToParent (under path operation) value leaf parent = .ok result := by
  cases parent with
  | array items => exact applied
  | object properties => exact applied
  | _ => exact absurd applied except_throw_ok

theorem updateParent_mono {change other : JsString → OcfValue → Except OcfError OcfValue} {segments : List JsString}
    (implies : ∀ leaf parent result, change leaf parent = .ok result → other leaf parent = .ok result)
    (updated : updateParent change segments value = .ok result) : updateParent other segments value = .ok result := by
  induction segments generalizing value result with
  | nil => exact absurd updated except_throw_ok
  | cons segment rest ih =>
    cases rest with
    | nil => exact implies _ _ _ updated
    | cons next more =>
      cases value with
      | array items =>
        simp only [updateParent, except_bind_ok, except_pure_ok] at updated ⊢
        obtain ⟨index, parsed, child, changed, rfl⟩ := updated
        exact ⟨index, parsed, child, ih changed, rfl⟩
      | object properties =>
        simp only [updateParent] at updated ⊢
        split at updated
        next child found =>
          simp only [except_bind_ok, except_pure_ok] at updated ⊢
          obtain ⟨part, changed, rfl⟩ := updated
          exact ⟨part, ih changed, rfl⟩
        next => exact absurd updated except_throw_ok
      | _ => exact absurd updated except_throw_ok

/-- An operation on the part under a key is one on the object. -/
theorem applyOperation_under {operation : OcfDeltaOperation} (valid : ValidOperation operation)
    (safe : key ∉ dangerousKeys) (found : properties.lookup key = some value)
    (applied : applyOperation value operation = .ok result) :
    applyOperation (.object properties) (under (joinPath [] key) operation) =
      .ok (.object (Entries.set key result properties)) := by
  simp only [applyOperation, except_bind_ok] at applied ⊢
  obtain ⟨segments, parsed, applied⟩ := applied
  refine ⟨key :: segments, parsePath_joined safe valid.pointer parsed, ?_⟩
  rw [if_neg (by simp)]
  cases segments with
  | nil =>
    have replaces : operation.op = .replace := valid.replaces (path_of_no_segments parsed)
    rw [if_pos rfl, if_neg (by simp [replaces])] at applied
    have carried : cloneValue ((under (joinPath [] key) operation).value.getD .null) = .ok result := applied
    rw [if_neg (by simp [under, replaces])]
    refine except_bind_ok.mpr ⟨result, carried, ?_⟩
    simp [updateParent, applyToParent, under, replaces, found]
  | cons segment rest =>
    rw [if_neg (by simp)] at applied
    have lifted : ∀ carried, updateParent (applyToParent operation carried) (segment :: rest) value = .ok result →
        updateParent (applyToParent (under (joinPath [] key) operation) carried) (key :: segment :: rest)
          (.object properties) = .ok (.object (Entries.set key result properties)) := by
      intro carried updated
      simp only [updateParent, found, except_bind_ok, except_pure_ok]
      refine ⟨result, updateParent_mono ?_ updated, rfl⟩
      intro leaf parent after changed
      exact applyToParent_under changed
    split at applied
    next removes =>
      rw [if_pos (show (under (joinPath [] key) operation).op = .remove from removes)]
      exact lifted _ applied
    next keeps =>
      rw [if_neg (show (under (joinPath [] key) operation).op ≠ .remove from keeps)]
      obtain ⟨carried, same, updated⟩ := except_bind_ok.mp applied
      exact except_bind_ok.mpr ⟨carried, same, lifted carried updated⟩

theorem foldlM_under {operations : List OcfDeltaOperation} (valid : ∀ operation ∈ operations, ValidOperation operation)
    (safe : key ∉ dangerousKeys) (sorted : Entries.Sorted properties) (found : properties.lookup key = some value)
    (applied : operations.foldlM applyOperation value = .ok result) :
    (operations.map (under (joinPath [] key))).foldlM applyOperation (.object properties) =
      .ok (.object (Entries.set key result properties)) := by
  induction operations generalizing value properties with
  | nil =>
    obtain rfl : value = result := except_pure_ok.mp applied
    rw [set_lookup sorted found]
    rfl
  | cons operation rest ih =>
    rw [List.foldlM_cons] at applied
    obtain ⟨middle, first, later⟩ := except_bind_ok.mp applied
    rw [List.map_cons, List.foldlM_cons]
    refine except_bind_ok.mpr ⟨_, applyOperation_under (valid operation (by simp)) safe found first, ?_⟩
    have kept : (Entries.set key middle properties).lookup key = some middle := by
      rw [Entries.lookup_set sorted, if_pos rfl]
    have final := ih (fun other member => valid other (by simp [member])) (Entries.sorted_set sorted) kept later
    rwa [set_set sorted] at final

end Applied

/-! Applying a whole delta. -/

/-- The operations between the values are valid and lead to the patched value. -/
def Delivers (base : OcfValue) : Prop :=
  ∀ target, Serializable base → Serializable target → Ordered base → Ordered target →
    ∃ operations, diff base target [] = .ok operations ∧ (∀ operation ∈ operations, ValidOperation operation) ∧
      operations.foldlM applyOperation base = .ok (patched base target)

section Delivery
variable {base target : OcfProperties} {key : JsString}

theorem diffKey_delivers {current : OcfProperties}
    (parts : ∀ key value, base.lookup key = some value → Delivers value)
    (baseSent : Serializable (.object base)) (targetSent : Serializable (.object target))
    (baseOrdered : Ordered (.object base)) (targetOrdered : Ordered (.object target))
    (sorted : Entries.Sorted current) (here : current.lookup key = base.lookup key)
    (listed : (base.lookup key).isSome ∨ (target.lookup key).isSome) :
    ∃ operations after, diffKey base target [] key = .ok operations ∧
      (∀ operation ∈ operations, ValidOperation operation) ∧
      operations.foldlM applyOperation (.object current) = .ok (.object after) ∧ Entries.Sorted after ∧
      ∀ other, after.lookup other =
        if other = key then (target.lookup key).map (patchedValue base key) else current.lookup other := by
  cases baseSent with | object baseSafe baseEach =>
  cases targetSent with | object targetSafe targetEach =>
  cases baseOrdered with | object baseSorted basePartsOrdered =>
  cases targetOrdered with | object targetSorted targetPartsOrdered =>
  have safe : key ∉ dangerousKeys := by
    rcases listed with inBase | inTarget
    · obtain ⟨value, found⟩ := Option.isSome_iff_exists.mp inBase
      exact baseSafe (key, value) (Entries.mem_of_lookup found)
    · obtain ⟨value, found⟩ := Option.isSome_iff_exists.mp inTarget
      exact targetSafe (key, value) (Entries.mem_of_lookup found)
  have parsed : parsePath (joinPath [] key) = .ok [key] := by
    have joined := parsePath_joined safe (.inl rfl) (rfl : parsePath [] = .ok [])
    rwa [List.append_nil] at joined
  unfold diffKey
  cases inBase : base.lookup key with
  | none =>
    cases inTarget : target.lookup key with
    | none => simp [inBase, inTarget] at listed
    | some value =>
      have sent := targetEach (key, value) (Entries.mem_of_lookup inTarget)
      refine ⟨[{ op := .add, path := joinPath [] key, value := some value }], Entries.set key value current, ?_, ?_, ?_,
        Entries.sorted_set sorted, ?_⟩
      · exact except_bind_ok.mpr ⟨value, cloneValue_ok.mpr ⟨sent, rfl⟩, rfl⟩
      · intro operation member
        rw [List.mem_singleton.mp member]
        exact validOperation_at safe (.inr ⟨by simp, value, rfl, sent⟩)
      · rw [inBase] at here
        simp [applyOperation, parsed, cloneValue_ok.mpr ⟨sent, rfl⟩, updateParent, applyToParent, here]
      · intro other
        rw [Entries.lookup_set sorted]
        simp [patchedValue, inBase]
  | some baseValue =>
    cases inTarget : target.lookup key with
    | none =>
      refine ⟨_, Entries.erase key current, rfl, ?_, ?_, Entries.sorted_erase sorted, ?_⟩
      · intro operation member
        rw [List.mem_singleton.mp member]
        exact validOperation_at safe (.inl ⟨rfl, rfl⟩)
      · rw [inBase] at here
        simp [applyOperation, parsed, updateParent, applyToParent, here]
      · intro other
        rw [Entries.lookup_erase]
        simp
    | some targetValue =>
      have baseMember := Entries.mem_of_lookup inBase
      have targetMember := Entries.mem_of_lookup inTarget
      obtain ⟨operations, found, valid, applied⟩ := parts key baseValue inBase targetValue
        (baseEach _ baseMember) (targetEach _ targetMember) (basePartsOrdered _ baseMember)
        (targetPartsOrdered _ targetMember)
      refine ⟨operations.map (under (joinPath [] key)), Entries.set key (patched baseValue targetValue) current,
        ?_, ?_, ?_, Entries.sorted_set sorted, ?_⟩
      · have lifted : diff baseValue targetValue (joinPath [] key ++ []) = .ok (operations.map (under (joinPath [] key))) :=
          diff_under [] found
        rwa [List.append_nil] at lifted
      · intro operation member
        obtain ⟨inner, inside, rfl⟩ := List.mem_map.mp member
        exact (valid inner inside).under safe
      · exact foldlM_under valid safe sorted (here.trans inBase) applied
      · intro other
        rw [Entries.lookup_set sorted]
        simp [patchedValue, inBase]

theorem diffKeys_delivers {current : OcfProperties} {keys : List JsString}
    (parts : ∀ key value, base.lookup key = some value → Delivers value)
    (baseSent : Serializable (.object base)) (targetSent : Serializable (.object target))
    (baseOrdered : Ordered (.object base)) (targetOrdered : Ordered (.object target))
    (sorted : Entries.Sorted current) (distinct : keys.Nodup)
    (here : ∀ key ∈ keys, current.lookup key = base.lookup key)
    (listed : ∀ key ∈ keys, (base.lookup key).isSome ∨ (target.lookup key).isSome) :
    ∃ operations after, diffKeys base target [] keys = .ok operations ∧
      (∀ operation ∈ operations, ValidOperation operation) ∧
      operations.foldlM applyOperation (.object current) = .ok (.object after) ∧ Entries.Sorted after ∧
      ∀ key, after.lookup key =
        if key ∈ keys then (target.lookup key).map (patchedValue base key) else current.lookup key := by
  induction keys generalizing current with
  | nil => exact ⟨[], current, by simp [diffKeys], by simp, rfl, sorted, by simp⟩
  | cons key keys ih =>
    obtain ⟨fresh, distinct⟩ := List.nodup_cons.mp distinct
    obtain ⟨first, middle, found, valid, applied, middleSorted, lookups⟩ :=
      diffKey_delivers parts baseSent targetSent baseOrdered targetOrdered sorted (here key (by simp))
        (listed key (by simp))
    have untouched : ∀ other ∈ keys, middle.lookup other = base.lookup other := by
      intro other member
      have apart : other ≠ key := fun same => fresh (same ▸ member)
      rw [lookups, if_neg apart, here other (by simp [member])]
    obtain ⟨rest, after, remaining, restValid, restApplied, afterSorted, restLookups⟩ :=
      ih middleSorted distinct untouched fun other member => listed other (by simp [member])
    refine ⟨first ++ rest, after, ?_, ?_, ?_, afterSorted, ?_⟩
    · rw [diffKeys_cons]
      exact except_bind_ok.mpr ⟨first, found, except_bind_ok.mpr ⟨rest, remaining, rfl⟩⟩
    · intro operation member
      rcases List.mem_append.mp member with one | other
      · exact valid operation one
      · exact restValid operation other
    · rw [List.foldlM_append]
      exact except_bind_ok.mpr ⟨_, applied, restApplied⟩
    · intro other
      rw [restLookups, lookups]
      by_cases later : other ∈ keys
      · simp [later]
      · by_cases same : other = key
        · simp [same]
        · simp [later, same]

theorem mem_allKeys : key ∈ allKeys base target ↔ (base.lookup key).isSome ∨ (target.lookup key).isSome := by
  have listed : ∀ properties : OcfProperties, key ∈ properties.map (·.1) ↔ (properties.lookup key).isSome := by
    intro properties
    rw [← not_iff_not, Option.not_isSome_iff_eq_none, Entries.lookup_eq_none]
    simp only [List.mem_map, Prod.exists, exists_and_right, exists_eq_right, not_exists, Prod.forall]
    exact ⟨fun none _ value member same => none value (same ▸ member), fun none value member => none key value member rfl⟩
  rw [allKeys, List.mem_insertionSort, List.mem_dedup, List.mem_append, listed, listed]

theorem nodup_allKeys : (allKeys base target).Nodup := by
  rw [allKeys, (List.perm_insertionSort _ _).nodup_iff]
  exact List.nodup_dedup _

end Delivery

theorem delivers (base : OcfValue) : Delivers base := by
  induction base using OcfValue.inductOnParts with
  | step base ih =>
    intro target baseSent targetSent baseOrdered targetOrdered
    rcases diff_cases base target with equal | ⟨apart, mixed⟩ | ⟨baseProperties, targetProperties, rfl, rfl, apart⟩
    · refine ⟨[], diff_of_equal equal, by simp, ?_⟩
      rw [patched_equal equal]
      rfl
    · refine ⟨[{ op := .replace, path := [], value := some target }], ?_, ?_, ?_⟩
      · rw [diff_mixed apart mixed]
        exact except_bind_ok.mpr ⟨target, cloneValue_ok.mpr ⟨targetSent, rfl⟩, rfl⟩
      · intro operation member
        rw [List.mem_singleton.mp member]
        exact ⟨⟨[], rfl⟩, .inl rfl, fun _ => rfl, .inr ⟨by simp, target, rfl, targetSent⟩⟩
      · rw [patched_mixed apart mixed]
        simp [applyOperation, parsePath, cloneValue_ok.mpr ⟨targetSent, rfl⟩]
    · have targetSorted : Entries.Sorted targetProperties := by
        cases targetOrdered with | object sorted _ => exact sorted
      have baseSorted : Entries.Sorted baseProperties := by
        cases baseOrdered with | object sorted _ => exact sorted
      obtain ⟨operations, after, found, valid, applied, sorted, lookups⟩ :=
        diffKeys_delivers (fun key value there => ih baseProperties key value rfl there) baseSent targetSent baseOrdered
          targetOrdered baseSorted nodup_allKeys (fun _ _ => rfl) (fun key member => mem_allKeys.mp member)
      have same : after = patchedProperties baseProperties targetProperties := by
        apply Entries.ext sorted (sorted_patched targetSorted)
        intro key
        rw [lookups, lookup_patched]
        split
        next => rfl
        next absent =>
          rw [mem_allKeys, not_or, Option.not_isSome_iff_eq_none, Option.not_isSome_iff_eq_none] at absent
          rw [absent.1, absent.2]
          rfl
      rw [diff_objects apart, patched_objects apart, ← same]
      exact ⟨operations, found, valid, applied⟩

/-! When the patched value is the target. -/

/-- The value a path of keys leads to. -/
def valueAt : List JsString → OcfValue → Option OcfValue
  | [], value => some value
  | key :: keys, .object properties => (properties.lookup key).bind (valueAt keys)
  | _ :: _, _ => none

/-- Wherever a path of keys leads to values taken to be equal, they are the same: no zero
has another sign there. -/
def SameZeros (base target : OcfValue) : Prop :=
  ∀ keys baseValue targetValue, valueAt keys base = some baseValue → valueAt keys target = some targetValue →
    valuesEqual baseValue targetValue = true → baseValue = targetValue

section SameZeros
variable {base target : OcfValue} {baseProperties targetProperties : OcfProperties}

theorem sameZeros_objects (apart : valuesEqual (.object baseProperties) (.object targetProperties) = false) :
    SameZeros (.object baseProperties) (.object targetProperties) ↔
      ∀ key baseValue targetValue, baseProperties.lookup key = some baseValue →
        targetProperties.lookup key = some targetValue → SameZeros baseValue targetValue := by
  constructor
  · intro same key baseValue targetValue inBase inTarget keys first last baseAt targetAt equal
    refine same (key :: keys) first last ?_ ?_ equal
    · rw [valueAt, inBase]
      exact baseAt
    · rw [valueAt, inTarget]
      exact targetAt
  · intro parts keys first last baseAt targetAt equal
    cases keys with
    | nil =>
      cases baseAt
      cases targetAt
      rw [apart] at equal
      cases equal
    | cons key keys =>
      simp only [valueAt, Option.bind_eq_some_iff] at baseAt targetAt
      obtain ⟨baseValue, inBase, baseAt⟩ := baseAt
      obtain ⟨targetValue, inTarget, targetAt⟩ := targetAt
      exact parts key baseValue targetValue inBase inTarget keys first last baseAt targetAt equal

theorem patched_iff (baseOrdered : Ordered base) (targetOrdered : Ordered target) :
    patched base target = target ↔ SameZeros base target := by
  induction base using OcfValue.inductOnParts generalizing target with
  | step base ih =>
    rcases diff_cases base target with equal | ⟨apart, mixed⟩ | ⟨baseProperties, targetProperties, rfl, rfl, apart⟩
    · rw [patched_equal equal]
      constructor
      · rintro rfl keys first last baseAt targetAt -
        exact Option.some.inj (baseAt.symm.trans targetAt)
      · intro same
        exact same [] base target rfl rfl equal
    · rw [patched_mixed apart mixed]
      refine ⟨fun _ keys first last baseAt targetAt equal => ?_, fun _ => rfl⟩
      cases keys with
      | nil =>
        cases baseAt
        cases targetAt
        rw [apart] at equal
        cases equal
      | cons key keys =>
        cases base with
        | object baseProperties =>
          cases target with
          | object targetProperties => exact absurd ⟨rfl, rfl⟩ (mixed baseProperties targetProperties)
          | _ => cases targetAt
        | _ => cases baseAt
    · rw [patched_objects apart, sameZeros_objects apart]
      cases baseOrdered with | object baseSorted baseParts =>
      cases targetOrdered with | object targetSorted targetParts =>
      have parts : ∀ {key baseValue targetValue}, baseProperties.lookup key = some baseValue →
          targetProperties.lookup key = some targetValue →
          (patched baseValue targetValue = targetValue ↔ SameZeros baseValue targetValue) := by
        intro key baseValue targetValue inBase inTarget
        exact ih baseProperties key baseValue rfl inBase (baseParts _ (Entries.mem_of_lookup inBase))
          (targetParts _ (Entries.mem_of_lookup inTarget))
      constructor
      · intro same key baseValue targetValue inBase inTarget
        apply (parts inBase inTarget).mp
        have there : (patchedProperties baseProperties targetProperties).lookup key =
            (targetProperties.lookup key).map (patchedValue baseProperties key) := lookup_patched
        rw [OcfValue.object.inj same, inTarget, Option.map_some, patchedValue, inBase] at there
        exact (Option.some.inj there).symm
      · intro same
        congr 1
        apply Entries.ext (sorted_patched targetSorted) targetSorted
        intro key
        rw [lookup_patched]
        cases inTarget : targetProperties.lookup key with
        | none => rfl
        | some targetValue =>
          rw [Option.map_some, patchedValue]
          cases inBase : baseProperties.lookup key with
          | none => rfl
          | some baseValue => exact congrArg some ((parts inBase inTarget).mpr (same _ _ _ inBase inTarget))

end SameZeros

/-! The round trip. -/

def deltaRoundTrip (sha256 : JsString → HexDigest) (base target : OcfValue) : Except OcfError OcfValue := do
  let delta ← createDelta sha256 base target
  applyDelta sha256 base delta

section RoundTrip
variable {sha256 : JsString → HexDigest} {base target : OcfValue}

theorem forM_ok {ε α : Type} {items : List α} {body : α → Except ε Unit} (each : ∀ item ∈ items, body item = .ok ()) :
    items.forM body = .ok () := by
  induction items with
  | nil => rfl
  | cons item rest ih =>
    exact except_bind_ok.mpr ⟨(), each item (by simp), ih fun other member => each other (by simp [member])⟩

theorem isHash_hashText (text : JsString) : isHash (hashText sha256 text) = true := by
  have dropped : (hashText sha256 text).drop 7 = (sha256 text).text := by
    rw [hashText, List.drop_left' (by rfl)]
  simp [isHash, dropped, (sha256 text).length, (sha256 text).hex]
  exact List.prefix_append _ _

theorem hashOcfValue_ok {value : OcfValue} {text : JsString} (encoded : encodeValue value = .ok text) :
    hashOcfValue sha256 value = .ok (hashText sha256 text) := by
  have accepted := (assertSerializable_ok (units "$")).mpr (serializable_of_encoded encoded)
  exact except_bind_ok.mpr ⟨(), accepted, except_bind_ok.mpr ⟨text, encoded, rfl⟩⟩

/-- A delta is applied when its hashes are those of the base and of what the operations
make of it. -/
theorem applyDelta_ok {delta : OcfDelta} {result : OcfValue} :
    applyDelta sha256 base delta = .ok result ↔
      Serializable base ∧ assertDelta delta = .ok () ∧ hashOcfValue sha256 base = .ok delta.baseHash ∧
        delta.operations.foldlM applyOperation base = .ok result ∧
        hashOcfValue sha256 result = .ok delta.targetHash := by
  simp only [applyDelta, except_bind_ok]
  constructor
  · rintro ⟨_, sent, _, asserted, hash, hashed, rest⟩
    split at rest
    · simp at rest
    next same =>
      simp only [except_bind_ok, cloneValue_ok] at rest
      obtain ⟨start, ⟨-, rfl⟩, reached, applied, last, rehashed, final⟩ := rest
      split at final
      · simp only [except_bind_ok, except_throw_ok, false_and, exists_false] at final
      next matched =>
        cases except_pure_ok.mp final
        exact ⟨(assertSerializable_ok _).mp sent, asserted, by rw [hashed, not_not.mp same], applied, by rw [rehashed, not_not.mp matched]⟩
  · rintro ⟨sent, asserted, hashed, applied, rehashed⟩
    refine ⟨(), (assertSerializable_ok _).mpr sent, (), asserted, _, hashed, ?_⟩
    rw [if_neg (not_not.mpr rfl)]
    refine except_bind_ok.mpr ⟨base, cloneValue_ok.mpr ⟨sent, rfl⟩, except_bind_ok.mpr ⟨result, applied, ?_⟩⟩
    refine except_bind_ok.mpr ⟨_, rehashed, ?_⟩
    rw [if_neg (not_not.mpr rfl)]
    rfl

private theorem deltaRoundTrip_iff {baseText targetText : JsString} (baseOrdered : Ordered base)
    (targetOrdered : Ordered target) (baseEncoded : encodeValue base = .ok baseText)
    (targetEncoded : encodeValue target = .ok targetText) :
    deltaRoundTrip sha256 base target = .ok target ↔ SameZeros base target := by
  have baseSent := serializable_of_encoded baseEncoded
  have targetSent := serializable_of_encoded targetEncoded
  obtain ⟨operations, found, valid, applied⟩ := delivers base target baseSent targetSent baseOrdered targetOrdered
  have created : createDelta sha256 base target = .ok
      { format := units "ocf-delta/1", baseHash := hashText sha256 baseText
        targetHash := hashText sha256 targetText, operations } := by
    simp [createDelta, (assertSerializable_ok _).mpr baseSent, (assertSerializable_ok _).mpr targetSent, found,
      hashOcfValue_ok baseEncoded, hashOcfValue_ok targetEncoded]
  have asserted : assertDelta
      { format := units "ocf-delta/1", baseHash := hashText sha256 baseText
        targetHash := hashText sha256 targetText, operations } = .ok () := by
    simp only [assertDelta, isHash_hashText, Bool.and_self, Bool.not_true, Bool.false_eq_true, if_false, ne_eq,
      not_true_eq_false]
    exact forM_ok fun operation member => (valid operation member).asserted
  rw [← patched_iff baseOrdered targetOrdered, deltaRoundTrip, created]
  change applyDelta sha256 base _ = _ ↔ _
  rw [applyDelta_ok]
  constructor
  · rintro ⟨-, -, -, reached, -⟩
    exact Except.ok.inj (applied.symm.trans reached)
  · intro same
    rw [same] at applied
    exact ⟨baseSent, asserted, hashOcfValue_ok baseEncoded, applied, hashOcfValue_ok targetEncoded⟩

end RoundTrip

/-! A delta leads to its target exactly when no place that the differ takes to be equal
differs in the sign of a zero. -/

theorem delta_round_trip_iff (sha256 : JsString → HexDigest) (base target : PlainValue) (baseText targetText : JsString)
    (baseEncoded : encodeValue base.value = .ok baseText) (targetEncoded : encodeValue target.value = .ok targetText) :
    deltaRoundTrip sha256 base.value target.value = .ok target.value ↔ SameZeros base.value target.value :=
  deltaRoundTrip_iff base.ordered target.ordered baseEncoded targetEncoded

def zero : JsNumber := .finite ⟨0, 0, 0, by norm_num, by norm_num, by norm_num, by norm_num⟩

def plainNumber (value : JsNumber) : PlainValue := ⟨.number value, .number value⟩

def sampleDigest (text : String) (length : (units text).length = 64) (hex : (units text).all isHexUnit = true) :
    HexDigest := ⟨units text, length, hex⟩

/-- SHA-256 of the texts of the two zeros. -/
def sampleSha256 (text : JsString) : HexDigest :=
  if text = units "#0" then
    sampleDigest "9d0fd452285f3c9b43f1186cd0d32cd6d3661b1bc68c0d7224ce1be3ae3760e5" (by decide) (by decide)
  else
    sampleDigest "b77fdc3a377da6da7a02c38f513724362e596fef5f4715d0892a9f4cc7552b4b" (by decide) (by decide)

theorem encodeValue_zero : encodeValue (plainNumber zero).value = .ok (units "#0") := by
  rfl

theorem encodeValue_negativeZero : encodeValue (plainNumber .negativeZero).value = .ok (units "#-0") := by
  rfl

theorem delta_loses_negative_zero :
    ¬ ∀ (sha256 : JsString → HexDigest) (base target : PlainValue) (baseText targetText : JsString),
      encodeValue base.value = .ok baseText → encodeValue target.value = .ok targetText →
        deltaRoundTrip sha256 base.value target.value = .ok target.value := by
  intro always
  have trip := always sampleSha256 (plainNumber zero) (plainNumber .negativeZero) _ _ encodeValue_zero
    encodeValue_negativeZero
  have same := (deltaRoundTrip_iff (plainNumber zero).ordered (plainNumber .negativeZero).ordered encodeValue_zero
    encodeValue_negativeZero).mp trip
  have equal : valuesEqual (plainNumber zero).value (plainNumber .negativeZero).value = true := by rfl
  cases same [] _ _ rfl rfl equal

theorem delta_round_trip_of_zeros :
    deltaRoundTrip sampleSha256 (plainNumber zero).value (plainNumber .negativeZero).value =
        .ok (plainNumber .negativeZero).value ↔
      SameZeros (plainNumber zero).value (plainNumber .negativeZero).value :=
  delta_round_trip_iff sampleSha256 (plainNumber zero) (plainNumber .negativeZero) (units "#0") (units "#-0")
    encodeValue_zero encodeValue_negativeZero

end OttiliCoder.ContextFormat
