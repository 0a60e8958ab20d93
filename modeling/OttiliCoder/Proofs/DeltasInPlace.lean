import OttiliCoder.ContextFormat.InPlace
import OttiliCoder.Library.Keeping
import OttiliCoder.Proofs.Deltas
import OttiliCoder.Proofs.ValueTexts

/-! A delta applied in place: every cell that is changed was made by the application itself, so the caller's
values stay as they were, and what is returned has the hash it was asked for. -/

namespace OttiliCoder.ContextFormat.InPlace
open Host Transaction Results

/-! Cells the application has made. -/

/-- A scalar, or a reference to a cell from `first` on. -/
def Slot.Since (first : Loc) : Slot → Prop
  | .cell loc => first ≤ loc
  | _ => True

def Cell.slots : Cell → List Slot
  | .array items => items
  | .object properties => properties.entries.map (·.2)

/-- The cells there were are as they were, and no later cell refers to one of them. -/
structure Untouched (start heap : Heap) : Prop where
  kept : start <+: heap
  apart : ∀ loc cell, start.length ≤ loc → heap[loc]? = some cell → ∀ slot ∈ cell.slots, slot.Since start.length

section Untouched
variable {start heap : Heap} {loc : Loc} {cell : Cell}

theorem Untouched.refl (start : Heap) : Untouched start start where
  kept := List.prefix_refl start
  apart loc cell beyond found := by
    have inside := (List.getElem?_eq_some_iff.mp found).1
    omega

theorem Untouched.alloc (untouched : Untouched start heap) (fresh : ∀ slot ∈ cell.slots, slot.Since start.length) :
    Untouched start (heap ++ [cell]) where
  kept := untouched.kept.trans (List.prefix_append _ _)
  apart loc other beyond found := by
    by_cases inside : loc < heap.length
    · rw [List.getElem?_append_left inside] at found
      exact untouched.apart loc other beyond found
    · rw [List.getElem?_append_right (by omega)] at found
      obtain rfl : other = cell := by
        have listed := List.mem_of_getElem? found
        exact List.mem_singleton.mp listed
      exact fresh

theorem Untouched.write (untouched : Untouched start heap) (made : start.length ≤ loc)
    (fresh : ∀ slot ∈ cell.slots, slot.Since start.length) : Untouched start (heap.set loc cell) where
  kept := by
    obtain ⟨later, rfl⟩ := untouched.kept
    rw [List.set_append_right _ _ made]
    exact List.prefix_append _ _
  apart other found beyond read := by
    rw [List.getElem?_set] at read
    split at read
    · split at read
      · cases read
        exact fresh
      · cases read
    · exact untouched.apart other found beyond read

end Untouched

/-! What only reads. -/

section Reading
variable {stack : Nat} {slot : Slot}

theorem readOnly_lift {α : Type} (result : Except OcfError α) : ReadOnly (lift result) := by
  cases result with
  | ok value => exact .pure value
  | error error => exact .throw _

theorem readOnly_valueOf : ReadOnly (valueOf stack slot) := .bind .get fun _ => .expect _ _

theorem valueOf_ok {value : OcfValue} {heap after : Heap} :
    valueOf stack slot heap = .ok value after ↔ valueWithin heap stack slot = some value ∧ after = heap := by
  simp only [valueOf, bind_ok, get_ok, expect_ok]
  constructor
  · rintro ⟨_, _, ⟨rfl, rfl⟩, found, rfl⟩
    exact ⟨found, rfl⟩
  · rintro ⟨found, rfl⟩
    exact ⟨_, _, ⟨rfl, rfl⟩, found, rfl⟩

theorem lift_ok {α : Type} {result : Except OcfError α} {value : α} {heap after : Heap} :
    lift result heap = .ok value after ↔ result = .ok value ∧ after = heap := by
  cases result with
  | ok read =>
    change (pure read : HeapM α) heap = _ ↔ _
    rw [pure_ok, Except.ok.injEq, eq_comm]
  | error error =>
    constructor
    · exact fun returned => absurd returned throw_ok
    · rintro ⟨none, -⟩
      cases none

theorem readOnly_assertSlot : ReadOnly (assertSlot stack slot) := .bind readOnly_valueOf fun _ => readOnly_lift _

theorem readOnly_hashSlot {sha256 : JsString → HexDigest} : ReadOnly (hashSlot sha256 stack slot) :=
  .bind readOnly_valueOf fun _ => readOnly_lift _

theorem readOnly_readCell {loc : Loc} : ReadOnly (readCell loc) := .bind .get fun _ => .expect _ _

theorem readOnly_assertOperation {operation : Operation} : ReadOnly (assertOperation stack operation) := by
  apply ReadOnly.bind (.require _ _)
  intro _
  apply ReadOnly.bind (readOnly_lift _)
  intro _
  split
  · cases operation.value with
    | none => exact .pure _
    | some _ => exact .throw _
  · cases operation.value with
    | none => exact .throw _
    | some _ => exact readOnly_assertSlot

theorem readOnly_assertDelta {delta : Delta} : ReadOnly (assertDelta stack delta) :=
  .bind (.require _ _) fun _ => .bind (.require _ _) fun _ => .forM fun _ => readOnly_assertOperation

end Reading

/-! What changes the heap. -/

section Writing
variable {start : Heap} {stack : Nat}

theorem keeps_alloc {cell : Cell} (fresh : ∀ slot ∈ cell.slots, slot.Since start.length) :
    Keeps (Untouched start) (alloc cell) (·.Since start.length) := by
  intro heap untouched
  refine ⟨untouched.alloc fresh, ?_⟩
  intro slot after returned
  cases returned
  exact untouched.kept.length_le

theorem keeps_write {loc : Loc} {cell : Cell} (made : start.length ≤ loc)
    (fresh : ∀ slot ∈ cell.slots, slot.Since start.length) : Keeps (Untouched start) (write loc cell) fun _ => True := by
  intro heap untouched
  exact ⟨untouched.write made fresh, fun _ _ _ => trivial⟩

theorem keeps_readCell {loc : Loc} (made : start.length ≤ loc) :
    Keeps (Untouched start) (readCell loc) fun cell => ∀ slot ∈ cell.slots, slot.Since start.length := by
  intro heap untouched
  refine ⟨(readOnly_readCell heap).symm ▸ untouched, ?_⟩
  intro cell after returned
  simp only [readCell, bind_ok, get_ok, expect_ok] at returned
  obtain ⟨_, _, ⟨rfl, rfl⟩, found, rfl⟩ := returned
  exact untouched.apart loc _ made found

theorem set_since {properties : Properties} {key : JsString} {value : Slot}
    (fresh : ∀ slot ∈ (Cell.object properties).slots, slot.Since start.length) (made : value.Since start.length) :
    ∀ slot ∈ (Cell.object (properties.set key value)).slots, slot.Since start.length := by
  intro slot listed
  obtain ⟨entry, inside, rfl⟩ := List.mem_map.mp listed
  obtain same | old := Entries.mem_set inside
  · rw [same]
    exact made
  · exact fresh _ (List.mem_map_of_mem old)

theorem keeps_cloneWithin (depth : Nat) (slot : Slot) :
    Keeps (Untouched start) (cloneWithin depth slot) (·.Since start.length) := by
  induction depth generalizing slot with
  | zero => cases slot <;> first | exact .throw | exact .pure trivial
  | succ depth ih =>
    cases slot with
    | cell loc =>
      apply Keeps.check readOnly_readCell
      intro cell
      cases cell with
      | array items => exact .bind (.mapM fun item _ => ih item) fun copies made => keeps_alloc made
      | object properties =>
        have cloned : Keeps (Untouched start) (properties.entries.foldlM (fun (clone : Properties) entry => do
            return clone.set entry.1 (← cloneWithin depth entry.2)) .empty)
            fun clone => ∀ slot ∈ (Cell.object clone).slots, slot.Since start.length := by
          apply Keeps.foldlM
          · exact fun _ none => absurd none List.not_mem_nil
          · intro clone entry _ fresh
            exact .bind (ih entry.2) fun copy made => .pure (set_since fresh made)
        exact .bind cloned fun clone made => keeps_alloc made
    | _ => exact .pure trivial

theorem keeps_cloneSlot (slot : Slot) : Keeps (Untouched start) (cloneSlot stack slot) (·.Since start.length) :=
  .check readOnly_assertSlot fun _ => keeps_cloneWithin stack slot

theorem keeps_resolveParent {root : Slot} (made : root.Since start.length) (segments : List JsString) :
    Keeps (Untouched start) (resolveParent root segments) (·.1.Since start.length) := by
  induction segments generalizing root with
  | nil => exact .throw
  | cons segment rest ih =>
    cases rest with
    | nil => exact .pure made
    | cons next rest =>
      cases root with
      | cell loc =>
        apply Keeps.bind (keeps_readCell made)
        intro cell fresh
        cases cell with
        | array items =>
          apply Keeps.check (readOnly_lift _)
          intro index
          apply ih
          rw [List.getD_eq_getElem?_getD]
          cases found : items[index]? with
          | none => trivial
          | some child => exact fresh child (List.mem_of_getElem? found)
        | object properties =>
          dsimp only
          split
          · next child found =>
            exact ih (fresh child (List.mem_map_of_mem (Entries.mem_of_lookup found)))
          · exact .throw
      | _ => exact .throw

theorem keeps_applyToArray {operation : Operation} {loc : Loc} {items : List Slot} {leaf : JsString} (made : start.length ≤ loc)
    (fresh : ∀ slot ∈ items, slot.Since start.length) :
    Keeps (Untouched start) (applyToArray stack operation loc items leaf) fun _ => True := by
  apply Keeps.ite
  · intro _
    apply Keeps.check (readOnly_lift _)
    intro index
    apply Keeps.bind (keeps_cloneSlot _)
    intro value new
    apply keeps_write made
    intro slot listed
    obtain rfl | old := List.eq_or_mem_of_mem_insertIdx listed
    · exact new
    · exact fresh slot old
  · intro _
    apply Keeps.check (readOnly_lift _)
    intro index
    apply Keeps.ite
    · exact fun _ => keeps_write made fun slot listed => fresh slot (List.mem_of_mem_eraseIdx listed)
    · intro _
      apply Keeps.bind (keeps_cloneSlot _)
      intro value new
      apply keeps_write made
      intro slot listed
      obtain old | rfl := List.mem_or_eq_of_mem_set listed
      · exact fresh slot old
      · exact new

theorem keeps_applyToObject {operation : Operation} {loc : Loc} {properties : Properties} {leaf : JsString}
    (made : start.length ≤ loc) (fresh : ∀ slot ∈ (Cell.object properties).slots, slot.Since start.length) :
    Keeps (Untouched start) (applyToObject stack operation loc properties leaf) fun _ => True := by
  have set : Keeps (Untouched start) (do
      let value ← cloneSlot stack (givenValue operation)
      write loc (.object (properties.set leaf value))) fun _ => True :=
    .bind (keeps_cloneSlot _) fun value new => keeps_write made (set_since fresh new)
  have erase : Keeps (Untouched start) (write loc (.object (properties.erase leaf))) fun _ => True := by
    apply keeps_write made
    intro slot listed
    obtain ⟨entry, inside, rfl⟩ := List.mem_map.mp listed
    exact fresh _ (List.mem_map_of_mem (List.mem_of_mem_filter inside))
  apply Keeps.ite
  · exact fun _ => .check (.require _ _) fun _ => set
  · intro _
    apply Keeps.ite
    · exact fun _ => .check (.require _ _) fun _ => erase
    · exact fun _ => .check (.require _ _) fun _ => set

theorem keeps_applyOperation {root : Slot} (made : root.Since start.length) (operation : Operation) :
    Keeps (Untouched start) (applyOperation stack root operation) (·.Since start.length) := by
  apply Keeps.check (readOnly_lift _)
  intro segments
  apply Keeps.ite
  · intro _
    exact .ite (fun _ => .throw) fun _ => keeps_cloneSlot _
  · intro _
    apply Keeps.bind (keeps_resolveParent made segments)
    rintro ⟨parent, leaf⟩ new
    cases parent with
    | cell loc =>
      apply Keeps.bind (keeps_readCell new)
      intro cell fresh
      cases cell with
      | array items => exact .bind (keeps_applyToArray new fresh) fun _ _ => .pure made
      | object properties => exact .bind (keeps_applyToObject new fresh) fun _ _ => .pure made
    | _ => exact .throw

theorem keeps_applyDelta (start : Heap) (sha256 : JsString → HexDigest) (stack : Nat) (base : Slot) (delta : Delta) :
    Keeps (Untouched start) (applyDelta sha256 stack base delta) fun _ => True := by
  apply Keeps.check readOnly_assertSlot
  intro _
  apply Keeps.check readOnly_assertDelta
  intro _
  apply Keeps.check readOnly_hashSlot
  intro actualBaseHash
  apply Keeps.check (.require _ _)
  intro _
  apply Keeps.bind (keeps_cloneSlot base)
  intro clone made
  apply Keeps.bind (Keeps.foldlM made fun root operation _ since => keeps_applyOperation since operation)
  intro result _
  apply Keeps.check readOnly_hashSlot
  intro actualTargetHash
  apply Keeps.check (.require _ _)
  intro _
  exact .pure trivial

end Writing

/-! What a slot stands for. -/

theorem mapM_some {α β : Type} {f : α → Option β} {items : List α} {results : List β} :
    items.mapM f = some results ↔ List.Forall₂ (fun item result => f item = some result) items results := by
  induction items generalizing results with
  | nil => cases results <;> simp
  | cons item items ih =>
    rw [List.mapM_cons]
    cases results with
    | nil => simp [Option.bind_eq_some_iff]
    | cons first rest => simp [Option.bind_eq_some_iff, ih]

theorem entries_some {f : Slot → Option OcfValue} {entries : List (JsString × Slot)} {properties : OcfProperties} :
    entries.mapM (fun entry => (f entry.2).map (entry.1, ·)) = some properties ↔
      List.Forall₂ (fun entry property => property.1 = entry.1 ∧ f entry.2 = some property.2) entries properties := by
  rw [mapM_some]
  have one : ∀ (entry : JsString × Slot) (property : JsString × OcfValue),
      (f entry.2).map (entry.1, ·) = some property ↔ property.1 = entry.1 ∧ f entry.2 = some property.2 := by
    intro entry property
    rw [Option.map_eq_some_iff]
    constructor
    · rintro ⟨value, read, rfl⟩
      exact ⟨rfl, read⟩
    · rintro ⟨same, read⟩
      exact ⟨property.2, read, Prod.ext same.symm rfl⟩
  simp only [one]

theorem sorted_of_keys {entries : List (JsString × Slot)} {properties : OcfProperties}
    (keys : List.Forall₂ (fun entry property => property.1 = entry.1) entries properties) (sorted : Entries.Sorted entries) :
    Entries.Sorted properties := by
  induction keys with
  | nil => exact .nil
  | @cons entry property entries properties same keys ih =>
    refine List.pairwise_cons.mpr ⟨?_, ih sorted.tail⟩
    intro later listed
    rw [same]
    have above := sorted.head
    clear ih sorted
    induction keys with
    | nil => cases listed
    | cons next _ again =>
      obtain rfl | listed := List.mem_cons.mp listed
      · rw [next]
        exact above _ List.mem_cons_self
      · exact again listed fun entry inside => above entry (List.mem_cons_of_mem _ inside)

section Values
variable {heap later : Heap} {depth : Nat}

/-- What a slot stands for is not changed by cells that come later. -/
theorem valueWithin_mono (kept : heap <+: later) {slot : Slot} {value : OcfValue}
    (read : valueWithin heap depth slot = some value) : valueWithin later depth slot = some value := by
  induction depth generalizing slot value with
  | zero => cases slot <;> exact read
  | succ depth ih =>
    cases slot with
    | cell loc =>
      rw [valueWithin] at read ⊢
      cases found : heap[loc]? with
      | none => simp [found] at read
      | some cell =>
        rw [found] at read
        have same : later[loc]? = some cell := by
          obtain ⟨added, rfl⟩ := kept
          exact List.getElem?_append_left (List.getElem?_eq_some_iff.mp found).1 ▸ found
        rw [same]
        cases cell with
        | array items =>
          obtain ⟨values, each, rfl⟩ := Option.map_eq_some_iff.mp read
          rw [mapM_some] at each
          exact Option.map_eq_some_iff.mpr ⟨values, mapM_some.mpr (each.imp fun _ _ one => ih one), rfl⟩
        | object properties =>
          obtain ⟨values, each, rfl⟩ := Option.map_eq_some_iff.mp read
          rw [entries_some] at each
          refine Option.map_eq_some_iff.mpr ⟨values, entries_some.mpr (each.imp ?_), rfl⟩
          exact fun _ _ both => ⟨both.1, ih both.2⟩
    | _ => exact read

theorem valueWithin_ordered {slot : Slot} {value : OcfValue} (read : valueWithin heap depth slot = some value) : Ordered value := by
  induction depth generalizing slot value with
  | zero =>
    cases slot <;> cases read <;> constructor
  | succ depth ih =>
    cases slot with
    | cell loc =>
      rw [valueWithin] at read
      split at read
      · next items found =>
        obtain ⟨values, each, rfl⟩ := Option.map_eq_some_iff.mp read
        rw [mapM_some] at each
        exact .array (forall₂_right each fun slot item one => ih one)
      · next properties found =>
        obtain ⟨values, each, rfl⟩ := Option.map_eq_some_iff.mp read
        rw [entries_some] at each
        exact .object (sorted_of_keys (each.imp fun _ _ one => one.1) properties.sorted)
          (forall₂_right each fun _ _ one => ih one.2)
      · cases read
    | _ => cases read; constructor

end Values

/-! The application. -/

section Application
variable {sha256 : JsString → HexDigest} {stack : Nat} {heap after : Heap} {base result slot : Slot} {delta : Delta}

/-- A slot stands for a value whose text has the hash. -/
def HasHash (sha256 : JsString → HexDigest) (heap : Heap) (stack : Nat) (slot : Slot) (hash : JsString) : Prop :=
  ∃ value text, valueWithin heap stack slot = some value ∧ encodeValue value = .ok text ∧ hash = hashText sha256 text

theorem hashSlot_ok {hash : JsString} : hashSlot sha256 stack slot heap = .ok hash after ↔
    HasHash sha256 heap stack slot hash ∧ after = heap := by
  simp only [hashSlot, bind_ok, valueOf_ok, lift_ok]
  constructor
  · rintro ⟨value, _, ⟨read, rfl⟩, hashed, rfl⟩
    simp only [hashOcfValue, except_bind_ok, except_pure_ok] at hashed
    obtain ⟨_, -, text, encoded, rfl⟩ := hashed
    exact ⟨⟨value, text, read, encoded, rfl⟩, rfl⟩
  · rintro ⟨⟨value, text, read, encoded, rfl⟩, rfl⟩
    exact ⟨value, _, ⟨read, rfl⟩, hashOcfValue_ok encoded, rfl⟩

/-- What is returned was checked against both hashes. -/
theorem applyDelta_hashes (returned : applyDelta sha256 stack base delta heap = .ok result after) :
    HasHash sha256 heap stack base delta.baseHash ∧ HasHash sha256 after stack result delta.targetHash := by
  simp only [applyDelta, bind_ok, require_ok, pure_ok] at returned
  obtain ⟨_, first, asserted, _, second, checked, baseHash, third, hashed, _, _, ⟨same, rfl⟩, clone, _, cloned, root, _, applied,
    targetHash, last, rehashed, _, _, ⟨matched, rfl⟩, rfl, rfl⟩ := returned
  obtain rfl := readOnly_assertSlot.ok asserted
  obtain rfl := readOnly_assertDelta.ok checked
  obtain ⟨based, rfl⟩ := hashSlot_ok.mp hashed
  obtain ⟨targeted, rfl⟩ := hashSlot_ok.mp rehashed
  exact ⟨same ▸ based, matched ▸ targeted⟩

/-- Two values of one hash are the same up to the spelling of references, where the hash does not collide. -/
theorem spell_of_hash {value other : OcfValue} {text otherText : JsString} (ordered : Ordered value) (otherOrdered : Ordered other)
    (encoded : encodeValue value = .ok text) (otherEncoded : encodeValue other = .ok otherText)
    (injective : sha256 otherText = sha256 text → otherText = text) (same : hashText sha256 otherText = hashText sha256 text) :
    spell other = spell value := by
  have digests : sha256 otherText = sha256 text := by
    have texts := List.append_cancel_left same
    cases first : sha256 otherText
    cases second : sha256 text
    simp only [first, second] at texts
    subst texts
    rfl
  obtain rfl := injective digests
  exact (value_round_trip ⟨value, ordered⟩ otherText encoded).2 ⟨other, otherOrdered⟩ otherEncoded

end Application

/-- The application of a delta is guarded by its hashes, and it leaves every value there was as it was. -/
theorem applyDelta_guarded (sha256 : JsString → HexDigest) (stack : Nat) (heap : Heap) (base : Slot) (delta : Delta) :
    heap <+: after (applyDelta sha256 stack base delta) heap ∧
      (∀ depth slot value, valueWithin heap depth slot = some value →
        valueWithin (after (applyDelta sha256 stack base delta) heap) depth slot = some value) ∧
      (Throws (applyDelta sha256 stack base delta) heap ∨
        ∃ result later baseValue baseText value text, applyDelta sha256 stack base delta heap = .ok result later ∧
          valueWithin heap stack base = some baseValue ∧ encodeValue baseValue = .ok baseText ∧
          delta.baseHash = hashText sha256 baseText ∧
          valueWithin later stack result = some value ∧ encodeValue value = .ok text ∧
          delta.targetHash = hashText sha256 text ∧
          ∀ (other : PlainValue) otherText, encodeValue other.value = .ok otherText →
            delta.targetHash = hashText sha256 otherText → (sha256 otherText = sha256 text → otherText = text) →
            spell other.value = spell value) := by
  have kept := (keeps_applyDelta heap sha256 stack base delta heap (.refl heap)).1.kept
  refine ⟨kept, fun depth slot value read => valueWithin_mono kept read, ?_⟩
  cases outcome : applyDelta sha256 stack base delta heap with
  | error failure later => exact .inl ⟨failure, later, outcome⟩
  | ok result later =>
    obtain ⟨⟨baseValue, baseText, read, encoded, based⟩, value, text, reread, recoded, targeted⟩ := applyDelta_hashes outcome
    refine .inr ⟨result, later, baseValue, baseText, value, text, rfl, read, encoded, based, reread, recoded, targeted, ?_⟩
    intro other otherText otherEncoded same injective
    exact spell_of_hash (valueWithin_ordered reread) other.ordered recoded otherEncoded injective (same.symm.trans targeted)

/-- SHA-256 of the texts of two lists. -/
def listSha256 (text : JsString) : HexDigest :=
  if text = units "[]" then
    sampleDigest "4f53cda18c2baa0c0354bb5f9a3ecbe5ed12ab4d8e11ba873c2f11161202b945" (by decide) (by decide)
  else
    sampleDigest "748bd17385320a53a277dead96363aa67b6a4388cd72a2270dcd8632b46ae262" (by decide) (by decide)

/-- An empty list gets its first item. -/
def firstItem : Delta where
  format := units "ocf-delta/1"
  baseHash := units "sha256:4f53cda18c2baa0c0354bb5f9a3ecbe5ed12ab4d8e11ba873c2f11161202b945"
  targetHash := units "sha256:748bd17385320a53a277dead96363aa67b6a4388cd72a2270dcd8632b46ae262"
  operations := [{ op := units "add", path := units "/0", value := some .null }]

theorem firstItem_applied :
    applyDelta listSha256 9 (.cell 0) firstItem [.array []] = .ok (.cell 1) [.array [], .array [.null]] ∧
      valueWithin (after (applyDelta listSha256 9 (.cell 0) firstItem) [.array []]) 9 (.cell 0) = some (.array []) := by
  refine ⟨rfl, ?_⟩
  exact (applyDelta_guarded listSha256 9 [.array []] (.cell 0) firstItem).2.1 9 (.cell 0) (.array []) rfl

end OttiliCoder.ContextFormat.InPlace
