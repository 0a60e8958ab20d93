import Mathlib.Data.List.Nodup
import Mathlib.Order.Defs.LinearOrder
import Mathlib.Order.Basic
import Mathlib.Order.Lattice

/-! Finite maps as lists of entries in the order of their keys: one list for each map. -/

namespace Entries
variable {κ ν : Type}

section Lookup
variable [BEq κ] [LawfulBEq κ] {key : κ} {value : ν} {entries : List (κ × ν)}

def erase (key : κ) (entries : List (κ × ν)) : List (κ × ν) := entries.filter fun entry => entry.1 != key

theorem mem_of_lookup (found : entries.lookup key = some value) : (key, value) ∈ entries := by
  obtain ⟨before, after, rfl, -⟩ := List.lookup_eq_some_iff.mp found
  simp

theorem lookup_eq_none : entries.lookup key = none ↔ ∀ entry ∈ entries, entry.1 ≠ key := by
  rw [List.lookup_eq_none_iff]
  constructor
  · intro none entry member same
    have apart := none entry member
    simp [same] at apart
  · intro none entry member
    simp only [bne_iff_ne, ne_eq]
    exact fun same => none entry member same.symm

theorem mem_erase {entry : κ × ν} : entry ∈ erase key entries ↔ entry ∈ entries ∧ entry.1 ≠ key := by
  simp [erase]

/-- Where no two entries share a key, erasing a key takes one entry out. -/
theorem perm_erase (keys : (entries.map Prod.fst).Nodup) (member : (key, value) ∈ entries) :
    entries.Perm ((key, value) :: erase key entries) := by
  have whole := List.Nodup.of_map Prod.fst keys
  refine (List.perm_ext_iff_of_nodup whole ?_).mpr ?_
  · refine List.nodup_cons.mpr ⟨fun listed => (mem_erase.mp listed).2 rfl, whole.filter _⟩
  · intro entry
    rw [List.mem_cons, mem_erase]
    constructor
    · intro listed
      by_cases same : entry.1 = key
      · exact .inl (List.inj_on_of_nodup_map keys listed member same)
      · exact .inr ⟨listed, same⟩
    · rintro (rfl | ⟨listed, _⟩)
      · exact member
      · exact listed

end Lookup

section Order
variable [LinearOrder κ] {key : κ} {value : ν} {entry : κ × ν} {entries rest : List (κ × ν)}

/-- The keys go up strictly. -/
def Sorted (entries : List (κ × ν)) : Prop := entries.Pairwise fun entry other => entry.1 < other.1

def set (key : κ) (value : ν) : List (κ × ν) → List (κ × ν)
  | [] => [(key, value)]
  | entry :: rest =>
    if key < entry.1 then (key, value) :: entry :: rest
    else if key = entry.1 then (key, value) :: rest
    else entry :: set key value rest

attribute [grind =] set

theorem Sorted.head (sorted : Sorted (entry :: rest)) : ∀ later ∈ rest, entry.1 < later.1 :=
  (List.pairwise_cons.mp sorted).1

theorem Sorted.tail (sorted : Sorted (entry :: rest)) : Sorted rest := (List.pairwise_cons.mp sorted).2

theorem mem_set (member : entry ∈ set key value entries) : entry = (key, value) ∨ entry ∈ entries := by
  induction entries with
  | nil => exact .inl (by simpa [set] using member)
  | cons first rest ih =>
    unfold set at member
    split at member
    · rcases List.mem_cons.mp member with same | old
      · exact .inl same
      · exact .inr old
    · split at member
      · rcases List.mem_cons.mp member with same | old
        · exact .inl same
        · exact .inr (by simp [old])
      · rcases List.mem_cons.mp member with same | old
        · exact .inr (by simp [same])
        · rcases ih old with same | later
          · exact .inl same
          · exact .inr (by simp [later])

theorem sorted_set (sorted : Sorted entries) : Sorted (set key value entries) := by
  induction entries with
  | nil => simp [set, Sorted]
  | cons first rest ih =>
    unfold set
    split
    next before =>
      refine List.pairwise_cons.mpr ⟨fun later member => ?_, sorted⟩
      rcases List.mem_cons.mp member with rfl | inside
      · exact before
      · exact before.trans (sorted.head later inside)
    next notBefore =>
      split
      next same => exact List.pairwise_cons.mpr ⟨fun later member => same ▸ sorted.head later member, sorted.tail⟩
      next apart =>
        refine List.pairwise_cons.mpr ⟨fun later member => ?_, ih sorted.tail⟩
        rcases mem_set member with rfl | inside
        · exact lt_of_le_of_ne (not_lt.mp notBefore) (Ne.symm apart)
        · exact sorted.head later inside

/-- A key greater than all others comes last. -/
theorem set_last (greater : ∀ entry ∈ entries, entry.1 < key) : set key value entries = entries ++ [(key, value)] := by
  induction entries with
  | nil => rfl
  | cons first rest ih =>
    have before := greater first (List.mem_cons_self ..)
    rw [set, if_neg (not_lt.mpr before.le), if_neg (Ne.symm before.ne),
      ih fun entry member => greater entry (List.mem_cons_of_mem _ member), List.cons_append]

theorem sorted_erase [BEq κ] (sorted : Sorted entries) : Sorted (erase key entries) := sorted.filter _

end Order

section Maps
variable [LinearOrder κ] [BEq κ] [LawfulBEq κ] {key other : κ} {value : ν} {entries : List (κ × ν)}

theorem lookup_of_mem (sorted : Sorted entries) (member : (key, value) ∈ entries) :
    entries.lookup key = some value := by
  induction entries with
  | nil => cases member
  | cons entry rest ih =>
    rw [List.lookup_cons]
    rcases List.mem_cons.mp member with rfl | later
    · simp
    · have apart : key ≠ entry.1 := (sorted.head _ later).ne'
      simp only [beq_eq_false_iff_ne.mpr apart]
      exact ih sorted.tail later

theorem lookup_set (sorted : Sorted entries) :
    (set key value entries).lookup other = if other = key then some value else entries.lookup other := by
  induction entries with
  | nil =>
    by_cases same : other = key
    · simp [set, same]
    · rw [set, List.lookup_cons, beq_eq_false_iff_ne.mpr same, if_neg same]
  | cons entry rest ih =>
    unfold set
    split
    · by_cases same : other = key
      · simp [same]
      · rw [List.lookup_cons, beq_eq_false_iff_ne.mpr same, if_neg same]
    · split
      next same =>
        by_cases mine : other = key
        · simp [mine]
        · have apart : other ≠ entry.1 := fun equal => mine (equal.trans same.symm)
          rw [List.lookup_cons, beq_eq_false_iff_ne.mpr mine, if_neg mine, List.lookup_cons,
            beq_eq_false_iff_ne.mpr apart]
      next apart =>
        rw [List.lookup_cons, ih sorted.tail, List.lookup_cons]
        by_cases first : other = entry.1
        · have : other ≠ key := fun equal => apart (equal.symm.trans first)
          simp [first] at this ⊢
          simp [this]
        · rw [beq_eq_false_iff_ne.mpr first]

theorem lookup_erase : (erase key entries).lookup other = if other = key then none else entries.lookup other := by
  induction entries with
  | nil => simp [erase]
  | cons entry rest ih =>
    unfold erase at ih ⊢
    rw [List.filter_cons]
    by_cases mine : entry.1 = key
    · rw [if_neg (by simp [mine]), ih, List.lookup_cons]
      by_cases same : other = key
      · simp [same]
      · have apart : other ≠ entry.1 := fun equal => same (equal.trans mine)
        rw [if_neg same, if_neg same, beq_eq_false_iff_ne.mpr apart]
    · rw [if_pos (by simp [mine]), List.lookup_cons, ih, List.lookup_cons]
      by_cases first : other = entry.1
      · simp [first, mine]
      · rw [beq_eq_false_iff_ne.mpr first]

/-- Maps with the same lookups are the same list. -/
theorem ext {first second : List (κ × ν)} (one : Sorted first) (other : Sorted second)
    (same : ∀ key, first.lookup key = second.lookup key) : first = second := by
  have perm : ∀ entry : κ × ν, entry ∈ first ↔ entry ∈ second := by
    rintro ⟨key, value⟩
    constructor
    · exact fun member => mem_of_lookup ((same key).symm.trans (lookup_of_mem one member))
    · exact fun member => mem_of_lookup ((same key).trans (lookup_of_mem other member))
  have nodup : ∀ {entries : List (κ × ν)}, Sorted entries → entries.Nodup := by
    intro entries sorted
    refine List.Pairwise.imp ?_ sorted
    rintro entry other before rfl
    exact lt_irrefl _ before
  refine List.Perm.eq_of_pairwise (fun entry other _ _ before after => absurd before after.asymm) one other ?_
  exact (List.perm_ext_iff_of_nodup (nodup one) (nodup other)).mpr perm

end Maps

end Entries
