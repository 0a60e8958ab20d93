import Mathlib.Data.List.Nodup
import Mathlib.Data.List.Sort

/-! Tables whose rows are in insertion order and carry distinct keys. A table
value holds the proof of its own uniqueness, so a duplicate key cannot be built. -/

namespace Relational

structure Keyed {ρ κ : Type} (key : ρ → κ) where
  rows : List ρ
  unique : (rows.map key).Nodup

namespace Keyed
variable {ρ κ : Type} {key : ρ → κ}

instance : Membership ρ (Keyed key) := ⟨fun table row => row ∈ table.rows⟩

theorem mem_def {table : Keyed key} {row : ρ} : row ∈ table ↔ row ∈ table.rows := Iff.rfl

@[ext] theorem ext {first second : Keyed key} (same : first.rows = second.rows) : first = second := by
  cases first
  cases second
  cases same
  rfl

theorem eq_of_key {table : Keyed key} {first second : ρ} (one : first ∈ table) (other : second ∈ table)
    (same : key first = key second) : first = second :=
  List.inj_on_of_nodup_map table.unique one other same

def empty : Keyed key := ⟨[], by simp⟩

@[simp] theorem not_mem_empty {row : ρ} : row ∉ (empty : Keyed key) := by simp [mem_def, empty]

/-- Deletes the rows that `keep` rejects. -/
def filter (table : Keyed key) (keep : ρ → Bool) : Keyed key :=
  ⟨table.rows.filter keep, table.unique.sublist (List.filter_sublist.map key)⟩

@[simp] theorem mem_filter {table : Keyed key} {keep : ρ → Bool} {row : ρ} :
    row ∈ table.filter keep ↔ row ∈ table ∧ keep row = true := List.mem_filter

/-- Rewrites the rows that `selected` accepts; a rewrite never changes a key. -/
def update (table : Keyed key) (selected : ρ → Bool) (f : ρ → ρ) (keeps : ∀ row, key (f row) = key row) :
    Keyed key :=
  ⟨table.rows.map fun row => if selected row then f row else row, by
    have same : (table.rows.map fun row => if selected row then f row else row).map key =
        table.rows.map key := by
      rw [List.map_map]
      apply List.map_congr_left
      intro row _
      simp only [Function.comp_apply]
      split <;> simp [keeps]
    exact same ▸ table.unique⟩

theorem mem_update {table : Keyed key} {selected : ρ → Bool} {f : ρ → ρ}
    {keeps : ∀ row, key (f row) = key row} {row : ρ} :
    row ∈ table.update selected f keeps ↔
      ∃ old ∈ table, row = if selected old then f old else old := by
  simp only [mem_def, update, List.mem_map, eq_comm]

/-- Rewriting twice by keys is rewriting once, when the rewrite is idempotent. -/
theorem update_update (table : Keyed key) (first second : κ → Bool) {f : ρ → ρ}
    {keeps : ∀ row, key (f row) = key row} (idempotent : ∀ row, f (f row) = f row) :
    (table.update (fun row => first (key row)) f keeps).update (fun row => second (key row)) f keeps =
      table.update (fun row => first (key row) || second (key row)) f keeps := by
  apply Keyed.ext
  simp only [update, List.map_map]
  refine List.map_congr_left fun row _ => ?_
  by_cases one : first (key row) <;> by_cases other : second (key row) <;> simp [one, other, keeps, idempotent]

/-- A rewrite depends only on which stored rows it selects. -/
theorem update_congr {table : Keyed key} {selected other : ρ → Bool} {f : ρ → ρ} {keeps : ∀ row, key (f row) = key row}
    (same : ∀ row ∈ table, selected row = other row) : table.update selected f keeps = table.update other f keeps := by
  apply Keyed.ext
  refine List.map_congr_left fun row member => ?_
  rw [same row member]

/-- Rewriting two disjoint sets of keys one after the other is rewriting both. -/
theorem update_update_apart (table : Keyed key) (first second : κ → Bool) {f : ρ → ρ}
    {keeps : ∀ row, key (f row) = key row} (apart : ∀ k, first k = true → second k = false) :
    (table.update (fun row => first (key row)) f keeps).update (fun row => second (key row)) f keeps =
      table.update (fun row => first (key row) || second (key row)) f keeps := by
  apply Keyed.ext
  simp only [update, List.map_map]
  refine List.map_congr_left fun row _ => ?_
  by_cases one : first (key row) = true
  · simp [one, keeps, apart _ one]
  · simp [one]

theorem update_none {table : Keyed key} {f : ρ → ρ} {keeps : ∀ row, key (f row) = key row} :
    table.update (fun _ => false) f keeps = table := by
  apply Keyed.ext
  simp [update]

variable [DecidableEq κ]

def find? (table : Keyed key) (k : κ) : Option ρ := table.rows.find? fun row => key row == k

theorem find?_eq_some {table : Keyed key} {k : κ} {row : ρ} :
    table.find? k = some row ↔ row ∈ table ∧ key row = k := by
  constructor
  · intro found
    exact ⟨List.mem_of_find?_eq_some found, by simpa using List.find?_some found⟩
  · rintro ⟨member, rfl⟩
    cases found : table.find? (key row) with
    | none =>
      rw [find?, List.find?_eq_none] at found
      exact absurd (found row member) (by simp)
    | some other =>
      have same : key other = key row := by simpa using List.find?_some found
      exact congrArg some (eq_of_key (List.mem_of_find?_eq_some found) member same)

theorem find?_eq_none {table : Keyed key} {k : κ} :
    table.find? k = none ↔ ∀ row ∈ table, key row ≠ k := by
  simp [find?, List.find?_eq_none, mem_def]

theorem find?_key {table : Keyed key} {row : ρ} (member : row ∈ table) :
    table.find? (key row) = some row := find?_eq_some.mpr ⟨member, rfl⟩

/-- Appends a row; a row whose key is taken is not added. -/
def insert (table : Keyed key) (row : ρ) : Keyed key :=
  if taken : key row ∈ table.rows.map key then table
  else ⟨table.rows ++ [row], by
    rw [List.map_append, List.map_singleton]
    exact List.Nodup.append table.unique (List.nodup_singleton _) (by simpa using taken)⟩

theorem insert_rows {table : Keyed key} {row : ρ} (fresh : table.find? (key row) = none) :
    (table.insert row).rows = table.rows ++ [row] := by
  have absent : key row ∉ table.rows.map key := by
    rw [List.mem_map]
    rintro ⟨other, member, same⟩
    exact find?_eq_none.mp fresh other member same
  simp [insert, absent]

theorem insert_taken {table : Keyed key} {row : ρ} (taken : (table.find? (key row)).isSome) :
    table.insert row = table := by
  obtain ⟨other, found⟩ := Option.isSome_iff_exists.mp taken
  obtain ⟨member, same⟩ := find?_eq_some.mp found
  have present : key row ∈ table.rows.map key := List.mem_map.mpr ⟨other, member, same⟩
  simp [insert, present]

theorem mem_insert {table : Keyed key} {row other : ρ} (fresh : table.find? (key row) = none) :
    other ∈ table.insert row ↔ other ∈ table ∨ other = row := by
  simp [mem_def, insert_rows fresh]

theorem find?_insert {table : Keyed key} {row : ρ} (fresh : table.find? (key row) = none) (k : κ) :
    (table.insert row).find? k = if key row = k then some row else table.find? k := by
  simp only [find?, insert_rows fresh, List.find?_append]
  split
  next same =>
    subst same
    have absent : table.rows.find? (fun other => key other == key row) = none := fresh
    simp [absent]
  next different => simp [different]

/-- Rows with new and distinct keys can be appended. -/
theorem exists_append {table : Keyed key} {added : List ρ} (distinct : (added.map key).Nodup)
    (fresh : ∀ row ∈ added, table.find? (key row) = none) : ∃ rows : Keyed key, rows.rows = table.rows ++ added := by
  refine ⟨⟨table.rows ++ added, ?_⟩, rfl⟩
  rw [List.map_append]
  refine table.unique.append distinct fun k old new => ?_
  obtain ⟨row, stored, rfl⟩ := List.mem_map.mp old
  obtain ⟨other, listed, same⟩ := List.mem_map.mp new
  exact find?_eq_none.mp (fresh other listed) row stored same.symm

/-- Replaces the row under the same key where it stands; a row with a new key is appended. -/
def put (table : Keyed key) (row : ρ) : Keyed key :=
  if (table.find? (key row)).isSome then
    ⟨table.rows.map fun other => if key other = key row then row else other, by
      have same : (table.rows.map fun other => if key other = key row then row else other).map key = table.rows.map key := by
        rw [List.map_map]
        apply List.map_congr_left
        intro other _
        simp only [Function.comp_apply]
        split <;> simp [*]
      exact same ▸ table.unique⟩
  else table.insert row

theorem put_fresh {table : Keyed key} {row : ρ} (fresh : table.find? (key row) = none) :
    (table.put row).rows = table.rows ++ [row] := by
  rw [put, if_neg (by simp [fresh]), insert_rows fresh]

theorem put_stored {table : Keyed key} {row : ρ} (stored : (table.find? (key row)).isSome = true) :
    (table.put row).rows = table.rows.map fun other => if key other = key row then row else other := by
  rw [put, if_pos stored]

theorem find?_update {table : Keyed key} {selected : ρ → Bool} {f : ρ → ρ}
    {keeps : ∀ row, key (f row) = key row} (k : κ) :
    (table.update selected f keeps).find? k =
      (table.find? k).map fun row => if selected row then f row else row := by
  simp only [find?, update, List.find?_map]
  congr 1
  have same : (fun row => key row == k) ∘ (fun row => if selected row then f row else row) =
      fun row => key row == k := by
    funext row
    simp only [Function.comp_apply]
    split <;> simp [keeps]
  rw [same]

theorem find?_put {table : Keyed key} {row : ρ} (k : κ) :
    (table.put row).find? k = if key row = k then some row else table.find? k := by
  by_cases stored : (table.find? (key row)).isSome = true
  · split
    next same =>
      subst same
      obtain ⟨old, found⟩ := Option.isSome_iff_exists.mp stored
      refine find?_eq_some.mpr ⟨?_, rfl⟩
      rw [mem_def, put_stored stored, List.mem_map]
      exact ⟨old, (find?_eq_some.mp found).1, by simp [(find?_eq_some.mp found).2]⟩
    next different =>
      rw [find?, put_stored stored, List.find?_map, find?]
      have chosen : (fun other => key other == k) ∘ (fun other => if key other = key row then row else other) =
          fun other => key other == k := by
        funext other
        simp only [Function.comp_apply]
        split
        next same => rw [same]
        next => rfl
      rw [chosen]
      cases found : table.rows.find? fun other => key other == k with
      | none => rfl
      | some other =>
        have named : key other = k := by simpa using List.find?_some found
        rw [Option.map_some, if_neg fun same => different (same.symm.trans named)]
  · have fresh : table.find? (key row) = none := Option.not_isSome_iff_eq_none.mp stored
    rw [put, if_neg stored, find?_insert fresh]

theorem mem_put {table : Keyed key} {row other : ρ} :
    other ∈ table.put row ↔ other = row ∨ (other ∈ table ∧ key other ≠ key row) := by
  constructor
  · intro member
    have found := find?_key member
    rw [find?_put] at found
    split at found
    next => exact .inl (Option.some.inj found).symm
    next apart => exact .inr ⟨(find?_eq_some.mp found).1, fun same => apart same.symm⟩
  · intro either
    rcases either with rfl | ⟨member, apart⟩
    · exact (find?_eq_some.mp (by rw [find?_put, if_pos rfl])).1
    · refine (find?_eq_some (k := key other).mp ?_).1
      rw [find?_put, if_neg fun same => apart same.symm, find?_key member]

/-- Up to their order, the rows are those under other keys and the new one. -/
theorem put_perm {table : Keyed key} {row : ρ} :
    (table.put row).rows.Perm (table.rows.filter (fun other => key other != key row) ++ [row]) := by
  have fresh : (table.rows.filter (fun other => key other != key row) ++ [row]).Nodup := by
    apply List.Nodup.append (table.unique.of_map.filter _) (List.nodup_singleton row)
    simp
  refine (List.perm_ext_iff_of_nodup (table.put row).unique.of_map fresh).mpr fun other => ?_
  simp only [← mem_def, mem_put, List.mem_append, List.mem_filter, List.mem_singleton, bne_iff_ne]
  exact Or.comm

/-- Putting the rewritten forms of stored rows one after the other rewrites those rows where they stand. -/
theorem foldl_put {table : Keyed key} {chosen : List ρ} {f : ρ → ρ} (keeps : ∀ row, key (f row) = key row)
    (stored : ∀ row ∈ chosen, row ∈ table) (distinct : (chosen.map key).Nodup) :
    ((chosen.map f).foldl put table).rows = table.rows.map fun row => if key row ∈ chosen.map key then f row else row := by
  induction chosen generalizing table with
  | nil => simp
  | cons row rest ih =>
    obtain ⟨apart, others⟩ := List.nodup_cons.mp distinct
    have present : (table.find? (key (f row))).isSome = true := by
      rw [keeps, find?_key (stored row List.mem_cons_self)]
      rfl
    have still : ∀ other ∈ rest, other ∈ table.put (f row) := by
      intro other listed
      refine mem_put.mpr (.inr ⟨stored other (List.mem_cons_of_mem _ listed), fun same => apart ?_⟩)
      rw [← keeps row, ← same]
      exact List.mem_map_of_mem listed
    rw [List.map_cons, List.foldl_cons, ih still others, put_stored present, List.map_map]
    refine List.map_congr_left fun other member => ?_
    rw [Function.comp_apply, keeps]
    by_cases same : key other = key row
    · have equal : other = row := eq_of_key member (stored row List.mem_cons_self) same
      subst equal
      rw [if_pos rfl, keeps, if_neg apart, List.map_cons, if_pos List.mem_cons_self]
    · rw [if_neg same, List.map_cons]
      simp only [List.mem_cons, same, false_or]

/-- The first of the rows still to come is new. -/
theorem find?_upcoming {table : Keyed key} {row : ρ} {rest : List ρ} (distinct : ((table.rows ++ row :: rest).map key).Nodup) :
    table.find? (key row) = none := by
  refine find?_eq_none.mpr fun other member same => ?_
  rw [List.map_append, List.nodup_append] at distinct
  exact distinct.2.2 (key other) (List.mem_map_of_mem member) (key row) (by simp) same

/-- Tables that hold the same rows find the same. -/
theorem find?_perm {first second : Keyed key} (perm : first.rows.Perm second.rows) (k : κ) : first.find? k = second.find? k := by
  cases found : second.find? k with
  | none =>
    rw [find?_eq_none] at found ⊢
    exact fun row member => found row (perm.mem_iff.mp member)
  | some row =>
    obtain ⟨member, named⟩ := find?_eq_some.mp found
    exact find?_eq_some.mpr ⟨perm.mem_iff.mpr member, named⟩

/-- Rewriting the keys of the selected rows is rewriting the selected rows. -/
theorem update_keys {table : Keyed key} {selected : ρ → Bool} {f : ρ → ρ} {keeps : ∀ row, key (f row) = key row} :
    table.update (fun row => (table.rows.filter selected).any fun other => key row == key other) f keeps =
      table.update selected f keeps := by
  apply Keyed.ext
  refine List.map_congr_left fun row member => ?_
  have same : ((table.rows.filter selected).any fun other => key row == key other) = selected row := by
    rw [Bool.eq_iff_iff, List.any_eq_true]
    constructor
    · rintro ⟨other, inside, equal⟩
      obtain ⟨stored, chosen⟩ := List.mem_filter.mp inside
      rwa [eq_of_key member stored (eq_of_beq equal)]
    · exact fun chosen => ⟨row, List.mem_filter.mpr ⟨member, chosen⟩, beq_self_eq_true _⟩
  simp only [same]

theorem find?_filter {table : Keyed key} {keep : ρ → Bool} (k : κ) :
    (table.filter keep).find? k = (table.find? k).filter keep := by
  cases found : table.find? k with
  | none =>
    rw [find?_eq_none] at found
    exact find?_eq_none.mpr fun row member => found row (mem_filter.mp member).1
  | some row =>
    obtain ⟨member, same⟩ := find?_eq_some.mp found
    by_cases kept : keep row = true
    · simp only [Option.filter, kept, if_true]
      exact find?_eq_some.mpr ⟨mem_filter.mpr ⟨member, kept⟩, same⟩
    · simp only [Option.filter, kept]
      refine find?_eq_none.mpr fun other inside equal => kept ?_
      rw [← eq_of_key (mem_filter.mp inside).1 member (equal.trans same.symm)]
      exact (mem_filter.mp inside).2

end Keyed

end Relational
