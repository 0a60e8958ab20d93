import OttiliCoder.Library.Keyed
import Mathlib.Algebra.BigOperators.Group.List.Basic
import Mathlib.Algebra.Order.Monoid.Defs

/-! Amounts under keys, in the order in which the keys came, and what they add up to. -/

namespace Relational

/-- A map from keys to values. -/
abbrev Table (κ ν : Type) := Keyed (Prod.fst : κ × ν → κ)

namespace Table
variable {κ ν : Type} [DecidableEq κ]

def keys (table : Table κ ν) : List κ := table.rows.map Prod.fst

def get (table : Table κ ν) (key : κ) : Option ν := (table.find? key).map Prod.snd

def set (table : Table κ ν) (key : κ) (value : ν) : Table κ ν := table.put (key, value)

/-- A map with the same value under each of the keys. -/
def constantly (keys : List κ) (value : ν) : Table κ ν := keys.foldl (fun table key => table.set key value) .empty

section Rules
variable {table : Table κ ν} {key other : κ} {value : ν} {listed : List κ}

omit [DecidableEq κ] in
theorem nodup_keys (table : Table κ ν) : table.keys.Nodup := table.unique

theorem get_eq_some : table.get key = some value ↔ (key, value) ∈ table.rows := by
  unfold get
  rw [Option.map_eq_some_iff]
  constructor
  · rintro ⟨row, found, rfl⟩
    obtain ⟨stored, rfl⟩ := Keyed.find?_eq_some.mp found
    exact stored
  · intro stored
    exact ⟨(key, value), Keyed.find?_eq_some.mpr ⟨stored, rfl⟩, rfl⟩

theorem get_eq_none : table.get key = none ↔ key ∉ table.keys := by
  unfold get keys
  rw [Option.map_eq_none_iff, Keyed.find?_eq_none, List.mem_map]
  constructor
  · rintro apart ⟨row, stored, same⟩
    exact apart row stored same
  · exact fun absent row stored same => absent ⟨row, stored, same⟩

theorem mem_keys : key ∈ table.keys ↔ ∃ value, table.get key = some value := by
  rw [← Option.isSome_iff_exists, Option.isSome_iff_ne_none, ne_eq, get_eq_none, not_not]

theorem get_set : (table.set key value).get other = if key = other then some value else table.get other := by
  unfold get set
  rw [Keyed.find?_put]
  split <;> rfl

/-- A key that is there keeps its place. -/
theorem keys_set (known : key ∈ table.keys) : (table.set key value).keys = table.keys := by
  have stored : (table.find? key).isSome = true := by
    obtain ⟨old, found⟩ := mem_keys.mp known
    obtain ⟨row, here, -⟩ := Option.map_eq_some_iff.mp found
    rw [here]
    rfl
  unfold keys set
  rw [Keyed.put_stored stored, List.map_map]
  refine List.map_congr_left fun row _ => ?_
  rw [Function.comp_apply]
  split
  next same => exact same.symm
  next => rfl

theorem keys_set_fresh (fresh : key ∉ table.keys) : (table.set key value).keys = table.keys ++ [key] := by
  have absent : table.find? key = none := Option.map_eq_none_iff.mp (get_eq_none.mpr fresh)
  unfold keys set
  rw [Keyed.put_fresh absent, List.map_append]
  rfl

theorem mem_keys_set : other ∈ (table.set key value).keys ↔ other = key ∨ other ∈ table.keys := by
  by_cases known : key ∈ table.keys
  · rw [keys_set known]
    exact ⟨.inr, fun either => either.elim (fun same => same ▸ known) id⟩
  · rw [keys_set_fresh known, List.mem_append, List.mem_singleton]
    exact Or.comm

/-- Keys that are all different stand in their order. -/
theorem foldl_set_rows {value : ν} (distinct : (table.keys ++ listed).Nodup) :
    (listed.foldl (fun table key => table.set key value) table).rows = table.rows ++ listed.map fun key => (key, value) := by
  induction listed generalizing table with
  | nil => simp
  | cons key listed ih =>
    have fresh : key ∉ table.keys := by
      intro known
      exact (List.nodup_append.mp distinct).2.2 key known key List.mem_cons_self rfl
    have absent : table.find? key = none := Option.map_eq_none_iff.mp (get_eq_none.mpr fresh)
    have rows : (table.set key value).rows = table.rows ++ [(key, value)] := Keyed.put_fresh absent
    rw [List.foldl_cons, ih, rows, List.append_assoc]
    · rfl
    · rw [keys_set_fresh fresh, List.append_assoc]
      exact distinct

theorem constantly_rows {value : ν} (distinct : listed.Nodup) :
    (constantly listed value).rows = listed.map fun key => (key, value) := foldl_set_rows distinct

theorem keys_constantly {value : ν} (distinct : listed.Nodup) : (constantly listed value).keys = listed := by
  unfold keys
  rw [constantly_rows distinct, List.map_map]
  exact List.map_id listed

theorem get_foldl_set (table : Table κ ν) : (listed.foldl (fun table key => table.set key value) table).get key =
    if key ∈ listed then some value else table.get key := by
  induction listed generalizing table with
  | nil => simp
  | cons first listed ih =>
    rw [List.foldl_cons, ih, get_set]
    by_cases same : first = key
    · simp [same]
    · simp [same, Ne.symm same]

theorem get_constantly : (constantly listed value).get key = if key ∈ listed then some value else none := get_foldl_set _

end Rules

end Table

/-! Amounts, which are raised. -/

abbrev Amounts (κ R : Type) := Table κ R

namespace Amounts
variable {κ R : Type} [DecidableEq κ]

/-- The amount under a key; where there is none it is 0. -/
def amount [Zero R] (table : Amounts κ R) (key : κ) : R := (table.get key).getD 0

def raise [AddZeroClass R] (table : Amounts κ R) (key : κ) (more : R) : Amounts κ R := table.set key (table.amount key + more)

def total [AddMonoid R] (table : Amounts κ R) : R := (table.rows.map Prod.snd).sum

theorem amount_raise [AddZeroClass R] {table : Amounts κ R} {key other : κ} {more : R} :
    (table.raise key more).amount other = if key = other then table.amount key + more else table.amount other := by
  unfold amount raise
  rw [Table.get_set]
  split <;> rfl

theorem amount_of_mem [Zero R] {table : Amounts κ R} {row : κ × R} (stored : row ∈ table.rows) : table.amount row.1 = row.2 := by
  unfold amount
  rw [Table.get_eq_some.mpr stored]
  rfl

theorem amount_constantly [Zero R] {listed : List κ} {value : R} {key : κ} (member : key ∈ listed) :
    amount (Table.constantly listed value) key = value := by
  unfold amount
  rw [Table.get_constantly, if_pos member]
  rfl

/-- The rows are the amounts under the keys. -/
theorem rows_eq [Zero R] (table : Amounts κ R) : table.rows = table.keys.map fun key => (key, table.amount key) := by
  unfold Table.keys
  rw [List.map_map]
  refine (List.map_id' table.rows).symm.trans (List.map_congr_left fun row stored => ?_)
  rw [Function.comp_apply, amount_of_mem stored]

section Sums
variable [AddCommMonoid R] {table : Amounts κ R} {key : κ} {more : R}

theorem total_eq (table : Amounts κ R) : table.total = (table.keys.map table.amount).sum := by
  unfold total
  rw [table.rows_eq, List.map_map]
  rfl

/-- The values under a key add up to its amount. -/
theorem sum_under (table : Amounts κ R) (key : κ) : ((table.rows.filter fun row => decide (row.1 = key)).map Prod.snd).sum = table.amount key := by
  have chosen : (fun row : κ × R => decide (row.1 = key)) ∘ (fun key => (key, table.amount key)) = fun other => decide (other = key) := rfl
  rw [rows_eq, List.filter_map, chosen, List.filter_eq, List.map_replicate, List.map_replicate]
  by_cases known : key ∈ table.keys
  · rw [List.count_eq_one_of_mem table.nodup_keys known]
    exact List.sum_singleton
  · rw [List.count_eq_zero_of_not_mem known]
    unfold amount
    rw [Table.get_eq_none.mpr known]
    rfl

theorem total_constantly {listed : List κ} {value : R} (distinct : listed.Nodup) :
    total (Table.constantly listed value) = listed.length • value := by
  have values : (listed.map fun key => (key, value)).map Prod.snd = List.replicate listed.length value := by
    rw [List.map_map]
    exact List.map_const'
  rw [total, Table.constantly_rows distinct, values, List.sum_replicate]

/-- What one key is raised by is added to a sum over keys that are all different. -/
theorem sum_raised {listed : List κ} (distinct : listed.Nodup) (known : key ∈ listed) (f : κ → R) :
    (listed.map fun other => if key = other then f key + more else f other).sum = (listed.map f).sum + more := by
  induction listed with
  | nil => cases known
  | cons first listed ih =>
    obtain ⟨apart, distinct⟩ := List.nodup_cons.mp distinct
    rw [List.map_cons, List.map_cons, List.sum_cons, List.sum_cons]
    by_cases same : key = first
    · subst same
      have others : (listed.map fun other => if key = other then f key + more else f other) = listed.map f :=
        List.map_congr_left fun other member => if_neg fun (same : key = other) => apart (same ▸ member)
      rw [if_pos rfl, others, add_assoc, add_comm more, ← add_assoc]
    · have later : key ∈ listed := (List.mem_cons.mp known).resolve_left same
      rw [if_neg same, ih distinct later, add_assoc]

theorem total_raise (table : Amounts κ R) (key : κ) (more : R) : (table.raise key more).total = table.total + more := by
  have amounts : (table.raise key more).amount = fun other => if key = other then table.amount key + more else table.amount other :=
    funext fun _ => amount_raise
  rw [total_eq, total_eq, amounts]
  by_cases known : key ∈ table.keys
  · rw [raise, Table.keys_set known, sum_raised table.nodup_keys known]
  · have others : (table.keys.map fun other => if key = other then table.amount key + more else table.amount other) =
        table.keys.map table.amount := List.map_congr_left fun other member => if_neg fun (same : key = other) => known (same ▸ member)
    have none : table.amount key = 0 := by
      unfold amount
      rw [Table.get_eq_none.mpr known]
      rfl
    rw [raise, Table.keys_set_fresh known, List.map_append, List.sum_append, others]
    simp [none]

/-- Raising by the rows of a list adds what they add up to. -/
theorem total_foldl_raise {rows : List (κ × R)} (table : Amounts κ R) :
    (rows.foldl (fun table row => table.raise row.1 row.2) table).total = table.total + (rows.map Prod.snd).sum := by
  induction rows generalizing table with
  | nil => simp
  | cons row rows ih => rw [List.foldl_cons, ih, total_raise, List.map_cons, List.sum_cons, add_assoc]

theorem keys_foldl_raise {rows : List (κ × R)} {table : Amounts κ R} (known : ∀ row ∈ rows, row.1 ∈ table.keys) :
    (rows.foldl (fun table row => table.raise row.1 row.2) table).keys = table.keys := by
  induction rows generalizing table with
  | nil => rfl
  | cons row rows ih =>
    have same : (table.raise row.1 row.2).keys = table.keys := Table.keys_set (known row List.mem_cons_self)
    rw [List.foldl_cons, ih, same]
    rw [same]
    exact fun other listed => known other (List.mem_cons_of_mem row listed)

theorem amount_foldl_raise_other {rows : List (κ × R)} (apart : key ∉ rows.map Prod.fst) (table : Amounts κ R) :
    (rows.foldl (fun table row => table.raise row.1 row.2) table).amount key = table.amount key := by
  induction rows generalizing table with
  | nil => rfl
  | cons row rows ih =>
    rw [List.map_cons, List.mem_cons, not_or] at apart
    rw [List.foldl_cons, ih apart.2, amount_raise, if_neg (Ne.symm apart.1)]

/-- Rows with different keys raise each key by its row. -/
theorem amount_foldl_raise {rows : List (κ × R)} (distinct : (rows.map Prod.fst).Nodup) (listed : (key, more) ∈ rows)
    (table : Amounts κ R) :
    (rows.foldl (fun table row => table.raise row.1 row.2) table).amount key = table.amount key + more := by
  induction rows generalizing table with
  | nil => cases listed
  | cons row rows ih =>
    obtain ⟨apart, distinct⟩ := List.nodup_cons.mp distinct
    rw [List.foldl_cons]
    rcases List.mem_cons.mp listed with rfl | later
    · rw [amount_foldl_raise_other apart, amount_raise, if_pos rfl]
    · have other : row.1 ≠ key := fun same => apart (List.mem_map.mpr ⟨(key, more), later, same.symm⟩)
      rw [ih distinct later, amount_raise, if_neg other]

end Sums

section Order
variable [AddCommMonoid R] [PartialOrder R] [IsOrderedAddMonoid R]

/-- Raising by what is not negative leaves no amount smaller. -/
theorem le_amount_foldl_raise {rows : List (κ × R)} (nonneg : ∀ row ∈ rows, 0 ≤ row.2) (table : Amounts κ R) (key : κ) :
    table.amount key ≤ (rows.foldl (fun table row => table.raise row.1 row.2) table).amount key := by
  induction rows generalizing table with
  | nil => exact le_refl _
  | cons row rows ih =>
    refine le_trans ?_ (ih (fun other listed => nonneg other (List.mem_cons_of_mem row listed)) (table.raise row.1 row.2))
    rw [amount_raise]
    split
    next same =>
      subst same
      exact le_add_of_nonneg_right (nonneg row List.mem_cons_self)
    next => exact le_refl _

end Order

end Amounts

end Relational
