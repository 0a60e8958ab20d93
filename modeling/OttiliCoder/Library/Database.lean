import Mathlib.Logic.Function.Basic
import OttiliCoder.Library.Keyed
import OttiliCoder.Library.Transaction

/-! A database: one keyed table for each table name. Insertion checks the primary
key, the further unique constraints and the foreign keys, and throws when one of
them fails; updates rewrite rows without moving keys. -/

namespace Relational
open Transaction

variable {Table : Type} {Row Key : Table → Type} {key : (t : Table) → Row t → Key t}

abbrev Db (key : (t : Table) → Row t → Key t) := (t : Table) → Keyed (key t)

namespace Db
variable [DecidableEq Table]

def set (db : Db key) (t : Table) (rows : Keyed (key t)) : Db key := Function.update db t rows

@[simp] theorem set_same (db : Db key) (t : Table) (rows : Keyed (key t)) : db.set t rows t = rows := by
  simp [set]

@[simp] theorem set_other (db : Db key) {t other : Table} (rows : Keyed (key t)) (apart : other ≠ t) :
    db.set t rows other = db other := by
  simp [set, apart]

@[simp] theorem set_set (db : Db key) (t : Table) (first second : Keyed (key t)) :
    (db.set t first).set t second = db.set t second := by
  simp [set]

@[simp] theorem set_current (db : Db key) (t : Table) : db.set t (db t) = db := by
  simp [set]

end Db

/-- The constraints a table declares beside its primary key. -/
structure Constraints (key : (t : Table) → Row t → Key t) where
  clash : (t : Table) → Row t → Row t → Bool
  references : Db key → (t : Table) → Row t → Bool

section Admission
variable [∀ t, DecidableEq (Key t)]

/-- The row can be added: its keys are free and every row it names exists. -/
structure Constraints.Admits (constraints : Constraints key) (db : Db key) (t : Table) (row : Row t) :
    Prop where
  fresh : (db t).find? (key t row) = none
  apart : (db t).rows.any (constraints.clash t row) = false
  present : constraints.references db t row = true

instance (constraints : Constraints key) (db : Db key) (t : Table) (row : Row t) :
    Decidable (constraints.Admits db t row) :=
  decidable_of_iff (((db t).find? (key t row)).isNone = true ∧
      (db t).rows.any (constraints.clash t row) = false ∧ constraints.references db t row = true)
    ⟨fun ⟨fresh, apart, present⟩ => ⟨Option.isNone_iff_eq_none.mp fresh, apart, present⟩,
      fun ⟨fresh, apart, present⟩ => ⟨Option.isNone_iff_eq_none.mpr fresh, apart, present⟩⟩

end Admission

section Statements
variable [DecidableEq Table] [∀ t, DecidableEq (Key t)] {ε : Type}
variable (constraints : Constraints key) (violation : Table → ε) (t : Table)

/-- `INSERT INTO t`. -/
def insert (row : Row t) : EStateM ε (Db key) Unit := fun db =>
  if constraints.Admits db t row then .ok () (db.set t ((db t).insert row))
  else .error (violation t) db

/-- `INSERT OR IGNORE INTO t`, and `ON CONFLICT DO NOTHING`: a row whose key is
taken is dropped, a dangling reference still throws. -/
def insertOrIgnore (row : Row t) : EStateM ε (Db key) Unit := fun db =>
  if ((db t).find? (key t row)).isSome then .ok () db
  else insert constraints violation t row db

/-- `SELECT * FROM t WHERE key = k`. -/
def find? (k : Key t) : EStateM ε (Db key) (Option (Row t)) := fun db => .ok ((db t).find? k) db

/-- The row under a key; a missing one is refused. -/
def must (k : Key t) (e : ε) : EStateM ε (Db key) (Row t) := do
  let row ← find? t k
  expect row e

/-- `SELECT * FROM t WHERE selected`, in row order. -/
def select (selected : Row t → Bool) : EStateM ε (Db key) (List (Row t)) := fun db =>
  .ok ((db t).rows.filter selected) db

/-- `UPDATE t SET ... WHERE selected`. -/
def update (selected : Row t → Bool) (f : Row t → Row t)
    (keeps : ∀ row, key t (f row) = key t row := by intro _; with_reducible rfl) : EStateM ε (Db key) Unit := fun db =>
  .ok () (db.set t ((db t).update selected f keeps))

/-- `DELETE FROM t WHERE selected`. -/
def delete (selected : Row t → Bool) : EStateM ε (Db key) Unit := fun db =>
  .ok () (db.set t ((db t).filter fun row => !selected row))

end Statements

section Results
variable {ε : Type} {t : Table} {db db' : Db key} {u : Unit}

@[simp] theorem select_ok {selected : Row t → Bool} {rows : List (Row t)} :
    (select t selected : EStateM ε (Db key) _) db = .ok rows db' ↔
      rows = (db t).rows.filter selected ∧ db' = db := by
  simp [select, eq_comm]

@[simp] theorem find?_ok [∀ t, DecidableEq (Key t)] {k : Key t} {found : Option (Row t)} :
    (find? t k : EStateM ε (Db key) _) db = .ok found db' ↔ found = (db t).find? k ∧ db' = db := by
  simp [find?, eq_comm]

@[simp] theorem must_ok [∀ t, DecidableEq (Key t)] {k : Key t} {e : ε} {row : Row t} :
    must t k e db = .ok row db' ↔ (db t).find? k = some row ∧ db' = db := by
  simp only [must, bind_ok, find?_ok, expect_ok]
  constructor
  · rintro ⟨_, _, ⟨rfl, rfl⟩, found, rfl⟩
    exact ⟨found, rfl⟩
  · rintro ⟨found, rfl⟩
    exact ⟨_, _, ⟨rfl, rfl⟩, found, rfl⟩

variable [DecidableEq Table]

@[simp] theorem update_ok {selected : Row t → Bool} {f : Row t → Row t}
    {keeps : ∀ row, key t (f row) = key t row} :
    (update t selected f keeps : EStateM ε (Db key) _) db = .ok u db' ↔
      db' = db.set t ((db t).update selected f keeps) := by
  simp [update, eq_comm]

@[simp] theorem delete_ok {selected : Row t → Bool} :
    (delete t selected : EStateM ε (Db key) _) db = .ok u db' ↔
      db' = db.set t ((db t).filter fun row => !selected row) := by
  simp [delete, eq_comm]

/-- A loop of updates by key is one update of all those keys. -/
theorem forM_update_ok [∀ t, DecidableEq (Key t)] {α : Type} {items : List α} {k : α → Key t} {f : Row t → Row t}
    {keeps : ∀ row, key t (f row) = key t row} (idempotent : ∀ row, f (f row) = f row) :
    (items.forM fun item => (update t (fun row => key t row == k item) f keeps : EStateM ε (Db key) PUnit)) db =
        .ok u db' ↔
      db' = db.set t ((db t).update (fun row => items.any fun item => key t row == k item) f keeps) := by
  induction items generalizing db with
  | nil =>
    simp only [List.any_nil, Keyed.update_none, Db.set_current]
    exact pure_ok.trans (and_iff_right rfl)
  | cons item rest ih =>
    have joined := @Keyed.update_update _ _ (key t) (db t) (fun key => key == k item)
      (fun key => rest.any fun item => key == k item) f keeps idempotent
    change (update t (fun row => key t row == k item) f keeps >>= fun _ => rest.forM fun item =>
      update t (fun row => key t row == k item) f keeps) db = .ok u db' ↔ _
    simp only [bind_ok, update_ok, List.any_cons, ← joined]
    constructor
    · rintro ⟨_, _, rfl, later⟩
      rw [ih.mp later, Db.set_same, Db.set_set]
    · rintro rfl
      exact ⟨(), _, rfl, ih.mpr (by rw [Db.set_same, Db.set_set])⟩

variable [∀ t, DecidableEq (Key t)] {constraints : Constraints key} {violation : Table → ε}

@[simp] theorem insert_ok {row : Row t} :
    insert constraints violation t row db = .ok u db' ↔
      constraints.Admits db t row ∧ db' = db.set t ((db t).insert row) := by
  unfold insert
  split <;> simp [*, eq_comm]

theorem insertOrIgnore_ok {row : Row t} :
    insertOrIgnore constraints violation t row db = .ok u db' ↔
      (((db t).find? (key t row)).isSome ∧ db' = db) ∨
      (constraints.Admits db t row ∧ db' = db.set t ((db t).insert row)) := by
  unfold insertOrIgnore
  split
  next taken =>
    have refused : ¬ constraints.Admits db t row := fun admitted => by simp [admitted.fresh] at taken
    simp [taken, refused, eq_comm]
  next free => simp [free]

/-- Rows inserted one after another are all admitted when their keys are distinct and free and what they name exists. -/
theorem mapM_insert_ok {α β : Type} {items : List α} {row : α → Row t} {made : α → β} {outs : List β}
    (apart : ∀ first second : Row t, constraints.clash t first second = false)
    (steady : ∀ (db : Db key) (rows : Keyed (key t)) (item : α),
      constraints.references (db.set t rows) t (row item) = constraints.references db t (row item)) :
    (items.mapM fun item => do
        insert constraints violation t (row item)
        return made item : EStateM ε (Db key) (List β)) db = .ok outs db' ↔
      (∀ item ∈ items, (db t).find? (key t (row item)) = none ∧ constraints.references db t (row item) = true) ∧
        (items.map fun item => key t (row item)).Nodup ∧ outs = items.map made ∧
        ∃ rows : Keyed (key t), rows.rows = (db t).rows ++ items.map row ∧ db' = db.set t rows := by
  induction items generalizing db outs with
  | nil =>
    rw [List.mapM_nil]
    constructor
    · intro returned
      obtain ⟨rfl, rfl⟩ := pure_ok.mp returned
      exact ⟨fun _ listed => absurd listed List.not_mem_nil, List.nodup_nil, rfl, db' t, (List.append_nil _).symm,
        (Db.set_current db' t).symm⟩
    · rintro ⟨_, _, made, rows, same, left⟩
      obtain rfl : rows = db t := Keyed.ext (same.trans (List.append_nil _))
      exact pure_ok.mpr ⟨made, left.trans (Db.set_current db t)⟩
  | cons item items ih =>
    have free : ∀ other, (db t).find? (key t (row item)) = none →
        ((((db t).insert (row item)).find? (key t (row other)) = none) ↔
          key t (row item) ≠ key t (row other) ∧ (db t).find? (key t (row other)) = none) := by
      intro other fresh
      rw [Keyed.find?_insert fresh]
      split
      next same => simp [same]
      next differ => simp [differ]
    rw [List.mapM_cons]
    constructor
    · intro returned
      obtain ⟨first, middle, one, returned⟩ := bind_ok.mp returned
      obtain ⟨rest, final, others, returned⟩ := bind_ok.mp returned
      obtain ⟨rfl, rfl⟩ := pure_ok.mp returned
      obtain ⟨_, inserted, admitted, made'⟩ := bind_ok.mp one
      obtain ⟨rfl, rfl⟩ := pure_ok.mp made'
      obtain ⟨⟨fresh, -, present⟩, rfl⟩ := insert_ok.mp admitted
      obtain ⟨each, distinct, rfl, rows, appended, left⟩ := ih.mp others
      rw [Db.set_same] at each appended
      rw [Keyed.insert_rows fresh, List.append_assoc] at appended
      refine ⟨List.forall_mem_cons.mpr ⟨⟨fresh, present⟩, fun other listed => ?_⟩, ?_, rfl, rows, appended,
        left.trans (Db.set_set ..)⟩
      · exact ⟨((free other fresh).mp (each other listed).1).2, (steady db _ other).symm.trans (each other listed).2⟩
      · rw [List.map_cons, List.nodup_cons]
        refine ⟨fun taken => ?_, distinct⟩
        obtain ⟨other, listed, same⟩ := List.mem_map.mp taken
        exact ((free other fresh).mp (each other listed).1).1 same.symm
    · rintro ⟨each, distinct, same, rows, appended, left⟩
      obtain ⟨⟨fresh, present⟩, others⟩ := List.forall_mem_cons.mp each
      rw [List.map_cons, List.nodup_cons] at distinct
      have admitted : constraints.Admits db t (row item) := ⟨fresh, List.any_eq_false.mpr fun other _ => by simp [apart], present⟩
      refine bind_ok.mpr ⟨_, _, bind_ok.mpr ⟨(), _, insert_ok.mpr ⟨admitted, rfl⟩, pure_ok.mpr ⟨rfl, rfl⟩⟩, ?_⟩
      refine bind_ok.mpr ⟨_, db', ih.mpr ⟨fun other listed => ?_, distinct.2, rfl, rows, ?_, ?_⟩, pure_ok.mpr ⟨same, rfl⟩⟩
      · rw [Db.set_same]
        refine ⟨(free other fresh).mpr ⟨fun same => distinct.1 ?_, (others other listed).1⟩, ?_⟩
        · exact List.mem_map.mpr ⟨other, listed, same.symm⟩
        · exact (steady db _ other).trans (others other listed).2
      · rw [Db.set_same, Keyed.insert_rows fresh, List.append_assoc]
        exact appended
      · exact left.trans (Db.set_set ..).symm

end Results

/-! The statements in the logic of guarantees. -/

section Guarantees
variable {ε : Type} {t : Table} {rel : Db key → Db key → Prop} {db : Db key}

theorem ReadOnly.select {selected : Row t → Bool} : ReadOnly (select t selected : EStateM ε (Db key) _) :=
  fun _ => rfl

theorem ReadOnly.find? [∀ t, DecidableEq (Key t)] {k : Key t} :
    ReadOnly (find? t k : EStateM ε (Db key) _) := fun _ => rfl

theorem ReadOnly.must [∀ t, DecidableEq (Key t)] {k : Key t} {e : ε} :
    ReadOnly (must t k e : EStateM ε (Db key) _) :=
  ReadOnly.find?.bind fun row => .expect row e

variable [DecidableEq Table]

theorem Yields.update {selected : Row t → Bool} {f : Row t → Row t} {keeps : ∀ row, key t (f row) = key t row}
    (valid : rel db (db.set t ((db t).update selected f keeps))) :
    Yields rel (update t selected f keeps : EStateM ε (Db key) _) db
      fun _ db' => db' = db.set t ((db t).update selected f keeps) := fun _ _ returned => by
  obtain rfl := update_ok.mp returned
  exact ⟨valid, rfl⟩

theorem Yields.delete {removed : Row t → Bool}
    (valid : rel db (db.set t ((db t).filter fun row => !removed row))) :
    Yields rel (delete t removed : EStateM ε (Db key) _) db
      fun _ db' => db' = db.set t ((db t).filter fun row => !removed row) := fun _ _ returned => by
  obtain rfl := delete_ok.mp returned
  exact ⟨valid, rfl⟩

theorem Returns.update {selected : Row t → Bool} {f : Row t → Row t} {keeps : ∀ row, key t (f row) = key t row} :
    Returns (update t selected f keeps : EStateM ε (Db key) _) db
      fun _ db' => db' = db.set t ((db t).update selected f keeps) := ⟨(), _, rfl, rfl⟩

theorem Returns.delete {removed : Row t → Bool} :
    Returns (delete t removed : EStateM ε (Db key) _) db
      fun _ db' => db' = db.set t ((db t).filter fun row => !removed row) := ⟨(), _, rfl, rfl⟩

variable [∀ t, DecidableEq (Key t)] {constraints : Constraints key} {violation : Table → ε}

theorem Yields.insert {row : Row t}
    (valid : constraints.Admits db t row → rel db (db.set t ((db t).insert row))) :
    Yields rel (insert constraints violation t row) db fun _ db' =>
      constraints.Admits db t row ∧ db' = db.set t ((db t).insert row) := fun _ _ returned => by
  obtain ⟨admitted, rfl⟩ := insert_ok.mp returned
  exact ⟨valid admitted, admitted, rfl⟩

variable [IsPreorder (Db key) rel]

theorem Yields.insertOrIgnore {row : Row t}
    (valid : constraints.Admits db t row → rel db (db.set t ((db t).insert row))) :
    Yields rel (insertOrIgnore constraints violation t row) db fun _ db' =>
      (((db t).find? (key t row)).isSome ∧ db' = db) ∨
      (constraints.Admits db t row ∧ db' = db.set t ((db t).insert row)) := fun _ _ returned => by
  rcases insertOrIgnore_ok.mp returned with ⟨taken, rfl⟩ | ⟨admitted, rfl⟩
  · exact ⟨Std.Refl.refl _, .inl ⟨taken, rfl⟩⟩
  · exact ⟨valid admitted, .inr ⟨admitted, rfl⟩⟩

/-- A statement that fails leaves the database as it was. -/
theorem Within.insert {row : Row t}
    (valid : constraints.Admits db t row → rel db (db.set t ((db t).insert row))) :
    Within rel (insert constraints violation t row) db := by
  unfold Within
  by_cases admitted : constraints.Admits db t row
  · have same : Relational.insert constraints violation t row db = .ok () (db.set t ((db t).insert row)) :=
      insert_ok.mpr ⟨admitted, rfl⟩
    rw [after_ok same]
    exact valid admitted
  · have same : Relational.insert constraints violation t row db = .error (violation t) db := by
      simp [Relational.insert, admitted]
    rw [after_error same]
    exact Std.Refl.refl db

end Guarantees

end Relational
