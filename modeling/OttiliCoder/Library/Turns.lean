import Mathlib.Data.List.Chain

/-! Entries put together into turns: an entry joins the last turn where it has its role, and
opens a new one where it has not. -/

namespace Turns

/-- How turns are opened and extended, with what they hold. -/
structure Form (Turn Role Entry : Type) where
  role : Turn → Role
  entries : Turn → List Entry
  opened : Role → Entry → Turn
  extended : Turn → Entry → Turn
  role_opened (role' : Role) (entry : Entry) : role (opened role' entry) = role'
  entries_opened (role' : Role) (entry : Entry) : entries (opened role' entry) = [entry]
  role_extended (turn : Turn) (entry : Entry) : role (extended turn entry) = role turn
  entries_extended (turn : Turn) (entry : Entry) : entries (extended turn entry) = entries turn ++ [entry]

section
variable {Turn Role Entry : Type} [DecidableEq Role] (form : Form Turn Role Entry)

/-- Adds an entry. -/
def add (turns : List Turn) (role : Role) (entry : Entry) : List Turn :=
  match turns.getLast? with
  | some previous =>
    if form.role previous = role then turns.dropLast ++ [form.extended previous entry] else turns ++ [form.opened role entry]
  | none => [form.opened role entry]

/-- All entries in their order, each with the role of its turn. -/
def held (turns : List Turn) : List (Role × Entry) :=
  turns.flatMap fun turn => (form.entries turn).map fun entry => (form.role turn, entry)

/-- Roles alternate, and no turn is empty. -/
structure Alternates (turns : List Turn) : Prop where
  alternate : turns.IsChain fun turn next => form.role turn ≠ form.role next
  filled : ∀ turn ∈ turns, form.entries turn ≠ []

variable {form} {turns : List Turn} {role : Role} {entry : Entry}

theorem Alternates.nil : Alternates form [] := ⟨.nil, fun _ listed => absurd listed List.not_mem_nil⟩

theorem held_append (turns others : List Turn) : held form (turns ++ others) = held form turns ++ held form others :=
  List.flatMap_append

theorem held_opened : held form [form.opened role entry] = [(role, entry)] := by
  simp [held, form.entries_opened, form.role_opened]

/-- An added entry comes last, and in a turn of its role. -/
theorem held_add : held form (add form turns role entry) = held form turns ++ [(role, entry)] := by
  unfold add
  rcases List.eq_nil_or_concat turns with rfl | ⟨before, last, rfl⟩
  · simp [held, form.entries_opened, form.role_opened]
  · simp only [List.concat_eq_append, List.getLast?_append, List.getLast?_singleton, Option.some_or, List.dropLast_concat]
    split
    next same =>
      rw [held_append, held_append, List.append_assoc, ← same]
      simp [held, form.role_extended, form.entries_extended]
    next differ => rw [held_append, held_opened]

theorem Alternates.add (alternates : Alternates form turns) : Alternates form (add form turns role entry) := by
  obtain ⟨alternate, filled⟩ := alternates
  unfold Turns.add
  rcases List.eq_nil_or_concat turns with rfl | ⟨before, last, rfl⟩
  · refine ⟨.singleton _, fun turn listed => ?_⟩
    obtain rfl : turn = form.opened role entry := by simpa using listed
    simp [form.entries_opened]
  · rw [List.concat_eq_append] at alternate filled
    simp only [List.concat_eq_append, List.getLast?_append, List.getLast?_singleton, Option.some_or, List.dropLast_concat]
    split
    next same =>
      refine ⟨?_, fun turn listed => ?_⟩
      · rw [List.isChain_append] at alternate ⊢
        refine ⟨alternate.1, .singleton _, ?_⟩
        intro turn earlier next later
        obtain rfl : form.extended last entry = next := by simpa using later
        rw [form.role_extended]
        exact alternate.2.2 turn earlier last (by simp)
      · rcases List.mem_append.mp listed with early | late
        · exact filled turn (List.mem_append_left _ early)
        · obtain rfl : turn = form.extended last entry := by simpa using late
          simp [form.entries_extended]
    next differ =>
      refine ⟨?_, fun turn listed => ?_⟩
      · rw [List.isChain_append]
        refine ⟨alternate, .singleton _, ?_⟩
        intro turn earlier next later
        obtain rfl : last = turn := by simpa using earlier
        obtain rfl : form.opened role entry = next := by simpa using later
        rwa [form.role_opened]
      · rcases List.mem_append.mp listed with early | late
        · exact filled turn early
        · obtain rfl : turn = form.opened role entry := by simpa using late
          simp [form.entries_opened]

/-- A list of entries put together. -/
theorem foldl_add {Message : Type} (roleOf : Message → Role) (entryOf : Message → Entry) (messages : List Message)
    (alternates : Alternates form turns) :
    Alternates form (messages.foldl (fun turns message => Turns.add form turns (roleOf message) (entryOf message)) turns) ∧
      held form (messages.foldl (fun turns message => Turns.add form turns (roleOf message) (entryOf message)) turns) =
        held form turns ++ messages.map fun message => (roleOf message, entryOf message) := by
  induction messages generalizing turns with
  | nil => exact ⟨alternates, (List.append_nil _).symm⟩
  | cons message messages ih =>
    rw [List.foldl_cons]
    obtain ⟨alternate, entries⟩ := ih alternates.add
    refine ⟨alternate, entries.trans ?_⟩
    rw [held_add, List.append_assoc, List.map_cons, List.singleton_append]

/-- The first entry is one of the first turn. -/
theorem Alternates.opens (alternates : Alternates form turns) : (turns.head?.map form.role) = (held form turns).head?.map (·.1) := by
  cases turns with
  | nil => rfl
  | cons turn turns =>
    cases entries : form.entries turn with
    | nil => exact absurd entries (alternates.filled turn List.mem_cons_self)
    | cons entry rest => simp [held, entries]

end

end Turns
