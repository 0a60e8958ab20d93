import Mathlib.Data.List.Forall2

/-! Computations that return or fail, and lists whose items correspond one by one. -/

namespace Results

@[simp] theorem except_bind_ok {ε α β : Type} {first : Except ε α} {next : α → Except ε β} {result : β} :
    (first >>= next) = .ok result ↔ ∃ middle, first = .ok middle ∧ next middle = .ok result := by
  cases first with
  | error e => simp [bind, Except.bind]
  | ok middle => simp [bind, Except.bind]

theorem except_bind_error {ε α β : Type} {first : Except ε α} {next : α → Except ε β} {failure : ε} :
    (first >>= next) = .error failure ↔ first = .error failure ∨ ∃ middle, first = .ok middle ∧ next middle = .error failure := by
  cases first with
  | error e => simp [bind, Except.bind]
  | ok middle => simp [bind, Except.bind]

@[simp] theorem except_pure_ok {ε α : Type} {value result : α} :
    (pure value : Except ε α) = .ok result ↔ value = result := by
  simp [pure, Except.pure]

@[simp] theorem except_throw_ok {ε α : Type} {e : ε} {result : α} : (throw e : Except ε α) ≠ .ok result := by
  simp [throw, throwThe, MonadExceptOf.throw]

theorem except_map_ok {ε α β : Type} {first : Except ε α} {f : α → β} {result : β} :
    first.map f = .ok result ↔ ∃ middle, first = .ok middle ∧ f middle = result := by
  cases first <;> simp [Except.map]

section Corresponding
variable {α β : Type} {relation : α → β → Prop} {items : List α} {results : List β}

theorem forall₂_mem_left (paired : List.Forall₂ relation items results) {item : α} (member : item ∈ items) :
    ∃ result ∈ results, relation item result := by
  induction paired with
  | nil => cases member
  | cons first _ ih =>
    obtain rfl | later := List.mem_cons.mp member
    · exact ⟨_, List.mem_cons_self, first⟩
    · obtain ⟨result, inside, related⟩ := ih later
      exact ⟨result, List.mem_cons_of_mem _ inside, related⟩

theorem forall₂_mem_right (paired : List.Forall₂ relation items results) {result : β} (member : result ∈ results) :
    ∃ item ∈ items, relation item result := forall₂_mem_left paired.flip member

theorem forall₂_map_eq {γ : Type} {f : α → γ} {g : β → γ} (paired : List.Forall₂ relation items results)
    (agree : ∀ item result, relation item result → f item = g result) : items.map f = results.map g := by
  induction paired with
  | nil => rfl
  | cons first _ ih => rw [List.map_cons, List.map_cons, agree _ _ first, ih]

theorem exists_forall₂ : (∃ results, List.Forall₂ relation items results) ↔ ∀ item ∈ items, ∃ result, relation item result := by
  constructor
  · rintro ⟨results, paired⟩ item member
    obtain ⟨result, -, related⟩ := forall₂_mem_left paired member
    exact ⟨result, related⟩
  · intro each
    induction items with
    | nil => exact ⟨[], .nil⟩
    | cons item items ih =>
      obtain ⟨⟨result, first⟩, later⟩ := List.forall_mem_cons.mp each
      obtain ⟨results, rest⟩ := ih later
      exact ⟨result :: results, .cons first rest⟩

end Corresponding

/-- A loop returns when each of its rounds does. -/
theorem mapM_ok {ε α β : Type} {body : α → Except ε β} {items : List α} {results : List β} :
    items.mapM body = .ok results ↔ List.Forall₂ (fun item result => body item = .ok result) items results := by
  induction items generalizing results with
  | nil => cases results <;> simp [pure, Except.pure]
  | cons item items ih =>
    rw [List.mapM_cons, except_bind_ok]
    simp only [except_bind_ok, ih]
    constructor
    · rintro ⟨result, first, results, rest, made⟩
      cases made
      exact .cons first rest
    · intro made
      cases made with
      | cons first rest => exact ⟨_, first, _, rest, rfl⟩

end Results
