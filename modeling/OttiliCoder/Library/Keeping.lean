import OttiliCoder.Library.Transaction

/-! Computations that keep an invariant of the state whether they return or throw. -/

namespace Transaction
variable {ε σ α β γ : Type} {inv : σ → Prop}

/-- `m` keeps the invariant, and what it returns satisfies `post`. -/
def Keeps (inv : σ → Prop) (m : EStateM ε σ α) (post : α → Prop) : Prop :=
  ∀ s, inv s → inv (after m s) ∧ ∀ a s', m s = .ok a s' → post a

variable {m : EStateM ε σ α} {post : α → Prop}

theorem Keeps.weaken {weaker : α → Prop} (keeps : Keeps inv m post) (implies : ∀ a, post a → weaker a) : Keeps inv m weaker := by
  intro s holds
  obtain ⟨kept, result⟩ := keeps s holds
  exact ⟨kept, fun a s' returned => implies a (result a s' returned)⟩

theorem Keeps.pure {a : α} (result : post a) : Keeps inv (Pure.pure a : EStateM ε σ α) post := by
  intro s holds
  refine ⟨holds, ?_⟩
  intro b s' returned
  obtain ⟨rfl, rfl⟩ := pure_ok.mp returned
  exact result

theorem Keeps.throw {e : ε} : Keeps inv (MonadExcept.throw e : EStateM ε σ α) post := by
  intro s holds
  exact ⟨holds, fun _ _ returned => absurd returned throw_ok⟩

theorem Keeps.bind {f : α → EStateM ε σ β} {result : β → Prop} (first : Keeps inv m post)
    (rest : ∀ a, post a → Keeps inv (f a) result) : Keeps inv (m >>= f) result := by
  intro s holds
  obtain ⟨kept, middle⟩ := first s holds
  cases outcome : m s with
  | error e s' =>
    have failed : (m >>= f) s = .error e s' := by rw [bind_apply, outcome]
    rw [after_error outcome] at kept
    refine ⟨after_error failed ▸ kept, ?_⟩
    intro b other returned
    rw [failed] at returned
    cases returned
  | ok a s' =>
    have next : (m >>= f) s = f a s' := by rw [bind_apply, outcome]
    rw [after_ok outcome] at kept
    have last := rest a (middle a s' outcome) s' kept
    unfold after at last ⊢
    rw [next]
    exact last

theorem Keeps.of_readOnly (reads : ReadOnly m) : Keeps inv m fun _ => True := by
  intro s holds
  exact ⟨(reads s).symm ▸ holds, fun _ _ _ => trivial⟩

/-- A check that only reads, before the rest. -/
theorem Keeps.check {f : α → EStateM ε σ β} {result : β → Prop} (reads : ReadOnly m) (rest : ∀ a, Keeps inv (f a) result) :
    Keeps inv (m >>= f) result := (Keeps.of_readOnly reads).bind fun a _ => rest a

theorem Keeps.ite {condition : Prop} [Decidable condition] {other : EStateM ε σ α} (first : condition → Keeps inv m post)
    (second : ¬condition → Keeps inv other post) : Keeps inv (if condition then m else other) post := by
  split
  · next held => exact first held
  · next failed => exact second failed

theorem Keeps.foldlM {items : List β} {body : α → β → EStateM ε σ α} {a : α} (start : post a)
    (each : ∀ a item, item ∈ items → post a → Keeps inv (body a item) post) : Keeps inv (items.foldlM body a) post := by
  induction items generalizing a with
  | nil => exact .pure start
  | cons item items ih =>
    rw [List.foldlM_cons]
    apply Keeps.bind (each a item List.mem_cons_self start)
    intro next holds
    exact ih holds fun a item listed => each a item (List.mem_cons_of_mem _ listed)

theorem Keeps.mapM {items : List β} {body : β → EStateM ε σ γ} {good : γ → Prop}
    (each : ∀ item ∈ items, Keeps inv (body item) good) : Keeps inv (items.mapM body) fun results => ∀ result ∈ results, good result := by
  induction items with
  | nil => exact .pure fun _ none => absurd none List.not_mem_nil
  | cons item items ih =>
    rw [List.mapM_cons]
    apply Keeps.bind (each item List.mem_cons_self)
    intro first held
    apply Keeps.bind (ih fun item listed => each item (List.mem_cons_of_mem _ listed))
    intro rest all
    exact .pure (List.forall_mem_cons.mpr ⟨held, all⟩)

end Transaction
