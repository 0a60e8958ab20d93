import OttiliCoder.Library.Transaction

/-! Computations that catch what others throw. A handler starts in the state the failed
computation left: nothing is rolled back. -/

namespace Transaction

variable {ε σ α β : Type} {rel : σ → σ → Prop} {m : EStateM ε σ α} {handler : ε → EStateM ε σ α} {s s' : σ}

theorem tryCatch_returned {a : α} (returned : m s = .ok a s') : (tryCatch m handler) s = .ok a s' := by
  change EStateM.tryCatch m handler s = _
  unfold EStateM.tryCatch
  rw [returned]

theorem tryCatch_failed {e : ε} (failed : m s = .error e s') : (tryCatch m handler) s = handler e s' := by
  change EStateM.tryCatch m handler s = _
  unfold EStateM.tryCatch
  rw [failed]
  rfl

theorem bind_get {f : σ → EStateM ε σ β} : (get >>= f) s = f s s := rfl

theorem bind_returned {f : α → EStateM ε σ β} {a : α} (returned : m s = .ok a s') : (m >>= f) s = f a s' := by
  rw [bind_apply, returned]

theorem bind_failed {f : α → EStateM ε σ β} {e : ε} (failed : m s = .error e s') : (m >>= f) s = .error e s' := by
  rw [bind_apply, failed]

/-- A sequence throws where its first part does, or where its second does after it. -/
theorem bind_error {f : α → EStateM ε σ β} {e : ε} : (m >>= f) s = .error e s' ↔
    m s = .error e s' ∨ ∃ a middle, m s = .ok a middle ∧ f a middle = .error e s' := by
  rw [bind_apply]
  cases m s with
  | ok a middle =>
    simp only [EStateM.Result.ok.injEq]
    constructor
    · exact fun failed => .inr ⟨a, middle, ⟨rfl, rfl⟩, failed⟩
    · rintro (impossible | ⟨_, _, ⟨rfl, rfl⟩, failed⟩)
      · cases impossible
      · exact failed
  | error other middle => simp

theorem map_failed {f : α → β} {e : ε} : (f <$> m) s = .error e s' ↔ m s = .error e s' := by
  change EStateM.map f m s = _ ↔ _
  unfold EStateM.map
  cases m s <;> simp

theorem Within.get {f : σ → EStateM ε σ β} (rest : Within rel (f s) s) : Within rel (MonadState.get >>= f) s := rest

theorem Within.returned {a : α} (within : Within rel m s) (returned : m s = .ok a s') : rel s s' := by
  have moved : rel s (after m s) := within
  rwa [after_ok returned] at moved

theorem Within.failed {e : ε} (within : Within rel m s) (failed : m s = .error e s') : rel s s' := by
  have moved : rel s (after m s) := within
  rwa [after_error failed] at moved

theorem Within.ite {condition : Prop} [Decidable condition] {other : EStateM ε σ α}
    (holds : condition → Within rel m s) (fails : ¬condition → Within rel other s) :
    Within rel (if condition then m else other) s := by
  split
  · next true => exact holds true
  · next false => exact fails false

section Guarantees
variable [IsPreorder σ rel]

theorem Within.pure (a : α) : Within rel (Pure.pure a : EStateM ε σ α) s := (ReadOnly.pure a).within

theorem Within.throw (e : ε) : Within rel (MonadExcept.throw e : EStateM ε σ α) s := (ReadOnly.throw e).within

theorem Within.tryCatch (first : Within rel m s) (caught : ∀ e s', m s = .error e s' → Within rel (handler e) s') :
    Within rel (tryCatch m handler) s := by
  have moved : rel s (after m s) := first
  unfold Within
  cases outcome : m s with
  | ok a s' => rwa [after_ok (tryCatch_returned outcome), ← after_ok outcome]
  | error e s' =>
    have same : after (MonadExcept.tryCatch m handler) s = after (handler e) s' := by
      simp only [after, tryCatch_failed outcome]
    rw [after_error outcome] at moved
    have onward : rel s' (after (handler e) s') := caught e s' outcome
    rw [same]
    exact IsTrans.trans _ _ _ moved onward

theorem Within.forM {items : List β} {body : β → EStateM ε σ PUnit} (each : ∀ item ∈ items, ∀ s, Within rel (body item) s) :
    Within rel (items.forM body) s := by
  induction items generalizing s with
  | nil => exact Within.pure PUnit.unit
  | cons item items ih =>
    change Within rel (body item >>= fun _ => items.forM body) s
    apply (each item List.mem_cons_self s).bind
    exact fun _ s' _ => ih fun other later => each other (List.mem_cons_of_mem _ later)

end Guarantees

/-! Both endings at once. -/

/-- What holds of the state a computation returns in, and of the one it throws in. -/
def Ends (m : EStateM ε σ α) (s : σ) (returned : α → σ → Prop) (failed : ε → σ → Prop) : Prop :=
  match m s with
  | .ok a s' => returned a s'
  | .error e s' => failed e s'

section Endings
variable {returned : α → σ → Prop} {failed : ε → σ → Prop}

theorem Ends.bind {f : α → EStateM ε σ β} {result : β → σ → Prop} (first : Ends m s returned failed)
    (rest : ∀ a s', returned a s' → Ends (f a) s' result failed) : Ends (m >>= f) s result failed := by
  unfold Ends at first ⊢
  rw [bind_apply]
  cases outcome : m s with
  | ok a s' =>
    rw [outcome] at first
    exact rest a s' first
  | error e s' =>
    rw [outcome] at first
    exact first

theorem Ends.given {value : Option β} {body : β → EStateM ε σ Unit} {returned : Unit → σ → Prop}
    (absent : value = none → returned () s) (present : ∀ b, value = some b → Ends (body b) s returned failed) :
    Ends (given value body) s returned failed := by
  cases value with
  | none => exact absent rfl
  | some b => exact present b rfl

end Endings

end Transaction
