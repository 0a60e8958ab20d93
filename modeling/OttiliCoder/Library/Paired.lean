import OttiliCoder.Library.Transaction

/-! Two computations side by side. From related states they return or throw the same and
leave related states. -/

namespace Transaction
variable {ε σ α β : Type}

def Paired (rel : σ → σ → Prop) (m n : EStateM ε σ α) (s t : σ) : Prop :=
  match m s, n t with
  | .ok a s', .ok b t' => a = b ∧ rel s' t'
  | .error e s', .error f t' => e = f ∧ rel s' t'
  | _, _ => False

/-- What a computation returns or throws. -/
def outcome (m : EStateM ε σ α) (s : σ) : Except ε α :=
  match m s with
  | .ok a _ => .ok a
  | .error e _ => .error e

section Rules
variable {rel : σ → σ → Prop} {m n : EStateM ε σ α} {s t : σ} {a : α} {e : ε}

theorem Paired.cases (paired : Paired rel m n s t) :
    (∃ a s' t', m s = .ok a s' ∧ n t = .ok a t' ∧ rel s' t') ∨ ∃ e s' t', m s = .error e s' ∧ n t = .error e t' ∧ rel s' t' := by
  unfold Paired at paired
  split at paired
  next a s' b t' first second =>
    obtain ⟨rfl, related⟩ := paired
    exact .inl ⟨a, s', t', first, second, related⟩
  next e s' f t' first second =>
    obtain ⟨rfl, related⟩ := paired
    exact .inr ⟨e, s', t', first, second, related⟩
  next => cases paired

theorem paired_ok {s' t' : σ} (first : m s = .ok a s') (second : n t = .ok a t') (related : rel s' t') : Paired rel m n s t := by
  unfold Paired
  rw [first, second]
  exact ⟨rfl, related⟩

theorem Paired.outcome (paired : Paired rel m n s t) : outcome m s = outcome n t := by
  unfold Transaction.outcome
  obtain ⟨a, s', t', first, second, -⟩ | ⟨e, s', t', first, second, -⟩ := paired.cases
  · rw [first, second]
  · rw [first, second]

theorem Paired.after (paired : Paired rel m n s t) : rel (after m s) (after n t) := by
  obtain ⟨a, s', t', first, second, related⟩ | ⟨e, s', t', first, second, related⟩ := paired.cases
  · rw [after_ok first, after_ok second]
    exact related
  · rw [after_error first, after_error second]
    exact related

theorem Paired.pure (related : rel s t) : Paired rel (Pure.pure a : EStateM ε σ α) (Pure.pure a) s t := ⟨rfl, related⟩

theorem Paired.throw (related : rel s t) :
    Paired rel (MonadExcept.throw e : EStateM ε σ α) (MonadExcept.throw e) s t := ⟨rfl, related⟩

theorem Paired.bind {f g : α → EStateM ε σ β} (first : Paired rel m n s t)
    (rest : ∀ a s' t', m s = .ok a s' → n t = .ok a t' → rel s' t' → Paired rel (f a) (g a) s' t') :
    Paired rel (m >>= f) (n >>= g) s t := by
  obtain ⟨a, s', t', one, other, related⟩ | ⟨e, s', t', one, other, related⟩ := first.cases
  · have later := rest a s' t' one other related
    unfold Paired at later ⊢
    rw [bind_apply, bind_apply, one, other]
    exact later
  · unfold Paired
    rw [bind_apply, bind_apply, one, other]
    exact ⟨rfl, related⟩

theorem Paired.map (f : α → β) (paired : Paired rel m n s t) : Paired rel (f <$> m) (f <$> n) s t :=
  paired.bind fun _ _ _ _ _ related => .pure related

theorem Paired.get {f g : σ → EStateM ε σ β} (rest : Paired rel (f s) (g t) s t) :
    Paired rel (MonadState.get >>= f) (MonadState.get >>= g) s t := rest

theorem Paired.require {first second : Prop} [Decidable first] [Decidable second] (same : first ↔ second) (related : rel s t) :
    Paired rel (Transaction.require first e) (Transaction.require second e) s t := by
  unfold Transaction.require
  by_cases holds : first
  · rw [if_pos holds, if_pos (same.mp holds)]
    exact .pure related
  · rw [if_neg holds, if_neg fun other => holds (same.mpr other)]
    exact .throw related

theorem Paired.expect {first second : Option α} (same : first = second) (related : rel s t) :
    Paired rel (Transaction.expect first e) (Transaction.expect second e) s t := by
  subst same
  cases first with
  | none => exact .throw related
  | some a => exact .pure related

end Rules

end Transaction
