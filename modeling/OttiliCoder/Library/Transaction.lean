import Mathlib.Logic.Relation
import Mathlib.Order.Defs.Unbundled

/-! Computations that read and write a state and may throw, and transactions
over them. A transaction that throws leaves the state it started in, so a caller
observes either all of its writes or none. -/

namespace Transaction

variable {ε σ α β : Type}

/-- Runs `body` and, when it throws, restores the state it started in. -/
def transaction (body : EStateM ε σ α) : EStateM ε σ α := fun s =>
  match body s with
  | .ok a s' => .ok a s'
  | .error e _ => .error e s

def expect (value : Option α) (e : ε) : EStateM ε σ α :=
  match value with
  | some a => pure a
  | none => throw e

def require (condition : Prop) [Decidable condition] (e : ε) : EStateM ε σ Unit :=
  if condition then pure () else throw e

def onlyIf (condition : Prop) [Decidable condition] (body : EStateM ε σ Unit) : EStateM ε σ Unit :=
  if condition then body else pure ()

/-- Runs `body` on an optional argument that was given. -/
def given (value : Option α) (body : α → EStateM ε σ Unit) : EStateM ε σ Unit :=
  match value with
  | some a => body a
  | none => pure ()

/-- The state a computation leaves, whether or not it throws. -/
def after (m : EStateM ε σ α) (s : σ) : σ :=
  match m s with
  | .ok _ s' => s'
  | .error _ s' => s'

def Throws (m : EStateM ε σ α) (s : σ) : Prop := ∃ e s', m s = .error e s'

/-! Normal results. Each combinator returns exactly when its parts do. -/

section Returns
variable {s s' : σ} {a : α} {b : β} {e : ε}

@[simp] theorem pure_ok {value : α} :
    (pure value : EStateM ε σ α) s = .ok a s' ↔ a = value ∧ s' = s := by
  change EStateM.Result.ok value s = .ok a s' ↔ _
  simp only [EStateM.Result.ok.injEq]
  constructor <;> rintro ⟨rfl, rfl⟩ <;> exact ⟨rfl, rfl⟩

@[simp] theorem throw_ok : (throw e : EStateM ε σ α) s ≠ .ok a s' := by
  intro impossible
  cases impossible

@[simp] theorem get_ok {current : σ} :
    (get : EStateM ε σ σ) s = .ok current s' ↔ current = s ∧ s' = s := by
  change EStateM.Result.ok s s = .ok current s' ↔ _
  simp only [EStateM.Result.ok.injEq]
  constructor <;> rintro ⟨rfl, rfl⟩ <;> exact ⟨rfl, rfl⟩

@[simp] theorem set_ok {next : σ} {u : PUnit} :
    (set next : EStateM ε σ PUnit) s = .ok u s' ↔ s' = next := by
  change EStateM.Result.ok PUnit.unit next = .ok u s' ↔ _
  simp [eq_comm]

@[simp] theorem modify_ok {f : σ → σ} {u : PUnit} :
    (modify f : EStateM ε σ PUnit) s = .ok u s' ↔ s' = f s := by
  change EStateM.Result.ok PUnit.unit (f s) = .ok u s' ↔ _
  simp [eq_comm]

theorem bind_apply (m : EStateM ε σ α) (f : α → EStateM ε σ β) (s : σ) :
    (m >>= f) s = match m s with | .ok a s' => f a s' | .error e s' => .error e s' := by
  change EStateM.bind m f s = _
  unfold EStateM.bind
  cases m s <;> rfl

@[simp] theorem bind_ok {m : EStateM ε σ α} {f : α → EStateM ε σ β} :
    (m >>= f) s = .ok b s' ↔ ∃ a middle, m s = .ok a middle ∧ f a middle = .ok b s' := by
  rw [bind_apply]
  cases m s with
  | ok a middle =>
    simp only [EStateM.Result.ok.injEq]
    constructor
    · exact fun returned => ⟨a, middle, ⟨rfl, rfl⟩, returned⟩
    · rintro ⟨_, _, ⟨rfl, rfl⟩, returned⟩
      exact returned
  | error e middle => simp

@[simp] theorem map_ok {f : α → β} {m : EStateM ε σ α} :
    (f <$> m) s = .ok b s' ↔ ∃ a, m s = .ok a s' ∧ b = f a := by
  change EStateM.map f m s = _ ↔ _
  unfold EStateM.map
  cases m s with
  | ok a middle =>
    simp only [EStateM.Result.ok.injEq]
    constructor
    · rintro ⟨rfl, rfl⟩
      exact ⟨a, ⟨rfl, rfl⟩, rfl⟩
    · rintro ⟨_, ⟨rfl, rfl⟩, rfl⟩
      exact ⟨rfl, rfl⟩
  | error e middle => simp

@[simp] theorem transaction_ok {m : EStateM ε σ α} :
    transaction m s = .ok a s' ↔ m s = .ok a s' := by
  unfold transaction
  cases m s <;> simp

@[simp] theorem expect_ok {value : Option α} :
    (expect value e : EStateM ε σ α) s = .ok a s' ↔ value = some a ∧ s' = s := by
  cases value <;> simp [expect, eq_comm (a := a)]

@[simp] theorem require_ok {condition : Prop} [Decidable condition] {u : Unit} :
    (require condition e : EStateM ε σ Unit) s = .ok u s' ↔ condition ∧ s' = s := by
  unfold require
  split <;> simp [*]

theorem given_ok {value : Option α} {body : α → EStateM ε σ Unit} {u : Unit} :
    given value body s = .ok u s' ↔
      (value = none ∧ s' = s) ∨ ∃ a, value = some a ∧ body a s = .ok u s' := by
  cases value <;> simp [given]

/-- A check of an optional argument passes when the argument is absent or passes. -/
theorem given_check_ok {value : Option α} {body : α → EStateM ε σ Unit} {passes : α → Prop} {u : Unit}
    (checks : ∀ a, body a s = .ok u s' ↔ passes a ∧ s' = s) :
    given value body s = .ok u s' ↔ (∀ a, value = some a → passes a) ∧ s' = s := by
  cases value with
  | none => simp [given]
  | some a => simp [given, checks]

theorem onlyIf_ok {condition : Prop} [Decidable condition] {body : EStateM ε σ Unit} {u : Unit} :
    onlyIf condition body s = .ok u s' ↔
      (condition ∧ body s = .ok u s') ∨ (¬ condition ∧ s' = s) := by
  unfold onlyIf
  split <;> simp [*]

theorem ite_ok {condition : Prop} [Decidable condition] {first second : EStateM ε σ α} :
    (if condition then first else second) s = .ok a s' ↔
      (condition ∧ first s = .ok a s') ∨ (¬ condition ∧ second s = .ok a s') := by
  split <;> simp [*]

end Returns

/-! Refusals. -/

section Refusals
variable {s : σ}

theorem throws_transaction {m : EStateM ε σ α} (thrown : Throws m s) :
    ∃ e, transaction m s = .error e s := by
  obtain ⟨e, s', failed⟩ := thrown
  exact ⟨e, by simp [transaction, failed]⟩

theorem Throws.transaction {m : EStateM ε σ α} (thrown : Throws m s) : Throws (transaction m) s :=
  (throws_transaction thrown).imp fun _ failed => ⟨s, failed⟩

theorem transaction_error {m : EStateM ε σ α} {e : ε} {s' : σ}
    (failed : transaction m s = .error e s') : s' = s := by
  unfold transaction at failed
  cases outcome : m s with
  | ok a middle => simp [outcome] at failed
  | error other middle =>
    simp only [outcome, EStateM.Result.error.injEq] at failed
    exact failed.2.symm

theorem Throws.bind_left {m : EStateM ε σ α} (thrown : Throws m s) (f : α → EStateM ε σ β) :
    Throws (m >>= f) s := by
  obtain ⟨e, s', failed⟩ := thrown
  exact ⟨e, s', by rw [bind_apply, failed]⟩

theorem Throws.bind_right {m : EStateM ε σ α} {f : α → EStateM ε σ β}
    (thrown : ∀ a s', m s = .ok a s' → Throws (f a) s') : Throws (m >>= f) s := by
  cases outcome : m s with
  | ok a middle =>
    obtain ⟨e, s', failed⟩ := thrown a middle outcome
    exact ⟨e, s', by rw [bind_apply, outcome]; exact failed⟩
  | error e middle => exact ⟨e, middle, by rw [bind_apply, outcome]⟩

theorem throws_iff {m : EStateM ε σ α} : Throws m s ↔ ∀ a s', m s ≠ .ok a s' := by
  constructor
  · rintro ⟨e, s', failed⟩ a other returned
    rw [failed] at returned
    cases returned
  · intro never
    cases outcome : m s with
    | ok a s' => exact False.elim (never a s' outcome)
    | error e s' => exact ⟨e, s', outcome⟩

def fails (m : EStateM ε σ α) (s : σ) : Bool :=
  match m s with
  | .ok _ _ => false
  | .error _ _ => true

theorem fails_iff {m : EStateM ε σ α} : fails m s = true ↔ Throws m s := by
  unfold fails Throws
  cases m s <;> simp

theorem fails_eq_false {m : EStateM ε σ α} : fails m s = false ↔ ∃ a s', m s = .ok a s' := by
  unfold fails
  cases m s <;> simp

instance (m : EStateM ε σ α) (s : σ) : Decidable (Throws m s) := decidable_of_iff (fails m s = true) fails_iff

end Refusals

/-! Computations that change nothing when they throw. -/

def Atomic (m : EStateM ε σ α) : Prop := ∀ s e s', m s = .error e s' → s' = s

theorem Atomic.transaction (m : EStateM ε σ α) : Atomic (transaction m) := fun _ _ _ => transaction_error

/-- `m` changes nothing when it throws in the state `s`. -/
def AtomicAt (m : EStateM ε σ α) (s : σ) : Prop := ∀ e s', m s = .error e s' → s' = s

theorem Atomic.at {m : EStateM ε σ α} (atomic : Atomic m) (s : σ) : AtomicAt m s := atomic s

theorem AtomicAt.map {m : EStateM ε σ α} {s : σ} (atomic : AtomicAt m s) (f : α → β) : AtomicAt (f <$> m) s := by
  intro e s' failed
  change EStateM.map f m s = _ at failed
  unfold EStateM.map at failed
  cases outcome : m s with
  | ok a middle => simp [outcome] at failed
  | error other middle =>
    simp only [outcome, EStateM.Result.error.injEq] at failed
    exact failed.2 ▸ atomic other middle outcome

theorem Atomic.map {m : EStateM ε σ α} (atomic : Atomic m) (f : α → β) : Atomic (f <$> m) :=
  fun s => (atomic.at s).map f

theorem atomicAt_of_ok {m : EStateM ε σ α} {s s' : σ} {a : α} (returned : m s = .ok a s') : AtomicAt m s := by
  intro e other failed
  rw [returned] at failed
  cases failed

/-! What a computation can throw. -/

def Raises (errors : ε → Prop) (m : EStateM ε σ α) (s : σ) : Prop := ∀ e s', m s = .error e s' → errors e

section Raising
variable {errors : ε → Prop} {m : EStateM ε σ α} {s : σ}

theorem raises_of_ok {a : α} {s' : σ} (returned : m s = .ok a s') : Raises errors m s := by
  intro e other failed
  rw [returned] at failed
  cases failed

theorem Raises.throw {e : ε} (error : errors e) : Raises errors (MonadExcept.throw e : EStateM ε σ α) s := by
  intro other s' failed
  cases failed
  exact error

theorem Raises.require {condition : Prop} [Decidable condition] {e : ε} (error : errors e) :
    Raises errors (require condition e) s := by
  unfold Transaction.require
  split
  · exact raises_of_ok rfl
  · exact .throw error

theorem Raises.expect {value : Option α} {e : ε} (error : errors e) : Raises errors (expect value e) s := by
  cases value with
  | none => exact .throw error
  | some a => exact raises_of_ok rfl

theorem Raises.bind {f : α → EStateM ε σ β} (first : Raises errors m s)
    (rest : ∀ a s', m s = .ok a s' → Raises errors (f a) s') : Raises errors (m >>= f) s := by
  intro e s' failed
  rw [bind_apply] at failed
  cases outcome : m s with
  | ok a middle =>
    simp only [outcome] at failed
    exact rest a middle outcome e s' failed
  | error other middle =>
    simp only [outcome, EStateM.Result.error.injEq] at failed
    exact failed.1 ▸ first other middle outcome

theorem Raises.map {f : α → β} (raises : Raises errors m s) : Raises errors (f <$> m) s :=
  raises.bind fun _ _ _ => raises_of_ok rfl

end Raising

/-! Computations that only read. -/

/-- `m` leaves every state as it found it, whether it returns or throws. -/
def ReadOnly (m : EStateM ε σ α) : Prop := ∀ s, after m s = s

section Reading
variable {m : EStateM ε σ α}

theorem after_ok {s s' : σ} {a : α} (returned : m s = .ok a s') : after m s = s' := by
  simp [after, returned]

theorem after_error {s s' : σ} {e : ε} (failed : m s = .error e s') : after m s = s' := by
  simp [after, failed]

theorem after_map {s : σ} (f : α → β) : after (f <$> m) s = after m s := by
  change after (EStateM.map f m) s = _
  unfold after EStateM.map
  cases m s <;> rfl

theorem ReadOnly.ok {s s' : σ} {a : α} (reads : ReadOnly m) (returned : m s = .ok a s') : s' = s := by
  have same := reads s
  rwa [after_ok returned] at same

theorem ReadOnly.error {s s' : σ} {e : ε} (reads : ReadOnly m) (failed : m s = .error e s') : s' = s := by
  have same := reads s
  rwa [after_error failed] at same

theorem ReadOnly.atomic (reads : ReadOnly m) : Atomic m := fun _ _ _ failed => reads.error failed

theorem ReadOnly.atomic_bind {f : α → EStateM ε σ β} (reads : ReadOnly m) (rest : ∀ a, Atomic (f a)) :
    Atomic (m >>= f) := by
  intro s e s' failed
  rw [bind_apply] at failed
  cases outcome : m s with
  | ok a middle =>
    obtain rfl := reads.ok outcome
    simp only [outcome] at failed
    exact rest a middle e s' failed
  | error other middle =>
    obtain rfl := reads.error outcome
    simp only [outcome, EStateM.Result.error.injEq] at failed
    exact failed.2.symm

theorem ReadOnly.atomicAt_bind {f : α → EStateM ε σ β} {s : σ} (reads : ReadOnly m)
    (rest : ∀ a, m s = .ok a s → AtomicAt (f a) s) : AtomicAt (m >>= f) s := by
  intro e s' failed
  rw [bind_apply] at failed
  cases outcome : m s with
  | ok a middle =>
    obtain rfl := reads.ok outcome
    simp only [outcome] at failed
    exact rest a outcome e s' failed
  | error other middle =>
    obtain rfl := reads.error outcome
    simp only [outcome, EStateM.Result.error.injEq] at failed
    exact failed.2.symm

theorem Atomic.cases {s : σ} (atomic : Atomic m) :
    (∃ a, m s = .ok a (after m s)) ∨ (Throws m s ∧ after m s = s) := by
  cases outcome : m s with
  | ok a s' => exact .inl ⟨a, by rw [after_ok outcome]⟩
  | error e s' => exact .inr ⟨⟨e, s', outcome⟩, (after_error outcome).trans (atomic s e s' outcome)⟩

theorem ReadOnly.pure (a : α) : ReadOnly (Pure.pure a : EStateM ε σ α) := fun _ => rfl

theorem ReadOnly.throw (e : ε) : ReadOnly (MonadExcept.throw e : EStateM ε σ α) := fun _ => rfl

theorem ReadOnly.get : ReadOnly (MonadState.get : EStateM ε σ σ) := fun _ => rfl

theorem ReadOnly.bind {f : α → EStateM ε σ β} (first : ReadOnly m) (rest : ∀ a, ReadOnly (f a)) :
    ReadOnly (m >>= f) := by
  intro s
  cases outcome : m s with
  | ok a middle =>
    obtain rfl := first.ok outcome
    have same : after (m >>= f) middle = after (f a) middle := by simp only [after, bind_apply, outcome]
    rw [same, rest a middle]
  | error e middle =>
    obtain rfl := first.error outcome
    exact after_error (by rw [bind_apply, outcome])

theorem ReadOnly.expect (value : Option α) (e : ε) : ReadOnly (expect value e : EStateM ε σ α) := by
  cases value with
  | none => exact .throw e
  | some a => exact .pure a

theorem ReadOnly.require (condition : Prop) [Decidable condition] (e : ε) :
    ReadOnly (require condition e : EStateM ε σ Unit) := by
  unfold Transaction.require
  split
  next => exact .pure ()
  next => exact .throw e

theorem ReadOnly.onlyIf {condition : Prop} [Decidable condition] {body : EStateM ε σ Unit}
    (reads : ReadOnly body) : ReadOnly (onlyIf condition body) := by
  unfold Transaction.onlyIf
  split
  next => exact reads
  next => exact .pure ()

theorem ReadOnly.given {value : Option α} {body : α → EStateM ε σ Unit} (reads : ∀ a, ReadOnly (body a)) :
    ReadOnly (given value body) := by
  cases value with
  | none => exact .pure ()
  | some a => exact reads a

theorem ReadOnly.forM {items : List β} {body : β → EStateM ε σ PUnit} (reads : ∀ item, ReadOnly (body item)) :
    ReadOnly (items.forM body) := by
  induction items with
  | nil => exact .pure PUnit.unit
  | cons item rest ih => exact (reads item).bind fun _ => ih

end Reading

/-! What normal results guarantee. A computation that runs inside a transaction is
only accountable for these: when it throws it is rolled back. -/

/-- Every normal result of `m` from `s` has moved along `rel` and satisfies `post`. -/
def Yields (rel : σ → σ → Prop) (m : EStateM ε σ α) (s : σ) (post : α → σ → Prop) : Prop :=
  ∀ a s', m s = .ok a s' → rel s s' ∧ post a s'

section Results
variable {rel : σ → σ → Prop} {m : EStateM ε σ α} {s : σ} {post : α → σ → Prop}

theorem Yields.weaken {stronger : α → σ → Prop} (valid : Yields rel m s stronger)
    (result : ∀ a s', rel s s' → stronger a s' → post a s') : Yields rel m s post := fun a s' returned =>
  ⟨(valid a s' returned).1, result a s' (valid a s' returned).1 (valid a s' returned).2⟩

theorem Yields.mono {wider : σ → σ → Prop} (valid : Yields rel m s post)
    (implies : ∀ s', rel s s' → wider s s') : Yields wider m s post := fun a s' returned =>
  ⟨implies s' (valid a s' returned).1, (valid a s' returned).2⟩

/-- A computation moves along whatever its result implies. -/
theorem Yields.of_post (valid : Yields (fun _ _ => True) m s post) (implies : ∀ a s', post a s' → rel s s') :
    Yields rel m s post := fun a s' returned =>
  ⟨implies a s' (valid a s' returned).2, (valid a s' returned).2⟩

theorem Yields.plain (valid : Yields rel m s post) : Yields rel m s fun _ _ => True :=
  valid.weaken fun _ _ _ _ => trivial

theorem Yields.throw {e : ε} : Yields rel (MonadExcept.throw e : EStateM ε σ α) s post :=
  fun _ _ impossible => absurd impossible throw_ok

theorem Yields.ite {condition : Prop} [Decidable condition] {other : EStateM ε σ α}
    (first : condition → Yields rel m s post) (second : ¬ condition → Yields rel other s post) :
    Yields rel (if condition then m else other) s post := by
  split
  next met => exact first met
  next unmet => exact second unmet

theorem Yields.map {f : α → β} {post : β → σ → Prop} (valid : Yields rel m s fun a => post (f a)) :
    Yields rel (f <$> m) s post := by
  intro b s' returned
  obtain ⟨a, result, rfl⟩ := map_ok.mp returned
  exact valid a s' result

theorem Yields.transaction (valid : Yields rel m s post) : Yields rel (transaction m) s post :=
  fun a s' returned => valid a s' (transaction_ok.mp returned)

/-- Reading first: the rest starts in the same state, knowing what was read. -/
theorem Yields.read {f : α → EStateM ε σ β} {post : β → σ → Prop} (reads : ReadOnly m)
    (rest : ∀ a, m s = .ok a s → Yields rel (f a) s post) : Yields rel (m >>= f) s post := by
  intro b s' returned
  obtain ⟨a, middle, first, later⟩ := bind_ok.mp returned
  obtain rfl := reads.ok first
  exact rest a first b s' later

variable [IsPreorder σ rel]

theorem Yields.bind {f : α → EStateM ε σ β} {post : β → σ → Prop} {middle : α → σ → Prop}
    (first : Yields rel m s middle)
    (rest : ∀ a s', rel s s' → middle a s' → Yields rel (f a) s' post) : Yields rel (m >>= f) s post := by
  intro b final returned
  obtain ⟨a, s', earlier, later⟩ := bind_ok.mp returned
  obtain ⟨moved, reached⟩ := first a s' earlier
  obtain ⟨onward, result⟩ := rest a s' moved reached b final later
  exact ⟨IsTrans.trans _ _ _ moved onward, result⟩

theorem Yields.seq {f : α → EStateM ε σ β} {post : β → σ → Prop} (first : Yields rel m s fun _ _ => True)
    (rest : ∀ a s', rel s s' → Yields rel (f a) s' post) : Yields rel (m >>= f) s post :=
  first.bind fun a s' moved _ => rest a s' moved

/-- Two steps that only together move along `rel`. -/
theorem Yields.pair {γ : Type} {f : α → EStateM ε σ β} {g : β → EStateM ε σ γ} {post : γ → σ → Prop}
    {middle : β → σ → Prop} (first : Yields rel (m >>= f) s middle)
    (rest : ∀ b s', rel s s' → middle b s' → Yields rel (g b) s' post) :
    Yields rel (m >>= fun a => f a >>= g) s post := by
  have joined := first.bind rest
  rwa [bind_assoc] at joined

theorem Yields.pure {a : α} (result : post a s) : Yields rel (Pure.pure a : EStateM ε σ α) s post := by
  intro b s' returned
  obtain ⟨rfl, rfl⟩ := pure_ok.mp returned
  exact ⟨Std.Refl.refl _, result⟩

theorem ReadOnly.yields (reads : ReadOnly m) : Yields rel m s fun a s' => s' = s ∧ m s = .ok a s := by
  intro a s' returned
  obtain rfl := reads.ok returned
  exact ⟨Std.Refl.refl _, rfl, returned⟩

theorem ReadOnly.plain (reads : ReadOnly m) : Yields rel m s fun _ _ => True := reads.yields.plain

theorem Yields.given {value : Option α} {body : α → EStateM ε σ Unit} {post : Unit → σ → Prop}
    (skipped : value = none → post () s) (valid : ∀ a, value = some a → Yields rel (body a) s post) :
    Yields rel (given value body) s post := by
  cases value with
  | none => exact Yields.pure (skipped rfl)
  | some a => exact valid a rfl

theorem Yields.onlyIf {condition : Prop} [Decidable condition] {body : EStateM ε σ Unit} {post : Unit → σ → Prop}
    (skipped : ¬ condition → post () s) (valid : condition → Yields rel body s post) :
    Yields rel (onlyIf condition body) s post :=
  Yields.ite valid fun unmet => Yields.pure (skipped unmet)

/-- A loop keeps what every iteration keeps. -/
theorem Yields.forM {items : List β} {body : β → EStateM ε σ PUnit} {inv : σ → Prop} (holds : inv s)
    (valid : ∀ item ∈ items, ∀ s', rel s s' → inv s' → Yields rel (body item) s' fun _ => inv) :
    Yields rel (items.forM body) s fun _ => inv := by
  induction items generalizing s with
  | nil => exact Yields.pure holds
  | cons item rest ih =>
    refine (valid item (by simp) s (Std.Refl.refl s) holds).bind fun _ s' moved held => ?_
    exact ih held fun other member s'' later => valid other (by simp [member]) s'' (IsTrans.trans _ _ _ moved later)

theorem Yields.mapM {γ : Type} {items : List β} {body : β → EStateM ε σ γ} {inv : σ → Prop} (holds : inv s)
    (valid : ∀ item ∈ items, ∀ s', rel s s' → inv s' → Yields rel (body item) s' fun _ => inv) :
    Yields rel (items.mapM body) s fun _ => inv := by
  induction items generalizing s with
  | nil => exact Yields.pure holds
  | cons item rest ih =>
    rw [List.mapM_cons]
    refine (valid item (by simp) s (Std.Refl.refl s) holds).bind fun _ s' moved held => ?_
    refine (ih held fun other member s'' later => valid other (by simp [member]) s''
      (IsTrans.trans _ _ _ moved later)).bind fun _ s'' _ kept => Yields.pure kept

end Results

/-! What holds however a computation ends. -/

/-- `m` started in `s` moves the state along `rel`, whether it returns or throws. -/
def Within (rel : σ → σ → Prop) (m : EStateM ε σ α) (s : σ) : Prop := rel s (after m s)

section Guarantees
variable {rel : σ → σ → Prop} {m : EStateM ε σ α} {s : σ}

theorem Within.mono {wider : σ → σ → Prop} (valid : Within rel m s)
    (implies : ∀ s', rel s s' → wider s s') : Within wider m s := implies _ valid

theorem Within.yields (valid : Within rel m s) : Yields rel m s fun _ _ => True := fun a s' returned => by
  have moved : rel s (after m s) := valid
  rw [after_ok returned] at moved
  exact ⟨moved, trivial⟩

theorem Within.map (valid : Within rel m s) (f : α → β) : Within rel (f <$> m) s := by
  unfold Within
  rwa [after_map]

variable [IsPreorder σ rel]

theorem ReadOnly.within (reads : ReadOnly m) : Within rel m s := by
  unfold Within
  rw [reads s]
  exact Std.Refl.refl s

/-- A transaction that throws has not moved, so its normal results decide. -/
theorem Yields.within (valid : Yields rel m s fun _ _ => True) : Within rel (Transaction.transaction m) s := by
  unfold Within
  cases outcome : m s with
  | ok a s' =>
    rw [after_ok (transaction_ok.mpr outcome)]
    exact (valid a s' outcome).1
  | error e s' =>
    obtain ⟨thrown, same⟩ := throws_transaction ⟨e, s', outcome⟩
    rw [after_error same]
    exact Std.Refl.refl s

theorem Within.bind {f : α → EStateM ε σ β} (first : Within rel m s)
    (rest : ∀ a s', m s = .ok a s' → Within rel (f a) s') : Within rel (m >>= f) s := by
  have moved : rel s (after m s) := first
  unfold Within
  cases outcome : m s with
  | error e s' =>
    have same : (m >>= f) s = .error e s' := by rw [bind_apply, outcome]
    rwa [after_error same, ← after_error outcome]
  | ok a s' =>
    have same : after (m >>= f) s = after (f a) s' := by simp only [after, bind_apply, outcome]
    rw [after_ok outcome] at moved
    have onward : rel s' (after (f a) s') := rest a s' outcome
    rw [same]
    exact IsTrans.trans _ _ _ moved onward

theorem Within.read {f : α → EStateM ε σ β} (reads : ReadOnly m)
    (rest : ∀ a, m s = .ok a s → Within rel (f a) s) : Within rel (m >>= f) s :=
  reads.within.bind fun a s' returned => by
    obtain rfl := reads.ok returned
    exact rest a returned

end Guarantees

/-! Total correctness: a computation returns, with a result that satisfies `post`. -/

def Returns (m : EStateM ε σ α) (s : σ) (post : α → σ → Prop) : Prop := ∃ a s', m s = .ok a s' ∧ post a s'

section Total
variable {m : EStateM ε σ α} {s : σ} {post : α → σ → Prop}

theorem Returns.pure {a : α} (result : post a s) : Returns (Pure.pure a : EStateM ε σ α) s post := ⟨a, s, rfl, result⟩

theorem Returns.bind {f : α → EStateM ε σ β} {result : β → σ → Prop} (first : Returns m s post)
    (rest : ∀ a s', m s = .ok a s' → post a s' → Returns (f a) s' result) : Returns (m >>= f) s result := by
  obtain ⟨a, s', returned, reached⟩ := first
  obtain ⟨b, final, later, result⟩ := rest a s' returned reached
  exact ⟨b, final, bind_ok.mpr ⟨a, s', returned, later⟩, result⟩

theorem Returns.step {f : α → EStateM ε σ β} {result : β → σ → Prop} {a : α} {s' : σ} (first : m s = .ok a s')
    (rest : Returns (f a) s' result) : Returns (m >>= f) s result := by
  obtain ⟨b, final, later, result⟩ := rest
  exact ⟨b, final, bind_ok.mpr ⟨a, s', first, later⟩, result⟩

theorem Returns.transaction (returns : Returns m s post) : Returns (transaction m) s post := by
  obtain ⟨a, s', returned, result⟩ := returns
  exact ⟨a, s', transaction_ok.mpr returned, result⟩

theorem Returns.weaken {weaker : α → σ → Prop} (returns : Returns m s post)
    (implies : ∀ a s', post a s' → weaker a s') : Returns m s weaker := by
  obtain ⟨a, s', returned, result⟩ := returns
  exact ⟨a, s', returned, implies a s' result⟩

/-- A loop returns when every iteration does and leaves what the rest needs. -/
theorem Returns.forM (inv : List β → σ → Prop) {items : List β} {body : β → EStateM ε σ PUnit} (holds : inv items s)
    (valid : ∀ item rest s', inv (item :: rest) s' → Returns (body item) s' fun _ => inv rest) :
    Returns (items.forM body) s fun _ => inv [] := by
  induction items generalizing s with
  | nil => exact .pure holds
  | cons item rest ih => exact (valid item rest s holds).bind fun _ s' _ held => ih held

/-- A loop throws when one iteration must, whatever the others did before it. -/
theorem throws_forM (inv : σ → Prop) {items : List β} {body : β → EStateM ε σ PUnit} {item : β}
    (member : item ∈ items) (holds : inv s)
    (kept : ∀ other ∈ items, ∀ s u s', inv s → body other s = .ok u s' → inv s')
    (stuck : ∀ s, inv s → Throws (body item) s) : Throws (items.forM body) s := by
  induction items generalizing s with
  | nil => cases member
  | cons first rest ih =>
    refine Throws.bind_right fun u s' returned => ?_
    rcases List.mem_cons.mp member with rfl | later
    · exact absurd returned (throws_iff.mp (stuck s holds) u s')
    · exact ih later (kept first (by simp) s u s' holds returned) fun other inside => kept other (by simp [inside])

/-- A loop of checks goes through when all of them pass. -/
theorem forM_check_ok {items : List β} {body : β → EStateM ε σ PUnit} {passes : β → Prop} {s' : σ} {u : PUnit}
    (each : ∀ item u s', body item s = .ok u s' ↔ passes item ∧ s' = s) :
    items.forM body s = .ok u s' ↔ (∀ item ∈ items, passes item) ∧ s' = s := by
  induction items with
  | nil => exact pure_ok.trans (by simp)
  | cons item rest ih =>
    change (body item >>= fun _ => rest.forM body) s = .ok u s' ↔ _
    simp only [bind_ok, each, List.forall_mem_cons]
    constructor
    · rintro ⟨_, _, ⟨one, same⟩, others⟩
      subst same
      exact ⟨⟨one, (ih.mp others).1⟩, (ih.mp others).2⟩
    · rintro ⟨⟨one, others⟩, same⟩
      exact ⟨PUnit.unit, s, ⟨one, rfl⟩, ih.mpr ⟨others, same⟩⟩

theorem forM_require_ok {items : List β} {condition : β → Prop} [∀ item, Decidable (condition item)] {e : β → ε} {s' : σ}
    {u : PUnit} :
    (items.forM fun item => (require (condition item) (e item) : EStateM ε σ PUnit)) s = .ok u s' ↔
      (∀ item ∈ items, condition item) ∧ s' = s :=
  forM_check_ok fun _ _ _ => require_ok

instance isPreorderTrue : IsPreorder σ (fun _ _ : σ => True) where
  refl _ := trivial
  trans _ _ _ _ _ := trivial

/-- What every iteration of a loop keeps, the loop keeps. -/
theorem forM_keeps (inv : σ → Prop) {items : List β} {body : β → EStateM ε σ PUnit} {u : PUnit} {s' : σ} (holds : inv s)
    (kept : ∀ item ∈ items, ∀ s u s', inv s → body item s = .ok u s' → inv s')
    (looped : items.forM body s = .ok u s') : inv s' := by
  induction items generalizing s with
  | nil =>
    obtain ⟨-, rfl⟩ := pure_ok.mp looped
    exact holds
  | cons first rest ih =>
    obtain ⟨v, middle, one, others⟩ := bind_ok.mp looped
    have held : inv middle := kept first (by simp) s v middle holds one
    exact ih held (fun item member => kept item (by simp [member])) others

/-- A loop whose iterations keep an invariant goes through when each of them does. -/
theorem forM_succeeds (inv : σ → Prop) {goes : β → Prop} {items : List β} {body : β → EStateM ε σ PUnit}
    (each : ∀ item s, inv s → ((∃ u s', body item s = .ok u s') ↔ goes item))
    (kept : ∀ item s u s', inv s → body item s = .ok u s' → inv s') (holds : inv s) :
    (∃ u s', items.forM body s = .ok u s') ↔ ∀ item ∈ items, goes item := by
  induction items generalizing s with
  | nil => exact iff_of_true ⟨PUnit.unit, s, rfl⟩ (by simp)
  | cons first rest ih =>
    rw [List.forall_mem_cons]
    constructor
    · rintro ⟨u, s', returned⟩
      obtain ⟨v, middle, one, others⟩ := bind_ok.mp returned
      exact ⟨(each first s holds).mp ⟨v, middle, one⟩, (ih (kept first s v middle holds one)).mp ⟨u, s', others⟩⟩
    · rintro ⟨goesFirst, goesRest⟩
      obtain ⟨v, middle, one⟩ := (each first s holds).mpr goesFirst
      obtain ⟨u, s', others⟩ := (ih (kept first s v middle holds one)).mpr goesRest
      exact ⟨u, s', bind_ok.mpr ⟨v, middle, one, others⟩⟩

/-- What each iteration sets for its own item, and no iteration undoes, the loop leaves for
every item. -/
theorem forM_settles (settled : β → σ → Prop) {items : List β} {body : β → EStateM ε σ PUnit} {s' : σ} {u : PUnit}
    (sets : ∀ item s u s', body item s = .ok u s' → settled item s')
    (keeps : ∀ item other s u s', settled item s → body other s = .ok u s' → settled item s')
    (looped : items.forM body s = .ok u s') : ∀ item ∈ items, settled item s' := by
  induction items generalizing s with
  | nil => simp
  | cons first rest ih =>
    obtain ⟨_, s₁, returned, remaining⟩ := bind_ok.mp looped
    intro item member
    rcases List.mem_cons.mp member with rfl | later
    · have held : settled item s₁ := sets item s _ s₁ returned
      have loop : Yields (fun _ _ => True) (rest.forM body) s₁ fun _ => settled item :=
        .forM held fun other _ s₂ _ held _ s₃ moved => ⟨trivial, keeps item other s₂ _ s₃ held moved⟩
      exact (loop _ _ remaining).2
    · exact ih remaining item later

end Total

end Transaction
