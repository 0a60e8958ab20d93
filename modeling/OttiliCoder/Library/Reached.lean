import Mathlib.Order.Defs.Unbundled

/-! States a system reaches by performing actions, each allowed in the state it is
performed in. -/

namespace Transaction

variable {σ Action : Type} {start : σ} {perform : Action → σ → σ} {allowed : σ → Action → Prop}

inductive Reached (start : σ) (perform : Action → σ → σ) (allowed : σ → Action → Prop) : σ → Prop
  | start : Reached start perform allowed start
  | step {s : σ} (action : Action) (before : Reached start perform allowed s) (admitted : allowed s action) :
      Reached start perform allowed (perform action s)

/-- An invariant that holds at the start and survives every allowed action holds
in every state reached. -/
theorem Reached.invariant {inv : σ → Prop} (initial : inv start)
    (kept : ∀ s action, Reached start perform allowed s → inv s → allowed s action → inv (perform action s))
    {s : σ} (reached : Reached start perform allowed s) : inv s := by
  induction reached with
  | start => exact initial
  | step action before admitted ih => exact kept _ action before ih admitted

theorem Reached.mono {wider : σ → Action → Prop} (implies : ∀ s action, allowed s action → wider s action)
    {s : σ} (reached : Reached start perform allowed s) : Reached start perform wider s := by
  induction reached with
  | start => exact .start
  | step action before admitted ih => exact .step action ih (implies _ _ admitted)

/-- The state a list of actions leads to. -/
def performAll (perform : Action → σ → σ) (actions : List Action) (s : σ) : σ :=
  actions.foldl (fun s action => perform action s) s

theorem performAll_concat (actions : List Action) (action : Action) (s : σ) :
    performAll perform (actions ++ [action]) s = perform action (performAll perform actions s) := by
  simp [performAll]

/-- What is observed of each action of the list where it is performed. -/
def observed {β : Type} (perform : Action → σ → σ) (observe : σ → Action → List β) : σ → List Action → List β
  | _, [] => []
  | s, action :: rest => observe s action ++ observed perform observe (perform action s) rest

theorem observed_append {β : Type} {observe : σ → Action → List β} (first second : List Action) (s : σ) :
    observed perform observe s (first ++ second) =
      observed perform observe s first ++ observed perform observe (performAll perform first s) second := by
  induction first generalizing s with
  | nil => rfl
  | cons action rest ih =>
    change observe s action ++ observed perform observe (perform action s) (rest ++ second) = _
    rw [ih, ← List.append_assoc]
    rfl

theorem observed_concat {β : Type} {observe : σ → Action → List β} (actions : List Action) (action : Action) (s : σ) :
    observed perform observe s (actions ++ [action]) =
      observed perform observe s actions ++ observe (performAll perform actions s) action := by
  rw [observed_append, observed, observed, List.append_nil]

/-- Every action of the list is allowed where it is performed. -/
def AllAllowed (perform : Action → σ → σ) (allowed : σ → Action → Prop) : σ → List Action → Prop
  | _, [] => True
  | s, action :: rest => allowed s action ∧ AllAllowed perform allowed (perform action s) rest

instance decidableAllAllowed [∀ s action, Decidable (allowed s action)] :
    (s : σ) → (actions : List Action) → Decidable (AllAllowed perform allowed s actions)
  | _, [] => isTrue trivial
  | s, action :: rest =>
    have := decidableAllAllowed (perform action s) rest
    inferInstanceAs (Decidable (allowed s action ∧ AllAllowed perform allowed (perform action s) rest))

theorem allAllowed_of_forall {admits : Action → Prop} {s : σ} {actions : List Action}
    (each : ∀ action ∈ actions, admits action) : AllAllowed perform (fun _ => admits) s actions := by
  induction actions generalizing s with
  | nil => trivial
  | cons action rest ih => exact ⟨each action (by simp), ih fun other member => each other (by simp [member])⟩

theorem allAllowed_concat {s : σ} {actions : List Action} {action : Action} :
    AllAllowed perform allowed s (actions ++ [action]) ↔
      AllAllowed perform allowed s actions ∧ allowed (performAll perform actions s) action := by
  induction actions generalizing s with
  | nil => exact and_comm
  | cons first rest ih =>
    change allowed s first ∧ AllAllowed perform allowed (perform first s) (rest ++ [action]) ↔ _
    rw [ih, ← and_assoc]
    rfl

theorem allAllowed_append {s : σ} {first second : List Action} :
    AllAllowed perform allowed s (first ++ second) ↔
      AllAllowed perform allowed s first ∧ AllAllowed perform allowed (performAll perform first s) second := by
  induction first generalizing s with
  | nil => exact iff_of_eq (true_and _).symm
  | cons action rest ih =>
    change allowed s action ∧ AllAllowed perform allowed (perform action s) (rest ++ second) ↔ _
    rw [ih, ← and_assoc]
    rfl

theorem performAll_append {s : σ} (first second : List Action) :
    performAll perform (first ++ second) s = performAll perform second (performAll perform first s) := List.foldl_append

theorem AllAllowed.mono {wider : σ → Action → Prop} (implies : ∀ s action, allowed s action → wider s action) {s : σ}
    {actions : List Action} (admitted : AllAllowed perform allowed s actions) : AllAllowed perform wider s actions := by
  induction actions generalizing s with
  | nil => trivial
  | cons action rest ih => exact ⟨implies s action admitted.1, ih admitted.2⟩

theorem Reached.performAll {s : σ} (reached : Reached start perform allowed s) {actions : List Action}
    (admitted : AllAllowed perform allowed s actions) :
    Reached start perform allowed (performAll perform actions s) := by
  induction actions generalizing s with
  | nil => exact reached
  | cons action rest ih => exact ih (.step action reached admitted.1) admitted.2

/-! From one state to another by actions of a kind. -/

def Through (perform : Action → σ → σ) (admits : Action → Prop) (s s' : σ) : Prop :=
  ∃ actions, (∀ action ∈ actions, admits action) ∧ s' = performAll perform actions s

section Through
variable {admits : Action → Prop} {s s' : σ}

instance : IsPreorder σ (Through perform admits) where
  refl _ := ⟨[], fun _ none => absurd none List.not_mem_nil, rfl⟩
  trans s middle s' := by
    rintro ⟨first, firstAdmitted, led⟩ ⟨second, secondAdmitted, on⟩
    refine ⟨first ++ second, ?_, ?_⟩
    · intro action listed
      exact (List.mem_append.mp listed).elim (firstAdmitted action) (secondAdmitted action)
    · rw [on, led]
      exact (List.foldl_append).symm

theorem Through.one {action : Action} (admitted : admits action) (s : σ) : Through perform admits s (perform action s) :=
  ⟨[action], fun _ listed => List.mem_singleton.mp listed ▸ admitted, rfl⟩

theorem Through.mono {wider : Action → Prop} (implies : ∀ action, admits action → wider action)
    (through : Through perform admits s s') : Through perform wider s s' := by
  obtain ⟨actions, admitted, led⟩ := through
  exact ⟨actions, fun action listed => implies action (admitted action listed), led⟩

/-- What no such action changes is as it was. -/
theorem Through.keeps {β : Type} {observe : σ → β} (kept : ∀ s action, admits action → observe (perform action s) = observe s)
    (through : Through perform admits s s') : observe s' = observe s := by
  obtain ⟨actions, admitted, rfl⟩ := through
  induction actions generalizing s with
  | nil => rfl
  | cons action rest ih =>
    have later : observe (Transaction.performAll perform rest (perform action s)) = _ :=
      ih fun other listed => admitted other (List.mem_cons_of_mem _ listed)
    exact later.trans (kept s action (admitted action List.mem_cons_self))

theorem Through.reached (through : Through perform admits s s') (reached : Reached start perform (fun _ _ => True) s) :
    Reached start perform (fun _ _ => True) s' := by
  obtain ⟨actions, _, rfl⟩ := through
  exact reached.performAll (allAllowed_of_forall fun _ _ => trivial)

end Through

end Transaction
