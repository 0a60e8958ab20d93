import Mathlib.Data.List.Basic

/-! Fencing tokens. A resource is held under a numbered token; a takeover replaces
the token by one with a larger number, and the guarded resource accepts only the
current token. The history of grants is a ghost: nothing reads it but the proof. -/

namespace Fencing

variable {Holder : Type}

structure Token (Holder : Type) where
  holder : Holder
  generation : Nat

/-- What can become of the current token: it stays, or a larger one replaces it. -/
inductive Follows : Option (Token Holder) → Option (Token Holder) → Prop
  | same {current : Option (Token Holder)} : Follows current current
  | first {token : Token Holder} : Follows none (some token)
  | taken {current token : Token Holder} (larger : current.generation < token.generation) :
      Follows (some current) (some token)

/-- A granted token is older than the current one, or the current holder's own. -/
def Covers (current : Option (Token Holder)) (grant : Token Holder) : Prop :=
  ∃ token, current = some token ∧ grant.generation ≤ token.generation ∧
    (grant.generation = token.generation → grant.holder = token.holder)

structure Fenced (current : Option (Token Holder)) (grants : List (Token Holder)) : Prop where
  covered : ∀ grant ∈ grants, Covers current grant
  apart : ∀ first ∈ grants, ∀ second ∈ grants, first.generation = second.generation → first.holder = second.holder

section Tokens
variable {current next : Option (Token Holder)} {token grant : Token Holder} {grants : List (Token Holder)}

theorem Follows.generation {earlier : Token Holder} (follows : Follows current next) (held : current = some earlier) :
    ∃ later, next = some later ∧ earlier.generation ≤ later.generation := by
  cases follows with
  | same => exact ⟨earlier, held, Nat.le_refl _⟩
  | first => cases held
  | taken larger =>
    cases held
    exact ⟨_, rfl, Nat.le_of_lt larger⟩

theorem Covers.follows (covered : Covers current grant) (follows : Follows current next) : Covers next grant := by
  obtain ⟨token, held, older, mine⟩ := covered
  cases follows with
  | same => exact ⟨token, held, older, mine⟩
  | first => cases held
  | taken larger =>
    cases held
    exact ⟨_, rfl, by omega, fun same => by omega⟩

theorem fenced_nil : Fenced current [] := ⟨by simp, by simp⟩

theorem Fenced.follows (fenced : Fenced current grants) (follows : Follows current next) : Fenced next grants :=
  ⟨fun grant member => (fenced.covered grant member).follows follows, fenced.apart⟩

/-- Granting the token a takeover or an extension leaves current. -/
theorem Fenced.granted (fenced : Fenced current grants) (follows : Follows current (some token)) :
    Fenced (some token) (token :: grants) := by
  have older : ∀ grant ∈ grants, grant.generation = token.generation → grant.holder = token.holder := by
    intro grant member
    obtain ⟨_, held, -, mine⟩ := (fenced.covered grant member).follows follows
    cases held
    exact mine
  refine ⟨fun grant member => ?_, fun first one second other same => ?_⟩
  · rcases List.mem_cons.mp member with rfl | member
    · exact ⟨grant, rfl, Nat.le_refl _, fun _ => rfl⟩
    · exact (fenced.covered grant member).follows follows
  · rcases List.mem_cons.mp one with rfl | earlier <;> rcases List.mem_cons.mp other with rfl | before
    · rfl
    · exact (older second before same.symm).symm
    · exact older first earlier same
    · exact fenced.apart first earlier second before same

/-- Whatever was granted, the current token is no older and nobody else's. -/
theorem Fenced.checked (fenced : Fenced (some token) grants) (member : grant ∈ grants) :
    grant.generation ≤ token.generation ∧ (token.generation = grant.generation → token.holder = grant.holder) := by
  obtain ⟨_, held, older, mine⟩ := fenced.covered grant member
  cases held
  exact ⟨older, fun same => (mine same.symm).symm⟩

end Tokens

end Fencing
