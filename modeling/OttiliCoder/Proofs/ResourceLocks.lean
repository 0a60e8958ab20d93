import OttiliCoder.Proofs.Scope

/-! Resource locks exclude each other: whoever holds a lock, nobody else holds one on
a scope that must not be used beside it. -/

namespace OttiliCoder
open Relational Transaction

theorem resourceIdentifiersOverlap_symm (kind : ResourceKind) (left right : String) :
    resourceIdentifiersOverlap kind left right = resourceIdentifiersOverlap kind right left := by
  have equal : (left == right) = (right == left) := Bool.beq_comm
  have matched : (left == right || wildcardMatches left right || wildcardMatches right left) =
      (right == left || wildcardMatches right left || wildcardMatches left right) := by
    rw [equal, Bool.or_right_comm]
  have prefixed := Bool.or_comm ((stripTrailingSlash left).startsWith (stripTrailingSlash right ++ "/"))
    ((stripTrailingSlash right).startsWith (stripTrailingSlash left ++ "/"))
  simp only [resourceIdentifiersOverlap, matched, prefixed]

/-- Whether two scopes must be serialized does not depend on which is asked about. -/
theorem resourceScopesConflict_symm (left right : ResourceScope) :
    resourceScopesConflict left right = resourceScopesConflict right left := by
  have kinds : (left.kind != right.kind) = (right.kind != left.kind) := bne_comm
  have reads : (left.access == .read && right.access == .read) = (right.access == .read && left.access == .read) :=
    Bool.and_comm _ _
  unfold resourceScopesConflict
  rw [kinds, reads]
  split
  next => rfl
  next same =>
    have kind : left.kind = right.kind := by
      simp only [Bool.or_eq_true, bne_iff_ne, not_or, not_not] at same
      exact same.1.symm
    rw [kind, resourceIdentifiersOverlap_symm]

/-- Who holds a lock: an executor, for a Run, under a lease generation. -/
def ResourceLockRow.holder (lock : ResourceLockRow) : RunId × String × Nat :=
  (lock.runId, lock.holderId, lock.leaseGeneration)

def AcquireResourceLocksInput.holder (input : AcquireResourceLocksInput) : RunId × String × Nat :=
  (input.runId, input.executorId, (input.lease.map (·.generation)).getD 0)

/-- No two holders have locks on conflicting scopes. -/
def Exclusive (s : Store) : Prop := ∀ lock ∈ s .resourceLocks, ∀ other ∈ s .resourceLocks,
  lock.holder ≠ other.holder → resourceScopesConflict lock.scope other.scope = false

/-- A set of locks that excludes keeps doing so when it shrinks. -/
def KeepsExclusive (s s' : Store) : Prop := Exclusive s → Exclusive s'

instance : IsPreorder Store KeepsExclusive where
  refl _ exclusive := exclusive
  trans _ _ _ first second exclusive := second (first exclusive)

section Locks
variable {s s' : Store} {clock : Date}

theorem KeepsExclusive.of_subset (kept : ∀ lock ∈ s' .resourceLocks, lock ∈ s .resourceLocks) : KeepsExclusive s s' := by
  intro exclusive lock member other inside
  exact exclusive lock (kept lock member) other (kept other inside)

theorem KeepsExclusive.delete {removed : ResourceLockRow → Bool} :
    KeepsExclusive s (s.set .resourceLocks ((s .resourceLocks).filter fun lock => !removed lock)) := by
  refine .of_subset fun lock member => ?_
  rw [Db.set_same] at member
  exact (Keyed.mem_filter.mp member).1

/-- The scope conflicts with no lock of another holder. -/
def Admitted (input : AcquireResourceLocksInput) (s : Store) (scope : ResourceScope) : Prop :=
  ∀ lock ∈ s .resourceLocks, lock.holder ≠ input.holder → resourceScopesConflict scope lock.scope = false

/-- The new locks are the acquirer's, on scopes that were checked. -/
theorem KeepsExclusive.acquire {input : AcquireResourceLocksInput}
    (checked : ∀ scope ∈ input.scopes, Admitted input s scope)
    (new : ∀ lock ∈ s' .resourceLocks, lock ∈ s .resourceLocks ∨ (lock.holder = input.holder ∧ lock.scope ∈ input.scopes)) :
    KeepsExclusive s s' := by
  intro exclusive lock member other inside apart
  rcases new lock member with old | ⟨mine, requested⟩
  · rcases new other inside with older | ⟨theirs, requested⟩
    · exact exclusive lock old other older apart
    · rw [resourceScopesConflict_symm]
      exact checked other.scope requested lock old (theirs ▸ apart)
  · rcases new other inside with older | ⟨theirs, -⟩
    · exact checked lock.scope requested other older fun same => apart (mine.trans same.symm)
    · exact absurd (mine.trans theirs.symm) apart

theorem acquireResourceLocks_keeps {input : AcquireResourceLocksInput} :
    Within KeepsExclusive (acquireResourceLocks input clock) s := by
  unfold acquireResourceLocks
  refine .read (.expect _ _) fun expiry _ => ?_
  unfold lockScopes
  refine Yields.within ?_
  refine .seq (.given (fun _ => trivial) fun lease _ => ?_) fun _ s₁ _ => ?_
  · refine .read readOnly_assertLeaseInternal fun _ _ => ?_
    refine .read (.require _ _) fun _ _ => ?_
    exact (Yields.delete .delete).plain
  refine .seq (Yields.delete .delete).plain fun _ s₂ _ => ?_
  refine .read readOnly_selectRows fun existing selected => ?_
  obtain ⟨rfl, -⟩ := select_ok.mp selected
  refine .read (.forM fun _ => .require _ _) fun _ passed => ?_
  have checked : ∀ scope ∈ input.scopes, Admitted input s₂ scope := by
    intro scope requested lock member apart
    have clear := List.any_eq_false.mp ((forM_require_ok.mp passed).1 scope requested) lock
      (List.mem_filter.mpr ⟨member, rfl⟩)
    have foreign : (lock.holderId == input.executorId && lock.runId == input.runId &&
        lock.leaseGeneration == (input.lease.map (·.generation)).getD 0) = false := by
      by_contra mine
      simp only [Bool.not_eq_false, Bool.and_eq_true, beq_iff_eq] at mine
      exact apart (by simp only [ResourceLockRow.holder, AcquireResourceLocksInput.holder, mine])
    simpa [foreign] using clear
  let Ours (s : Store) : Prop := ∀ lock ∈ s .resourceLocks,
    lock ∈ s₂ .resourceLocks ∨ (lock.holder = input.holder ∧ lock.scope ∈ input.scopes)
  have start : Ours s₂ := fun lock member => .inl member
  refine (Yields.of_post ?_ fun _ s' (ours : Ours s') => .acquire checked ours).plain
  refine Yields.mapM start fun item requested s₃ _ ours => ?_
  have scope : item.1 ∈ input.scopes := (List.mem_zipIdx' requested).2 ▸ List.getElem_mem _
  refine .bind (Yields.insert fun _ => trivial) ?_
  rintro _ s₄ _ ⟨admitted, added⟩
  refine .pure ?_
  intro lock member
  rw [added, Db.set_same, Keyed.mem_insert admitted.fresh] at member
  rcases member with old | rfl
  · exact ours lock old
  · exact .inr ⟨rfl, scope⟩

/-- Only acquisitions and releases touch locks, and they keep them exclusive. -/
theorem Call.keeps_exclusive (call : Call) : KeepsExclusive s (call.perform s) := by
  by_cases plain : call.writes .resourceLocks = false
  · refine .of_subset fun lock member => ?_
    rwa [call.frame plain] at member
  cases call with
  | acquireResourceLocks input clock => exact acquireResourceLocks_keeps.map _
  | releaseResourceLocks executorId runId leaseGeneration => exact KeepsExclusive.delete
  | appendFencedEvent input clock => exact absurd (Call.appendFencedEvent_writes rfl rfl) plain
  | _ => exact absurd rfl plain

theorem exclusive_reached (reached : Reachable s) : Exclusive s :=
  reached.invariant (fun _ member => absurd member Keyed.not_mem_empty) fun _ call _ exclusive _ =>
    call.keeps_exclusive exclusive

/-- In every reachable store the locks of different holders do not conflict, whether or not
they have expired, and an acquisition that is refused leaves every lock as it was. -/
theorem resource_locks_exclude (history : List Call) :
    (∀ lock ∈ (storeAfter history) .resourceLocks, ∀ other ∈ (storeAfter history) .resourceLocks,
      (lock.runId, lock.holderId, lock.leaseGeneration) ≠ (other.runId, other.holderId, other.leaseGeneration) →
        resourceScopesConflict lock.scope other.scope = false) ∧
    ∀ input clock, Throws (acquireResourceLocks input clock) (storeAfter history) →
      after (acquireResourceLocks input clock) (storeAfter history) = storeAfter history := by
  refine ⟨exclusive_reached (reachable_storeAfter history), fun input clock thrown => ?_⟩
  have atomic : Atomic (acquireResourceLocks input clock) :=
    (ReadOnly.expect _ _).atomic_bind fun _ => .transaction _
  obtain ⟨e, s', failed⟩ := thrown
  rw [after_error failed]
  exact atomic _ e s' failed

end Locks

end OttiliCoder
