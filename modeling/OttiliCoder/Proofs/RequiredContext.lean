import OttiliCoder.Proofs.PlannerBooks

/-! Fixed and required context against the rest: what each item finds left when its turn
comes, and what it would find without the ordinary candidates. -/

namespace OttiliCoder.Planner
open Host StableSort Results

/-! One item's turn. -/

/-- The content an item is selected with. -/
def contentAt (item : NormalizedItem) (left : Nat) : Option JsString := (toPlanItem item [] left).map (·.content)

/-- The least an item has to find: its block in full, or where it may be cut the block with nothing but the mark. -/
def neededTokens (item : NormalizedItem) : Nat :=
  if item.allowTruncate then min (fullTokens item) (leastTokens item) else fullTokens item

/-- What an item takes of what is left. -/
def spentBy (item : NormalizedItem) (left : Nat) : Nat :=
  if neededTokens item ≤ allowance item left then min (fullTokens item) (allowance item left) else 0

section Turn
variable {item : NormalizedItem} {separator content other : JsString} {allowed left lent : Nat}

theorem LongestCut.unique (one : LongestCut item allowed content) (two : LongestCut item allowed other) : content = other := by
  obtain ⟨⟨count, -, rfl, beyond⟩, fits⟩ := one
  obtain ⟨⟨count', -, rfl, beyond'⟩, fits'⟩ := two
  rcases Nat.lt_trichotomy count count' with earlier | rfl | later
  · exact absurd fits' (Nat.not_le.mpr (beyond count' earlier))
  · rfl
  · exact absurd fits (Nat.not_le.mpr (beyond' count later))

/-- What an item is selected with, in the three cases. -/
inductive Turn (item : NormalizedItem) (left : Nat) : Option PlannedContextItem → JsString → Prop where
  | full (separator : JsString) (fits : fullTokens item ≤ allowance item left) :
      Turn item left (some (planned item separator item.content false)) separator
  | cut (separator content : JsString) (long : allowance item left < fullTokens item) (cuts : item.allowTruncate = true)
      (least : leastTokens item ≤ allowance item left) (longest : LongestCut item (allowance item left) content)
      (all : estimateTokens (blockFor item content) = allowance item left) :
      Turn item left (some (planned item separator content true)) separator
  | omitted (separator : JsString) (short : allowance item left < neededTokens item) : Turn item left none separator

theorem toPlanItem_turn (separates : Separates separator) : Turn item left (toPlanItem item separator left) separator := by
  by_cases full : fullTokens item ≤ allowance item left
  · rw [toPlanItem_full separates full]
    exact .full separator full
  · by_cases cuts : item.allowTruncate = true
    · have cut := toPlanItem_cut separates cuts (Nat.not_le.mp full)
      split at cut
      next least =>
        obtain ⟨content, made, longest, all⟩ := cut
        rw [made]
        exact .cut separator content (Nat.not_le.mp full) cuts least longest all
      next short =>
        rw [cut]
        apply Turn.omitted
        rw [neededTokens, if_pos cuts]
        omega
    · rw [toPlanItem_uncut separates (Bool.eq_false_iff.mpr cuts) (Nat.not_le.mp full)]
      apply Turn.omitted
      rw [neededTokens, if_neg cuts]
      omega

/-- An item is selected exactly when it finds what it needs. -/
theorem toPlanItem_isSome (separates : Separates separator) :
    (toPlanItem item separator left).isSome ↔ neededTokens item ≤ allowance item left := by
  have turn : Turn item left _ separator := toPlanItem_turn separates
  generalize toPlanItem item separator left = result at turn
  cases turn with
  | full _ fits =>
    unfold neededTokens
    split <;> simp <;> omega
  | cut _ content long cuts least longest all => simp [neededTokens, cuts, least]
  | omitted _ short => simp [short]

theorem toPlanItem_cost (separates : Separates separator) :
    ((toPlanItem item separator left).map (·.estimatedTokens)).getD 0 = spentBy item left := by
  have finds : (toPlanItem item separator left).isSome ↔ neededTokens item ≤ allowance item left := toPlanItem_isSome separates
  have turn : Turn item left _ separator := toPlanItem_turn separates
  unfold spentBy
  generalize toPlanItem item separator left = result at turn finds
  cases turn with
  | full _ fits =>
    rw [if_pos (finds.mp rfl), Nat.min_eq_left fits]
    rfl
  | cut _ content long cuts least longest all =>
    rw [if_pos (finds.mp rfl), Nat.min_eq_right (Nat.le_of_lt long)]
    exact all
  | omitted _ short =>
    rw [if_neg (Nat.not_le.mpr short)]
    rfl

/-- A separator does not matter to what is selected. -/
theorem toPlanItem_content (separates : Separates separator) :
    (toPlanItem item separator left).map (·.content) = contentAt item left := by
  rw [contentAt, toPlanItem_eq separates, toPlanItem_eq (.inl rfl), truncateToBudget_eq separates, truncateToBudget_eq (.inl rfl),
    Option.map_bind, Option.map_bind]
  congr 1
  funext fitted
  simp only [Function.comp_apply]
  split <;> rfl

/-- What the ordinary candidates lent from makes no difference to an item that fits in full all the same, or that
it would not let in: it may not be cut, its own cap is what holds it back, or it lacks even what the mark takes. -/
def Spared (item : NormalizedItem) (left lent : Nat) : Prop :=
  fullTokens item ≤ allowance item left ∨
    (allowance item (left + lent) < fullTokens item ∧
      (item.allowTruncate = false ∨ allowance item (left + lent) = allowance item left ∨
        allowance item (left + lent) < leastTokens item))

instance (item : NormalizedItem) (left lent : Nat) : Decidable (Spared item left lent) := inferInstanceAs (Decidable (_ ∨ _))

theorem allowance_mono (item : NormalizedItem) {left more : Nat} (less : left ≤ more) : allowance item left ≤ allowance item more := by
  unfold allowance
  split <;> omega

theorem needed_le_full : neededTokens item ≤ fullTokens item := by
  unfold neededTokens
  split <;> omega

theorem needed_le_least (cuts : item.allowTruncate = true) : neededTokens item ≤ leastTokens item := by
  rw [neededTokens, if_pos cuts]
  exact Nat.min_le_right _ _

/-- Only a spared item is selected with the same content. -/
theorem contentAt_eq_iff : contentAt item left = contentAt item (left + lent) ↔ Spared item left lent := by
  have turn : Turn item left (toPlanItem item [] left) [] := toPlanItem_turn (.inl rfl)
  have later : Turn item (left + lent) (toPlanItem item [] (left + lent)) [] := toPlanItem_turn (.inl rfl)
  have grows := allowance_mono item (Nat.le_add_right left lent)
  have bound : neededTokens item ≤ fullTokens item := needed_le_full
  unfold contentAt Spared
  generalize toPlanItem item [] left = result at turn ⊢
  generalize toPlanItem item [] (left + lent) = result' at later ⊢
  cases turn with
  | full _ fits =>
    cases later with
    | full _ fits' => simp [fits]
    | cut _ content long cuts least longest all => omega
    | omitted _ short => omega
  | cut _ content long cuts least longest all =>
    have tight := needed_le_least cuts
    cases later with
    | full _ fits' =>
      have differ : content ≠ item.content := by
        intro same
        rw [same, ← fullTokens] at all
        omega
      simp only [Option.map_some, Option.some.injEq, planned, differ, false_iff, not_or, not_and]
      omega
    | cut _ content' long' cuts' least' longest' all' =>
      simp only [Option.map_some, Option.some.injEq, planned, cuts, Bool.true_eq_false, false_or]
      constructor
      · intro same
        rw [same] at all
        omega
      · intro spared
        have same : allowance item (left + lent) = allowance item left := by omega
        rw [same] at longest'
        exact longest.unique longest'
    | omitted _ short => omega
  | omitted _ short =>
    cases later with
    | full _ fits' =>
      simp only [Option.map_none, Option.map_some, reduceCtorEq, false_iff, not_or, not_and]
      omega
    | cut _ content long cuts least longest all =>
      have tight := needed_le_least cuts
      simp only [Option.map_none, Option.map_some, reduceCtorEq, false_iff, cuts, Bool.true_eq_false, false_or]
      omega
    | omitted _ short' =>
      simp only [Option.map_none, true_iff]
      refine .inr ⟨by omega, ?_⟩
      by_cases cuts : item.allowTruncate = true
      · have tight := needed_le_least cuts
        exact .inr (.inr (by omega))
      · exact .inl (Bool.eq_false_iff.mpr cuts)

end Turn

/-! The turns of a list. -/

section Runs
variable {budget left lent : Nat} {items : List NormalizedItem} {selection : Selection} {item : NormalizedItem}

/-- What a list of items leaves. -/
def leftAfter (left : Nat) (items : List NormalizedItem) : Nat := items.foldl (fun left item => left - spentBy item left) left

/-- The required items that are selected, each with its content. -/
def requiredRun : Nat → List NormalizedItem → List (String × JsString)
  | _, [] => []
  | left, item :: items =>
    (if item.required then ((contentAt item left).map fun content => (item.id, content)).toList else []) ++
      requiredRun (left - spentBy item left) items

/-- The items that are left out. -/
def omittedRun : Nat → List NormalizedItem → List String
  | _, [] => []
  | left, item :: items =>
    (if neededTokens item ≤ allowance item left then [] else [item.id]) ++ omittedRun (left - spentBy item left) items

def requiredOf (entries : List PlannedContextItem) : List (String × JsString) :=
  (entries.filter (·.required)).map fun entry => (entry.id, entry.content)

theorem choose_left : remaining budget (choose budget selection item) =
    remaining budget selection - spentBy item (remaining budget selection) := by
  rw [← toPlanItem_cost (separates_after selection), choose_eq]
  cases toPlanItem item (separatorAfter selection) (remaining budget selection) with
  | none => rfl
  | some entry =>
    simp only [Option.map_some, Option.getD_some, remaining]
    omega

theorem choose_required : requiredOf (choose budget selection item).selected = requiredOf selection.selected ++
    if item.required then ((contentAt item (remaining budget selection)).map fun content => (item.id, content)).toList else [] := by
  rw [← toPlanItem_content (separates_after selection), choose_eq]
  cases chosen : toPlanItem item (separatorAfter selection) (remaining budget selection) with
  | none => simp
  | some entry =>
    obtain ⟨content, truncated, rfl, -⟩ := toPlanItem_some (separates_after selection) chosen
    simp only [requiredOf, List.filter_append, List.map_append, Option.map_some, Option.toList_some]
    congr 1
    cases needed : item.required <;> simp [planned, needed]

theorem choose_omitted : (choose budget selection item).omitted.map (·.id) = selection.omitted.map (·.id) ++
    if neededTokens item ≤ allowance item (remaining budget selection) then [] else [item.id] := by
  have finds : (toPlanItem item (separatorAfter selection) (remaining budget selection)).isSome ↔ _ :=
    toPlanItem_isSome (separates_after selection)
  rw [choose_eq]
  cases chosen : toPlanItem item (separatorAfter selection) (remaining budget selection) with
  | none =>
    rw [chosen] at finds
    rw [if_neg (fun fits => by simpa using finds.mpr fits), List.map_append]
    rfl
  | some entry =>
    rw [chosen] at finds
    rw [if_pos (finds.mp rfl), List.append_nil]

theorem foldl_left : remaining budget (items.foldl (choose budget) selection) = leftAfter (remaining budget selection) items := by
  induction items generalizing selection with
  | nil => rfl
  | cons item items ih =>
    rw [List.foldl_cons, ih, choose_left]
    rfl

theorem foldl_required : requiredOf (items.foldl (choose budget) selection).selected =
    requiredOf selection.selected ++ requiredRun (remaining budget selection) items := by
  induction items generalizing selection with
  | nil => simp [requiredRun]
  | cons item items ih => rw [List.foldl_cons, ih, choose_required, choose_left, requiredRun, List.append_assoc]

theorem foldl_omitted : (items.foldl (choose budget) selection).omitted.map (·.id) =
    selection.omitted.map (·.id) ++ omittedRun (remaining budget selection) items := by
  induction items generalizing selection with
  | nil => simp [omittedRun]
  | cons item items ih => rw [List.foldl_cons, ih, choose_omitted, choose_left, omittedRun, List.append_assoc]

theorem spentBy_le : spentBy item left ≤ left := by
  have within : allowance item left ≤ left := allowance_le
  unfold spentBy
  split <;> omega

theorem requiredRun_id {pair : String × JsString} (listed : pair ∈ requiredRun left items) : ∃ item ∈ items, pair.1 = item.id := by
  induction items generalizing left with
  | nil => cases listed
  | cons item items ih =>
    rw [requiredRun, List.mem_append] at listed
    rcases listed with here | later
    · split at here
      · obtain ⟨content, -, rfl⟩ := Option.map_eq_some_iff.mp (Option.mem_toList.mp here)
        exact ⟨item, List.mem_cons_self, rfl⟩
      · cases here
    · obtain ⟨other, listed, same⟩ := ih later
      exact ⟨other, List.mem_cons_of_mem _ listed, same⟩

/-- What is spent is known from what is selected. -/
theorem spentBy_content : spentBy item left = ((contentAt item left).map fun content => estimateTokens (blockFor item content)).getD 0 := by
  have separates : Separates [] := .inl rfl
  rw [← toPlanItem_cost separates, contentAt]
  cases chosen : toPlanItem item [] left with
  | none => rfl
  | some entry =>
    obtain ⟨content, truncated, rfl, -⟩ := toPlanItem_some separates chosen
    rfl

/-- Two lists that go on without an item are equal with it exactly when it is selected alike in both. -/
theorem selected_append_iff {id : String} {one other : Option JsString} {rest rest' : List (String × JsString)}
    (fresh : ∀ pair ∈ rest, pair.1 ≠ id) (fresh' : ∀ pair ∈ rest', pair.1 ≠ id) :
    (one.map fun content => (id, content)).toList ++ rest = (other.map fun content => (id, content)).toList ++ rest' ↔
      one = other ∧ rest = rest' := by
  constructor
  · intro same
    cases one with
    | none =>
      cases other with
      | none => exact ⟨rfl, same⟩
      | some content =>
        change rest = (id, content) :: rest' at same
        exact absurd rfl (fresh (id, content) (by simp [same]))
    | some content =>
      cases other with
      | none =>
        change (id, content) :: rest = rest' at same
        exact absurd rfl (fresh' (id, content) (by simp [← same]))
      | some content' =>
        obtain ⟨here, later⟩ := List.cons.inj same
        exact ⟨congrArg some (congrArg Prod.snd here), later⟩
  · rintro ⟨same, later⟩
    rw [same, later]

/-! Required candidates among ordinary ones. -/

/-- Every required item is spared, given what the ordinary ones before it have taken. -/
def Undisplaced : Nat → Nat → List NormalizedItem → Prop
  | _, _, [] => True
  | left, lent, item :: items =>
    if item.required then Spared item left lent ∧ Undisplaced (left - spentBy item left) lent items
    else Undisplaced (left - spentBy item left) (lent + spentBy item left) items

/-- The required items are selected as they are without the ordinary ones exactly when each is spared. -/
theorem undisplaced_iff (distinct : (items.map (·.id)).Nodup) :
    requiredRun left items = requiredRun (left + lent) (items.filter (·.required)) ↔ Undisplaced left lent items := by
  induction items generalizing left lent with
  | nil => simp [requiredRun, Undisplaced]
  | cons item items ih =>
    rw [List.map_cons, List.nodup_cons] at distinct
    obtain ⟨fresh, distinct⟩ := distinct
    by_cases needed : item.required = true
    · rw [List.filter_cons_of_pos needed, requiredRun, requiredRun, Undisplaced, if_pos needed, if_pos needed, if_pos needed,
        ← contentAt_eq_iff, ← ih distinct, selected_append_iff]
      · apply and_congr_right
        intro same
        have spent : spentBy item (left + lent) = spentBy item left := by rw [spentBy_content, spentBy_content, same]
        have all : spentBy item left ≤ left := spentBy_le
        rw [spent, show left + lent - spentBy item left = left - spentBy item left + lent by omega]
      · intro pair listed same
        obtain ⟨other, member, named⟩ := requiredRun_id listed
        exact fresh (List.mem_map.mpr ⟨other, member, named.symm.trans same⟩)
      · intro pair listed same
        obtain ⟨other, member, named⟩ := requiredRun_id listed
        exact fresh (List.mem_map.mpr ⟨other, List.mem_of_mem_filter member, named.symm.trans same⟩)
    · rw [List.filter_cons_of_neg needed, requiredRun, Undisplaced, if_neg needed, if_neg needed, List.nil_append, ← ih distinct]
      have all : spentBy item left ≤ left := spentBy_le
      rw [show left - spentBy item left + (lent + spentBy item left) = left + lent by omega]

/-! Fixed items. -/

/-- Every item may be selected by its own cap, and the last one finds what it needs once the others have taken
all that they may. -/
def AllFound (left : Nat) (items : List NormalizedItem) : Prop :=
  (∀ item ∈ items, allowance item (neededTokens item) = neededTokens item) ∧
    ∀ init last, items = init ++ [last] →
      (init.map fun item => allowance item (fullTokens item)).sum + neededTokens last ≤ left

theorem needed_pos : 0 < neededTokens item := by
  have full : 0 < fullTokens item := estimateTokens_pos (opensBlock_blockFor item _)
  have least : 0 < leastTokens item := estimateTokens_pos (opensBlock_blockFor item _)
  unfold neededTokens
  split <;> omega

theorem needed_le_allowance : neededTokens item ≤ allowance item left ↔
    allowance item (neededTokens item) = neededTokens item ∧ neededTokens item ≤ left := by
  unfold allowance
  split <;> omega

theorem spentBy_full (within : allowance item (fullTokens item) ≤ left) (finds : neededTokens item ≤ allowance item left) :
    spentBy item left = allowance item (fullTokens item) := by
  rw [spentBy, if_pos finds]
  unfold allowance at within ⊢
  split at within <;> omega

theorem spentBy_all (tight : left < allowance item (fullTokens item)) (finds : neededTokens item ≤ allowance item left) :
    spentBy item left = left := by
  rw [spentBy, if_pos finds]
  unfold allowance at tight ⊢
  split at tight <;> omega

theorem allFound_single : AllFound left [item] ↔ neededTokens item ≤ allowance item left := by
  rw [needed_le_allowance, AllFound, List.forall_mem_singleton]
  apply and_congr_right
  intro _
  constructor
  · intro found
    simpa using found [] item rfl
  · intro found init last same
    obtain ⟨rfl, rfl⟩ : init = [] ∧ last = item := by
      cases init with
      | nil => simpa using same.symm
      | cons _ init => simp at same
    simpa using found

theorem allFound_cons {items : List NormalizedItem} (more : items ≠ []) : AllFound left (item :: items) ↔
    neededTokens item ≤ allowance item left ∧ allowance item (fullTokens item) < left ∧
      AllFound (left - allowance item (fullTokens item)) items := by
  have bound : neededTokens item ≤ fullTokens item := needed_le_full
  obtain ⟨rest, final, rfl⟩ : ∃ rest final, items = rest ++ [final] := by
    rcases List.eq_nil_or_concat items with rfl | ⟨rest, final, rfl⟩
    · exact absurd rfl more
    · exact ⟨rest, final, List.concat_eq_append⟩
  have ends : ∀ (items : List NormalizedItem) (left : Nat) (init : List NormalizedItem) (final : NormalizedItem), items = init ++ [final] →
      (AllFound left items ↔ (∀ item ∈ items, allowance item (neededTokens item) = neededTokens item) ∧
        (init.map fun item => allowance item (fullTokens item)).sum + neededTokens final ≤ left) := by
    intro items left init final same
    apply and_congr_right
    intro _
    constructor
    · exact fun found => found init final same
    · intro found init' last' same'
      obtain ⟨rfl, here⟩ := List.append_inj' (same'.symm.trans same) rfl
      obtain rfl := (List.cons.inj here).1
      exact found
  rw [ends (item :: (rest ++ [final])) left (item :: rest) final rfl, ends (rest ++ [final]) _ rest final rfl,
    needed_le_allowance, List.forall_mem_cons, List.map_cons, List.sum_cons]
  have positive : 0 < neededTokens final := needed_pos
  have within : allowance item (neededTokens item) = neededTokens item → neededTokens item ≤ allowance item (fullTokens item) :=
    fun same => same ▸ allowance_mono item bound
  constructor
  · rintro ⟨⟨capped, others⟩, fits⟩
    have := within capped
    exact ⟨⟨capped, by omega⟩, by omega, others, by omega⟩
  · rintro ⟨⟨capped, _⟩, _, others, fits⟩
    exact ⟨⟨capped, others⟩, by omega⟩

/-- No item is left out exactly when all find what they need. -/
theorem omittedRun_nil_iff : omittedRun left items = [] ↔ AllFound left items := by
  induction items generalizing left with
  | nil => simp [omittedRun, AllFound]
  | cons item items ih =>
    have here : (if neededTokens item ≤ allowance item left then ([] : List String) else [item.id]) = [] ↔
        neededTokens item ≤ allowance item left := by
      split <;> simp_all
    rw [omittedRun, List.append_eq_nil_iff, ih, here]
    by_cases single : items = []
    · rw [single, allFound_single]
      simp [AllFound]
    · rw [allFound_cons single]
      apply and_congr_right
      intro finds
      by_cases within : allowance item (fullTokens item) < left
      · rw [spentBy_full (Nat.le_of_lt within) finds]
        simp [within]
      · -- nothing is left for the next item
        have starved : ¬ AllFound 0 items := by
          intro found
          rcases List.eq_nil_or_concat items with same | ⟨init, last, same⟩
          · exact single same
          · have room := found.2 init last (same.trans List.concat_eq_append)
            have positive : 0 < neededTokens last := needed_pos
            omega
        have none : left - spentBy item left = 0 := by
          rcases Nat.eq_or_lt_of_le (Nat.not_lt.mp within) with exactly | tight
          · rw [spentBy_full (Nat.le_of_eq exactly.symm) finds, exactly, Nat.sub_self]
          · rw [spentBy_all tight finds, Nat.sub_self]
        rw [none]
        simp [within, starved]

theorem omittedRun_id {id : String} (listed : id ∈ omittedRun left items) : ∃ item ∈ items, id = item.id := by
  induction items generalizing left with
  | nil => cases listed
  | cons item items ih =>
    rw [omittedRun, List.mem_append] at listed
    rcases listed with here | later
    · split at here
      · cases here
      · exact ⟨item, List.mem_cons_self, List.mem_singleton.mp here⟩
    · obtain ⟨other, listed, same⟩ := ih later
      exact ⟨other, List.mem_cons_of_mem _ listed, same⟩

end Runs

/-! The plan without the ordinary candidates. -/

section Order
variable (collation : Collation)

instance : Std.Total (candidateAtMost collation) where
  total one other := by
    rcases lt_trichotomy (rank one) (rank other) with less | same | more
    · exact .inr (.inl less)
    · rcases Std.Total.total (r := fun one other : NormalizedItem => collation.AtMost one.id other.id) one other with up | down
      · exact .inl (.inr ⟨same, up⟩)
      · exact .inr (.inr ⟨same.symm, down⟩)
    · exact .inl (.inl more)

instance : IsTrans NormalizedItem (candidateAtMost collation) where
  trans one other third first second := by
    rcases first with more | ⟨same, up⟩
    · rcases second with more' | ⟨same', up'⟩
      · exact .inl (more'.trans more)
      · exact .inl (same' ▸ more)
    · rcases second with more' | ⟨same', up'⟩
      · exact .inl (same ▸ more')
      · exact .inr ⟨same.trans same', collation.transitive _ _ _ up up'⟩

end Order

/-- The input with nothing but fixed and required items. -/
def withoutOrdinary (input : ContextPlanInput) : ContextPlanInput where
  budgetTokens := input.budgetTokens
  fixed := input.fixed
  candidates := input.candidates.filter fun item => item.required == some true
  items := input.items.filter fun item => item.required == some true

theorem normalizeItem_names {item : ContextItem} {forced : Bool} {normal : NormalizedItem}
    (read : normalizeItem item forced = .ok normal) :
    normal.id = item.id ∧ normal.source = item.source ∧ normal.required = (forced || item.required == some true) := by
  unfold normalizeItem at read
  simp only [unless_ok, except_bind_ok] at read
  obtain ⟨_, _, priority, _, relevance, _, _, maxTokens, _, done⟩ := read
  cases done
  exact ⟨rfl, rfl, rfl⟩

/-- The smallest truncated block of an item, which holds nothing but the mark. -/
def smallestBlock (item : ContextItem) : JsString :=
  unit '[' :: (utf16 item.source ++ unit ':' :: utf16 item.id ++ units "]\n" ++ truncationMarker)

/-- Required context is selected as it is without the ordinary candidates, and no fixed item is left out of a budget
that could hold the smallest block of each. -/
structure NeverDisplaced (collation : Collation) (input : ContextPlanInput) (plan : ContextPlan) : Prop where
  required : ∃ bare, planContext collation (withoutOrdinary input) = .ok bare ∧ requiredOf bare.selected = requiredOf plan.selected
  fixed : (input.fixed.map fun item => estimateTokens (smallestBlock item)).sum ≤ plan.budgetTokens →
    ∀ item ∈ input.fixed, item.id ∉ plan.omitted.map (·.id)

/-- What spares the required candidates and finds room for the fixed items. -/
structure Spares (collation : Collation) (budget : Nat) (fixed candidates : List NormalizedItem) : Prop where
  required : Undisplaced (leftAfter budget (fixed.insertionSort (fixedAtMost collation))) 0
    (candidates.insertionSort (candidateAtMost collation))
  fixed : (fixed.map leastTokens).sum ≤ budget → AllFound budget (fixed.insertionSort (fixedAtMost collation))

section Plans
variable {collation : Collation} {input : ContextPlanInput} {budget : Nat} {fixed candidates : List NormalizedItem}

theorem requiredOf_selection : requiredOf (selectionOf collation budget fixed candidates).selected =
    requiredRun budget (fixed.insertionSort (fixedAtMost collation)) ++
      requiredRun (leftAfter budget (fixed.insertionSort (fixedAtMost collation))) (candidates.insertionSort (candidateAtMost collation)) := by
  rw [selectionOf, List.foldl_append, foldl_required, foldl_required, foldl_left]
  rfl

theorem omitted_selection : (selectionOf collation budget fixed candidates).omitted.map (·.id) =
    omittedRun budget (fixed.insertionSort (fixedAtMost collation)) ++
      omittedRun (leftAfter budget (fixed.insertionSort (fixedAtMost collation))) (candidates.insertionSort (candidateAtMost collation)) := by
  rw [selectionOf, List.foldl_append, foldl_omitted, foldl_omitted, foldl_left]
  rfl

/-- No fixed item is left out exactly when all find what they need. -/
theorem fixed_kept_iff (distinct : ((fixed ++ candidates).map (·.id)).Nodup) :
    (∀ item ∈ fixed, item.id ∉ (selectionOf collation budget fixed candidates).omitted.map (·.id)) ↔
      AllFound budget (fixed.insertionSort (fixedAtMost collation)) := by
  rw [← omittedRun_nil_iff, omitted_selection, List.eq_nil_iff_forall_not_mem]
  constructor
  · intro kept id listed
    obtain ⟨item, member, rfl⟩ := omittedRun_id listed
    exact kept item ((List.mem_insertionSort _).mp member) (List.mem_append_left _ listed)
  · intro none item member listed
    rcases List.mem_append.mp listed with early | late
    · exact none item.id early
    · obtain ⟨other, asked, same⟩ := omittedRun_id late
      rw [List.map_append] at distinct
      exact List.disjoint_of_nodup_append distinct (List.mem_map_of_mem member)
        (List.mem_map.mpr ⟨other, (List.mem_insertionSort _).mp asked, same.symm⟩)

theorem required_candidates {items : List ContextItem}
    (read : List.Forall₂ (fun item normal => normalizeItem item false = .ok normal) items candidates) :
    List.Forall₂ (fun item normal => normalizeItem item false = .ok normal) (items.filter fun item => item.required == some true)
      (candidates.filter (·.required)) := by
  apply List.rel_filter _ read
  intro item normal normalized
  have same : normal.required = (item.required == some true) := (normalizeItem_names normalized).2.2
  simp only [same]

theorem smallest_sum (read : List.Forall₂ (fun item normal => normalizeItem item true = .ok normal) input.fixed fixed) :
    (input.fixed.map fun item => estimateTokens (smallestBlock item)).sum = (fixed.map leastTokens).sum := by
  generalize input.fixed = items at read
  induction read with
  | nil => rfl
  | cons here later ih =>
    obtain ⟨id, source, -⟩ := normalizeItem_names here
    rw [List.map_cons, List.map_cons, List.sum_cons, List.sum_cons, ih, leastTokens, blockFor, id, source, smallestBlock]

theorem fixed_ids (read : List.Forall₂ (fun item normal => normalizeItem item true = .ok normal) input.fixed fixed) :
    input.fixed.map (·.id) = fixed.map (·.id) := by
  generalize input.fixed = items at read
  induction read with
  | nil => rfl
  | cons here later ih => rw [List.map_cons, List.map_cons, ih, (normalizeItem_names here).1]

theorem planContext_withoutOrdinary (valid : validateBudget input.budgetTokens "Context budget" = .ok budget)
    (fixedRead : List.Forall₂ (fun item normal => normalizeItem item true = .ok normal) input.fixed fixed)
    (candidatesRead : List.Forall₂ (fun item normal => normalizeItem item false = .ok normal) (input.candidates ++ input.items) candidates)
    (distinct : ((fixed ++ candidates).map (·.id)).Nodup) : planContext collation (withoutOrdinary input) =
      .ok (planOf budget (selectionOf collation budget fixed (candidates.filter (·.required)))) := by
  apply (planContext_ok collation).mpr
  refine ⟨budget, fixed, candidates.filter (·.required), valid, fixedRead, ?_, ?_, rfl⟩
  · have read := required_candidates candidatesRead
    rwa [List.filter_append] at read
  · exact distinct.sublist (((List.Sublist.refl fixed).append List.filter_sublist).map _)

end Plans

/-- A required file beside an ordinary one of higher priority. -/
def displacedInput : ContextPlanInput where
  budgetTokens := 10
  candidates := [{ id := "r", source := "file", content := units "a b c", required := some true },
    { id := "o", source := "file", content := units "a b c", priority := some 5 }]

end OttiliCoder.Planner
