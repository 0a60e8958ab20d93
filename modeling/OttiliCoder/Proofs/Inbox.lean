import OttiliCoder.Proofs.Planner
import OttiliCoder.Runtime.Context
import OttiliCoder.Store.Calls

/-! Which drained messages the model gets to see: the inbox is one block that is never cut, first
among the candidates, so it depends on what the fixed items leave of the budget. -/

namespace OttiliCoder.Inbox
open Host StableSort Planner Results

/-! What the planner reads of an item. -/

/-- The tokens of an item's block. -/
def itemTokens (item : ContextItem) : Nat :=
  estimateTokens (unit '[' :: (utf16 item.source ++ unit ':' :: utf16 item.id ++ units "]\n" ++ item.content))

/-- An item as it is planned from. -/
structure Normalized (item : ContextItem) (required : Bool) (normal : NormalizedItem) : Prop where
  id : normal.id = item.id
  source : normal.source = item.source
  content : normal.content = item.content
  priority : item.priority = none ∧ normal.priority = 0 ∨ item.priority = some (.finite normal.priority)
  relevance : normal.relevance ≤ 1
  given : ∀ value, item.relevance = some (.finite value) → normal.relevance = value
  allowTruncate : normal.allowTruncate = item.allowTruncate.getD (required || item.required == some true)
  uncapped : item.maxTokens = none → normal.maxTokens = none

theorem finiteOr_ok {value : Option Number} {otherwise number : Rat} {message : String}
    (read : finiteOr value otherwise message = .ok number) :
    value = none ∧ number = otherwise ∨ value = some (.finite number) := by
  unfold finiteOr at read
  split at read
  · cases read
    exact .inl ⟨rfl, rfl⟩
  · cases read
    exact .inr rfl
  · cases read

theorem normalizeItem_ok {item : ContextItem} {required : Bool} {normal : NormalizedItem}
    (read : normalizeItem item required = .ok normal) : Normalized item required normal := by
  unfold normalizeItem at read
  simp only [unless_ok, except_bind_ok] at read
  obtain ⟨_, _, priority, priorityRead, relevance, relevanceRead, bounded, maxTokens, capped, done⟩ := read
  cases done
  rw [not_or, not_lt, not_lt] at bounded
  constructor
  · rfl
  · rfl
  · rfl
  · obtain ⟨none, rfl⟩ | given := finiteOr_ok priorityRead
    · exact .inl ⟨none, rfl⟩
    · exact .inr given
  · exact bounded.2
  · intro value given
    obtain ⟨none, _⟩ | read := finiteOr_ok relevanceRead
    · rw [none] at given
      cases given
    · rw [read] at given
      cases given
      rfl
  · rfl
  · intro none
    rw [none] at capped
    cases capped
    rfl

theorem Normalized.tokens {item : ContextItem} {required : Bool} {normal : NormalizedItem}
    (normalized : Normalized item required normal) : fullTokens normal = itemTokens item := by
  unfold fullTokens itemTokens blockFor
  rw [normalized.id, normalized.source, normalized.content]

/-! The items of a turn. -/

def contextBudget (options : RunContextCompilerOptions) : Nat :=
  match options.budgetTokens.getD defaultBudgetTokens with
  | .finite number => number.num.toNat
  | .notFinite => 0

theorem validateBudget_ok {options : RunContextCompilerOptions} {label : String} {budget : Nat}
    (valid : validateBudget (options.budgetTokens.getD defaultBudgetTokens) label = .ok budget) :
    budget = contextBudget options := by
  unfold contextBudget
  generalize options.budgetTokens.getD defaultBudgetTokens = number at valid ⊢
  unfold validateBudget at valid
  split at valid
  · split at valid
    · exact (Except.ok.inj valid).symm
    · cases valid
  · cases valid

/-- The names of the fixed items. -/
def fixedNames : List (String × String) :=
  [("task", "task.active"), ("run_state", "run.state"), ("goal", "goal.active"), ("validation", "requirements")]

section Request
variable {s : Store} {request : RunContextRequest} {workspace : Option WorkspaceView} {item : ContextItem}

theorem fixedItems_shape (listed : item ∈ fixedItems s request) :
    item.allowTruncate = none ∧ item.maxTokens = none ∧ (item.source, item.id) ∈ fixedNames := by
  unfold fixedItems at listed
  simp only [List.mem_append, List.mem_cons, List.not_mem_nil, or_false] at listed
  obtain ((rfl | rfl) | goal) | requirements := listed
  · exact ⟨rfl, rfl, by simp [fixedNames]⟩
  · exact ⟨rfl, rfl, by simp [fixedNames]⟩
  · split at goal
    · cases goal
    · rw [List.mem_singleton.mp goal]
      exact ⟨rfl, rfl, by simp [fixedNames]⟩
  · split at requirements
    · cases requirements
    · rw [List.mem_singleton.mp requirements]
      exact ⟨rfl, rfl, by simp [fixedNames]⟩

/-- What is not the inbox has a lower priority. -/
def Later (item : ContextItem) : Prop := ∀ value, item.priority = some (.finite value) → value ≤ 6

theorem later_none (none : item.priority = none) : Later item := by
  intro value given
  rw [none] at given
  cases given

theorem later_some {value : Rat} (given : item.priority = some (.finite value)) (low : value ≤ 6) : Later item := by
  intro other same
  rw [given] at same
  cases same
  exact low

theorem workspaceItems_later (view : WorkspaceView) : ∀ item ∈ workspaceItems view, Later item := by
  intro item listed
  unfold workspaceItems at listed
  simp only [List.mem_append] at listed
  obtain (((status | diff) | diagnostics) | semantic) | map := listed
  · split at status
    · cases status
    · rw [List.mem_singleton.mp status]
      exact later_some rfl (by norm_num)
  · split at diff
    · cases diff
    · split at diff
      · cases diff
      · rw [List.mem_singleton.mp diff]
        exact later_none rfl
  · split at diagnostics
    · cases diagnostics
    · rw [List.mem_singleton.mp diagnostics]
      exact later_some rfl (by norm_num)
  · split at semantic
    · cases semantic
    · rw [List.mem_singleton.mp semantic]
      exact later_none rfl
  · split at map
    · cases map
    · rw [List.mem_singleton.mp map]
      exact later_none rfl

theorem taskItems_later (s : Store) (runId : RunId) : ∀ item ∈ taskItems s runId, Later item := by
  intro item listed
  simp only [taskItems] at listed
  split at listed
  · cases listed
  · rw [List.mem_singleton.mp listed]
    exact later_none rfl

theorem ledgerItems_later (s : Store) (runId : RunId) : ∀ item ∈ ledgerItems s runId, Later item := by
  intro item listed
  unfold ledgerItems at listed
  simp only [List.mem_append] at listed
  obtain ((validations | snapshot) | memories) | problems := listed
  · split at validations
    · cases validations
    · rw [List.mem_singleton.mp validations]
      exact later_some rfl (by norm_num)
  · split at snapshot
    · cases snapshot
    · rw [List.mem_singleton.mp snapshot]
      exact later_none rfl
  · obtain ⟨entry, _, rfl⟩ := List.mem_map.mp memories
    exact later_none rfl
  · split at problems
    · cases problems
    · rw [List.mem_singleton.mp problems]
      exact later_none rfl

/-- The candidates of a turn other than its inbox. -/
def otherItems (s : Store) (runId : RunId) (workspace : Option WorkspaceView) : List ContextItem :=
  ledgerItems s runId ++
    match workspace with
    | none => []
    | some workspace => workspaceItems workspace

theorem candidateItems_eq (s : Store) (request : RunContextRequest) (workspace : Option WorkspaceView) :
    candidateItems s request workspace =
      taskItems s request.run.id ++ (inboxItems request.inbox ++ otherItems s request.run.id workspace) := by
  cases workspace <;> simp only [candidateItems, otherItems, List.append_assoc]

theorem otherItems_later (s : Store) (runId : RunId) (workspace : Option WorkspaceView) :
    ∀ item ∈ otherItems s runId workspace, Later item := by
  intro item listed
  obtain ledger | view := List.mem_append.mp listed
  · exact ledgerItems_later s runId item ledger
  · cases workspace with
    | none => cases view
    | some workspace => exact workspaceItems_later workspace item view

end Request

/-! Ranks. -/

theorem sourcePriority_le (source : String) : sourcePriority source ≤ 10 := by
  unfold sourcePriority
  cases found : sourceWeight.find? fun entry => entry.1 == source with
  | none => exact Nat.zero_le 10
  | some entry =>
    have listed := List.mem_of_find?_eq_some found
    have low : ∀ entry ∈ sourceWeight, entry.2 ≤ 10 := by decide
    exact low entry listed

theorem rank_later {item : ContextItem} {normal : NormalizedItem} (later : Later item) (normalized : Normalized item false normal) :
    rank normal ≤ 620 := by
  have priority : normal.priority ≤ 6 := by
    obtain ⟨_, zero⟩ | given := normalized.priority
    · rw [zero]
      norm_num
    · exact later normal.priority given
  have relevance := normalized.relevance
  have source : (sourcePriority normal.source : Rat) ≤ 10 := by exact_mod_cast sourcePriority_le normal.source
  unfold rank
  linarith

theorem rank_inbox {inbox : List AgentMessageRow} {normal : NormalizedItem} (normalized : Normalized (inboxItem inbox) false normal) :
    rank normal = 717 := by
  have priority : normal.priority = 7 := by
    obtain ⟨none, _⟩ | given := normalized.priority
    · cases none
    · exact (Number.finite.inj (Option.some.inj given)).symm
  have relevance : normal.relevance = 1 := normalized.given 1 rfl
  have source : sourcePriority normal.source = 7 := by
    rw [normalized.source]
    rfl
  unfold rank
  rw [priority, relevance, source]
  norm_num

/-! What the inbox costs is more than any mark. -/

theorem fixed_of {item : ContextItem} {normal : NormalizedItem} (cut : item.allowTruncate = none) (uncapped : item.maxTokens = none)
    (normalized : Normalized item true normal) : Fixed normal := by
  constructor
  · rw [normalized.allowTruncate, cut]
    rfl
  · exact normalized.uncapped uncapped

def leastNeeded : Nat := 19

theorem leastTokens_fixed {item : ContextItem} {normal : NormalizedItem} (named : (item.source, item.id) ∈ fixedNames)
    (normalized : Normalized item true normal) : leastTokens normal ≤ leastNeeded := by
  have measured : ∀ name ∈ fixedNames,
      estimateTokens (unit '[' :: (utf16 name.1 ++ unit ':' :: utf16 name.2 ++ units "]\n" ++ truncationMarker)) ≤ leastNeeded := by
    decide
  have cost := measured (item.source, item.id) named
  unfold leastTokens blockFor
  rw [normalized.id, normalized.source]
  simp only at cost
  exact cost

theorem leastNeeded_le (inbox : List AgentMessageRow) : leastNeeded ≤ itemTokens (inboxItem inbox) := by
  have titled : units "Messages addressed to you:\n" = units "Messages addressed to you:" ++ [unit '\n'] := by simp [units]
  have closed : units "]\n" = [unit ']', unit '\n'] := by simp [units]
  have parted : unit '[' :: (utf16 (inboxItem inbox).source ++ unit ':' :: utf16 (inboxItem inbox).id ++ units "]\n" ++
      (inboxItem inbox).content) =
      unit '[' :: (utf16 "run_state" ++ unit ':' :: (utf16 "agent.inbox" ++ [unit ']'])) ++ unit '\n' ::
        (units "Messages addressed to you:" ++ unit '\n' :: joinLines (inbox.map messageLine)) := by
    simp only [inboxItem, titled, closed, List.append_assoc, List.cons_append, List.nil_append]
  have header : lexicalTokens [] (codePoints
      (unit '[' :: (utf16 "run_state" ++ unit ':' :: (utf16 "agent.inbox" ++ [unit ']'])))) = 11 := rfl
  have title : lexicalTokens [] (codePoints (units "Messages addressed to you:")) = 8 := rfl
  unfold itemTokens leastNeeded
  rw [parted, estimateTokens_block rfl, lexicalTokens_lines, lexicalTokens_lines, header, title]
  omega

/-! Choosing again. -/

section Chosen
variable {budget : Nat} {selection one other : Selection} {item : NormalizedItem}

/-- What has been omitted is not looked at. -/
theorem choose_same (budget : Nat) (item : NormalizedItem) (selected : one.selected = other.selected) (used : one.used = other.used) :
    (choose budget one item).selected = (choose budget other item).selected ∧
      (choose budget one item).used = (choose budget other item).used := by
  have separator : separatorAfter one = separatorAfter other := by
    unfold separatorAfter
    rw [selected]
  have left : remaining budget one = remaining budget other := by
    unfold remaining
    rw [used]
  rw [choose_eq, choose_eq, separator, left]
  cases toPlanItem item (separatorAfter other) (remaining budget other) with
  | none => exact ⟨selected, used⟩
  | some entry => exact ⟨by rw [selected], by rw [used]⟩

theorem foldl_same (budget : Nat) (items : List NormalizedItem) (selected : one.selected = other.selected) (used : one.used = other.used) :
    (items.foldl (choose budget) one).selected = (items.foldl (choose budget) other).selected := by
  induction items generalizing one other with
  | nil => exact selected
  | cons item items ih =>
    have step := choose_same budget item selected used
    exact ih step.1 step.2

/-- Whatever is selected was asked for. -/
theorem selected_from (items : List NormalizedItem) {entry : PlannedContextItem}
    (chosen : entry ∈ (items.foldl (choose budget) selection).selected) :
    entry ∈ selection.selected ∨ ∃ item ∈ items, entry.id = item.id := by
  induction items generalizing selection with
  | nil => exact .inl chosen
  | cons item items ih =>
    obtain before | ⟨later, listed, same⟩ := ih chosen
    · obtain ⟨_, kept, _⟩ | ⟨content, truncated, _, _, grown, _⟩ := choose_cases budget selection item
      · rw [kept] at before
        exact .inl before
      · rw [grown] at before
        obtain before | here := List.mem_append.mp before
        · exact .inl before
        · rw [List.mem_singleton.mp here]
          exact .inr ⟨item, List.mem_cons_self, rfl⟩
    · exact .inr ⟨later, List.mem_cons_of_mem _ listed, same⟩

/-- An item that is never cut, asked for right after the fixed ones, is selected in full when they all fit
in full with it; otherwise the selection is what it would be without it. -/
theorem chosen_after_fixed (budget : Nat) {fixed others : List NormalizedItem} (marked : ∀ other ∈ fixed, Fixed other)
    (marks : ∀ other ∈ fixed, leastTokens other ≤ fullTokens item) (uncapped : item.maxTokens = none)
    (uncut : item.allowTruncate = false) (some : 0 < fullTokens item) (apart : ∀ other ∈ fixed ++ others, other.id ≠ item.id) :
    if (fixed.map fullTokens).sum + fullTokens item ≤ budget then
      ∃ separator, planned item separator item.content false ∈ ((fixed ++ item :: others).foldl (choose budget) {}).selected
    else (∀ entry ∈ ((fixed ++ item :: others).foldl (choose budget) {}).selected, entry.id ≠ item.id) ∧
      ((fixed ++ item :: others).foldl (choose budget) {}).selected = ((fixed ++ others).foldl (choose budget) {}).selected := by
  have fits : fullTokens item ≤ remaining budget (fixed.foldl (choose budget) {}) ↔
      (fixed.map fullTokens).sum + fullTokens item ≤ budget := fits_after_fixed marked marks some {}
  rw [List.foldl_append, List.foldl_append, List.foldl_cons]
  by_cases short : (fixed.map fullTokens).sum + fullTokens item ≤ budget
  · rw [if_pos short]
    exact ⟨_, (selected_grows others).subset (choose_full uncapped (fits.mpr short)).1⟩
  · rw [if_neg short]
    obtain ⟨selected, used⟩ := choose_uncut uncapped uncut (Nat.not_le.mp fun all => short (fits.mp all))
    have same := foldl_same budget others selected used
    refine ⟨?_, same⟩
    intro entry chosen
    rw [same, ← List.foldl_append] at chosen
    obtain none | ⟨asked, listed, named⟩ := selected_from _ chosen
    · cases none
    · rw [named]
      exact apart asked listed

end Chosen

/-! The inbox of a turn. -/

/-- The message is in a selected block of the inbox. -/
def ShownInFull (plan : ContextPlan) (message : AgentMessageRow) : Prop :=
  ∃ entry ∈ plan.selected, entry.id = "agent.inbox" ∧ messageLine message <:+: entry.rendered

/-- The inbox fits the budget beside the fixed items, all of them in full. -/
def InboxFits (options : RunContextCompilerOptions) (s : Store) (request : RunContextRequest) : Prop :=
  request.inbox = [] ∨
    ((fixedItems s request).map itemTokens).sum + itemTokens (inboxItem request.inbox) ≤ contextBudget options

theorem infix_joinLines {line : JsString} {lines : List JsString} (listed : line ∈ lines) : line <:+: joinLines lines := by
  unfold joinLines List.intercalate
  apply List.infix_of_mem_flatten
  induction lines with
  | nil => cases listed
  | cons first lines ih =>
    cases lines with
    | nil => exact listed
    | cons second lines =>
      obtain rfl | later := List.mem_cons.mp listed
      · exact List.mem_cons_self
      · exact List.mem_cons_of_mem _ (List.mem_cons_of_mem _ (ih later))

theorem infix_inboxItem {inbox : List AgentMessageRow} {message : AgentMessageRow} (listed : message ∈ inbox) :
    messageLine message <:+: (inboxItem inbox).content :=
  (infix_joinLines (List.mem_map_of_mem listed)).trans (List.suffix_append _ _).isInfix

section Turn
variable {collation : Collation} {options : RunContextCompilerOptions} {s : Store} {request : RunContextRequest}
  {workspace : Option WorkspaceView} {plan : ContextPlan} {context : CompiledContext}

theorem compile_ok : compile collation options s request workspace = .ok context ↔
    ∃ plan, contextPlan collation options s request workspace = .ok plan ∧
      context = {
        messages := [
          { content := utf16 (roleBriefing request.agent), role := .system },
          { content := utf16 request.mission.prompt, role := .user },
          { content := plan.text, role := .system }] ++ transcript options s request.run.id
        omitted := plan.omitted.map (·.text)
        usedTokens := plan.usedTokens } := by
  unfold compile
  rw [except_bind_ok]
  constructor
  · rintro ⟨plan, planned, made⟩
    exact ⟨plan, planned, (Except.ok.inj made).symm⟩
  · rintro ⟨plan, planned, made⟩
    exact ⟨plan, planned, congrArg Except.ok made.symm⟩

theorem contextPlan_ok : contextPlan collation options s request workspace = .ok plan ↔ ∃ budget fixed candidates,
    validateBudget (options.budgetTokens.getD defaultBudgetTokens) "Context budget" = .ok budget ∧
    List.Forall₂ (fun item normal => normalizeItem item true = .ok normal) (fixedItems s request) fixed ∧
    List.Forall₂ (fun item normal => normalizeItem item false = .ok normal) (candidateItems s request workspace) candidates ∧
    ((fixed ++ candidates).map (·.id)).Nodup ∧ plan = planOf budget (selectionOf collation budget fixed candidates) := by
  unfold contextPlan
  rw [planContext_ok]
  simp only [List.append_nil]

/-- What is selected is in the text of the plan. -/
theorem selected_within (planned : contextPlan collation options s request workspace = .ok plan) {entry : PlannedContextItem}
    (chosen : entry ∈ plan.selected) : entry.rendered <:+: plan.text := by
  obtain ⟨_, _, _, _, _, _, _, rfl⟩ := contextPlan_ok.mp planned
  exact List.infix_of_mem_flatten (List.mem_map_of_mem chosen)

theorem tokens_read {items : List ContextItem} {normals : List NormalizedItem} {required : Bool}
    (read : List.Forall₂ (fun item normal => normalizeItem item required = .ok normal) items normals) :
    (normals.map fullTokens).sum = (items.map itemTokens).sum := by
  induction read with
  | nil => rfl
  | cons here later ih => rw [List.map_cons, List.map_cons, List.sum_cons, List.sum_cons, ih, (normalizeItem_ok here).tokens]

/-- The inbox comes before every other candidate. -/
theorem inbox_leads (collation : Collation) {inbox : List AgentMessageRow} {normal : NormalizedItem} {before after : List NormalizedItem}
    (normalized : Normalized (inboxItem inbox) false normal)
    (beforeRead : List.Forall₂ (fun item normal => normalizeItem item false = .ok normal) (taskItems s request.run.id) before)
    (afterRead : List.Forall₂ (fun item normal => normalizeItem item false = .ok normal)
      (otherItems s request.run.id workspace) after) :
    (before ++ normal :: after).insertionSort (candidateAtMost collation) =
      normal :: (before ++ after).insertionSort (candidateAtMost collation) := by
  apply insertionSort_leading
  intro other listed
  have low : rank other ≤ 620 := by
    obtain early | late := List.mem_append.mp listed
    · obtain ⟨item, within, read⟩ := read_from beforeRead other early
      exact rank_later (taskItems_later s request.run.id item within) (normalizeItem_ok read)
    · obtain ⟨item, within, read⟩ := read_from afterRead other late
      exact rank_later (otherItems_later s request.run.id workspace item within) (normalizeItem_ok read)
  have high := rank_inbox normalized
  unfold candidateAtMost
  constructor
  · left
    linarith
  · intro behind
    obtain above | ⟨same, _⟩ := behind <;> linarith

/-- The inbox is shown in full, every message of it, or it is as if nothing had been drained. -/
theorem contextPlan_inbox (some : request.inbox ≠ []) (made : contextPlan collation options s request workspace = .ok plan) :
    (((fixedItems s request).map itemTokens).sum + itemTokens (inboxItem request.inbox) ≤ contextBudget options →
      ∀ message ∈ request.inbox, ShownInFull plan message) ∧
    (contextBudget options < ((fixedItems s request).map itemTokens).sum + itemTokens (inboxItem request.inbox) →
      (∀ entry ∈ plan.selected, entry.id ≠ "agent.inbox") ∧
        ∃ other, contextPlan collation options s { request with inbox := [] } workspace = .ok other ∧ other.text = plan.text) := by
  obtain ⟨budget, fixed, candidates, valid, fixedRead, candidatesRead, distinct, rfl⟩ := contextPlan_ok.mp made
  simp only [candidateItems_eq, inboxItems, List.isEmpty_iff, some, if_false, List.singleton_append] at candidatesRead
  obtain ⟨before, rest, beforeRead, restRead, rfl⟩ := read_append.mp candidatesRead
  obtain ⟨normal, after, inboxRead, afterRead, rfl⟩ := List.forall₂_cons_left_iff.mp restRead
  have normalized := normalizeItem_ok inboxRead
  have budgetIs := validateBudget_ok valid
  have tokens : fullTokens normal = itemTokens (inboxItem request.inbox) := normalized.tokens
  have marked : ∀ other ∈ fixed.insertionSort (fixedAtMost collation), Fixed other ∧ leastTokens other ≤ fullTokens normal := by
    intro other listed
    obtain ⟨item, within, read⟩ := read_from fixedRead other ((List.mem_insertionSort _).mp listed)
    obtain ⟨cut, uncapped, named⟩ := fixedItems_shape within
    have least := leastTokens_fixed named (normalizeItem_ok read)
    have needed := leastNeeded_le request.inbox
    exact ⟨fixed_of cut uncapped (normalizeItem_ok read), by omega⟩
  have positive : 0 < fullTokens normal := estimateTokens_pos (opensBlock_blockFor normal normal.content)
  have spent : ((fixed.insertionSort (fixedAtMost collation)).map fullTokens).sum = ((fixedItems s request).map itemTokens).sum := by
    rw [((List.perm_insertionSort _ fixed).map fullTokens).sum_eq, tokens_read fixedRead]
  have apart : ∀ other ∈ fixed.insertionSort (fixedAtMost collation) ++ (before ++ after).insertionSort (candidateAtMost collation),
      other.id ≠ normal.id := by
    have front : (fixed ++ (before ++ normal :: after)).Perm (normal :: (fixed ++ (before ++ after))) :=
      ((List.perm_middle.append_left fixed).trans List.perm_middle)
    have alone : normal.id ∉ (fixed ++ (before ++ after)).map (·.id) :=
      (List.nodup_cons.mp ((front.map (·.id)).nodup_iff.mp distinct)).1
    intro other listed same
    apply alone
    rw [← same]
    apply List.mem_map_of_mem
    simpa only [List.mem_append, List.mem_insertionSort] using listed
  have chosen := chosen_after_fixed budget (fun other listed => (marked other listed).1) (fun other listed => (marked other listed).2)
    (normalized.uncapped rfl) normalized.allowTruncate positive apart
  have leads := inbox_leads collation normalized beforeRead afterRead
  rw [spent, tokens, budgetIs, ← leads] at chosen
  constructor
  · intro fits message drained
    rw [if_pos fits] at chosen
    obtain ⟨separator, selected⟩ := chosen
    refine ⟨planned normal separator normal.content false, by rw [budgetIs]; exact selected, normalized.id, ?_⟩
    have line := infix_inboxItem drained
    rw [← normalized.content] at line
    have block : normal.content <:+: separator ++ blockFor normal normal.content := by
      rw [blockFor_eq]
      exact ⟨separator ++ (header normal ++ [unit '\n']), [], by simp⟩
    exact line.trans block
  · intro long
    rw [if_neg (Nat.not_le.mpr long)] at chosen
    obtain ⟨absent, same⟩ := chosen
    constructor
    · intro entry selected
      rw [budgetIs] at selected
      have other := absent entry selected
      rw [normalized.id] at other
      exact other
    · refine ⟨planOf budget (selectionOf collation budget fixed (before ++ after)), ?_, ?_⟩
      · apply contextPlan_ok.mpr
        refine ⟨budget, fixed, before ++ after, valid, fixedRead, ?_, ?_, rfl⟩
        · simp only [candidateItems_eq, inboxItems, List.isEmpty_nil, if_true, List.nil_append]
          exact List.rel_append beforeRead afterRead
        · apply List.Nodup.sublist _ distinct
          apply List.Sublist.map
          exact (List.Sublist.refl fixed).append ((List.Sublist.refl before).append (List.sublist_cons_self normal after))
      · change Selection.text _ = Selection.text _
        unfold Selection.text selectionOf
        rw [budgetIs, same]

/-- The messages that were drained are all in the inbox the provider is given, in full, exactly when that
inbox and the fixed items fit the budget; when they do not, the provider is given what it would be given
had nothing been drained. -/
theorem inbox_shown_iff (compiled : compile collation options s request workspace = .ok context) :
    ∃ plan, contextPlan collation options s request workspace = .ok plan ∧
      ((∀ message ∈ request.inbox, ShownInFull plan message) ↔ InboxFits options s request) ∧
      (∀ message, ShownInFull plan message → ∃ sent ∈ context.messages, messageLine message <:+: sent.content) ∧
      (¬InboxFits options s request → ∃ other,
        compile collation options s { request with inbox := [] } workspace = .ok other ∧ other.messages = context.messages) := by
  obtain ⟨plan, made, rfl⟩ := compile_ok.mp compiled
  refine ⟨plan, made, ?_, ?_, ?_⟩
  · unfold InboxFits
    by_cases drained : request.inbox = []
    · simp [drained]
    · obtain ⟨shown, absent⟩ := contextPlan_inbox drained made
      constructor
      · intro all
        right
        apply Nat.not_lt.mp
        intro long
        obtain ⟨message, listed⟩ := List.exists_mem_of_ne_nil _ drained
        obtain ⟨entry, selected, named, _⟩ := all message listed
        exact (absent long).1 entry selected named
      · exact fun fits => shown (fits.resolve_left drained)
  · rintro message ⟨entry, selected, _, line⟩
    refine ⟨{ content := plan.text, role := .system }, ?_, line.trans (selected_within made selected)⟩
    exact List.mem_append_left _ (List.mem_cons_of_mem _ (List.mem_cons_of_mem _ List.mem_cons_self))
  · intro long
    unfold InboxFits at long
    rw [not_or] at long
    obtain ⟨_, other, without, same⟩ := (contextPlan_inbox long.1 made).2 (Nat.not_le.mp long.2)
    exact ⟨_, compile_ok.mpr ⟨other, without, rfl⟩, by rw [same]⟩

end Turn

/-! A question to the coordinator. -/

def askedHistory : List Call :=
  [sampleRun, takeSample "first" .epoch,
    .sendAgentMessage
      { body := [("text", .string "Which branch?")], kind := .question, lease := sampleLease "first" 1, toAgentId := sampleAgentId }
      "question" .epoch]

/-- The inbox is drained, and the turn's context asked for. -/
def askedTurn : Option (Store × RunContextRequest) :=
  match receiveAgentMessages { agentId := sampleAgentId, lease := sampleLease "first" 1 } .epoch (storeAfter askedHistory) with
  | .error _ _ => none
  | .ok inbox s => (sampleRequest s sampleRunId).map fun request => (s, { request with inbox := inbox })

def askedContext (budgetTokens : Number) (s : Store) (request : RunContextRequest) : Planning CompiledContext :=
  compile (.byWeight String.length) { budgetTokens := some budgetTokens } s request none

theorem question_mark_not_mem {characters : List Char} (unmarked : characters.contains '?' = false) :
    unit '?' ∉ utf16 (String.ofList characters) := by
  intro inside
  obtain ⟨character, listed, same⟩ := exists_of_mem_utf16 inside (by decide)
  rw [String.toList_ofList] at listed
  have marked : character = '?' := Char.toNat_inj.mp same
  rw [← marked, List.contains_eq_mem, decide_eq_false_iff_not] at unmarked
  exact unmarked listed

theorem briefing_unmarked {agent : Agent} (role : agent.role = .coordinator) : unit '?' ∉ utf16 (roleBriefing agent) := by
  unfold roleBriefing
  rw [role]
  simp only [utf16, String.toList_append, List.flatMap_append, List.mem_append, not_or]
  constructor
  · apply question_mark_not_mem
    decide +kernel
  · unfold sharedBriefing
    apply question_mark_not_mem
    decide +kernel

/-- The question mark is in the messages alone. -/
def Unmarked (s : Store) (request : RunContextRequest) : Bool :=
  match contextPlan (.byWeight String.length) { budgetTokens := some 150 } s request none with
  | .error _ => false
  | .ok plan => decide (request.inbox.map (·.status) = [.delivered]) && decide (request.agent.role = .coordinator) &&
      request.inbox.all (fun message => (messageLine message).contains (unit '?')) &&
      !plan.text.contains (unit '?') && !(utf16 request.mission.prompt).contains (unit '?') &&
      (transcript { budgetTokens := some 150 } s request.run.id).isEmpty

theorem askedTurn_compiles : ∃ s request context, askedTurn = some (s, request) ∧ askedContext 150 s request = .ok context ∧
    request.inbox.map (·.status) = [.delivered] ∧
    ∀ message ∈ request.inbox, ∀ sent ∈ context.messages, ¬messageLine message <:+: sent.content := by
  have evaluated : (askedTurn.any fun turn => Unmarked turn.1 turn.2) = true := by decide +kernel
  obtain ⟨⟨s, request⟩, asked, shown⟩ := (Option.any_eq_true _ _).mp evaluated
  unfold Unmarked at shown
  cases made : contextPlan (.byWeight String.length) { budgetTokens := some 150 } s request none with
  | error message => simp [made] at shown
  | ok plan =>
    simp only [made, Bool.and_eq_true, decide_eq_true_eq, List.all_eq_true, List.isEmpty_iff, Bool.not_eq_true',
      List.contains_eq_mem, decide_eq_false_iff_not] at shown
    obtain ⟨⟨⟨⟨⟨delivered, role⟩, marked⟩, planned⟩, prompted⟩, spoken⟩ := shown
    refine ⟨s, request, _, asked, compile_ok.mpr ⟨plan, made, rfl⟩, delivered, ?_⟩
    intro message drained sent listed within
    have mark : unit '?' ∈ sent.content := within.subset (marked message drained)
    rw [spoken, List.append_nil] at listed
    simp only [List.mem_cons, List.not_mem_nil, or_false] at listed
    rcases listed with rfl | rfl | rfl
    · exact briefing_unmarked role mark
    · exact prompted mark
    · exact planned mark

theorem inbox_shown_iff_asked : ∃ s request context plan, askedContext 150 s request = .ok context ∧
    contextPlan (.byWeight String.length) { budgetTokens := some 150 } s request none = .ok plan ∧
    ((∀ message ∈ request.inbox, ShownInFull plan message) ↔ InboxFits { budgetTokens := some 150 } s request) := by
  obtain ⟨s, request, context, _, compiled, _⟩ := askedTurn_compiles
  obtain ⟨plan, made, shown, _⟩ := inbox_shown_iff compiled
  exact ⟨s, request, context, plan, compiled, made, shown⟩

/-- The question is delivered, and is in no message the provider is given. -/
theorem question_not_shown : ∃ s request context, askedTurn = some (s, request) ∧ askedContext 150 s request = .ok context ∧
    request.inbox.map (·.status) = [.delivered] ∧
    ∀ message ∈ request.inbox, ∀ sent ∈ context.messages, ¬messageLine message <:+: sent.content :=
  askedTurn_compiles

end OttiliCoder.Inbox
