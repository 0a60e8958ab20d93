import OttiliCoder.Context.RepoMap
import Mathlib.Algebra.BigOperators.Ring.List
import Mathlib.Algebra.Order.BigOperators.Group.List
import Mathlib.Algebra.Field.Rat
import Mathlib.Tactic.FieldSimp
import Mathlib.Tactic.Linarith
import Mathlib.Tactic.Ring

/-! The ranks of a repository map share out one unit between its files. What a file passes on in an iteration
is its damped rank, whether it has edges or not, and with what every file starts with that is one unit again. -/

namespace OttiliCoder.RepoMap
open Host Relational

/-- The ranks of all files, each positive, that add up to one. -/
structure Distribution (paths : List JsString) (ranks : Ranks) : Prop where
  listed : ranks.keys = paths
  positive : ∀ path ∈ paths, 0 < ranks.amount path
  total : ranks.total = 1

/-- Every edge leads to a file of the map and has a positive weight. -/
def SoundEdges (paths : List JsString) (graph : EdgeGraph) : Prop :=
  ∀ source outgoing, graph.get source = some outgoing → ∀ edge ∈ outgoing.rows, edge.1 ∈ paths ∧ 0 < edge.2

/-- The edges that leave a file. -/
def outgoingOf (graph : EdgeGraph) (source : JsString) : List (JsString × Rat) := ((graph.get source).map (·.rows)).getD []

/-! The graph. -/

section Graph
variable {paths : List JsString} {graph : EdgeGraph}

theorem soundEdges_empty (paths listed : List JsString) : SoundEdges paths (.constantly listed .empty) := by
  intro source outgoing found edge inside
  rw [Table.get_constantly] at found
  split at found
  · obtain rfl := Option.some.inj found
    cases inside
  · cases found

/-- An edge between files of the map keeps the graph sound, whatever weight it is given. -/
theorem soundEdges_addEdge (sound : SoundEdges paths graph) {edge : Edge} (known : edge.target ∈ paths) :
    SoundEdges paths (addEdge graph edge) := by
  unfold addEdge
  split
  next => exact sound
  next added =>
    have positive : 0 < edge.weight := lt_of_not_ge fun small => added (.inr small)
    cases found : graph.get edge.source with
    | none => exact sound
    | some outgoing =>
      intro source changed here row inside
      rw [Table.get_set] at here
      split at here
      next =>
        obtain rfl := Option.some.inj here
        have old := sound edge.source outgoing found
        have amount : 0 ≤ outgoing.amount edge.target := by
          unfold Amounts.amount
          cases stored : outgoing.get edge.target with
          | none => exact le_refl _
          | some weight => exact (old _ (Table.get_eq_some.mp stored)).2.le
        rcases Keyed.mem_put.mp inside with rfl | ⟨stored, -⟩
        · exact ⟨known, add_pos_of_nonneg_of_pos amount positive⟩
        · exact old row stored
      next => exact sound source changed here row inside

theorem soundEdges_edgeGraph {edges : List Edge} (known : ∀ edge ∈ edges, edge.target ∈ paths) :
    SoundEdges paths (edgeGraph paths edges) :=
  List.foldlRecOn edges addEdge (soundEdges_empty paths paths) fun _ sound edge listed => soundEdges_addEdge sound (known edge listed)

end Graph

/-! One file. -/

theorem quotient_of_ne {dividend divisor : Rat} (nonzero : divisor ≠ 0) : quotient dividend divisor = some (dividend / divisor) :=
  if_neg nonzero

theorem length_ne_zero {paths : List JsString} (filled : paths ≠ []) : (paths.length : Rat) ≠ 0 := by
  rw [Nat.cast_ne_zero]
  exact (List.length_pos_iff.mpr filled).ne'

theorem length_pos {paths : List JsString} (filled : paths ≠ []) : (0 : Rat) < paths.length := by
  rw [Nat.cast_pos]
  exact List.length_pos_iff.mpr filled

theorem damping_pos : 0 < damping := by
  unfold damping
  linarith

theorem damping_lt : damping < 1 := by
  unfold damping
  linarith

/-- What a file passes on, and to which. -/
def shares (paths : List JsString) (graph : EdgeGraph) (ranks : Ranks) (source : JsString) : List (JsString × Rat) :=
  let damped := damping * ranks.amount source
  if (outgoingOf graph source).isEmpty then paths.map fun target => (target, damped / paths.length)
  else (outgoingOf graph source).map fun edge => (edge.1, damped * edge.2 / ((outgoingOf graph source).map Prod.snd).sum)

section Shares
variable {paths : List JsString} {graph : EdgeGraph} {ranks next : Ranks} {source : JsString}

theorem outgoingOf_sound (sound : SoundEdges paths graph) : ∀ edge ∈ outgoingOf graph source, edge.1 ∈ paths ∧ 0 < edge.2 := by
  intro edge listed
  unfold outgoingOf at listed
  cases found : graph.get source with
  | none =>
    rw [found] at listed
    cases listed
  | some outgoing =>
    rw [found] at listed
    exact sound source outgoing found edge listed

theorem nodup_outgoingOf (graph : EdgeGraph) (source : JsString) : ((outgoingOf graph source).map Prod.fst).Nodup := by
  unfold outgoingOf
  cases graph.get source with
  | none => exact List.nodup_nil
  | some outgoing => exact outgoing.nodup_keys

/-- A file with edges has a positive weight to divide by. -/
theorem weight_pos (sound : SoundEdges paths graph) (filled : (outgoingOf graph source).isEmpty = false) :
    0 < ((outgoingOf graph source).map Prod.snd).sum := by
  apply List.sum_pos
  · intro weight listed
    obtain ⟨edge, inside, rfl⟩ := List.mem_map.mp listed
    exact (outgoingOf_sound sound edge inside).2
  · rw [ne_eq, List.map_eq_nil_iff]
    exact List.isEmpty_eq_false_iff.mp filled

theorem passOn_eq (sound : SoundEdges paths graph) (filled : paths ≠ []) :
    passOn paths graph ranks next source =
      some ((shares paths graph ranks source).foldl (fun next share => next.raise share.1 share.2) next) := by
  unfold shares
  change (if (outgoingOf graph source).isEmpty then _
    else (outgoingOf graph source).foldlM (fun next edge =>
      (quotient (damping * ranks.amount source * edge.2)
        (((outgoingOf graph source).map Prod.snd).foldl (fun total current => total + current) 0)).bind fun share =>
          some (next.raise edge.1 share)) next) = _
  cases dangling : (outgoingOf graph source).isEmpty with
  | true =>
    simp only [if_true, quotient_of_ne (length_ne_zero filled), List.foldl_map]
    rfl
  | false =>
    have weight : ((outgoingOf graph source).map Prod.snd).foldl (fun total current => total + current) 0 =
        ((outgoingOf graph source).map Prod.snd).sum := List.sum_eq_foldl.symm
    simp only [Bool.false_eq_true, if_false, weight, quotient_of_ne (weight_pos sound dangling).ne', Option.bind_some, List.foldl_map]
    exact List.foldlM_pure

theorem shares_known (sound : SoundEdges paths graph) : ∀ share ∈ shares paths graph ranks source, share.1 ∈ paths := by
  intro share listed
  unfold shares at listed
  split at listed
  · obtain ⟨target, inside, rfl⟩ := List.mem_map.mp listed
    exact inside
  · obtain ⟨edge, inside, rfl⟩ := List.mem_map.mp listed
    exact (outgoingOf_sound sound edge inside).1

theorem shares_nonneg (sound : SoundEdges paths graph) (rank : 0 ≤ ranks.amount source) :
    ∀ share ∈ shares paths graph ranks source, 0 ≤ share.2 := by
  have damped : 0 ≤ damping * ranks.amount source := mul_nonneg damping_pos.le rank
  intro share listed
  unfold shares at listed
  split at listed
  next =>
    obtain ⟨target, inside, rfl⟩ := List.mem_map.mp listed
    exact div_nonneg damped (Nat.cast_nonneg _)
  next filled =>
    obtain ⟨edge, inside, rfl⟩ := List.mem_map.mp listed
    have weight := weight_pos sound (Bool.eq_false_iff.mpr filled)
    exact div_nonneg (mul_nonneg damped (outgoingOf_sound sound edge inside).2.le) weight.le

/-- A file passes on its whole damped rank. -/
theorem shares_total (sound : SoundEdges paths graph) (filled : paths ≠ []) :
    ((shares paths graph ranks source).map Prod.snd).sum = damping * ranks.amount source := by
  unfold shares
  split
  next =>
    have nonzero := length_ne_zero filled
    rw [List.map_map]
    simp only [Function.comp_def, List.map_const', List.sum_replicate, nsmul_eq_mul]
    field_simp
  next edged =>
    have nonzero := (weight_pos sound (Bool.eq_false_iff.mpr edged)).ne'
    have scaled : (Prod.snd ∘ fun edge : JsString × Rat => (edge.1, damping * ranks.amount source * edge.2 /
        ((outgoingOf graph source).map Prod.snd).sum)) = fun edge => edge.2 * (damping * ranks.amount source /
          ((outgoingOf graph source).map Prod.snd).sum) := by
      funext edge
      rw [Function.comp_apply, mul_comm _ edge.2, mul_div_assoc]
    rw [List.map_map, scaled, List.sum_map_mul_right]
    field_simp

theorem passOn_spec (sound : SoundEdges paths graph) (filled : paths ≠ []) (rank : 0 ≤ ranks.amount source) (keys : next.keys = paths) :
    ∃ after, passOn paths graph ranks next source = some after ∧ after.keys = paths ∧
      after.total = next.total + damping * ranks.amount source ∧ ∀ path, next.amount path ≤ after.amount path := by
  refine ⟨_, passOn_eq sound filled, ?_, ?_, ?_⟩
  · rw [Amounts.keys_foldl_raise, keys]
    rw [keys]
    exact shares_known sound
  · rw [Amounts.total_foldl_raise, shares_total sound filled]
  · exact Amounts.le_amount_foldl_raise (shares_nonneg sound rank) next

/-- What each file of a list passes on is added up. -/
theorem foldlM_passOn (sound : SoundEdges paths graph) (filled : paths ≠ []) {sources : List JsString}
    (rank : ∀ source ∈ sources, 0 ≤ ranks.amount source) (keys : next.keys = paths) :
    ∃ after, sources.foldlM (passOn paths graph ranks) next = some after ∧ after.keys = paths ∧
      after.total = next.total + damping * (sources.map ranks.amount).sum ∧ ∀ path, next.amount path ≤ after.amount path := by
  induction sources generalizing next with
  | nil => exact ⟨next, rfl, keys, by simp, fun path => le_refl _⟩
  | cons source sources ih =>
    obtain ⟨middle, passed, known, added, more⟩ := passOn_spec sound filled (rank source List.mem_cons_self) keys
    obtain ⟨after, passedAll, all, addedAll, moreAll⟩ := ih (fun other listed => rank other (List.mem_cons_of_mem source listed)) known
    refine ⟨after, ?_, all, ?_, fun path => le_trans (more path) (moreAll path)⟩
    · rw [List.foldlM_cons, passed]
      exact passedAll
    · rw [addedAll, added, List.map_cons, List.sum_cons, mul_add, add_assoc]

/-- A file passes the same on to every file: an equal part of its damped rank. -/
def PassesEvenly (paths : List JsString) (graph : EdgeGraph) (ranks : Ranks) (source : JsString) : Prop :=
  ∀ next, ∃ after, passOn paths graph ranks next source = some after ∧
    ∀ path ∈ paths, after.amount path = next.amount path + damping * ranks.amount source / paths.length

theorem passesEvenly (sound : SoundEdges paths graph) (filled : paths ≠ []) (distinct : paths.Nodup)
    (dangling : outgoingOf graph source = []) : PassesEvenly paths graph ranks source := by
  intro next
  refine ⟨_, passOn_eq sound filled, ?_⟩
  intro path listed
  have even : shares paths graph ranks source = paths.map fun target => (target, damping * ranks.amount source / paths.length) := by
    rw [shares, dangling]
    rfl
  have keys : ((shares paths graph ranks source).map Prod.fst) = paths := by
    rw [even, List.map_map]
    exact List.map_id paths
  have own : (path, damping * ranks.amount source / paths.length) ∈ shares paths graph ranks source := by
    rw [even]
    exact List.mem_map_of_mem listed
  exact Amounts.amount_foldl_raise (keys.symm ▸ distinct) own next

end Shares

/-! The iterations. -/

section Iterations
variable {paths : List JsString} {graph : EdgeGraph} {ranks : Ranks}

/-- Equal amounts that add up to a given one. -/
theorem total_equal {amount : Rat} (filled : paths ≠ []) (distinct : paths.Nodup) :
    Amounts.total (Table.constantly paths (amount / paths.length)) = amount := by
  have nonzero := length_ne_zero filled
  rw [Amounts.total_constantly distinct, nsmul_eq_mul]
  field_simp

theorem initial_distribution (filled : paths ≠ []) (distinct : paths.Nodup) :
    ∃ ranks, initialRanks paths = some ranks ∧ Distribution paths ranks := by
  refine ⟨.constantly paths (1 / paths.length), ?_, ?_⟩
  · unfold initialRanks
    rw [quotient_of_ne (length_ne_zero filled)]
    rfl
  · refine ⟨Table.keys_constantly distinct, fun path listed => ?_, total_equal filled distinct⟩
    rw [Amounts.amount_constantly listed]
    exact div_pos one_pos (length_pos filled)

theorem iterate_distribution (sound : SoundEdges paths graph) (filled : paths ≠ []) (distinct : paths.Nodup)
    (distribution : Distribution paths ranks) : ∃ next, iterate paths graph ranks = some next ∧ Distribution paths next := by
  have base : (0 : Rat) < 1 - damping := by linarith [damping_lt]
  have start : Table.keys (Table.constantly paths ((1 - damping) / paths.length)) = paths := Table.keys_constantly distinct
  have rank : ∀ source ∈ paths, 0 ≤ ranks.amount source := fun source listed => (distribution.positive source listed).le
  obtain ⟨next, passed, keys, total, more⟩ := foldlM_passOn sound filled rank start
  refine ⟨next, ?_, keys, fun path listed => ?_, ?_⟩
  · unfold iterate
    rw [quotient_of_ne (length_ne_zero filled)]
    exact passed
  · refine lt_of_lt_of_le ?_ (more path)
    rw [Amounts.amount_constantly listed]
    exact div_pos base (length_pos filled)
  · have whole : (paths.map ranks.amount).sum = 1 := by
      rw [← distribution.total, Amounts.total_eq, distribution.listed]
    rw [total, total_equal filled distinct, whole]
    ring

theorem ranksAfter_distribution (sound : SoundEdges paths graph) (filled : paths ≠ []) (distinct : paths.Nodup) (iterations : Nat) :
    ∃ ranks, ranksAfter paths graph iterations = some ranks ∧ Distribution paths ranks := by
  induction iterations with
  | zero => exact initial_distribution filled distinct
  | succ iterations ih =>
    obtain ⟨ranks, reached, distribution⟩ := ih
    obtain ⟨next, iterated, kept⟩ := iterate_distribution sound filled distinct distribution
    refine ⟨next, ?_, kept⟩
    rw [ranksAfter, reached]
    exact iterated

theorem pageRank_distribution (sound : SoundEdges paths graph) (filled : paths ≠ []) (distinct : paths.Nodup) :
    ∃ ranks, pageRank paths graph = some ranks ∧ Distribution paths ranks := by
  unfold pageRank
  rw [List.isEmpty_eq_false_iff.mpr filled]
  exact ranksAfter_distribution sound filled distinct 24

end Iterations

end OttiliCoder.RepoMap
