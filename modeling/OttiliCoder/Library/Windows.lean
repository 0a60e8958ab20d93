import Mathlib.Data.Nat.Init

/-! Windows over a list: pieces of one length that start at regular distances, so that each overlaps the next. -/

namespace Windows
variable {α : Type}

/-- The starts of the windows from one start on: at most as many as the fuel. -/
def starts (step length : Nat) : Nat → Nat → List Nat
  | 0, _ => []
  | fuel + 1, start => if start < length then start :: starts step length fuel (start + step) else []

def window (size : Nat) (items : List α) (start : Nat) : List α := (items.drop start).take size

def windows (size overlap : Nat) (items : List α) : List (Nat × List α) :=
  (starts (size - overlap) items.length items.length 0).map fun start => (start, window size items start)

/-- The pieces behind one another, each later one without what it shares with the piece before it. -/
def join (overlap : Nat) : List (List α) → List α
  | [] => []
  | first :: rest => first ++ rest.flatMap (List.drop overlap)

variable {size overlap step length : Nat} {items : List α}

theorem lt_of_mem_starts {fuel start other : Nat} (listed : other ∈ starts step length fuel start) : other < length := by
  induction fuel generalizing start with
  | zero => cases listed
  | succ fuel ih =>
    rw [starts] at listed
    split at listed
    next inside =>
      rcases List.mem_cons.mp listed with rfl | later
      · exact inside
      · exact ih later
    next => cases listed

/-- With enough fuel, the starts are at all multiples of the distance. -/
theorem mem_starts {fuel start count : Nat} (enough : length ≤ start + fuel) (advances : 0 < step)
    (inside : start + count * step < length) : start + count * step ∈ starts step length fuel start := by
  induction fuel generalizing start count with
  | zero => omega
  | succ fuel ih =>
    have within : start < length := by omega
    rw [starts, if_pos within]
    cases count with
    | zero => simp
    | succ count =>
      have split : start + (count + 1) * step = start + step + count * step := by
        rw [Nat.succ_mul]
        omega
      rw [split]
      apply List.mem_cons_of_mem
      apply ih
      · omega
      · omega

/-- Every item is in a window. -/
theorem windows_cover (fits : overlap < size) {index : Nat} (inside : index < items.length) :
    ∃ piece ∈ windows size overlap items, piece.1 ≤ index ∧ index < piece.1 + piece.2.length := by
  have advances : 0 < size - overlap := by omega
  have below := Nat.div_mul_le_self index (size - overlap)
  have above : index < index / (size - overlap) * (size - overlap) + (size - overlap) := Nat.lt_div_mul_add advances
  have listed : index / (size - overlap) * (size - overlap) ∈ starts (size - overlap) items.length items.length 0 := by
    have found := @mem_starts (size - overlap) items.length items.length 0 (index / (size - overlap)) (Nat.le_add_left _ _) advances
    rw [Nat.zero_add] at found
    exact found (Nat.lt_of_le_of_lt below inside)
  refine ⟨_, List.mem_map_of_mem listed, below, ?_⟩
  unfold window
  rw [List.length_take, List.length_drop]
  omega

/-- Without what the windows share, everything from a start on is there once. -/
theorem flatMap_drop_windows (fits : overlap < size) {fuel start : Nat} (enough : items.length ≤ start + fuel) :
    ((starts (size - overlap) items.length fuel start).map (window size items)).flatMap (List.drop overlap) =
      items.drop (start + overlap) := by
  induction fuel generalizing start with
  | zero => exact (List.drop_eq_nil_of_le (by omega)).symm
  | succ fuel ih =>
    rw [starts]
    split
    next inside =>
      have next : start + (size - overlap) + overlap = start + overlap + (size - overlap) := by omega
      have cut : (window size items start).drop overlap = (items.drop (start + overlap)).take (size - overlap) := by
        unfold window
        rw [List.drop_take, List.drop_drop]
      have onward : items.drop (start + overlap + (size - overlap)) = (items.drop (start + overlap)).drop (size - overlap) :=
        List.drop_drop.symm
      rw [List.map_cons, List.flatMap_cons, ih (by omega), cut, next, onward]
      exact List.take_append_drop _ _
    next outside =>
      exact (List.drop_eq_nil_of_le (by omega)).symm

/-- The windows of a list give it back. -/
theorem join_windows (fits : overlap < size) : join overlap ((windows size overlap items).map Prod.snd) = items := by
  have pieces : (windows size overlap items).map Prod.snd =
      (starts (size - overlap) items.length items.length 0).map (window size items) := by
    unfold windows
    rw [List.map_map]
    rfl
  rw [pieces]
  cases total : items.length with
  | zero =>
    obtain rfl := List.eq_nil_of_length_eq_zero total
    rfl
  | succ count =>
    have enough : items.length ≤ 0 + (size - overlap) + count := by omega
    have rest := @flatMap_drop_windows α size overlap items fits count (0 + (size - overlap)) enough
    have past : 0 + (size - overlap) + overlap = size := by omega
    rw [starts, if_pos (Nat.succ_pos count), List.map_cons, join, ← total, rest, past]
    exact List.take_append_drop size items

end Windows
