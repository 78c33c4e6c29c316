import Mathlib.Algebra.GroupWithZero.Nat
import Mathlib.Data.List.Sort

namespace RaceTracker.Lib

/-! Counts by value, and the element of a given rank read off them.

The counts are summed up in order until the sum reaches the rank.  Where each count is that of
one value, the index found is the value that the sorted list has at that rank.
-/

/-- The first index at which the counts so far reach `rank`. -/
def crossing (rank cum index : Nat) : List Nat → Option Nat
  | [] => none
  | count :: rest =>
      if rank ≤ cum + count then some index else crossing rank (cum + count) (index + 1) rest

section Crossing

variable {rank cum index found : Nat} {counts : List Nat}

theorem crossing_some (short : cum < rank) (reached : crossing rank cum index counts = some found) :
    ∃ offset, found = index + offset ∧ offset < counts.length ∧
      cum + (counts.take offset).sum < rank ∧ rank ≤ cum + (counts.take (offset + 1)).sum := by
  induction counts generalizing cum index with
  | nil => cases reached
  | cons count rest ih =>
      rw [crossing] at reached
      split at reached
      · rename_i enough
        refine ⟨0, (Option.some.inj reached).symm, by simp, by simpa using short, ?_⟩
        simpa using enough
      · rename_i missing
        obtain ⟨offset, place, inside, before, after⟩ := ih (not_le.mp missing) reached
        refine ⟨offset + 1, by omega, by simpa using inside, ?_, ?_⟩ <;>
          simp only [List.take_succ_cons, List.sum_cons] at * <;> omega

theorem crossing_none (short : cum < rank) (never : crossing rank cum index counts = none) :
    cum + counts.sum < rank := by
  induction counts generalizing cum index with
  | nil => simpa using short
  | cons count rest ih =>
      rw [crossing] at never
      split at never
      · cases never
      · rename_i missing
        have later := ih (not_le.mp missing) never
        rw [List.sum_cons]
        omega

end Crossing

section Rank

variable {α : Type} [LinearOrder α] {items sorted : List α} {rank : Nat} {value : α}

/-- Fewer than `rank` items are below `value` and at least `rank` are not above it. -/
theorem getElem?_of_counts (perm : sorted.Perm items) (ordered : sorted.Pairwise (· ≤ ·))
    (below : items.countP (· < value) < rank) (upTo : rank ≤ items.countP (· ≤ value)) :
    sorted[rank - 1]? = some value := by
  rw [← perm.countP_eq] at below upTo
  have inside : rank - 1 < sorted.length := by
    have most := sorted.countP_le_length (p := (· ≤ value))
    omega
  rw [List.getElem?_eq_getElem inside]
  congr 1
  have parts : sorted = sorted.take (rank - 1) ++ sorted[rank - 1] :: sorted.drop (rank - 1 + 1) := by
    rw [List.getElem_cons_drop, List.take_append_drop]
  have order := ordered
  rw [parts, List.pairwise_append] at order
  obtain ⟨-, upper, across⟩ := order
  have lower (item) (member : item ∈ sorted.take (rank - 1)) : item ≤ sorted[rank - 1] :=
    across item member _ (List.mem_cons_self ..)
  have front : (sorted.take (rank - 1)).length = rank - 1 := by
    rw [List.length_take]
    omega
  rcases lt_trichotomy sorted[rank - 1] value with small | same | large
  · -- The first `rank` items would all be below `value`.
    have all : (sorted.take (rank - 1)).countP (· < value) = rank - 1 := by
      rw [List.countP_eq_length.mpr, front]
      intro item member
      exact decide_eq_true ((lower item member).trans_lt small)
    rw [parts, List.countP_append, List.countP_cons_of_pos (by simpa using small), all] at below
    omega
  · exact same
  · -- From that place on none would be at most `value`.
    have none : (sorted[rank - 1] :: sorted.drop (rank - 1 + 1)).countP (· ≤ value) = 0 := by
      rw [List.countP_eq_zero]
      intro item member
      rw [decide_eq_true_eq, not_le]
      rcases List.mem_cons.mp member with same | later
      · exact same ▸ large
      · exact large.trans_le ((List.pairwise_cons.mp upper).1 item later)
    have most := (sorted.take (rank - 1)).countP_le_length (p := (· ≤ value))
    rw [parts, List.countP_append, none] at upTo
    omega

end Rank

variable {items : List Int}

theorem countP_lt_succ (value : Int) :
    items.countP (· < value + 1) = items.countP (· < value) + items.countP (· = value) := by
  induction items with
  | nil => rfl
  | cons item rest ih =>
      simp only [List.countP_cons, ih, decide_eq_true_eq]
      split_ifs <;> omega

/-- Counts of single values up to `bound` add up to the count below it. -/
theorem sum_take_counts (nonneg : ∀ item ∈ items, 0 ≤ item) {counts : List Nat}
    (each : ∀ value (inside : value < counts.length), counts[value] = items.countP (· = (value : Int)))
    {bound : Nat} (short : bound ≤ counts.length) :
    (counts.take bound).sum = items.countP (· < (bound : Int)) := by
  induction bound with
  | zero =>
      rw [List.take_zero, List.sum_nil, eq_comm, List.countP_eq_zero]
      intro item member
      simpa using nonneg item member
  | succ bound ih =>
      rw [List.take_succ_eq_append_getElem (by omega), List.sum_append, ih (by omega), List.sum_singleton,
        each bound (by omega), ← countP_lt_succ]
      norm_cast

end RaceTracker.Lib
