import RaceTracker.Bake.Geometry

namespace RaceTracker.Bake

open RaceTracker.Lib

/-! Step and nearest-neighbour lookups in ascending lists. -/

/-- The first index whose entry is above `value`. -/
def bisectRight (list : List Rat) (value : Rat) : Nat :=
  search (fun index => decide (value < list.getD index 0)) 0 list.length

/-- The value at the last time that is not after `t`. -/
def stepValue {τ : Type} (times : List Rat) (values : List τ) (t : Rat) (default : τ) : τ :=
  match bisectRight times t with
  | 0 => default
  | i + 1 => values.getD i default

/-- The index of the entry closest to `query`, both neighbours compared. -/
def nearestIndex (sortedValues : List Rat) (query : Rat) : Nat :=
  let i := bisectLeft sortedValues query
  if i = 0 then 0
  else if i = sortedValues.length then sortedValues.length - 1
  else
    let before := sortedValues.getD (i - 1) 0
    let after := sortedValues.getD i 0
    if query - before ≤ after - query then i - 1 else i

variable {values : List Rat} {query query' : Rat}

/-- No entry is closer, and one that is as close is not an earlier instant. -/
structure Nearest (values : List Rat) (query : Rat) (index : Nat) : Prop where
  within : index < values.length
  closest : ∀ j, j < values.length →
    |values.getD index 0 - query| < |values.getD j 0 - query| ∨
      |values.getD index 0 - query| = |values.getD j 0 - query| ∧
        (index ≤ j ∨ values.getD index 0 = values.getD j 0)

theorem bisectLeft_mono (sorted : values.Pairwise (· ≤ ·)) (ordered : query ≤ query') :
    bisectLeft values query ≤ bisectLeft values query' := by
  obtain ⟨bounded, below, -⟩ := bisectLeft_spec sorted query
  obtain ⟨-, -, above⟩ := bisectLeft_spec sorted query'
  by_contra less
  have before := below _ (not_le.mp less)
  have reached := above _ (le_refl _) (by omega)
  linarith

/-- The answer is the entry before the place of the query, or the one there. -/
theorem nearestIndex_bounds (sorted : values.Pairwise (· ≤ ·)) (query : Rat) :
    nearestIndex values query ≤ bisectLeft values query ∧
      bisectLeft values query ≤ nearestIndex values query + 1 := by
  obtain ⟨bounded, -⟩ := bisectLeft_spec sorted query
  rw [nearestIndex]
  simp only
  split_ifs <;> omega

theorem nearestIndex_mono (sorted : values.Pairwise (· ≤ ·)) (ordered : query ≤ query') :
    nearestIndex values query ≤ nearestIndex values query' := by
  have step := bisectLeft_mono sorted ordered
  obtain ⟨low, high⟩ := nearestIndex_bounds sorted query
  obtain ⟨low', high'⟩ := nearestIndex_bounds sorted query'
  by_cases same : bisectLeft values query = bisectLeft values query'
  · unfold nearestIndex
    simp only [same]
    split_ifs with start last near near' near'
    · exact le_refl 0
    · exact le_refl _
    · exact le_refl _
    · exact Nat.sub_le _ 1
    · linarith
    · exact le_refl _
  · omega

theorem distance_below (sorted : values.Pairwise (· ≤ ·)) {j : Nat} (before : j < bisectLeft values query) :
    |values.getD j 0 - query| = query - values.getD j 0 := by
  obtain ⟨-, below, -⟩ := bisectLeft_spec sorted query
  rw [abs_of_neg (sub_neg.mpr (below j before)), neg_sub]

theorem distance_above (sorted : values.Pairwise (· ≤ ·)) {j : Nat} (after : bisectLeft values query ≤ j)
    (within : j < values.length) : |values.getD j 0 - query| = values.getD j 0 - query := by
  obtain ⟨-, -, above⟩ := bisectLeft_spec sorted query
  exact abs_of_nonneg (sub_nonneg.mpr (above j after within))

/-- The last entry below the query, against the others below it. -/
theorem last_below (sorted : values.Pairwise (· ≤ ·)) {j : Nat} (before : j < bisectLeft values query) :
    |values.getD (bisectLeft values query - 1) 0 - query| < |values.getD j 0 - query| ∨
      |values.getD (bisectLeft values query - 1) 0 - query| = |values.getD j 0 - query| ∧
        values.getD (bisectLeft values query - 1) 0 = values.getD j 0 := by
  obtain ⟨bounded, -⟩ := bisectLeft_spec sorted query
  have ordered := sorted_getD le_refl sorted 0 (show j ≤ bisectLeft values query - 1 by omega) (by omega)
  rw [distance_below sorted before,
    distance_below sorted (show bisectLeft values query - 1 < bisectLeft values query by omega)]
  rcases ordered.lt_or_eq with less | same
  · exact .inl (by linarith)
  · exact .inr ⟨by rw [same], same.symm⟩

/-- The first entry from the query on, against the others there. -/
theorem first_above (sorted : values.Pairwise (· ≤ ·)) {j : Nat} (after : bisectLeft values query ≤ j)
    (within : j < values.length) :
    |values.getD (bisectLeft values query) 0 - query| < |values.getD j 0 - query| ∨
      |values.getD (bisectLeft values query) 0 - query| = |values.getD j 0 - query| := by
  have ordered := sorted_getD le_refl sorted 0 after within
  rw [distance_above sorted (le_refl _) (by omega), distance_above sorted after within]
  rcases ordered.lt_or_eq with less | same
  · exact .inl (by linarith)
  · exact .inr (by rw [same])

theorem nearestIndex_spec (sorted : values.Pairwise (· ≤ ·)) (nonempty : values ≠ []) (query : Rat) :
    Nearest values query (nearestIndex values query) := by
  have some : 0 < values.length := List.length_pos_iff.mpr nonempty
  obtain ⟨bounded, -⟩ := bisectLeft_spec sorted query
  rw [nearestIndex]
  simp only
  split_ifs with start last near
  · refine ⟨some, fun j within => ?_⟩
    have first := first_above sorted (show bisectLeft values query ≤ j by omega) within
    rw [start] at first
    exact first.imp_right fun tie => ⟨tie, .inl (Nat.zero_le j)⟩
  · refine ⟨by omega, fun j within => ?_⟩
    rw [← last]
    exact (last_below sorted (by omega)).imp_right fun tie => ⟨tie.1, .inr tie.2⟩
  · refine ⟨by omega, fun j within => ?_⟩
    rcases Nat.lt_or_ge j (bisectLeft values query) with before | after
    · exact (last_below sorted before).imp_right fun tie => ⟨tie.1, .inr tie.2⟩
    · have ordered := sorted_getD le_refl sorted 0 after within
      rw [distance_below sorted (by omega), distance_above sorted after within]
      rcases (near.trans (sub_le_sub_right ordered query)).lt_or_eq with less | same
      · exact .inl less
      · exact .inr ⟨same, .inl (by omega)⟩
  · refine ⟨by omega, fun j within => ?_⟩
    rcases Nat.lt_or_ge j (bisectLeft values query) with before | after
    · have ordered := sorted_getD le_refl sorted 0
        (show j ≤ bisectLeft values query - 1 by omega) (by omega)
      rw [distance_above sorted (le_refl _) (by omega), distance_below sorted before]
      exact .inl (by linarith)
    · exact (first_above sorted after within).imp_right fun tie => ⟨tie, .inl after⟩

end RaceTracker.Bake
