import Mathlib.Data.List.GetD
import Mathlib.Order.Nat

namespace RaceTracker.Lib

/-! Binary search for the first index from which a condition holds. -/

/-- Halve the window until it is empty. -/
def search (holds : Nat → Bool) (low high : Nat) : Nat :=
  if low < high then
    let middle := (low + high) / 2
    if holds middle then search holds low middle else search holds (middle + 1) high
  else low
termination_by high - low

variable {holds : Nat → Bool} {low high : Nat}

/-- A condition that stays once it holds splits the window at the result. -/
theorem search_spec (stays : ∀ i j, i ≤ j → j < high → holds i → holds j) (window : low ≤ high) :
    low ≤ search holds low high ∧ search holds low high ≤ high ∧
      (∀ i, low ≤ i → i < search holds low high → ¬ holds i) ∧
      ∀ i, search holds low high ≤ i → i < high → holds i := by
  fun_induction search holds low high with
  | case1 low high within middle found ih =>
      have before : middle < high := by omega
      obtain ⟨above, below, missing, present⟩ :=
        ih (fun i j earlier late => stays i j earlier (by omega)) (by omega)
      refine ⟨above, by omega, missing, fun i from' until' => ?_⟩
      by_cases left : i < middle
      · exact present i from' left
      · exact stays middle i (by omega) until' found
  | case2 low high within middle missed ih =>
      obtain ⟨above, below, missing, present⟩ := ih stays (by omega)
      refine ⟨by omega, below, fun i from' until' => ?_, present⟩
      by_cases right : middle < i
      · exact missing i (by omega) until'
      · exact fun held => missed (stays i middle (by omega) (by omega) held)
  | case3 low high empty =>
      exact ⟨le_refl low, window, fun i from' until' => by omega, fun i from' until' => by omega⟩

variable {α : Type} {R : α → α → Prop} {list : List α} {i j : Nat}

theorem pairwise_getD (sorted : list.Pairwise R) (default : α) (before : i < j)
    (within : j < list.length) : R (list.getD i default) (list.getD j default) := by
  rw [List.getD_eq_getElem _ _ within, List.getD_eq_getElem _ _ (before.trans within)]
  exact List.pairwise_iff_getElem.mp sorted i j _ within before

theorem sorted_getD (reflexive : ∀ item, R item item) (sorted : list.Pairwise R) (default : α)
    (ordered : i ≤ j) (within : j < list.length) : R (list.getD i default) (list.getD j default) := by
  rcases Nat.eq_or_lt_of_le ordered with rfl | before
  · exact reflexive _
  · exact pairwise_getD sorted default before within

end RaceTracker.Lib
