import Mathlib.Data.Rat.Floor

namespace RaceTracker.Lib

/-! Python's `round`: to the nearest integer, ties to the even one. -/

def roundHalfEven (value : Rat) : Int :=
  let below := value.num / value.den
  let rest := value - below
  if rest < 1 / 2 then below
  else if 1 / 2 < rest then below + 1
  else if below % 2 = 0 then below else below + 1

theorem floor_le_roundHalfEven (value : Rat) :
    ⌊value⌋ ≤ roundHalfEven value ∧ roundHalfEven value ≤ ⌊value⌋ + 1 := by
  rw [roundHalfEven]
  simp only [← Rat.floor_def']
  split
  · omega
  split
  · omega
  split <;> omega

theorem roundHalfEven_near (value : Rat) : |(roundHalfEven value : Rat) - value| ≤ 1 / 2 := by
  have below := Int.floor_le value
  have above := Int.lt_floor_add_one value
  rw [abs_le, roundHalfEven]
  simp only [← Rat.floor_def']
  split_ifs <;> push_cast <;> constructor <;> linarith

theorem roundHalfEven_mono {left right : Rat} (ordered : left ≤ right) :
    roundHalfEven left ≤ roundHalfEven right := by
  rcases (Int.floor_mono ordered).lt_or_eq with apart | same
  · have low := (floor_le_roundHalfEven left).2
    have high := (floor_le_roundHalfEven right).1
    omega
  · -- On one unit interval only the distance from its start counts.
    have rests : left - ⌊left⌋ ≤ right - ⌊right⌋ := by rw [same]; linarith
    unfold roundHalfEven
    simp only [← Rat.floor_def']
    rw [same] at rests ⊢
    -- What is left is either a step up or a comparison that the rests contradict.
    split_ifs <;> first | omega | linarith

section Even

variable {value : Rat} {bound : Int}

/-- A tie at an even bound is rounded to it. -/
theorem roundHalfEven_le_iff (even : bound % 2 = 0) : roundHalfEven value ≤ bound ↔ value ≤ bound + 1 / 2 := by
  have near := floor_le_roundHalfEven value
  have above := Int.lt_floor_add_one value
  have below := Int.floor_le value
  rcases lt_trichotomy ⌊value⌋ bound with less | same | more
  · have step : (⌊value⌋ : Rat) + 1 ≤ bound := by exact_mod_cast less
    exact iff_of_true (by omega) (by linarith)
  · unfold roundHalfEven
    simp only [← Rat.floor_def', same, even]
    split_ifs
    · exact iff_of_true le_rfl (by linarith)
    · exact iff_of_false (by omega) (by linarith)
    · exact iff_of_true le_rfl (by linarith)
  · have step : (bound : Rat) + 1 ≤ ⌊value⌋ := by exact_mod_cast more
    exact iff_of_false (by omega) (by linarith)

theorem le_roundHalfEven_iff (even : bound % 2 = 0) : bound ≤ roundHalfEven value ↔ bound - 1 / 2 ≤ value := by
  have near := floor_le_roundHalfEven value
  have above := Int.lt_floor_add_one value
  have below := Int.floor_le value
  rcases lt_trichotomy ⌊value⌋ (bound - 1) with less | same | more
  · have step : (⌊value⌋ : Rat) + 1 ≤ bound - 1 := by exact_mod_cast less
    exact iff_of_false (by omega) (by linarith)
  · have cast : ((bound - 1 : Int) : Rat) = bound - 1 := by push_cast; rfl
    unfold roundHalfEven
    simp only [← Rat.floor_def', same, cast]
    split_ifs
    · exact iff_of_false (by omega) (by linarith)
    · exact iff_of_true (by omega) (by linarith)
    · omega
    · exact iff_of_true (by omega) (by linarith)
  · have step : (bound : Rat) ≤ ⌊value⌋ := by exact_mod_cast (by omega : bound ≤ ⌊value⌋)
    exact iff_of_true (by omega) (by linarith)

end Even

theorem roundHalfEven_nonneg {value : Rat} (nonneg : 0 ≤ value) : 0 ≤ roundHalfEven value := by
  have start := Int.floor_nonneg.mpr nonneg
  exact start.trans (floor_le_roundHalfEven value).1

end RaceTracker.Lib
