import Mathlib.Algebra.Order.Floor.Ring
import Mathlib.Algebra.Order.Field.Basic
import Mathlib.Tactic.Linarith
import Mathlib.Tactic.Ring

namespace RaceTracker.Lib

/-! A quantity seen modulo a period, and how often it has gone round. -/

section

variable {α : Type} [Field α] [LinearOrder α] [FloorRing α]

/-- How many whole periods fit below `x`. -/
def turns (period x : α) : Int := ⌊x / period⌋

/-- What is left of `x` within its period. -/
def phase (period x : α) : α := x - period * turns period x

variable [IsStrictOrderedRing α] {period x y : α}

theorem turns_bounds (positive : 0 < period) (x : α) :
    period * turns period x ≤ x ∧ x < period * (turns period x + 1) := by
  have below := Int.floor_le (x / period)
  have above := Int.lt_floor_add_one (x / period)
  rw [le_div_iff₀' positive] at below
  rw [div_lt_iff₀' positive] at above
  exact ⟨below, above⟩

theorem phase_bounds (positive : 0 < period) (x : α) : 0 ≤ phase period x ∧ phase period x < period := by
  obtain ⟨below, above⟩ := turns_bounds positive x
  unfold phase
  constructor <;> linarith

/-- Whole periods more leave no trace. -/
theorem phase_add_periods (positive : 0 < period) (x : α) (count : Int) :
    phase period (x + count * period) = phase period x := by
  rw [phase, phase, turns, turns, add_div, mul_div_cancel_right₀ _ positive.ne', Int.floor_add_intCast]
  push_cast
  ring

theorem phase_of_within (low : 0 ≤ x) (high : x < period) : phase period x = x := by
  have none : ⌊x / period⌋ = 0 := by
    rw [Int.floor_eq_zero_iff]
    exact ⟨div_nonneg low (low.trans high.le), (div_lt_one (low.trans_lt high)).mpr high⟩
  rw [phase, turns, none, Int.cast_zero, mul_zero, sub_zero]

/-- A short move stays in its period or enters a neighbouring one. -/
theorem turns_near (positive : 0 < period) (near : |y - x| < period / 2) :
    turns period y = turns period x ∨ turns period y = turns period x + 1 ∨
      turns period y = turns period x - 1 := by
  obtain ⟨back, forth⟩ := abs_lt.mp near
  obtain ⟨below, above⟩ := turns_bounds positive x
  obtain ⟨below', above'⟩ := turns_bounds positive y
  have up : turns period y < turns period x + 2 := by
    have apart : period * (turns period y : α) < period * (turns period x + 2) := by linarith
    exact_mod_cast lt_of_mul_lt_mul_left apart positive.le
  have down : turns period x < turns period y + 2 := by
    have apart : period * (turns period x : α) < period * (turns period y + 2) := by linarith
    exact_mod_cast lt_of_mul_lt_mul_left apart positive.le
  omega

/-- Seen within the period, a short move is a jump of more than half of it exactly if it
enters another period: a fall on the way up, a rise on the way down. -/
theorem jump_eq (positive : 0 < period) (near : |y - x| < period / 2) :
    (if period / 2 < phase period x - phase period y then 1
      else if period / 2 < phase period y - phase period x then -1 else 0) =
      turns period y - turns period x := by
  obtain ⟨back, forth⟩ := abs_lt.mp near
  unfold phase
  rcases turns_near positive near with same | up | down
  · rw [same, if_neg (by linarith), if_neg (by linarith), sub_self]
  · rw [up]
    push_cast
    rw [if_pos (by linarith)]
    omega
  · rw [down]
    push_cast
    rw [if_neg (by linarith), if_pos (by linarith)]
    omega

end

end RaceTracker.Lib
