import Mathlib.Algebra.Order.Field.Basic
import Mathlib.Tactic.Linarith
import Mathlib.Tactic.LinearCombination
import Mathlib.Tactic.Ring

namespace RaceTracker.Lib

/-! Segments of the plane, and the point of a segment that comes nearest to a given one. -/

variable {K : Type} [Field K]

/-- The point that lies the share `t` of the way from `a` to `b`. -/
def along (a b : K × K) (t : K) : K × K := (a.1 + t * (b.1 - a.1), a.2 + t * (b.2 - a.2))

def distSq (p q : K × K) : K := (p.1 - q.1) ^ 2 + (p.2 - q.2) ^ 2

/-- The product of two moves, from `a` to `b` and from `a'` to `b'`. -/
def moveDot (a b a' b' : K × K) : K := (b.1 - a.1) * (b'.1 - a'.1) + (b.2 - a.2) * (b'.2 - a'.2)

theorem along_zero (a b : K × K) : along a b 0 = a := by simp [along]

theorem along_one (a b : K × K) : along a b 1 = b := by simp [along]

theorem moveDot_self (a b : K × K) : moveDot a b a b = distSq b a := by
  simp only [moveDot, distSq]
  ring

/-- How the distance grows with the share of the way. -/
theorem distSq_along_sub (p a b : K × K) (t f : K) :
    distSq p (along a b t) - distSq p (along a b f) =
      (t - f) * ((t + f) * moveDot a b a b - 2 * moveDot a p a b) := by
  simp only [distSq, along, moveDot]
  ring

section

variable [LinearOrder K]

/-- The share of the way to the foot of the perpendicular from `p`, kept on the segment. -/
def foot (p a b : K × K) : K := min (max (moveDot a p a b / moveDot a b a b) 0) 1

variable [IsStrictOrderedRing K] {p a b c : K × K} {t : K}

theorem distSq_nonneg (p q : K × K) : 0 ≤ distSq p q := add_nonneg (sq_nonneg _) (sq_nonneg _)

theorem distSq_eq_zero {q : K × K} : distSq p q = 0 ↔ p = q := by
  rw [distSq, add_eq_zero_iff_of_nonneg (sq_nonneg _) (sq_nonneg _), sq_eq_zero_iff, sq_eq_zero_iff, sub_eq_zero,
    sub_eq_zero, Prod.ext_iff]

theorem foot_bounds (p a b : K × K) : 0 ≤ foot p a b ∧ foot p a b ≤ 1 :=
  ⟨le_min (le_max_right _ _) zero_le_one, min_le_right _ _⟩

/-- No point of the segment is nearer than the foot. -/
theorem foot_nearest (p a b : K × K) (low : 0 ≤ t) (high : t ≤ 1) :
    distSq p (along a b (foot p a b)) ≤ distSq p (along a b t) := by
  rw [← sub_nonneg, distSq_along_sub]
  have span : 0 ≤ moveDot a b a b := by
    rw [moveDot_self]
    exact distSq_nonneg ..
  rcases span.eq_or_lt with flat | long
  · -- the segment is a point
    have same : b = a := by
      rw [← distSq_eq_zero, ← moveDot_self, ← flat]
    have still : moveDot a p a b = 0 := by simp [moveDot, same]
    rw [← flat, still]
    simp
  · have reach : moveDot a p a b / moveDot a b a b * moveDot a b a b = moveDot a p a b :=
      div_mul_cancel₀ _ long.ne'
    rw [← reach, foot]
    generalize moveDot a p a b / moveDot a b a b = r
    have factored : (t - min (max r 0) 1) * ((t + min (max r 0) 1) * moveDot a b a b - 2 * (r * moveDot a b a b)) =
        (t - min (max r 0) 1) * (t + min (max r 0) 1 - 2 * r) * moveDot a b a b := by ring
    rw [factored]
    refine mul_nonneg ?_ span
    rcases le_total r 0 with before | after
    · rw [max_eq_right before, min_eq_left zero_le_one]
      exact mul_nonneg (by linarith) (by linarith)
    · rw [max_eq_left after]
      rcases le_total r 1 with inside | beyond
      · rw [min_eq_left inside]
        have square : (t - r) * (t + r - 2 * r) = (t - r) ^ 2 := by ring
        rw [square]
        exact sq_nonneg _
      · rw [min_eq_right beyond]
        exact mul_nonneg_of_nonpos_of_nonpos (by linarith) (by linarith)

/-- A point of the segment is its own foot. -/
theorem foot_along (apart : a ≠ b) (low : 0 ≤ t) (high : t ≤ 1) : foot (along a b t) a b = t := by
  have long : moveDot a b a b ≠ 0 := by
    rw [moveDot_self, Ne, distSq_eq_zero]
    exact apart.symm
  have share : moveDot a (along a b t) a b = t * moveDot a b a b := by
    simp only [moveDot, along]
    ring
  rw [foot, share, mul_div_cancel_right₀ _ long, max_eq_left low, min_eq_left high]

/-- Where two segments that meet do not turn back, the second leaves the first. -/
theorem apart_after (onward : 0 < moveDot a b b c) (low : 0 < t) {r : K} (high : r ≤ 1) :
    along a b r ≠ along b c t := by
  intro meet
  have x : a.1 + r * (b.1 - a.1) = b.1 + t * (c.1 - b.1) := congrArg Prod.fst meet
  have y : a.2 + r * (b.2 - a.2) = b.2 + t * (c.2 - b.2) := congrArg Prod.snd meet
  -- seen from `b`, the one lies behind, and the other ahead
  have behind : t * moveDot a b b c = -((1 - r) * moveDot a b a b) := by
    simp only [moveDot]
    linear_combination -(b.1 - a.1) * x - (b.2 - a.2) * y
  have ahead := mul_pos low onward
  have span : 0 ≤ (1 - r) * moveDot a b a b := by
    rw [moveDot_self]
    exact mul_nonneg (by linarith) (distSq_nonneg ..)
  linarith

end

end RaceTracker.Lib
