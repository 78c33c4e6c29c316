import Mathlib.Algebra.Order.Field.Basic
import Mathlib.Tactic.Linarith
import Mathlib.Tactic.Ring

namespace RaceTracker.Lib

/-! Piecewise-linear curves through finitely many samples, and when they take a value first. -/

section

variable {α : Type} [Field α] [LinearOrder α] [IsStrictOrderedRing α]
variable (count : Nat) (time dist : Nat → α)

/-- At `t` the curve has the value `d`: on a sample, or a share of the way to the next one. -/
def Passes (t d : α) : Prop :=
  ∃ (i j : Nat) (share : α), i ≤ j ∧ j ≤ i + 1 ∧ j < count ∧ 0 ≤ share ∧ share ≤ 1 ∧
    t = time i + share * (time j - time i) ∧ d = dist i + share * (dist j - dist i)

def First (t d : α) : Prop :=
  Passes count time dist t d ∧ ∀ other, Passes count time dist other d → t ≤ other

variable {count} {time dist} {t t' d d' : α}

theorem share_bounds {low high share : α} (ordered : low ≤ high) (least : 0 ≤ share)
    (most : share ≤ 1) :
    low ≤ low + share * (high - low) ∧ low + share * (high - low) ≤ high := by
  have span : 0 ≤ high - low := sub_nonneg.mpr ordered
  have gained : 0 ≤ share * (high - low) := mul_nonneg least span
  have bounded : share * (high - low) ≤ high - low := mul_le_of_le_one_left span most
  constructor <;> linarith

/-- A share that does not leave the lower end of one pair leaves none of a pair beside it. -/
theorem share_start {low high vlow vhigh share : α} (apart : low < high ∨ vlow = vhigh)
    (start : low + share * (high - low) = low) : vlow + share * (vhigh - vlow) = vlow := by
  rcases apart with before | rfl
  · have none : share * (high - low) = 0 := by linarith
    rcases mul_eq_zero.mp none with zero | flat
    · rw [zero, zero_mul, add_zero]
    · linarith
  · rw [sub_self, mul_zero, add_zero]

theorem share_finish {low high vlow vhigh share : α} (apart : low < high ∨ vlow = vhigh)
    (finish : low + share * (high - low) = high) : vlow + share * (vhigh - vlow) = vhigh := by
  rcases apart with before | rfl
  · have rest : (1 - share) * (high - low) = 0 := by linarith
    rcases mul_eq_zero.mp rest with whole | flat
    · have one : share = 1 := by linarith
      rw [one]
      ring
    · linarith
  · rw [sub_self, mul_zero, add_zero]

/-- The samples are in time order, and the values never fall. -/
structure Rising (count : Nat) (time dist : Nat → α) : Prop where
  clock : ∀ i j, i < j → j < count → time i < time j
  values : ∀ i j, i ≤ j → j < count → dist i ≤ dist j

namespace Rising

variable (rising : Rising count time dist)

include rising

omit [Field α] [IsStrictOrderedRing α] in
theorem times {i j : Nat} (ordered : i ≤ j) (within : j < count) : time i ≤ time j := by
  rcases Nat.eq_or_lt_of_le ordered with rfl | before
  · exact le_refl _
  · exact (rising.clock i j before within).le

omit [Field α] [IsStrictOrderedRing α] in
theorem apart {i j : Nat} (ordered : i ≤ j) (within : j < count) :
    time i < time j ∨ dist i = dist j := by
  rcases Nat.eq_or_lt_of_le ordered with rfl | before
  · exact Or.inr rfl
  · exact Or.inl (rising.clock i j before within)

theorem range (passes : Passes count time dist t d) : dist 0 ≤ d ∧ d ≤ dist (count - 1) := by
  obtain ⟨i, j, share, ordered, -, within, least, most, -, rfl⟩ := passes
  have bounds := share_bounds (rising.values i j ordered within) least most
  have start := rising.values 0 i (Nat.zero_le i) (by omega)
  have finish := rising.values j (count - 1) (by omega) (by omega)
  exact ⟨start.trans bounds.1, bounds.2.trans finish⟩

theorem mono (passes : Passes count time dist t d) (passes' : Passes count time dist t' d')
    (earlier : t ≤ t') : d ≤ d' := by
  obtain ⟨i, j, share, ordered, step, within, least, most, at', value⟩ := passes
  obtain ⟨i', j', share', ordered', step', within', least', most', at'', value'⟩ := passes'
  have clock := share_bounds (rising.times ordered within) least most
  have clock' := share_bounds (rising.times ordered' within') least' most'
  have values := share_bounds (rising.values i j ordered within) least most
  have values' := share_bounds (rising.values i' j' ordered' within') least' most'
  rw [← at'] at clock
  rw [← at''] at clock'
  rw [← value] at values
  rw [← value'] at values'
  by_cases ahead : j ≤ i'
  · exact values.2.trans ((rising.values j i' ahead (by omega)).trans values'.1)
  by_cases back : j' ≤ i
  · -- Only a shared sample can be on both pieces.
    obtain rfl : j' = i := by
      by_contra different
      have before := rising.clock j' i (by omega) (by omega)
      linarith
    have finish : d' = dist j' :=
      value'.trans (share_finish (rising.apart ordered' within') (by linarith))
    have start : d = dist j' := value.trans (share_start (rising.apart ordered within) (by linarith))
    exact (start.trans finish.symm).le
  · obtain rfl : i = i' := by omega
    obtain rfl : j = i + 1 := by omega
    obtain rfl : j' = i + 1 := by omega
    have span := sub_pos.mpr (rising.clock i (i + 1) (by omega) within)
    have gain := sub_nonneg.mpr (rising.values i (i + 1) ordered within)
    have shares : share ≤ share' := by
      rw [at', at''] at earlier
      exact le_of_mul_le_mul_right (by linarith) span
    rw [value, value']
    have product := mul_le_mul_of_nonneg_right shares gain
    linarith

/-- The curve takes its lowest value first at its first sample. -/
theorem first_start (nonempty : 0 < count) : First count time dist (time 0) (dist 0) := by
  refine ⟨⟨0, 0, 0, le_refl 0, by omega, nonempty, le_refl 0, zero_le_one, by ring, by ring⟩, ?_⟩
  intro other passes
  obtain ⟨i, j, share, ordered, -, within, least, most, rfl, -⟩ := passes
  have start := rising.times (Nat.zero_le i) (by omega)
  exact start.trans (share_bounds (rising.times ordered within) least most).1

/-- Inside a piece that climbs to it, the curve takes a value first. -/
theorem first_inside {i : Nat} (within : i + 1 < count) (above : dist i < d)
    (below : d ≤ dist (i + 1)) (reached : ∀ k, k ≤ i → dist k < d) :
    First count time dist
      (time i + (d - dist i) / (dist (i + 1) - dist i) * (time (i + 1) - time i)) d := by
  have climb : 0 < dist (i + 1) - dist i := by linarith
  have product : (d - dist i) / (dist (i + 1) - dist i) * (dist (i + 1) - dist i) = d - dist i :=
    div_mul_cancel₀ _ climb.ne'
  have least : 0 ≤ (d - dist i) / (dist (i + 1) - dist i) := by
    apply div_nonneg <;> linarith
  have most : (d - dist i) / (dist (i + 1) - dist i) ≤ 1 := by
    rw [div_le_one climb]
    linarith
  refine ⟨⟨i, i + 1, _, by omega, le_refl _, within, least, most, rfl, by linarith⟩, ?_⟩
  intro other passes
  obtain ⟨k, l, share, ordered, step, inside, least', most', rfl, value⟩ := passes
  have values := share_bounds (rising.values k l ordered inside) least' most'
  rw [← value] at values
  have clock := share_bounds (rising.times ordered inside) least' most'
  have finish := share_bounds (rising.clock i (i + 1) (by omega) within).le least most
  have late : i < l := by
    by_contra early
    exact (reached l (by omega)).not_ge values.2
  by_cases after : i < k
  · exact finish.2.trans ((rising.times after (by omega)).trans clock.1)
  · -- The other pass is in this piece, where the value fixes the share.
    obtain rfl : k = i := by omega
    obtain rfl : l = k + 1 := by omega
    have same : (d - dist k) / (dist (k + 1) - dist k) = share := by
      rw [div_eq_iff climb.ne']
      linarith
    rw [same]

theorem first_mono (first : First count time dist t d) (first' : First count time dist t' d')
    (ordered : d ≤ d') : t ≤ t' := by
  by_contra later
  have earlier : t' ≤ t := (not_le.mp later).le
  have same : d = d' := le_antisymm ordered (rising.mono first'.1 first.1 earlier)
  exact later (first.2 t' (same ▸ first'.1))

end Rising

end

end RaceTracker.Lib
