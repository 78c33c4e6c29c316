import Mathlib.Algebra.Order.Ring.Int
import Mathlib.Order.Monotone.Basic
import Mathlib.Tactic.Ring

namespace RaceTracker.Lib

/-! Periodic timetables: `count` offsets, the same in every period. -/

section

variable (count : Nat) (period : Int) (offset : Nat → Int)

/-- When slot `slot` falls due; the slots of all periods are numbered through. -/
def slotTime (slot : Nat) : Int := (slot / count : Nat) * period + offset (slot % count)

/-- The offsets start at zero, never fall, and end before the next period. -/
structure Timetable : Prop where
  nonempty : 0 < count
  start : offset 0 = 0
  sorted : ∀ i j, i ≤ j → j < count → offset i ≤ offset j
  within : offset (count - 1) < period

variable {count} {period} {offset}

theorem slotTime_at (round : Nat) {i : Nat} (within : i < count) :
    slotTime count period offset (round * count + i) = round * period + offset i := by
  have nonempty : 0 < count := Nat.zero_lt_of_lt within
  rw [slotTime, Nat.mul_comm, Nat.mul_add_div nonempty, Nat.mul_add_mod, Nat.div_eq_of_lt within,
    Nat.mod_eq_of_lt within, Nat.add_zero]

namespace Timetable

variable (table : Timetable count period offset)

include table

theorem offset_bounds {i : Nat} (within : i < count) : 0 ≤ offset i ∧ offset i < period := by
  have low := table.sorted 0 i (Nat.zero_le i) within
  have high := table.sorted i (count - 1) (by omega) (by have := table.nonempty; omega)
  rw [table.start] at low
  exact ⟨low, high.trans_lt table.within⟩

/-- From one slot to the next: the next offset, or the start of the next period. -/
theorem slotTime_succ (slot : Nat) :
    slotTime count period offset (slot + 1) =
      if slot % count + 1 = count then ((slot / count : Nat) + 1) * period
      else (slot / count : Nat) * period + offset (slot % count + 1) := by
  have whole := Nat.div_add_mod' slot count
  have inside := Nat.mod_lt slot table.nonempty
  split
  · rename_i last
    have next : slot + 1 = (slot / count + 1) * count + 0 := by
      rw [Nat.add_mul, Nat.one_mul]
      omega
    rw [next, slotTime_at _ table.nonempty, table.start]
    push_cast
    ring
  · rename_i more
    have next : slot + 1 = slot / count * count + (slot % count + 1) := by omega
    rw [next, slotTime_at _ (by omega)]

/-- The next slot is a later one of the next period, or as far off as the next offset. -/
theorem slotTime_next (slot : Nat) :
    slotTime count period offset slot < slotTime count period offset (slot + 1) ∨
      slot % count + 1 < count ∧
        slotTime count period offset (slot + 1) - slotTime count period offset slot =
          offset (slot % count + 1) - offset (slot % count) := by
  have inside := Nat.mod_lt slot table.nonempty
  rw [table.slotTime_succ, slotTime]
  split
  · have below := (table.offset_bounds inside).2
    have next : ((slot / count : Nat) + 1 : Int) * period =
        (slot / count : Nat) * period + period := by ring
    exact .inl (by omega)
  · exact .inr ⟨by omega, by ring⟩

theorem mono {first second : Nat} (le : first ≤ second) :
    slotTime count period offset first ≤ slotTime count period offset second := by
  refine monotone_nat_of_le_succ (fun slot => ?_) le
  rcases table.slotTime_next slot with later | ⟨inside, same⟩
  · exact later.le
  · have sorted := table.sorted (slot % count) (slot % count + 1) (Nat.le_succ _) inside
    omega

theorem slotTime_injective (apart : ∀ i j, i < j → j < count → offset i < offset j) :
    Function.Injective (slotTime count period offset) := by
  refine (strictMono_nat_of_lt_succ fun slot => ?_).injective
  rcases table.slotTime_next slot with later | ⟨inside, same⟩
  · exact later
  · have climbs := apart (slot % count) (slot % count + 1) (Nat.lt_succ_self _) inside
    omega

/-- The slots due at `now` or later: from the first offset on that is not behind its phase. -/
theorem le_slotTime_iff {round first : Nat} {phase : Int} (least : 0 ≤ phase) (most : phase < period)
    (bounded : first ≤ count) (behind : ∀ i, i < first → offset i < phase)
    (ahead : ∀ i, first ≤ i → i < count → phase ≤ offset i) (slot : Nat) :
    round * period + phase ≤ slotTime count period offset slot ↔ round * count + first ≤ slot := by
  have nonempty := table.nonempty
  constructor
  · intro due
    by_contra early
    apply due.not_gt
    have before := table.mono (show slot ≤ round * count + first - 1 by omega)
    apply before.trans_lt
    rcases Nat.eq_zero_or_pos first with rfl | some
    · -- The slot before the round's first one is the last of the round before.
      obtain ⟨earlier, rfl⟩ : ∃ earlier, round = earlier + 1 :=
        Nat.exists_eq_succ_of_ne_zero (by rintro rfl; omega)
      have last : (earlier + 1) * count + 0 - 1 = earlier * count + (count - 1) := by
        rw [Nat.add_mul, Nat.one_mul]
        omega
      have within := table.within
      rw [last, slotTime_at _ (by omega)]
      push_cast
      rw [add_mul, one_mul]
      omega
    · have last : round * count + first - 1 = round * count + (first - 1) := by omega
      have before := behind (first - 1) (by omega)
      rw [last, slotTime_at _ (by omega)]
      omega
  · intro late
    refine le_trans ?_ (table.mono late)
    rcases Nat.lt_or_eq_of_le bounded with inside | rfl
    · have due := ahead first (le_refl first) inside
      rw [slotTime_at _ inside]
      omega
    · have next : round * first + first = (round + 1) * first + 0 := by
        rw [Nat.add_mul, Nat.one_mul, Nat.add_zero]
      rw [next, slotTime_at _ nonempty, table.start]
      push_cast
      rw [add_mul, one_mul]
      omega

/-- A time on or after zero at which something is due is that of a slot. -/
theorem slot_of_scheduled {round : Int} {i : Nat} (within : i < count)
    (reached : 0 ≤ round * period + offset i) :
    ∃ slot, slotTime count period offset slot = round * period + offset i := by
  have bounds := table.offset_bounds within
  have forward : 0 ≤ round := by
    by_contra back
    have before : (round + 1) * period ≤ 0 := by
      apply mul_nonpos_of_nonpos_of_nonneg <;> omega
    rw [add_mul, one_mul] at before
    omega
  refine ⟨round.toNat * count + i, ?_⟩
  rw [slotTime_at _ within, Int.toNat_of_nonneg forward]

end Timetable

end

end RaceTracker.Lib
