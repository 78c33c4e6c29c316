import Mathlib.Data.Nat.Notation

namespace RaceTracker.Lib

/-! The ASCII letters that `toLower` and `toUpper` move, by their code points. -/

variable (c : Char)

theorem toNat_toLower :
    c.toLower.toNat = if 65 ≤ c.toNat ∧ c.toNat ≤ 90 then c.toNat + 32 else c.toNat := by
  by_cases upper : 65 ≤ c.toNat ∧ c.toNat ≤ 90
  · have moved : c.toLower.val = c.val + 32 := congrArg Char.val (dif_pos upper)
    have sum : c.toLower.toNat = (c.toNat + 32) % 2 ^ 32 :=
      (congrArg UInt32.toNat moved).trans (UInt32.toNat_add ..)
    rw [sum, if_pos upper]
    omega
  · have kept : c.toLower = c := dif_neg upper
    rw [kept, if_neg upper]

theorem toNat_toUpper :
    c.toUpper.toNat = if 97 ≤ c.toNat ∧ c.toNat ≤ 122 then c.toNat - 32 else c.toNat := by
  by_cases lower : 97 ≤ c.toNat ∧ c.toNat ≤ 122
  · have range : 'a'.val ≤ c.val ∧ c.val ≤ 'z'.val := lower
    have moved : c.toUpper.val = c.val + ('A'.val - 'a'.val) := by
      delta Char.toUpper
      rw [dif_pos range]
    have shift : ('A'.val - 'a'.val).toNat = 2 ^ 32 - 32 := by decide
    have sum : c.toUpper.toNat = (c.toNat + ('A'.val - 'a'.val).toNat) % 2 ^ 32 :=
      (congrArg UInt32.toNat moved).trans (UInt32.toNat_add ..)
    rw [sum, shift, if_pos lower]
    omega
  · have kept : c.toUpper = c := dif_neg lower
    rw [kept, if_neg lower]

theorem toLower_toLower : c.toLower.toLower = c.toLower := by
  apply Char.toNat_inj.mp
  rw [toNat_toLower c.toLower, if_neg]
  rw [toNat_toLower]
  split <;> omega

theorem toUpper_toUpper : c.toUpper.toUpper = c.toUpper := by
  apply Char.toNat_inj.mp
  rw [toNat_toUpper c.toUpper, if_neg]
  rw [toNat_toUpper]
  split <;> omega

end RaceTracker.Lib
