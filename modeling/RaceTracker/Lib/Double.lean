import Mathlib.Data.Int.Cast.Lemmas
import Mathlib.Data.Rat.Cast.Order
import RaceTracker.Lib.Decimal

namespace RaceTracker.Lib

/-! The integers a binary64 number can hold, and how one is written.

A number with a fraction is named by the shortest decimal that reads back to it,
so it stands for itself.  An integer beyond 2^53 is rounded to the nearest
multiple of its unit in the last place, ties to the even significand.
-/

/-- Round a magnitude to a 53-bit significand. -/
def roundNat (magnitude : Nat) : Nat :=
  if magnitude < 2 ^ 53 then magnitude
  else
    let unit := 2 ^ (magnitude.log2 - 52)
    let significand := magnitude / unit
    let rest := magnitude % unit
    if unit < 2 * rest ∨ (2 * rest = unit ∧ significand % 2 = 1) then (significand + 1) * unit
    else significand * unit

def roundInt (value : Int) : Int :=
  if value < 0 then -(roundNat value.natAbs : Int) else (roundNat value.natAbs : Int)

/-- The double a numeric literal of this value is read as. -/
def nearest (value : Rat) : Rat :=
  if value.den = 1 then (roundInt value.num : Rat) else value

theorem roundNat_shifted {significand : Nat} (small : significand ≤ 2 ^ 53) (shift : Nat) :
    roundNat (significand * 2 ^ shift) = significand * 2 ^ shift := by
  rw [roundNat]
  split
  · rfl
  · rename_i large
    have positive : significand ≠ 0 := by
      intro same
      subst same
      simp at large
    have product : significand * 2 ^ shift ≠ 0 :=
      Nat.mul_ne_zero positive (Nat.two_pow_pos shift).ne'
    have aligned : 2 ^ ((significand * 2 ^ shift).log2 - 52) ∣ significand * 2 ^ shift := by
      rcases Nat.lt_or_eq_of_le small with below | top
      · have bound : (significand * 2 ^ shift).log2 < 53 + shift := by
          rw [Nat.log2_lt product, Nat.pow_add]
          exact Nat.mul_lt_mul_of_pos_right below (Nat.two_pow_pos shift)
        exact (Nat.pow_dvd_pow 2 (by omega)).trans (Nat.dvd_mul_left _ _)
      · rw [top, ← Nat.pow_add, Nat.log2_two_pow]
        exact Nat.pow_dvd_pow 2 (by omega)
    have noRest : significand * 2 ^ shift % 2 ^ ((significand * 2 ^ shift).log2 - 52) = 0 :=
      Nat.mod_eq_zero_of_dvd aligned
    have unitPositive := Nat.two_pow_pos ((significand * 2 ^ shift).log2 - 52)
    simp only [noRest, Nat.mul_zero]
    rw [if_neg (by omega), Nat.div_mul_cancel aligned]

theorem roundNat_form (magnitude : Nat) :
    ∃ significand shift, significand ≤ 2 ^ 53 ∧ roundNat magnitude = significand * 2 ^ shift := by
  rw [roundNat]
  split
  · rename_i small
    exact ⟨magnitude, 0, small.le, by simp⟩
  · rename_i large
    have significandSmall : magnitude / 2 ^ (magnitude.log2 - 52) < 2 ^ 53 := by
      rw [Nat.div_lt_iff_lt_mul (Nat.two_pow_pos _), ← Nat.pow_add]
      have nonzero : magnitude ≠ 0 := by
        intro same
        subst same
        simp at large
      have bits : 53 ≤ magnitude.log2 := (Nat.le_log2 nonzero).mpr (by omega)
      have exponent : 53 + (magnitude.log2 - 52) = magnitude.log2 + 1 := by omega
      rw [exponent]
      exact Nat.lt_log2_self
    simp only
    split
    · exact ⟨_, _, significandSmall, rfl⟩
    · exact ⟨_, _, significandSmall.le, rfl⟩

theorem roundNat_idempotent (magnitude : Nat) :
    roundNat (roundNat magnitude) = roundNat magnitude := by
  obtain ⟨significand, shift, small, form⟩ := roundNat_form magnitude
  rw [form, roundNat_shifted small]

theorem roundInt_idempotent (value : Int) : roundInt (roundInt value) = roundInt value := by
  unfold roundInt
  by_cases negative : value < 0
  · simp only [negative, if_true, Int.natAbs_neg, Int.natAbs_natCast, roundNat_idempotent]
    split <;> omega
  · simp only [negative, if_false, Int.natAbs_natCast, roundNat_idempotent]
    split <;> omega

theorem roundInt_natCast {number : Nat} (small : number ≤ 2 ^ 53) : roundInt (number : Int) = number := by
  have whole := roundNat_shifted small 0
  rw [pow_zero, Nat.mul_one] at whole
  rw [roundInt, if_neg (by omega), Int.natAbs_natCast, whole]

@[simp] theorem nearest_intCast (value : Int) : nearest (value : Rat) = (roundInt value : Rat) := by
  simp [nearest]

theorem nearest_idempotent (value : Rat) : nearest (nearest value) = nearest value := by
  by_cases integral : value.den = 1
  · have rounded : nearest value = (roundInt value.num : Rat) := by simp [nearest, integral]
    rw [rounded, nearest_intCast, roundInt_idempotent]
  · have kept : nearest value = value := by simp [nearest, integral]
    rw [kept, kept]

theorem roundNat_le_one_iff {magnitude : Nat} : roundNat magnitude ≤ 1 ↔ magnitude ≤ 1 := by
  by_cases small : magnitude < 2 ^ 53
  · rw [roundNat, if_pos small]
  · have nonzero : magnitude ≠ 0 := by omega
    have bits : 53 ≤ magnitude.log2 := (Nat.le_log2 nonzero).mpr (by omega)
    have even : 2 ^ 1 ≤ 2 ^ (magnitude.log2 - 52) := Nat.pow_le_pow_right (by decide) (by omega)
    have fits : 2 ^ (magnitude.log2 - 52) ≤ magnitude :=
      (Nat.pow_le_pow_right (by decide) (Nat.sub_le ..)).trans (Nat.log2_self_le nonzero)
    have whole : 1 ≤ magnitude / 2 ^ (magnitude.log2 - 52) :=
      (Nat.one_le_div_iff (Nat.two_pow_pos _)).mpr fits
    have large : 2 ≤ roundNat magnitude := by
      rw [roundNat, if_neg small]
      simp only
      split
      · exact even.trans (Nat.le_mul_of_pos_left _ (Nat.succ_pos _))
      · exact even.trans (Nat.le_mul_of_pos_left _ whole)
    omega

theorem roundInt_unit_iff {value : Int} :
    (0 ≤ roundInt value ∧ roundInt value ≤ 1) ↔ 0 ≤ value ∧ value ≤ 1 := by
  have unit := @roundNat_le_one_iff value.natAbs
  rw [roundInt]
  split
  · rename_i negative
    have some : roundNat value.natAbs ≠ 0 := by
      intro none
      have one : value.natAbs = 1 := by omega
      rw [one] at none
      exact absurd none (by decide)
    omega
  · omega

theorem nearest_unit_iff {value : Rat} :
    (0 ≤ nearest value ∧ nearest value ≤ 1) ↔ 0 ≤ value ∧ value ≤ 1 := by
  by_cases integral : value.den = 1
  · obtain ⟨number, rfl⟩ : ∃ number : Int, value = number :=
      ⟨value.num, ((Rat.den_eq_one_iff value).mp integral).symm⟩
    rw [nearest_intCast]
    exact_mod_cast roundInt_unit_iff
  · rw [nearest, if_neg integral]

def maxDouble : Nat := (2 ^ 53 - 1) * 2 ^ 971

theorem one_lt_maxDouble : 1 < maxDouble := by
  have shifted (shift : Nat) : 1 < (2 ^ 53 - 1) * 2 ^ shift := by
    have some := Nat.two_pow_pos shift
    omega
  unfold maxDouble
  apply shifted

theorem nearest_maxDouble : nearest (maxDouble : Rat) = maxDouble := by
  have integral : (maxDouble : Rat) = ((maxDouble : Int) : Rat) := (Int.cast_natCast _).symm
  have rounded : roundInt (maxDouble : Int) = maxDouble := by
    rw [roundInt, if_neg (Int.not_lt.mpr (Int.natCast_nonneg _)), Int.natAbs_natCast, maxDouble,
      roundNat_shifted (by decide)]
  rw [integral, nearest_intCast, rounded]

structure F64 where
  value : Rat
  double : nearest value = value
  finite : value.num.natAbs ≤ maxDouble * value.den
deriving DecidableEq

def F64.largest : F64 where
  value := maxDouble
  double := nearest_maxDouble
  finite := by rw [Rat.num_natCast, Rat.den_natCast, Nat.mul_one, Int.natAbs_natCast]

def stripTrailingZeros (digits : List Char) : List Char :=
  (digits.reverse.dropWhile (· = '0')).reverse

/-- How many decimal places `value` needs; the literals of a text always end. -/
def decimalPlaces (value : Rat) : Nat :=
  ((List.range (value.den.log2 + 1)).find? fun places => value.den ∣ 10 ^ places).getD value.den.log2

/-- Lay out the significant digits with the point after `point` of them, as
JavaScript does: plain up to 21 digits, with an exponent beyond. -/
def layout (digits : List Char) (point : Int) : List Char :=
  if (digits.length : Int) ≤ point ∧ point ≤ 21 then
    digits ++ List.replicate (point - digits.length).toNat '0'
  else if 0 < point ∧ point ≤ 21 then
    digits.take point.toNat ++ '.' :: digits.drop point.toNat
  else if -6 < point ∧ point ≤ 0 then
    '0' :: '.' :: List.replicate (-point).toNat '0' ++ digits
  else
    digits.take 1 ++ (if digits.length = 1 then [] else '.' :: digits.drop 1) ++
      'e' :: (if point < 1 then '-' else '+') :: Nat.toDigits 10 (point - 1).natAbs

def numberToString (value : Rat) : String :=
  if value.den = 1 ∧ value.num.natAbs < 10 ^ 21 then decimal value.num
  else
    let places := decimalPlaces value
    let digits := Nat.toDigits 10 (value.num.natAbs * 10 ^ places / value.den)
    let body := layout (stripTrailingZeros digits) ((digits.length : Int) - places)
    String.ofList (if value < 0 then '-' :: body else body)

theorem underscore_notMem_layout {digits : List Char} (clean : '_' ∉ digits) (point : Int) :
    '_' ∉ layout digits point := by
  have taken (count : Nat) : '_' ∉ digits.take count := fun member => clean (List.mem_of_mem_take member)
  have dropped (count : Nat) : '_' ∉ digits.drop count := fun member => clean (List.mem_of_mem_drop member)
  rw [layout]
  split
  · simp [clean, List.mem_replicate]
  split
  · simp [taken, dropped]
  split
  · simp [clean, List.mem_replicate]
  · have exponent : '_' ∉ Nat.toDigits 10 (point - 1).natAbs := Nat.underscore_not_in_toDigits
    simp only [List.mem_append, List.mem_cons, taken, exponent, or_false, false_or]
    intro member
    rcases member with tail | letter | sign
    · split at tail
      · cases tail
      · exact (List.mem_cons.mp tail).elim (by decide) (dropped 1)
    · exact absurd letter (by decide)
    · split at sign <;> exact absurd sign (by decide)

theorem underscore_notMem_numberToString (value : Rat) : '_' ∉ (numberToString value).toList := by
  rw [numberToString]
  split
  · simpa [decimal] using underscore_notMem_decimalChars value.num
  · rename_i fractional
    have stripped : '_' ∉ stripTrailingZeros
        (Nat.toDigits 10 (value.num.natAbs * 10 ^ decimalPlaces value / value.den)) := by
      intro member
      have original := List.mem_reverse.mp member
      exact Nat.underscore_not_in_toDigits
        (List.mem_reverse.mp ((List.dropWhile_sublist _).subset original))
    have body := underscore_notMem_layout stripped
    simp only [String.toList_ofList]
    split
    · simp [body]
    · exact body _

theorem numberToString_intCast {value : Int} (small : value.natAbs < 10 ^ 21) :
    numberToString (value : Rat) = decimal value := by
  rw [numberToString]
  rw [if_pos ⟨Rat.den_intCast value, by simpa using small⟩, Rat.num_intCast]

end RaceTracker.Lib
