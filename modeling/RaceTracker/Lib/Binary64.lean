import Mathlib.Data.Int.Log
import Mathlib.Tactic.Linarith
import RaceTracker.Lib.HalfEven

namespace RaceTracker.Lib

/-! The results of binary64 arithmetic, as long as it does not overflow.

An operation gives the exact result rounded to the unit in the last place of its binade, ties to
the even significand; below the normal numbers the unit stays the same.
-/

/-- The exponent of the last place. -/
def lastPlace (magnitude : Rat) : Int := max (Int.log 2 magnitude - 52) (-1074)

def roundMagnitude (magnitude : Rat) : Rat :=
  roundHalfEven (magnitude / 2 ^ lastPlace magnitude) * 2 ^ lastPlace magnitude

def toDouble (value : Rat) : Rat :=
  if value < 0 then -roundMagnitude (-value) else roundMagnitude value

/-- Cut off towards zero. -/
def truncate (value : Rat) : Int := if value < 0 then ⌈value⌉ else ⌊value⌋

theorem roundHalfEven_intCast (value : Int) : roundHalfEven (value : Rat) = value := by
  rw [roundHalfEven]
  simp only [← Rat.floor_def', Int.floor_intCast, sub_self]
  rw [if_pos (by norm_num)]

theorem place_pos (magnitude : Rat) : (0 : Rat) < 2 ^ lastPlace magnitude :=
  zpow_pos (by norm_num) _

theorem roundMagnitude_nonneg {magnitude : Rat} (nonneg : 0 ≤ magnitude) : 0 ≤ roundMagnitude magnitude := by
  have rounded : (0 : Int) ≤ roundHalfEven (magnitude / 2 ^ lastPlace magnitude) :=
    roundHalfEven_nonneg (div_nonneg nonneg (place_pos _).le)
  exact mul_nonneg (by exact_mod_cast rounded) (place_pos _).le

theorem roundMagnitude_zero : roundMagnitude 0 = 0 := by
  have zero : roundHalfEven 0 = 0 := by exact_mod_cast roundHalfEven_intCast 0
  rw [roundMagnitude, zero_div, zero, Int.cast_zero, zero_mul]

theorem lastPlace_mono {left right : Rat} (positive : 0 < left) (ordered : left ≤ right) :
    lastPlace left ≤ lastPlace right := by
  have logs : Int.log 2 left ≤ Int.log 2 right := Int.log_mono_right positive ordered
  exact max_le_max (by omega) le_rfl

/-- The binade's upper end bounds what is rounded in it. -/
theorem roundMagnitude_le (magnitude : Rat) :
    roundMagnitude magnitude ≤ 2 ^ (lastPlace magnitude + 53) := by
  have below : magnitude < 2 ^ (Int.log 2 magnitude + 1) := Int.lt_zpow_succ_log_self (by decide) magnitude
  have wide : (2 : Rat) ^ (Int.log 2 magnitude + 1) ≤ 2 ^ (lastPlace magnitude + 53) :=
    zpow_le_zpow_right₀ (by norm_num) (by rw [lastPlace]; omega)
  have split : (2 : Rat) ^ (lastPlace magnitude + 53) = 2 ^ (53 : Nat) * 2 ^ lastPlace magnitude := by
    rw [zpow_add₀ (by norm_num), mul_comm]
    rfl
  have scaled : magnitude / 2 ^ lastPlace magnitude ≤ ((2 ^ 53 : Int) : Rat) := by
    rw [div_le_iff₀ (place_pos _)]
    push_cast
    linarith
  have rounded := roundHalfEven_mono scaled
  rw [roundHalfEven_intCast] at rounded
  rw [split, roundMagnitude]
  exact mul_le_mul_of_nonneg_right (by exact_mod_cast rounded) (place_pos _).le

/-- Above the subnormal numbers the binade's lower end does as well. -/
theorem le_roundMagnitude {magnitude : Rat} (positive : 0 < magnitude)
    (normal : -1074 < lastPlace magnitude) : 2 ^ (lastPlace magnitude + 52) ≤ roundMagnitude magnitude := by
  have exponent : lastPlace magnitude + 52 = Int.log 2 magnitude := by
    rw [lastPlace] at normal ⊢
    omega
  have above : (2 : Rat) ^ (lastPlace magnitude + 52) ≤ magnitude := by
    rw [exponent]
    exact Int.zpow_log_le_self (by decide) positive
  have split : (2 : Rat) ^ (lastPlace magnitude + 52) = 2 ^ (52 : Nat) * 2 ^ lastPlace magnitude := by
    rw [zpow_add₀ (by norm_num), mul_comm]
    rfl
  have scaled : ((2 ^ 52 : Int) : Rat) ≤ magnitude / 2 ^ lastPlace magnitude := by
    rw [le_div_iff₀ (place_pos _)]
    push_cast
    linarith
  have rounded := roundHalfEven_mono scaled
  rw [roundHalfEven_intCast] at rounded
  rw [split, roundMagnitude]
  exact mul_le_mul_of_nonneg_right (by exact_mod_cast rounded) (place_pos _).le

theorem roundMagnitude_mono {left right : Rat} (nonneg : 0 ≤ left) (ordered : left ≤ right) :
    roundMagnitude left ≤ roundMagnitude right := by
  rcases nonneg.eq_or_lt with rfl | positive
  · rw [roundMagnitude_zero]
    exact roundMagnitude_nonneg ordered
  rcases (lastPlace_mono positive ordered).lt_or_eq with apart | same
  · -- The right one's binade starts where the left one's ends, or later.
    have smallest : -1074 ≤ lastPlace left := le_max_right _ _
    have low := roundMagnitude_le left
    have high := le_roundMagnitude (positive.trans_le ordered) (smallest.trans_lt apart)
    have between : (2 : Rat) ^ (lastPlace left + 53) ≤ 2 ^ (lastPlace right + 52) :=
      zpow_le_zpow_right₀ (by norm_num) (by omega)
    exact low.trans (between.trans high)
  · rw [roundMagnitude, roundMagnitude, ← same]
    have scaled : left / 2 ^ lastPlace left ≤ right / 2 ^ lastPlace left :=
      div_le_div_of_nonneg_right ordered (place_pos _).le
    exact mul_le_mul_of_nonneg_right (by exact_mod_cast roundHalfEven_mono scaled) (place_pos _).le

theorem toDouble_mono {left right : Rat} (ordered : left ≤ right) : toDouble left ≤ toDouble right := by
  rw [toDouble, toDouble]
  split
  · rename_i negative
    split
    · rename_i below
      exact neg_le_neg (roundMagnitude_mono (by linarith) (by linarith))
    · rename_i nonneg
      have low := roundMagnitude_nonneg (show 0 ≤ -left by linarith)
      have high := roundMagnitude_nonneg (not_lt.mp nonneg)
      linarith
  · rename_i nonneg
    rw [if_neg (by linarith)]
    exact roundMagnitude_mono (not_lt.mp nonneg) ordered

theorem roundMagnitude_near (magnitude : Rat) :
    |roundMagnitude magnitude - magnitude| ≤ 2 ^ lastPlace magnitude / 2 := by
  have place := place_pos magnitude
  have scaled : roundMagnitude magnitude - magnitude =
      (roundHalfEven (magnitude / 2 ^ lastPlace magnitude) - magnitude / 2 ^ lastPlace magnitude) *
        2 ^ lastPlace magnitude := by
    rw [roundMagnitude, sub_mul, div_mul_cancel₀ _ place.ne']
  rw [scaled, abs_mul, abs_of_pos place]
  have near := mul_le_mul_of_nonneg_right (roundHalfEven_near (magnitude / 2 ^ lastPlace magnitude)) place.le
  linarith

theorem roundMagnitude_near_of_lt {magnitude : Rat} {exponent : Int} (nonneg : 0 ≤ magnitude)
    (below : magnitude < 2 ^ exponent) (normal : -1021 ≤ exponent) :
    |roundMagnitude magnitude - magnitude| ≤ 2 ^ (exponent - 53) / 2 := by
  rcases nonneg.eq_or_lt with rfl | positive
  · have unit : (0 : Rat) < 2 ^ (exponent - 53) := zpow_pos (by norm_num) _
    rw [roundMagnitude_zero, sub_zero, abs_zero]
    linarith
  have log : Int.log 2 magnitude < exponent := (Int.lt_zpow_iff_log_lt (by decide) positive).mp below
  have place : (2 : Rat) ^ lastPlace magnitude ≤ 2 ^ (exponent - 53) :=
    zpow_le_zpow_right₀ (by norm_num) (by rw [lastPlace]; omega)
  have near := roundMagnitude_near magnitude
  linarith

/-- Whole multiples of the last place stay as they are. -/
theorem roundMagnitude_aligned {magnitude : Rat} (significand : Int)
    (aligned : magnitude = significand * 2 ^ lastPlace magnitude) : roundMagnitude magnitude = magnitude := by
  have whole : magnitude / 2 ^ lastPlace magnitude = significand := by
    rw [div_eq_iff (place_pos magnitude).ne']
    exact aligned
  rw [roundMagnitude, whole, roundHalfEven_intCast]
  exact aligned.symm

theorem pow_place {low high : Int} (ordered : low ≤ high) :
    (2 : Rat) ^ high = ((2 ^ (high - low).toNat : Int) : Rat) * 2 ^ low := by
  rw [Int.cast_pow, Int.cast_ofNat, ← zpow_natCast, ← zpow_add₀ (by norm_num)]
  congr 1
  omega

theorem roundMagnitude_scaled {significand : Nat} (small : significand ≤ 2 ^ 53) {exponent : Int}
    (above : -1074 ≤ exponent) :
    roundMagnitude (significand * 2 ^ exponent) = significand * 2 ^ exponent := by
  have unit : (0 : Rat) < 2 ^ exponent := zpow_pos (by norm_num) _
  rcases Nat.eq_zero_or_pos significand with rfl | positive
  · rw [Nat.cast_zero, zero_mul, roundMagnitude_zero]
  have magnitude : (0 : Rat) < significand * 2 ^ exponent := mul_pos (by exact_mod_cast positive) unit
  rcases small.lt_or_eq with less | top
  · have below : (significand : Rat) * 2 ^ exponent < 2 ^ (exponent + 53) := by
      rw [zpow_add₀ (by norm_num), mul_comm]
      exact mul_lt_mul_of_pos_left (by exact_mod_cast less) unit
    have log : Int.log 2 ((significand : Rat) * 2 ^ exponent) < exponent + 53 :=
      (Int.lt_zpow_iff_log_lt (by decide) magnitude).mp below
    have place : lastPlace ((significand : Rat) * 2 ^ exponent) ≤ exponent := by
      rw [lastPlace]
      omega
    refine roundMagnitude_aligned (significand * 2 ^ (exponent - lastPlace
      ((significand : Rat) * 2 ^ exponent)).toNat) ?_
    rw [Int.cast_mul, mul_assoc, ← pow_place place, Int.cast_natCast]
  · have whole : (significand : Rat) * 2 ^ exponent = 2 ^ (exponent + 53) := by
      rw [top, zpow_add₀ (by norm_num), mul_comm]
      norm_num
    have log : Int.log 2 ((significand : Rat) * 2 ^ exponent) = exponent + 53 := by
      rw [whole]
      exact Int.log_zpow (by decide) _
    have place : lastPlace ((significand : Rat) * 2 ^ exponent) ≤ exponent + 53 := by
      rw [lastPlace, log]
      omega
    refine roundMagnitude_aligned (2 ^ (exponent + 53 - lastPlace
      ((significand : Rat) * 2 ^ exponent)).toNat) ?_
    rw [← pow_place place, whole]

theorem roundMagnitude_form {magnitude : Rat} (nonneg : 0 ≤ magnitude) :
    ∃ significand : Nat, significand ≤ 2 ^ 53 ∧
      roundMagnitude magnitude = significand * 2 ^ lastPlace magnitude := by
  have place := place_pos magnitude
  have rounded : (0 : Int) ≤ roundHalfEven (magnitude / 2 ^ lastPlace magnitude) :=
    roundHalfEven_nonneg (div_nonneg nonneg place.le)
  obtain ⟨significand, same⟩ := Int.eq_ofNat_of_zero_le rounded
  have form : roundMagnitude magnitude = significand * 2 ^ lastPlace magnitude := by
    rw [roundMagnitude, same, Int.cast_natCast]
  refine ⟨significand, ?_, form⟩
  have bound := roundMagnitude_le magnitude
  rw [form, zpow_add₀ (by norm_num), mul_comm] at bound
  have small : (significand : Rat) ≤ 2 ^ (53 : Int) := le_of_mul_le_mul_left bound place
  exact_mod_cast small

theorem toDouble_neg (value : Rat) : toDouble (-value) = -toDouble value := by
  rcases lt_trichotomy value 0 with negative | rfl | positive
  · rw [toDouble, toDouble, if_pos negative, if_neg (by linarith), neg_neg]
  · rw [neg_zero, toDouble, if_neg (lt_irrefl _), roundMagnitude_zero, neg_zero]
  · rw [toDouble, toDouble, if_neg (not_lt.mpr positive.le), if_pos (by linarith), neg_neg]

theorem toDouble_of_nonneg {value : Rat} (nonneg : 0 ≤ value) : toDouble value = roundMagnitude value :=
  if_neg (not_lt.mpr nonneg)

theorem toDouble_scaled {significand : Nat} (small : significand ≤ 2 ^ 53) {exponent : Int}
    (above : -1074 ≤ exponent) : toDouble (significand * 2 ^ exponent) = significand * 2 ^ exponent := by
  have unit : (0 : Rat) < 2 ^ exponent := zpow_pos (by norm_num) _
  rw [toDouble_of_nonneg (mul_nonneg (Nat.cast_nonneg _) unit.le), roundMagnitude_scaled small above]

theorem toDouble_form (value : Rat) : ∃ (significand : Nat) (exponent : Int), significand ≤ 2 ^ 53 ∧
    -1074 ≤ exponent ∧ |toDouble value| = significand * 2 ^ exponent := by
  have magnitude : |toDouble value| = roundMagnitude |value| := by
    rcases le_or_gt 0 value with nonneg | negative
    · rw [toDouble_of_nonneg nonneg, abs_of_nonneg nonneg, abs_of_nonneg (roundMagnitude_nonneg nonneg)]
    · rw [toDouble, if_pos negative, abs_neg, abs_of_neg negative,
        abs_of_nonneg (roundMagnitude_nonneg (by linarith))]
  obtain ⟨significand, small, form⟩ := roundMagnitude_form (abs_nonneg value)
  exact ⟨significand, _, small, le_max_right _ _, magnitude.trans form⟩

theorem toDouble_idempotent (value : Rat) : toDouble (toDouble value) = toDouble value := by
  obtain ⟨significand, exponent, small, above, form⟩ := toDouble_form value
  rcases abs_choice (toDouble value) with nonneg | negative
  · rw [← nonneg, form, toDouble_scaled small above]
  · rw [← neg_eq_iff_eq_neg.mpr negative, form, toDouble_neg, toDouble_scaled small above]

theorem toDouble_natCast {number : Nat} (small : number ≤ 2 ^ 53) : toDouble (number : Rat) = number := by
  have scaled := toDouble_scaled small (show (-1074 : Int) ≤ 0 by decide)
  rwa [zpow_zero, mul_one] at scaled

theorem lastPlace_of_binade {magnitude : Rat} {exponent : Int} (normal : -1022 ≤ exponent)
    (low : 2 ^ exponent ≤ magnitude) (high : magnitude < 2 ^ (exponent + 1)) :
    lastPlace magnitude = exponent - 52 := by
  have positive : 0 < magnitude := (zpow_pos (by norm_num) exponent).trans_le low
  have least : exponent ≤ Int.log 2 magnitude := (Int.zpow_le_iff_le_log (by decide) positive).mp low
  have most : Int.log 2 magnitude < exponent + 1 := (Int.lt_zpow_iff_log_lt (by decide) positive).mp high
  rw [lastPlace]
  omega

/-- A multiple of the least double. -/
def OnGrid (value : Rat) : Prop := ∃ count : Int, value = count * 2 ^ (-1074 : Int)

theorem OnGrid.sub {left right : Rat} (first : OnGrid left) (second : OnGrid right) :
    OnGrid (left - right) := by
  obtain ⟨more, rfl⟩ := first
  obtain ⟨less, rfl⟩ := second
  exact ⟨more - less, by rw [Int.cast_sub, sub_mul]⟩

theorem OnGrid.neg {value : Rat} (grid : OnGrid value) : OnGrid (-value) := by
  obtain ⟨count, rfl⟩ := grid
  exact ⟨-count, by rw [Int.cast_neg, neg_mul]⟩

theorem OnGrid.add {left right : Rat} (first : OnGrid left) (second : OnGrid right) :
    OnGrid (left + right) := by
  rw [← sub_neg_eq_add]
  exact first.sub second.neg

theorem toDouble_onGrid (value : Rat) : OnGrid (toDouble value) := by
  obtain ⟨significand, exponent, -, above, form⟩ := toDouble_form value
  have grid : OnGrid |toDouble value| := by
    refine ⟨significand * 2 ^ (exponent - -1074).toNat, ?_⟩
    rw [form, pow_place above, Int.cast_mul, Int.cast_natCast, mul_assoc]
  rcases abs_choice (toDouble value) with nonneg | negative
  · rwa [nonneg] at grid
  · rw [negative] at grid
    simpa using grid.neg

theorem OnGrid.roundMagnitude {magnitude : Rat} (grid : OnGrid magnitude) (nonneg : 0 ≤ magnitude) :
    |roundMagnitude magnitude - magnitude| ≤ magnitude / 2 ^ 53 := by
  rcases (le_max_right (Int.log 2 magnitude - 52) (-1074 : Int)).lt_or_eq with normal | least
  · rcases nonneg.eq_or_lt with rfl | positive
    · rw [roundMagnitude_zero, sub_zero, abs_zero, zero_div]
    have place : lastPlace magnitude = Int.log 2 magnitude - 52 := by
      rw [lastPlace] at *
      omega
    have low := Int.zpow_log_le_self (by decide : 1 < 2) positive
    have near := roundMagnitude_near magnitude
    have unit : (2 : Rat) ^ lastPlace magnitude = 2 ^ Int.log 2 magnitude / 2 ^ 52 := by
      rw [place, zpow_sub₀ (by norm_num)]
      rfl
    rw [unit] at near
    push_cast at low
    linarith
  · obtain ⟨count, same⟩ := grid
    have place : lastPlace magnitude = -1074 := least.symm
    rw [roundMagnitude_aligned count (by rw [place]; exact same), sub_self, abs_zero]
    positivity

/-- A sum or a difference of doubles loses no more than this. -/
theorem OnGrid.toDouble_near {value : Rat} (grid : OnGrid value) :
    |toDouble value - value| ≤ |value| / 2 ^ 53 := by
  rcases le_or_gt 0 value with nonneg | negative
  · rw [toDouble_of_nonneg nonneg, abs_of_nonneg nonneg]
    exact grid.roundMagnitude nonneg
  · have near := grid.neg.roundMagnitude (by linarith)
    rw [toDouble, if_pos negative, abs_of_neg negative]
    rw [abs_sub_comm] at near
    convert near using 2
    ring

theorem truncate_mono {left right : Rat} (ordered : left ≤ right) : truncate left ≤ truncate right := by
  rw [truncate, truncate]
  split
  · rename_i negative
    split
    · exact Int.ceil_le_ceil ordered
    · rename_i nonneg
      have low : ⌈left⌉ ≤ 0 := Int.ceil_le.mpr (by exact_mod_cast negative.le)
      exact low.trans (Int.floor_nonneg.mpr (not_lt.mp nonneg))
  · rename_i nonneg
    rw [if_neg (by linarith)]
    exact Int.floor_le_floor ordered

end RaceTracker.Lib
