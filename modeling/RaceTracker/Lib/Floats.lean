import Mathlib.Tactic.Positivity
import RaceTracker.Lib.Binary64
import RaceTracker.Lib.Double

namespace RaceTracker.Lib

/-! Binary64 numbers with the infinities and NaN, and their arithmetic. -/

/-- The nearest decimal with so many places, ties to the even one. -/
def decimalAt (places : Nat) (value : Rat) : Rat := roundHalfEven (value * 10 ^ places) / 10 ^ places

/-- The decimal a double is written as: the nearest one of the fewest places that reads back. -/
def literal (value : Rat) : Rat :=
  let places := (List.range 1074).find? fun places => toDouble (decimalAt places value) = value
  decimalAt (places.getD 1074) value

/-- The two zeros are one. -/
structure Finite64 where
  value : Rat
  rounded : toDouble value = value
  bounded : |value| ≤ maxDouble
deriving DecidableEq

inductive Binary64 where
  | finite (number : Finite64)
  | infinite (negative : Bool)
  | nan
deriving DecidableEq

namespace Binary64

def ofRat (value : Rat) : Binary64 :=
  if bounded : |toDouble value| ≤ maxDouble then
    .finite ⟨toDouble value, toDouble_idempotent value, bounded⟩
  else .infinite (value < 0)

def neg : Binary64 → Binary64
  | .finite number => ofRat (-number.value)
  | .infinite negative => .infinite !negative
  | .nan => .nan

def add : Binary64 → Binary64 → Binary64
  | .finite left, .finite right => ofRat (left.value + right.value)
  | .infinite left, .infinite right => if left = right then .infinite left else .nan
  | .infinite negative, .finite _ | .finite _, .infinite negative => .infinite negative
  | .nan, _ | _, .nan => .nan

def sub (left right : Binary64) : Binary64 := left.add right.neg

/-- What is divided by zero is left out: Python raises there. -/
def div : Binary64 → Binary64 → Binary64
  | .finite left, .finite right => if right.value = 0 then .nan else ofRat (left.value / right.value)
  | .infinite negative, .finite right => .infinite (negative ^^ right.value < 0)
  | .finite _, .infinite _ => ofRat 0
  | .infinite _, .infinite _ | .nan, _ | _, .nan => .nan

/-- No number is less than NaN, nor is NaN less than a number. -/
def lt : Binary64 → Binary64 → Bool
  | .finite left, .finite right => left.value < right.value
  | .infinite left, .infinite right => left && !right
  | .infinite negative, .finite _ => negative
  | .finite _, .infinite negative => !negative
  | .nan, _ | _, .nan => false

/-- Python's `min`: the first one unless the second is less. -/
def min (left right : Binary64) : Binary64 := if right.lt left then right else left

def max (left right : Binary64) : Binary64 := if left.lt right then right else left

/-- Python's `round` to a number of places: the decimal nearest to the exact value of the double,
and the double nearest to that. -/
def roundPlaces (places : Nat) : Binary64 → Binary64
  | .finite number => ofRat (decimalAt places number.value)
  | number => number

def IsFinite : Binary64 → Prop
  | .finite _ => True
  | .infinite _ | .nan => False

instance : DecidablePred IsFinite
  | .finite _ => .isTrue trivial
  | .infinite _ | .nan => .isFalse id

/-- The infinities and NaN have no value of their own. -/
def value : Binary64 → Rat
  | .finite number => number.value
  | .infinite _ | .nan => 0

/-- A finite number, and which. -/
def Is (number : Binary64) (value : Rat) : Prop := number.IsFinite ∧ number.value = value

end Binary64

/-- Up to here nothing that is half as large again overflows. -/
def shortMax : Rat := 2 ^ 1023

theorem shortMax_eq : shortMax = ((2 ^ 52 : Nat) : Rat) * 2 ^ (971 : Int) := by
  have joined : (2 : Rat) ^ (1023 : Nat) = 2 ^ (52 : Nat) * 2 ^ (971 : Nat) := pow_add 2 52 971
  rw [shortMax, joined, Nat.cast_pow, Nat.cast_ofNat]
  rfl

theorem maxDouble_eq : (maxDouble : Rat) = ((2 ^ 53 - 1 : Nat) : Rat) * 2 ^ (971 : Int) := by
  rw [maxDouble, Nat.cast_mul, Nat.cast_pow, Nat.cast_ofNat]
  rfl

theorem toDouble_maxDouble : toDouble (maxDouble : Rat) = maxDouble := by
  rw [maxDouble_eq, toDouble_scaled (by norm_num) (by norm_num)]

theorem toDouble_shortMax : toDouble shortMax = shortMax := by
  rw [shortMax_eq, toDouble_scaled (by norm_num) (by norm_num)]

theorem shortMax_bounded : 3 / 2 * shortMax ≤ maxDouble := by
  have unit : (0 : Rat) < 2 ^ (971 : Int) := zpow_pos (by norm_num) _
  rw [maxDouble_eq, shortMax_eq, ← mul_assoc]
  exact mul_le_mul_of_nonneg_right (by norm_num) unit.le

theorem small_le_shortMax : 1024 ≤ shortMax := by
  have grown := one_le_pow₀ (show (1 : Rat) ≤ 2 by norm_num) (n := 1013)
  have split : shortMax = 2 ^ 10 * 2 ^ 1013 := pow_add 2 10 1013
  rw [split]
  generalize (2 : Rat) ^ 1013 = power at grown
  linarith

theorem toDouble_bounded {value : Rat} (bounded : |value| ≤ maxDouble) : |toDouble value| ≤ maxDouble := by
  obtain ⟨low, high⟩ := abs_le.mp bounded
  have below := toDouble_mono low
  have above := toDouble_mono high
  rw [toDouble_neg, toDouble_maxDouble] at below
  rw [toDouble_maxDouble] at above
  exact abs_le.mpr ⟨below, above⟩

theorem short_bounded {value : Rat} (nonneg : 0 ≤ value) (short : value ≤ 3 / 2 * shortMax) :
    |value| ≤ maxDouble := by
  rw [abs_of_nonneg nonneg]
  exact short.trans shortMax_bounded

theorem near_bounded {value : Rat} (near : |value| ≤ shortMax) : |value| ≤ maxDouble := by
  have large := small_le_shortMax
  rw [← abs_abs]
  exact short_bounded (abs_nonneg value) (by linarith)

theorem small_bounded {value : Rat} (nonneg : 0 ≤ value) (small : value ≤ 1024) : |value| ≤ maxDouble :=
  near_bounded ((abs_of_nonneg nonneg).trans_le (small.trans small_le_shortMax))

theorem toDouble_zero : toDouble 0 = 0 := by
  exact_mod_cast toDouble_natCast (show 0 ≤ 2 ^ 53 by decide)

theorem toDouble_one : toDouble 1 = 1 := by
  exact_mod_cast toDouble_natCast (show 1 ≤ 2 ^ 53 by decide)

theorem toDouble_nonneg {value : Rat} (nonneg : 0 ≤ value) : 0 ≤ toDouble value := by
  have mono := toDouble_mono nonneg
  rwa [toDouble_zero] at mono

theorem decimalAt_bounds {places : Nat} {value : Rat} {low high : Int}
    (lower : low * 10 ^ places ≤ roundHalfEven (value * 10 ^ places))
    (upper : roundHalfEven (value * 10 ^ places) ≤ high * 10 ^ places) :
    low ≤ decimalAt places value ∧ decimalAt places value ≤ high := by
  have scale : (0 : Rat) < 10 ^ places := by positivity
  rw [decimalAt, le_div_iff₀ scale, div_le_iff₀ scale]
  constructor
  · exact_mod_cast lower
  · exact_mod_cast upper

theorem decimalAt_unit {places : Nat} {value : Rat} (nonneg : 0 ≤ value) (small : value ≤ 1) :
    0 ≤ decimalAt places value ∧ decimalAt places value ≤ 1 := by
  have scale : (0 : Rat) < 10 ^ places := by positivity
  have whole : roundHalfEven ((10 : Rat) ^ places) = 10 ^ places := by
    exact_mod_cast roundHalfEven_intCast (10 ^ places)
  have upper := roundHalfEven_mono (mul_le_of_le_one_left scale.le small)
  rw [whole] at upper
  have bounds := @decimalAt_bounds places value 0 1
    (by rw [zero_mul]; exact roundHalfEven_nonneg (mul_nonneg nonneg scale.le)) (by rwa [one_mul])
  exact_mod_cast bounds

theorem literal_unit {value : Rat} (nonneg : 0 ≤ value) (small : value ≤ 1) :
    0 ≤ literal value ∧ literal value ≤ 1 := decimalAt_unit nonneg small

namespace Binary64

theorem lt_self (number : Binary64) : number.lt number = false := by
  cases number with
  | finite number => simp [lt]
  | infinite negative => cases negative <;> rfl
  | nan => rfl

theorem ofRat_is {value : Rat} (bounded : |value| ≤ maxDouble) : (ofRat value).Is (toDouble value) := by
  rw [ofRat, dif_pos (toDouble_bounded bounded)]
  exact ⟨trivial, rfl⟩

attribute [irreducible] ofRat

theorem IsFinite.double {number : Binary64} (finite : number.IsFinite) :
    toDouble number.value = number.value ∧ |number.value| ≤ maxDouble := by
  cases number with
  | finite number =>
      obtain ⟨value, rounded, bounded⟩ := number
      exact ⟨rounded, bounded⟩
  | infinite _ | nan => exact finite.elim

theorem IsFinite.grid {number : Binary64} (finite : number.IsFinite) : OnGrid number.value := by
  rw [← finite.double.1]
  exact toDouble_onGrid _

variable {left right : Binary64}

theorem add_is (first : left.IsFinite) (second : right.IsFinite)
    (bounded : |left.value + right.value| ≤ maxDouble) :
    (left.add right).Is (toDouble (left.value + right.value)) := by
  cases left with
  | finite left =>
      cases right with
      | finite right => exact ofRat_is bounded
      | infinite _ | nan => exact second.elim
  | infinite _ | nan => exact first.elim

theorem neg_is (finite : right.IsFinite) : right.neg.Is (-right.value) := by
  cases right with
  | finite right =>
      have rounded := ofRat_is (show |-right.value| ≤ maxDouble by rw [abs_neg]; exact right.bounded)
      rwa [toDouble_neg, right.rounded] at rounded
  | infinite _ | nan => exact finite.elim

theorem sub_is (first : left.IsFinite) (second : right.IsFinite)
    (bounded : |left.value - right.value| ≤ maxDouble) :
    (left.sub right).Is (toDouble (left.value - right.value)) := by
  obtain ⟨finite, value⟩ := neg_is second
  rw [sub_eq_add_neg, ← value] at bounded ⊢
  exact add_is first finite bounded

theorem div_is (first : left.IsFinite) (second : right.IsFinite) (some : right.value ≠ 0)
    (bounded : |left.value / right.value| ≤ maxDouble) :
    (left.div right).Is (toDouble (left.value / right.value)) := by
  cases left with
  | finite left =>
      cases right with
      | finite right =>
          have divided : (finite left).div (finite right) = ofRat (left.value / right.value) := if_neg some
          rw [divided]
          exact ofRat_is bounded
      | infinite _ | nan => exact second.elim
  | infinite _ | nan => exact first.elim

theorem lt_iff (first : left.IsFinite) (second : right.IsFinite) :
    left.lt right = true ↔ left.value < right.value := by
  cases left with
  | finite left =>
      cases right with
      | finite right => exact decide_eq_true_iff
      | infinite _ | nan => exact second.elim
  | infinite _ | nan => exact first.elim

theorem max_is (first : left.IsFinite) (second : right.IsFinite) :
    (left.max right).Is (Max.max left.value right.value) := by
  rw [max]
  split
  · rename_i less
    rw [max_eq_right ((lt_iff first second).mp less).le]
    exact ⟨second, rfl⟩
  · rename_i least
    rw [max_eq_left (not_lt.mp fun less => least ((lt_iff first second).mpr less))]
    exact ⟨first, rfl⟩

end Binary64

theorem roundHalfEven_natDiv (number unit : Nat) (positive : 0 < unit) :
    roundHalfEven ((number : Rat) / unit) =
      if unit < 2 * (number % unit) ∨ 2 * (number % unit) = unit ∧ number / unit % 2 = 1
      then ((number / unit + 1 : Nat) : Int) else ((number / unit : Nat) : Int) := by
  have scale : (0 : Rat) < unit := by exact_mod_cast positive
  have whole : ⌊(number : Rat) / unit⌋ = ((number / unit : Nat) : Int) :=
    Rat.floor_natCast_div_natCast number unit
  have rest : (number : Rat) / unit - ((number / unit : Nat) : Int) =
      ((number % unit : Nat) : Rat) / unit := by
    have split : ((unit * (number / unit) + number % unit : Nat) : Rat) = number := by
      rw [Nat.div_add_mod]
    rw [Nat.cast_add, Nat.cast_mul] at split
    rw [Int.cast_natCast, eq_div_iff scale.ne', sub_mul, div_mul_cancel₀ _ scale.ne']
    linarith
  have less : ((number % unit : Nat) : Rat) / unit < 1 / 2 ↔ 2 * (number % unit) < unit := by
    rw [div_lt_div_iff₀ scale (by norm_num), one_mul, mul_comm]
    exact_mod_cast Iff.rfl
  have more : 1 / 2 < ((number % unit : Nat) : Rat) / unit ↔ unit < 2 * (number % unit) := by
    rw [div_lt_div_iff₀ (by norm_num) scale, one_mul, mul_comm]
    exact_mod_cast Iff.rfl
  rw [roundHalfEven]
  simp only [← Rat.floor_def', whole, rest, less, more]
  split_ifs <;> omega

/-- On integers the two roundings are one. -/
theorem roundMagnitude_natCast (number : Nat) : roundMagnitude (number : Rat) = roundNat number := by
  by_cases small : number < 2 ^ 53
  · rw [← toDouble_of_nonneg (Nat.cast_nonneg number), toDouble_natCast small.le, roundNat, if_pos small]
  have some : number ≠ 0 := by omega
  have bits : 53 ≤ number.log2 := (Nat.le_log2 some).mpr (by omega)
  have low : (2 : Rat) ^ (number.log2 : Int) ≤ number := by
    rw [zpow_natCast]
    exact_mod_cast Nat.log2_self_le some
  have high : (number : Rat) < 2 ^ ((number.log2 : Int) + 1) := by
    rw [show (number.log2 : Int) + 1 = ((number.log2 + 1 : Nat) : Int) from rfl, zpow_natCast]
    exact_mod_cast @Nat.lt_log2_self number
  have place := lastPlace_of_binade (by omega) low high
  have unit : (2 : Rat) ^ lastPlace (number : Rat) = ((2 ^ (number.log2 - 52) : Nat) : Rat) := by
    rw [place, show (number.log2 : Int) - 52 = ((number.log2 - 52 : Nat) : Int) by omega, zpow_natCast]
    push_cast
    rfl
  rw [roundMagnitude, unit, roundHalfEven_natDiv _ _ (Nat.two_pow_pos _), roundNat, if_neg small]
  simp only
  split <;> push_cast <;> rfl

theorem toDouble_intCast (number : Int) : toDouble (number : Rat) = roundInt number := by
  have magnitude := roundMagnitude_natCast number.natAbs
  rw [toDouble, roundInt]
  by_cases negative : number < 0
  · have cast : -(number : Rat) = (number.natAbs : Rat) := by
      have same : ((number.natAbs : Int) : Rat) = ((-number : Int) : Rat) := by
        congr 1
        omega
      rw [Int.cast_natCast, Int.cast_neg] at same
      exact same.symm
    rw [if_pos (by exact_mod_cast negative), if_pos negative, cast, magnitude]
    push_cast
    rfl
  · have cast : (number : Rat) = (number.natAbs : Rat) := by
      have same : ((number.natAbs : Int) : Rat) = (number : Rat) := by
        congr 1
        omega
      rw [Int.cast_natCast] at same
      exact same.symm
    rw [if_neg (by exact_mod_cast negative), if_neg negative, cast, magnitude]
    push_cast
    rfl

theorem roundInt_mono {left right : Int} (ordered : left ≤ right) : roundInt left ≤ roundInt right := by
  have mono := toDouble_mono (show (left : Rat) ≤ right by exact_mod_cast ordered)
  rw [toDouble_intCast, toDouble_intCast] at mono
  exact_mod_cast mono

end RaceTracker.Lib
