import RaceTracker.Ingest.Records
import RaceTracker.Lib.Floats

namespace RaceTracker.Ingest

open RaceTracker.Lib RaceTracker.Model

/-! The bounds of the live lane's positions.

They grow with every sample until the warm-up is over and then stay.  A position is scaled to the
square around them, and rounded to four decimals.
-/

/-- The minima and maxima so far. -/
structure Extent where
  xMin : Binary64
  xMax : Binary64
  yMin : Binary64
  yMax : Binary64
  xOrdered : xMax.lt xMin = false
  yOrdered : yMax.lt yMin = false

structure BoundBox where
  /-- `none` until the first sample. -/
  extent : Option Extent
  frozen : Bool
  startTs : Option Rat

namespace BoundBox

def start : BoundBox := ⟨none, false, none⟩

end BoundBox

def boundWarmupS : Rat := 30

def Extent.single (x y : Binary64) : Extent := ⟨x, x, y, y, x.lt_self, y.lt_self⟩

theorem grown_ordered {low high : Binary64} (ordered : high.lt low = false) (x : Binary64) :
    (high.max x).lt (low.min x) = false := by
  rw [Binary64.max, Binary64.min]
  split <;> split
  · exact x.lt_self
  · rename_i least
    exact Bool.eq_false_iff.mpr least
  · rename_i greatest _
    exact Bool.eq_false_iff.mpr greatest
  · exact ordered

def Extent.grow (extent : Extent) (x y : Binary64) : Extent where
  xMin := extent.xMin.min x
  xMax := extent.xMax.max x
  yMin := extent.yMin.min y
  yMax := extent.yMax.max y
  xOrdered := grown_ordered extent.xOrdered x
  yOrdered := grown_ordered extent.yOrdered y

/-- What the clock reads when the first sample starts it, and at the end of an update. -/
structure Clock where
  begun : Rat
  now : Rat

def BoundBox.update (box : BoundBox) (clock : Clock) (x y : Binary64) : BoundBox :=
  if box.frozen then box
  else
    let startTs := box.startTs.getD clock.begun
    let extent := match box.extent with
      | none => .single x y
      | some extent => extent.grow x y
    { extent := some extent
      frozen := boundWarmupS ≤ toDouble (clock.now - startTs)
      startTs := some startTs }

/-- `range or 1.0` -/
def orOne (range : Binary64) : Binary64 :=
  if range.IsFinite ∧ range.value = 0 then .ofRat 1 else range

def round4 (value : Binary64) : Binary64 := value.roundPlaces 4

def normalisePoint (x y xMin yMin maxRange xOffset yOffset : Binary64) : Binary64 × Binary64 :=
  let nx := ((x.sub xMin).add xOffset).div maxRange
  let ny := (Binary64.ofRat 1).sub (((y.sub yMin).add yOffset).div maxRange)
  (round4 nx, round4 ny)

namespace Extent

variable (extent : Extent)

def xRange : Binary64 := orOne (extent.xMax.sub extent.xMin)

def yRange : Binary64 := orOne (extent.yMax.sub extent.yMin)

def maxRange : Binary64 := extent.xRange.max extent.yRange

def xOffset : Binary64 := (extent.maxRange.sub extent.xRange).div (.ofRat 2)

def yOffset : Binary64 := (extent.maxRange.sub extent.yRange).div (.ofRat 2)

def normalise (x y : Binary64) : Binary64 × Binary64 :=
  normalisePoint x y extent.xMin extent.yMin extent.maxRange extent.xOffset extent.yOffset

/-- The sides are so short that no difference overflows. -/
def Fits : Prop :=
  (extent.xMin.IsFinite ∧ extent.xMax.IsFinite ∧ extent.xMax.value - extent.xMin.value ≤ shortMax) ∧
    extent.yMin.IsFinite ∧ extent.yMax.IsFinite ∧ extent.yMax.value - extent.yMin.value ≤ shortMax

instance : Decidable extent.Fits := inferInstanceAs (Decidable ((_ ∧ _ ∧ _) ∧ _ ∧ _ ∧ _))

/-- A point of the square around the extent. -/
def Holds (x y : Binary64) : Prop :=
  (0 ≤ x.value - extent.xMin.value + extent.xOffset.value ∧
      x.value - extent.xMin.value + extent.xOffset.value ≤ extent.maxRange.value) ∧
    0 ≤ y.value - extent.yMin.value + extent.yOffset.value ∧
      y.value - extent.yMin.value + extent.yOffset.value ≤ extent.maxRange.value

instance (x y : Binary64) : Decidable (extent.Holds x y) :=
  inferInstanceAs (Decidable ((_ ∧ _) ∧ _ ∧ _))

end Extent

/-- The middle until there is a sample. -/
def BoundBox.normalise (box : BoundBox) (x y : Binary64) : Binary64 × Binary64 :=
  match box.extent with
  | none => (.ofRat (1 / 2), .ofRat (1 / 2))
  | some extent => extent.normalise x y

/-- The number a coordinate is written as.  A point holds finite numbers, so what is none stands
as one outside the box. -/
def doubleOf : Binary64 → F64
  | .finite number => (Codec.readFloat64 ⟨literal number.value, false⟩).getD F64.largest
  | .infinite _ | .nan => F64.largest

def BoundBox.point (box : BoundBox) (x y : Binary64) : Point :=
  let (nx, ny) := box.normalise x y
  ⟨doubleOf nx, doubleOf ny⟩

/-- The built-ins of the live lane, whose bounds come with the number of updates so far. -/
def Builtins.live {β : Type} (builtins : Builtins Binary64 β) (clock : Nat → Clock) :
    Builtins Binary64 (BoundBox × Nat) :=
  { builtins with
    place := fun state x y =>
      let box := state.1.update (clock state.2) x y
      ((box, state.2 + 1), box.point x y) }

def InUnit (number : Binary64) : Prop := number.IsFinite ∧ 0 ≤ number.value ∧ number.value ≤ 1

def InUnitBox (point : Binary64 × Binary64) : Prop := InUnit point.1 ∧ InUnit point.2

/-- A finite sample that leaves the bounds short enough; a frozen box has it in the square that it
froze at. -/
def BoundBox.Holds (box : BoundBox) (clock : Clock) (x y : Binary64) : Prop :=
  (x.IsFinite ∧ y.IsFinite) ∧ (∀ extent ∈ (box.update clock x y).extent, extent.Fits) ∧
    (box.frozen = true → ∀ extent ∈ box.extent, extent.Holds x y)

instance (box : BoundBox) (clock : Clock) (x y : Binary64) : Decidable (box.Holds clock x y) :=
  inferInstanceAs (Decidable (_ ∧ _ ∧ (_ → _)))

theorem round4_unit {share : Binary64} (finite : share.IsFinite) (low : -(1 / 20000) ≤ share.value)
    (high : share.value ≤ 1 + 1 / 20000) : InUnit (round4 share) := by
  have start : 0 ≤ roundHalfEven (share.value * 10 ^ 4) := by
    rw [le_roundHalfEven_iff (by decide)]
    push_cast
    linarith
  have stop : roundHalfEven (share.value * 10 ^ 4) ≤ 10 ^ 4 := by
    rw [roundHalfEven_le_iff (by decide)]
    push_cast
    linarith
  obtain ⟨lower, upper⟩ := @decimalAt_bounds 4 share.value 0 1 (by omega) (by omega)
  rw [Int.cast_zero] at lower
  rw [Int.cast_one] at upper
  have below := toDouble_mono upper
  rw [toDouble_one] at below
  have small : |decimalAt 4 share.value| ≤ maxDouble :=
    small_bounded lower (upper.trans (by norm_num))
  cases share with
  | finite number =>
      obtain ⟨rounded, value⟩ := Binary64.ofRat_is small
      refine ⟨rounded, ?_⟩
      rw [round4, Binary64.roundPlaces]
      exact value ▸ ⟨toDouble_nonneg lower, below⟩
  | infinite _ | nan => exact finite.elim

theorem ofRat_one : (Binary64.ofRat 1).Is 1 := by
  have rounded := Binary64.ofRat_is (small_bounded zero_le_one (by norm_num))
  rwa [toDouble_one] at rounded

theorem ofRat_two : (Binary64.ofRat 2).Is 2 := by
  have rounded := Binary64.ofRat_is (small_bounded (show (0 : Rat) ≤ 2 by norm_num) (by norm_num))
  have two : toDouble 2 = 2 := by exact_mod_cast toDouble_natCast (show 2 ≤ 2 ^ 53 by decide)
  rwa [two] at rounded

/-- A shifted coordinate that is on the side, but for what a sum can lose. -/
structure Placed (x low offset side : Binary64) : Prop where
  near : |x.value - low.value| ≤ shortMax
  start : 0 ≤ toDouble (x.value - low.value) + offset.value
  stop : toDouble (x.value - low.value) + offset.value ≤ side.value + side.value / 2 ^ 53

/-- A side that can be divided by and does not overflow. -/
structure Side (side : Binary64) : Prop where
  finite : side.IsFinite
  positive : 0 < side.value
  short : side.value ≤ shortMax

section

variable {x low high offset side range : Binary64}

theorem Placed.share (placed : Placed x low offset side) (xFinite : x.IsFinite) (lowFinite : low.IsFinite)
    (offsetFinite : offset.IsFinite) (long : Side side) :
    let share := ((x.sub low).add offset).div side
    share.IsFinite ∧ 0 ≤ share.value ∧ share.value ≤ 1 + 1 / 2 ^ 51 := by
  have positive := long.positive
  obtain ⟨moved, apart⟩ := Binary64.sub_is xFinite lowFinite (near_bounded placed.near)
  have start := placed.start
  have stop := placed.stop
  rw [← apart] at start stop
  have short : side.value + side.value / 2 ^ 53 ≤ 3 / 2 * shortMax := by
    have bound := long.short
    linarith
  obtain ⟨shifted, sum⟩ := Binary64.add_is moved offsetFinite (short_bounded start (stop.trans short))
  have grid := moved.grid.add offsetFinite.grid
  have lost := (abs_le.mp grid.toDouble_near).2
  rw [abs_of_nonneg start] at lost
  have nonneg := toDouble_nonneg start
  rw [← sum] at lost nonneg
  have share : ((x.sub low).add offset).value / side.value ≤ 1 + 1 / 2 ^ 51 := by
    rw [div_le_iff₀ positive]
    linarith
  have least := div_nonneg nonneg positive.le
  obtain ⟨divided, quotient⟩ := Binary64.div_is shifted long.finite positive.ne'
    (small_bounded least (share.trans (by norm_num)))
  have top : toDouble (1 + 1 / 2 ^ 51) = 1 + 1 / 2 ^ 51 := by
    have scaled : (1 + 1 / 2 ^ 51 : Rat) = ((2 ^ 51 + 1 : Nat) : Rat) * 2 ^ (-51 : Int) := by norm_num
    rw [scaled, toDouble_scaled (by norm_num) (by norm_num)]
  refine ⟨divided, ?_, ?_⟩
  · rw [quotient]
    exact toDouble_nonneg least
  · rw [quotient, ← top]
    exact toDouble_mono share

/-- Turned around, a share of the side is one again. -/
theorem flip_unit {share : Binary64} (finite : share.IsFinite) (low : 0 ≤ share.value)
    (high : share.value ≤ 1 + 1 / 2 ^ 51) : InUnit (round4 ((Binary64.ofRat 1).sub share)) := by
  obtain ⟨one, unit⟩ := ofRat_one
  have near : |(Binary64.ofRat 1).value - share.value| ≤ 1024 := by
    rw [unit]
    exact abs_le.mpr ⟨by linarith, by linarith⟩
  have small := near_bounded (near.trans small_le_shortMax)
  obtain ⟨turned, value⟩ := Binary64.sub_is one finite small
  have bottom : toDouble (-(1 / 2 ^ 51)) = -(1 / 2 ^ 51) := by
    have scaled : (1 / 2 ^ 51 : Rat) = ((1 : Nat) : Rat) * 2 ^ (-51 : Int) := by norm_num
    rw [toDouble_neg, scaled, toDouble_scaled (by norm_num) (by norm_num)]
  have least := toDouble_mono (show -(1 / 2 ^ 51) ≤ (Binary64.ofRat 1).value - share.value by
    rw [unit]
    linarith)
  have greatest := toDouble_mono (show (Binary64.ofRat 1).value - share.value ≤ 1 by
    rw [unit]
    linarith)
  rw [bottom, ← value] at least
  rw [toDouble_one, ← value] at greatest
  exact round4_unit turned (by linarith) (by linarith)

theorem side_orOne (lowFinite : low.IsFinite) (highFinite : high.IsFinite) (ordered : high.lt low = false)
    (short : high.value - low.value ≤ shortMax) :
    Side (orOne (high.sub low)) ∧ toDouble (high.value - low.value) ≤ (orOne (high.sub low)).value := by
  have least : low.value ≤ high.value := by
    refine not_lt.mp fun less => ?_
    rw [(Binary64.lt_iff highFinite lowFinite).mpr less] at ordered
    cases ordered
  have nonneg := sub_nonneg.mpr least
  obtain ⟨finite, value⟩ := Binary64.sub_is highFinite lowFinite
    (near_bounded ((abs_of_nonneg nonneg).trans_le short))
  have bound := toDouble_mono short
  rw [toDouble_shortMax] at bound
  rw [orOne, ← value]
  rw [← value] at bound
  split
  · rename_i none
    obtain ⟨one, unit⟩ := ofRat_one
    rw [none.2, unit]
    exact ⟨⟨one, by rw [unit]; exact one_pos, by rw [unit]; linarith [small_le_shortMax]⟩, zero_le_one⟩
  · rename_i some
    have positive : 0 ≤ (high.sub low).value := by
      rw [value]
      exact toDouble_nonneg nonneg
    exact ⟨⟨finite, lt_of_le_of_ne positive fun zero => some ⟨finite, zero.symm⟩, bound⟩, le_rfl⟩

/-- Half of what the longer side is longer by. -/
theorem offset_is (long : Side side) (part : Side range) (within : range.value ≤ side.value) :
    let offset := (side.sub range).div (.ofRat 2)
    offset.IsFinite ∧ 0 ≤ offset.value ∧ offset.value ≤ side.value ∧
      range.value + offset.value ≤ side.value + side.value / 2 ^ 53 := by
  obtain ⟨two, half⟩ := ofRat_two
  have rest := sub_nonneg.mpr within
  have positive := part.positive
  have shorter : side.value - range.value ≤ side.value := by linarith
  obtain ⟨finite, value⟩ := Binary64.sub_is long.finite part.finite
    (near_bounded ((abs_of_nonneg rest).trans_le (shorter.trans long.short)))
  have nonneg := toDouble_nonneg rest
  rw [← value] at nonneg
  have halved : (side.sub range).value / (Binary64.ofRat 2).value ≤ (side.sub range).value := by
    rw [half]
    exact half_le_self nonneg
  have least : 0 ≤ (side.sub range).value / (Binary64.ofRat 2).value := by
    rw [half]
    exact div_nonneg nonneg zero_le_two
  obtain ⟨divided, quotient⟩ := Binary64.div_is finite two (by rw [half]; norm_num)
    (((abs_of_nonneg least).trans_le halved).trans
      ((le_abs_self _).trans finite.double.2))
  -- Halving and rounding ends below the whole, which is a double.
  have below := toDouble_mono halved
  rw [finite.double.1, ← quotient] at below
  have mono := toDouble_mono shorter
  rw [long.finite.double.1, ← value] at mono
  have lost := (abs_le.mp (long.finite.grid.sub part.finite.grid).toDouble_near).2
  rw [abs_of_nonneg rest, ← value] at lost
  refine ⟨divided, ?_, below.trans mono, ?_⟩
  · rw [quotient]
    exact toDouble_nonneg least
  · linarith

/-- Growing takes the sample in. -/
theorem grown_between (finite : x.IsFinite) (lowFinite : (low.min x).IsFinite)
    (highFinite : (high.max x).IsFinite) :
    (low.min x).value ≤ x.value ∧ x.value ≤ (high.max x).value := by
  constructor
  · rw [Binary64.min] at lowFinite ⊢
    split at lowFinite
    · rw [if_pos ‹_›]
    · rename_i least
      rw [if_neg least]
      exact not_lt.mp fun less => least ((Binary64.lt_iff finite lowFinite).mpr less)
  · rw [Binary64.max] at highFinite ⊢
    split at highFinite
    · rw [if_pos ‹_›]
    · rename_i greatest
      rw [if_neg greatest]
      exact not_lt.mp fun less => greatest ((Binary64.lt_iff highFinite finite).mpr less)

/-- Whatever lies between the extremes is placed, whichever axis is the shorter. -/
theorem placed_between (ordered : low.value ≤ x.value ∧ x.value ≤ high.value)
    (short : high.value - low.value ≤ shortMax)
    (wide : toDouble (high.value - low.value) ≤ range.value) (nonneg : 0 ≤ offset.value)
    (together : range.value + offset.value ≤ side.value + side.value / 2 ^ 53) :
    Placed x low offset side := by
  have start : 0 ≤ x.value - low.value := sub_nonneg.mpr ordered.1
  have stop : x.value - low.value ≤ high.value - low.value := sub_le_sub_right ordered.2 _
  have below := toDouble_mono stop
  refine ⟨(abs_of_nonneg start).trans_le (stop.trans short), ?_, by linarith⟩
  exact add_nonneg (toDouble_nonneg start) nonneg

theorem placed_held (xFinite : x.IsFinite) (lowFinite : low.IsFinite) (offsetFinite : offset.IsFinite)
    (nonneg : 0 ≤ offset.value) (within : offset.value ≤ side.value) (short : side.value ≤ shortMax)
    (start : 0 ≤ x.value - low.value + offset.value)
    (stop : x.value - low.value + offset.value ≤ side.value) : Placed x low offset side := by
  have far : |x.value - low.value| ≤ side.value := abs_le.mpr ⟨by linarith, by linarith⟩
  have least := toDouble_mono (show -offset.value ≤ x.value - low.value by linarith)
  rw [toDouble_neg, offsetFinite.double.1] at least
  have lost := (abs_le.mp (xFinite.grid.sub lowFinite.grid).toDouble_near).2
  have part : |x.value - low.value| / 2 ^ 53 ≤ side.value / 2 ^ 53 :=
    div_le_div_of_nonneg_right far (by norm_num)
  exact ⟨far.trans short, by linarith, by linarith⟩

end

namespace Extent

variable {extent : Extent} {x y : Binary64}

/-- The sides and the offsets of an extent that fits. -/
theorem Fits.sides (fits : extent.Fits) :
    (Side extent.maxRange ∧ extent.xRange.value ≤ extent.maxRange.value ∧
      extent.yRange.value ≤ extent.maxRange.value) ∧ Side extent.xRange ∧ Side extent.yRange := by
  obtain ⟨⟨xLow, xHigh, across⟩, yLow, yHigh, along⟩ := fits
  have wide := (side_orOne xLow xHigh extent.xOrdered across).1
  have tall := (side_orOne yLow yHigh extent.yOrdered along).1
  obtain ⟨finite, value⟩ := Binary64.max_is wide.finite tall.finite
  have longer : extent.maxRange.value = max extent.xRange.value extent.yRange.value := value
  refine ⟨⟨⟨finite, ?_, ?_⟩, ?_, ?_⟩, wide, tall⟩ <;> rw [longer]
  · exact lt_max_of_lt_left wide.positive
  · exact max_le wide.short tall.short
  · exact le_max_left ..
  · exact le_max_right ..

theorem normalise_unit (fits : extent.Fits) (xFinite : x.IsFinite) (yFinite : y.IsFinite)
    (across : Placed x extent.xMin extent.xOffset extent.maxRange)
    (along : Placed y extent.yMin extent.yOffset extent.maxRange) : InUnitBox (extent.normalise x y) := by
  obtain ⟨⟨long, within, below⟩, wide, tall⟩ := fits.sides
  obtain ⟨finite, low, high⟩ := across.share xFinite fits.1.1 (offset_is long wide within).1 long
  obtain ⟨finite', low', high'⟩ := along.share yFinite fits.2.1 (offset_is long tall below).1 long
  exact ⟨round4_unit finite (by linarith) (by linarith), flip_unit finite' low' high'⟩

theorem normalise_between (fits : extent.Fits) (xFinite : x.IsFinite) (yFinite : y.IsFinite)
    (across : extent.xMin.value ≤ x.value ∧ x.value ≤ extent.xMax.value)
    (along : extent.yMin.value ≤ y.value ∧ y.value ≤ extent.yMax.value) :
    InUnitBox (extent.normalise x y) := by
  obtain ⟨⟨long, within, below⟩, wide, tall⟩ := fits.sides
  have width := side_orOne fits.1.1 fits.1.2.1 extent.xOrdered fits.1.2.2
  have height := side_orOne fits.2.1 fits.2.2.1 extent.yOrdered fits.2.2.2
  obtain ⟨-, left, -, right⟩ := offset_is long wide within
  obtain ⟨-, bottom, -, top⟩ := offset_is long tall below
  exact normalise_unit fits xFinite yFinite
    (placed_between across fits.1.2.2 width.2 left right)
    (placed_between along fits.2.2.2 height.2 bottom top)

theorem normalise_held (fits : extent.Fits) (xFinite : x.IsFinite) (yFinite : y.IsFinite)
    (held : extent.Holds x y) : InUnitBox (extent.normalise x y) := by
  obtain ⟨⟨long, within, below⟩, wide, tall⟩ := fits.sides
  obtain ⟨xOffset, left, right, -⟩ := offset_is long wide within
  obtain ⟨yOffset, bottom, top, -⟩ := offset_is long tall below
  obtain ⟨⟨start, stop⟩, start', stop'⟩ := held
  exact normalise_unit fits xFinite yFinite
    (placed_held xFinite fits.1.1 xOffset left right long.short start stop)
    (placed_held yFinite fits.2.1 yOffset bottom top long.short start' stop')

end Extent

theorem half_unit : InUnit (.ofRat (1 / 2)) := by
  have rounded := Binary64.ofRat_is (small_bounded (show (0 : Rat) ≤ 1 / 2 by norm_num) (by norm_num))
  have half : toDouble (1 / 2) = 1 / 2 := by
    have scaled : (1 / 2 : Rat) = ((1 : Nat) : Rat) * 2 ^ (-1 : Int) := by norm_num
    rw [scaled, toDouble_scaled (by norm_num) (by norm_num)]
  rw [half] at rounded
  refine ⟨rounded.1, ?_⟩
  rw [rounded.2]
  norm_num

/-- A sample is shown in the unit box before the freeze, and after it if it lies in the square. -/
theorem BoundBox.normalise_update {box : BoundBox} {clock : Clock} {x y : Binary64}
    (held : box.Holds clock x y) : InUnitBox ((box.update clock x y).normalise x y) := by
  obtain ⟨⟨xFinite, yFinite⟩, fits, inside⟩ := held
  rw [BoundBox.update] at fits ⊢
  by_cases frozen : box.frozen = true
  · rw [if_pos frozen] at fits ⊢
    rw [BoundBox.normalise]
    cases known : box.extent with
    | none => exact ⟨half_unit, half_unit⟩
    | some extent =>
        exact Extent.normalise_held (fits extent known) xFinite yFinite (inside frozen extent known)
  · rw [if_neg frozen] at fits ⊢
    simp only [BoundBox.normalise]
    cases known : box.extent with
    | none =>
        rw [known] at fits
        exact Extent.normalise_between (fits _ rfl) xFinite yFinite ⟨le_rfl, le_rfl⟩ ⟨le_rfl, le_rfl⟩
    | some extent =>
        rw [known] at fits
        have grown := fits _ rfl
        exact Extent.normalise_between grown xFinite yFinite
          (grown_between xFinite grown.1.1 grown.1.2.1) (grown_between yFinite grown.2.1 grown.2.2.1)

end RaceTracker.Ingest
