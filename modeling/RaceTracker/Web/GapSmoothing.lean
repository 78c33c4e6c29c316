import Mathlib.Algebra.Order.Field.Rat
import Mathlib.Data.List.Induction
import RaceTracker.Lib.CopyOnWrite
import RaceTracker.Web.Folding
import RaceTracker.Web.TimingHelpers

namespace RaceTracker.Web

open RaceTracker.Lib

/-! How the tower steadies its two gap columns: a rolling window of readings for each, and a
printed value that follows the median of the window only when it has really moved.
-/

inductive Column where
  | gap
  | interval
deriving DecidableEq

/-- `c.gapMs` or `c.intMs`; an absent property and `null` are no reading. -/
def Column.reading : Column → Json → Option Rat
  | gap, car => (car.get? "gapMs").bind asNumber
  | interval, car => (car.get? "intMs").bind asNumber

structure GapSamples where
  gaps : List Rat
  ints : List Rat
  shownGap : Option Rat
  shownInt : Option Rat
deriving DecidableEq

abbrev GapSmoothing := Dict String GapSamples

def gapWindow : Nat := 9

def gapHysteresisMs : Rat := 150

def median (xs : List Rat) : Option Rat :=
  let sorted := xs.mergeSort fun a b => a - b ≤ 0
  let mid := sorted.length / 2
  if xs.length = 0 then none
  else if sorted.length % 2 = 1 then sorted[mid]?
  else do
    let low ← sorted[mid - 1]?
    let high ← sorted[mid]?
    return (low + high) / 2

def settle (xs : List Rat) (shown : Option Rat) : Option Rat :=
  match median xs with
  | none => shown
  | some m =>
      match shown with
      | none => some m
      | some old => if gapHysteresisMs ≤ |m - old| then some m else some old

def pushCapped (xs : List Rat) : Option Rat → List Rat
  | none => xs
  | some v => keepLast gapWindow (xs ++ [v])

def GapSamples.empty : GapSamples := ⟨[], [], none, none⟩

/-- What one car writes: `none` where the loop goes on without touching the map. -/
def samplesAfter (prev : GapSmoothing) (car : Json) : Option GapSamples :=
  let gapMs := Column.gap.reading car
  let intMs := Column.interval.reading car
  let cur := (prev.get? (carName car)).getD .empty
  let gaps := pushCapped cur.gaps gapMs
  let ints := pushCapped cur.ints intMs
  let shownGap := settle gaps cur.shownGap
  let shownInt := settle ints cur.shownInt
  if gapMs = none ∧ intMs = none then none
  -- `pushCapped` hands back the array it was given exactly when there is no reading.
  else if (gapMs = none ∧ intMs = none) ∧ shownGap = cur.shownGap ∧ shownInt = cur.shownInt then none
  else some { gaps, ints, shownGap, shownInt }

/-- The copy the loop makes of `prev`, once a car writes to it. -/
def copiedSmoothing (prev : GapSmoothing) (cars : List Json) : Option GapSmoothing :=
  copied carName (samplesAfter prev) prev cars

/-- `next ?? prev` -/
def updateGapSmoothing (prev : GapSmoothing) (cars : List Json) : GapSmoothing :=
  (copiedSmoothing prev cars).getD prev

def GapSamples.window (samples : GapSamples) : Column → List Rat
  | .gap => samples.gaps
  | .interval => samples.ints

def GapSamples.shown (samples : GapSamples) : Column → Option Rat
  | .gap => samples.shownGap
  | .interval => samples.shownInt

def samplesOf (smoothing : GapSmoothing) (driver : String) : GapSamples :=
  (smoothing.get? driver).getD .empty

def frameReading (column : Column) (driver : String) (cars : List Json) : Option Rat :=
  (cars.find? fun car => carName car = driver).bind column.reading

theorem samplesAfter_eq_none {prev : GapSmoothing} {car : Json} :
    samplesAfter prev car = none ↔ ∀ column : Column, column.reading car = none := by
  have both : (∀ column : Column, column.reading car = none) ↔
      Column.gap.reading car = none ∧ Column.interval.reading car = none :=
    ⟨fun neither => ⟨neither .gap, neither .interval⟩, fun neither column => by
      cases column
      · exact neither.1
      · exact neither.2⟩
  rw [both]
  by_cases neither : Column.gap.reading car = none ∧ Column.interval.reading car = none
  · simp [samplesAfter, neither]
  · simp [samplesAfter, neither]

theorem samplesAfter_column {prev : GapSmoothing} {car : Json} {samples : GapSamples}
    (written : samplesAfter prev car = some samples) (column : Column) :
    let cur := samplesOf prev (carName car)
    samples.window column = pushCapped (cur.window column) (column.reading car) ∧
      samples.shown column = settle (samples.window column) (cur.shown column) := by
  by_cases neither : Column.gap.reading car = none ∧ Column.interval.reading car = none
  · simp [samplesAfter, neither] at written
  · rw [samplesAfter] at written
    simp only [neither, if_false, false_and, Option.some.injEq] at written
    subst written
    cases column <;> exact ⟨rfl, rfl⟩

/-- Each driver's own car is what moves that driver's samples. -/
theorem get?_updateGapSmoothing (prev : GapSmoothing) {cars : List Json}
    (distinct : (cars.map carName).Nodup) (driver : String) :
    (updateGapSmoothing prev cars).get? driver =
      ((cars.find? fun car => carName car = driver).bind (samplesAfter prev)).or (prev.get? driver) :=
  get?_copied distinct driver

theorem get?_updateGapSmoothing_silent {prev : GapSmoothing} {cars : List Json} {driver : String}
    (distinct : (cars.map carName).Nodup)
    (silent : ∀ column, frameReading column driver cars = none) :
    (updateGapSmoothing prev cars).get? driver = prev.get? driver := by
  rw [get?_updateGapSmoothing prev distinct]
  cases found : cars.find? fun car => carName car = driver with
  | none => rfl
  | some car =>
      have nothing : samplesAfter prev car = none := by
        rw [samplesAfter_eq_none]
        intro column
        simpa [frameReading, found] using silent column
      simp [nothing]

/-- The printed value is close to the median of the window, and is there as soon as it is. -/
def Near (window : List Rat) (shown : Option Rat) : Prop :=
  match median window with
  | none => shown = none
  | some m => ∃ value, shown = some value ∧ |m - value| < gapHysteresisMs

theorem median_eq_none {xs : List Rat} : median xs = none ↔ xs = [] := by
  constructor
  · intro absent
    by_contra present
    have some : 0 < xs.length := List.length_pos_iff.mpr present
    simp only [median, List.length_mergeSort, Nat.ne_of_gt some, if_false] at absent
    rw [List.getElem?_eq_getElem (by rw [List.length_mergeSort]; omega),
      List.getElem?_eq_getElem (by rw [List.length_mergeSort]; omega)] at absent
    split at absent <;> cases absent
  · intro empty
    simp [median, empty]

theorem settle_of_near {window : List Rat} {shown : Option Rat} (near : Near window shown) :
    settle window shown = shown := by
  rw [Near] at near
  rw [settle]
  cases middle : median window with
  | none => rfl
  | some m =>
      rw [middle] at near
      obtain ⟨value, printed, close⟩ := near
      rw [printed]
      simp [not_le.mpr close]

theorem near_settle {window : List Rat} {shown : Option Rat} (some : window ≠ []) :
    Near window (settle window shown) := by
  rw [Near]
  cases middle : median window with
  | none => exact absurd (median_eq_none.mp middle) some
  | some m =>
      have hysteresis : (0 : Rat) < gapHysteresisMs := by decide
      cases shown with
      | none => exact ⟨m, by simp [settle, middle], by simpa using hysteresis⟩
      | some old =>
          by_cases moved : gapHysteresisMs ≤ |m - old|
          · exact ⟨m, by simp [settle, middle, moved], by simpa using hysteresis⟩
          · exact ⟨old, by simp [settle, middle, moved], not_le.mp moved⟩

/-- A printed value gives way only to a median that is far enough away. -/
theorem settle_moves {window : List Rat} {old : Rat} (moved : settle window (some old) ≠ some old) :
    ∃ m, median window = some m ∧ settle window (some old) = some m ∧
      gapHysteresisMs ≤ |m - old| := by
  cases middle : median window with
  | none => simp [settle, middle] at moved
  | some m =>
      by_cases far : gapHysteresisMs ≤ |m - old|
      · exact ⟨m, rfl, by simp [settle, middle, far], far⟩
      · simp [settle, middle, far] at moved

theorem Near.printed {window : List Rat} {shown : Option Rat} (near : Near window shown)
    (filled : window ≠ []) : ∃ m value, median window = some m ∧ shown = some value ∧
      |m - value| < gapHysteresisMs := by
  cases middle : median window with
  | none => exact absurd (median_eq_none.mp middle) filled
  | some m =>
      rw [Near, middle] at near
      obtain ⟨value, printed, close⟩ := near
      exact ⟨m, value, rfl, printed, close⟩

theorem near_pushCapped {window : List Rat} {shown : Option Rat} (near : Near window shown)
    (reading : Option Rat) :
    Near (pushCapped window reading) (settle (pushCapped window reading) shown) := by
  cases reading with
  | none =>
      change Near window (settle window shown)
      rw [settle_of_near near]
      exact near
  | some value =>
      apply near_settle
      intro empty
      have counted := length_keepLast gapWindow (window ++ [value])
      rw [show keepLast gapWindow (window ++ [value]) = [] from empty, List.length_append] at counted
      simp [gapWindow] at counted
      omega

theorem settle_first (window : List Rat) : settle window none = median window := by
  cases middle : median window <;> simp [settle, middle]

/-- What a frame does to one column, as long as the printed value was close to the median. -/
theorem updateGapSmoothing_column {prev : GapSmoothing} {cars : List Json}
    (distinct : (cars.map carName).Nodup) (driver : String) (column : Column)
    (near : Near ((samplesOf prev driver).window column) ((samplesOf prev driver).shown column)) :
    let later := samplesOf (updateGapSmoothing prev cars) driver
    later.window column =
        pushCapped ((samplesOf prev driver).window column) (frameReading column driver cars) ∧
      later.shown column = settle (later.window column) ((samplesOf prev driver).shown column) := by
  have after := get?_updateGapSmoothing prev distinct driver
  cases found : cars.find? fun car => carName car = driver with
  | none =>
      have kept : samplesOf (updateGapSmoothing prev cars) driver = samplesOf prev driver := by
        simp [samplesOf, after, found]
      simp only [kept, frameReading, found, Option.bind_none, pushCapped, settle_of_near near, and_self]
  | some car =>
      have named : carName car = driver := by simpa using List.find?_some found
      have reading : frameReading column driver cars = column.reading car := by
        simp [frameReading, found]
      cases written : samplesAfter prev car with
      | none =>
          have kept : samplesOf (updateGapSmoothing prev cars) driver = samplesOf prev driver := by
            simp [samplesOf, after, found, written]
          have silent : column.reading car = none := samplesAfter_eq_none.mp written column
          simp only [kept, reading, silent, pushCapped, settle_of_near near, and_self]
      | some samples =>
          have own : samplesOf (updateGapSmoothing prev cars) driver = samples := by
            simp [samplesOf, after, found, written]
          rw [own, reading, ← named]
          exact samplesAfter_column written column

def smoothed (frames : List (List Json)) : GapSmoothing := frames.foldl updateGapSmoothing .empty

def readings (column : Column) (driver : String) (frames : List (List Json)) : List Rat :=
  frames.filterMap (frameReading column driver)

theorem smoothed_concat (before : List (List Json)) (frame : List Json) :
    smoothed (before ++ [frame]) = updateGapSmoothing (smoothed before) frame := by
  simp [smoothed]

theorem pushCapped_keepLast (log : List Rat) (reading : Option Rat) :
    pushCapped (keepLast gapWindow log) reading = keepLast gapWindow (log ++ reading.toList) := by
  cases reading with
  | none => simp [pushCapped]
  | some value => exact keepLast_append_keepLast gapWindow log [value]

/-- Windows hold the newest readings, and what is printed is close to their medians. -/
theorem smoothed_column {frames : List (List Json)}
    (distinct : ∀ cars ∈ frames, (cars.map carName).Nodup) (driver : String) (column : Column) :
    let samples := samplesOf (smoothed frames) driver
    samples.window column = keepLast gapWindow (readings column driver frames) ∧
      Near (samples.window column) (samples.shown column) := by
  induction frames using List.reverseRecOn with
  | nil => cases column <;> exact ⟨rfl, by simp [Near, median, samplesOf, smoothed, GapSamples.empty,
      GapSamples.window, GapSamples.shown]⟩
  | append_singleton before frame ih =>
      obtain ⟨window, near⟩ := ih fun cars member => distinct cars (List.mem_append_left _ member)
      obtain ⟨pushed, settled⟩ := updateGapSmoothing_column (distinct frame (by simp)) driver column near
      have moved : readings column driver (before ++ [frame]) =
          readings column driver before ++ (frameReading column driver frame).toList := by
        cases reading : frameReading column driver frame <;> simp [readings, reading]
      rw [smoothed_concat]
      refine ⟨by rw [pushed, window, pushCapped_keepLast, moved], ?_⟩
      rw [settled]
      rw [pushed]
      exact near_pushCapped near (frameReading column driver frame)

/-- What a driver's column shows after one more frame, and what a frame without a reading
leaves alone. -/
theorem smoothing_invariant (before : List (List Json)) (frame : List Json)
    (distinct : ∀ cars ∈ before ++ [frame], (cars.map carName).Nodup) (driver : String)
    (column : Column) :
    let earlier := samplesOf (smoothed before) driver
    let later := samplesOf (smoothed (before ++ [frame])) driver
    later.window column = keepLast gapWindow (readings column driver (before ++ [frame])) ∧
      (later.window column ≠ [] → ∃ m value, median (later.window column) = some m ∧
        later.shown column = some value ∧ |m - value| < gapHysteresisMs) ∧
      (earlier.shown column = none → later.shown column = median (later.window column)) ∧
      (∀ old, earlier.shown column = some old → later.shown column ≠ some old →
        ∃ m, median (later.window column) = some m ∧ later.shown column = some m ∧
          gapHysteresisMs ≤ |m - old|) ∧
      (frameReading column driver frame = none →
        later.window column = earlier.window column ∧ later.shown column = earlier.shown column) ∧
      ((∀ column, frameReading column driver frame = none) →
        (smoothed (before ++ [frame])).get? driver = (smoothed before).get? driver) := by
  have own : (frame.map carName).Nodup := distinct frame (by simp)
  obtain ⟨-, before_near⟩ := smoothed_column
    (fun cars member => distinct cars (List.mem_append_left [frame] member)) driver column
  obtain ⟨window, near⟩ := smoothed_column distinct driver column
  obtain ⟨pushed, settled⟩ := updateGapSmoothing_column own driver column before_near
  rw [← smoothed_concat] at pushed settled
  refine ⟨window, near.printed, ?_, ?_, ?_, ?_⟩
  · intro unprinted
    rw [settled, unprinted, settle_first]
  · intro old printed moved
    rw [settled, printed] at moved ⊢
    exact settle_moves moved
  · intro silent
    have kept : (samplesOf (smoothed (before ++ [frame])) driver).window column =
        (samplesOf (smoothed before) driver).window column := by
      rw [pushed, silent, pushCapped]
    exact ⟨kept, by rw [settled, kept, settle_of_near before_near]⟩
  · intro silent
    rw [smoothed_concat]
    exact get?_updateGapSmoothing_silent own silent

/-- A reading 300 ms from the one before leaves the median 150 ms from what is printed; a frame without
readings changes nothing. -/
theorem smoothing_invariant_two :
    let before := [[Json.obj [("driverNum", .int 4), ("gapMs", .int 1000)]]]
    let frame := [Json.obj [("driverNum", .int 4), ("gapMs", .int 1300), ("intMs", .int 700)]]
    let silent := [Json.obj [("driverNum", .int 4)]]
    (samplesOf (smoothed (before ++ [frame])) "4").window .gap = [1000, 1300] ∧
      (∃ m value, median [1000, 1300] = some m ∧
        (samplesOf (smoothed (before ++ [frame])) "4").shown .gap = some value ∧
          |m - value| < gapHysteresisMs) ∧
      (samplesOf (smoothed (before ++ [frame])) "4").shown .interval = some 700 ∧
      (smoothed (before ++ [silent])).get? "4" = (smoothed before).get? "4" := by
  intro before frame silent
  obtain ⟨window, near, _⟩ := smoothing_invariant before frame (by simp [before, frame]) "4" .gap
  obtain ⟨window', _, first, _⟩ := smoothing_invariant before frame (by simp [before, frame]) "4" .interval
  obtain ⟨_, _, _, _, _, kept⟩ := smoothing_invariant before silent (by simp [before, silent]) "4" .gap
  have gaps : keepLast gapWindow (readings .gap "4" (before ++ [frame])) = [1000, 1300] := by
    decide +kernel
  have intervals : keepLast gapWindow (readings .interval "4" (before ++ [frame])) = [700] := by
    decide +kernel
  rw [window, gaps] at near
  rw [window', intervals] at first
  refine ⟨window.trans gaps, near (by simp), ?_, kept fun column => ?_⟩
  · have opens : (samplesOf (smoothed before) "4").shown .interval = none := by decide +kernel
    rw [first opens]
    simp [median]
  · cases column <;> decide +kernel

end RaceTracker.Web
