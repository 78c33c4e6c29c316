import RaceTracker.Lib.Collapse
import RaceTracker.Lib.CopyOnWrite
import RaceTracker.Web.Folding
import RaceTracker.Web.TimingHelpers

namespace RaceTracker.Web

open RaceTracker.Lib

/-! The lap times that the tower remembers of each driver, from values that are sent again and again. -/

abbrev LapHistory := Dict String (List Rat)

def maxLapHistory : Nat := 8

/-- What one car writes: `none` where the loop goes on. -/
def lapsAfter (prev : LapHistory) (car : Json) : Option (List Rat) :=
  let lastLapMs := numberOf "lastLapMs" car
  let hist := (prev.get? (carName car)).getD []
  if lastLapMs.getD 0 = 0 then none
  else if hist.getLast? ≠ lastLapMs then some (keepLast maxLapHistory (hist ++ lastLapMs.toList))
  else none

/-- `next ?? prev` -/
def updateLapHistory (prev : LapHistory) (cars : List Json) : LapHistory :=
  (copied carName (lapsAfter prev) prev cars).getD prev

def lapHistory (frames : List (List Json)) : LapHistory := frames.foldl updateLapHistory .empty

def lapsOf (history : LapHistory) (driver : String) : List Rat := (history.get? driver).getD []

/-- The last lap that a frame gives a driver; zero is none. -/
def lapReading (driver : String) (cars : List Json) : Option Rat :=
  ((cars.find? fun car => carName car = driver).bind (numberOf "lastLapMs")).filter (· ≠ 0)

theorem lapsAfter_eq (prev : LapHistory) (car : Json) :
    lapsAfter prev car = ((numberOf "lastLapMs" car).filter (· ≠ 0)).bind fun ms =>
      if (lapsOf prev (carName car)).getLast? = some ms then none
      else some (keepLast maxLapHistory (lapsOf prev (carName car) ++ [ms])) := by
  rw [lapsAfter]
  cases numberOf "lastLapMs" car with
  | none => simp
  | some ms =>
      by_cases zero : ms = 0
      · simp [zero, Option.filter]
      · by_cases same : (lapsOf prev (carName car)).getLast? = some ms
        · have recorded := same
          rw [lapsOf] at recorded
          simp [zero, same, recorded, Option.filter]
        · rw [lapsOf] at same
          simp [zero, same, Option.filter, lapsOf]

/-- A frame records the driver's time when it differs from the one recorded last. -/
theorem lapsOf_updateLapHistory (prev : LapHistory) {cars : List Json}
    (distinct : (cars.map carName).Nodup) (driver : String) :
    lapsOf (updateLapHistory prev cars) driver =
      match lapReading driver cars with
      | none => lapsOf prev driver
      | some ms =>
          if (lapsOf prev driver).getLast? = some ms then lapsOf prev driver
          else keepLast maxLapHistory (lapsOf prev driver ++ [ms]) := by
  rw [lapsOf, updateLapHistory, get?_copied distinct]
  cases found : cars.find? fun car => carName car = driver with
  | none => simp [lapReading, found, lapsOf]
  | some car =>
      have named : carName car = driver := by simpa using List.find?_some found
      have reading : lapReading driver cars = (numberOf "lastLapMs" car).filter (· ≠ 0) := by
        rw [lapReading, found, Option.bind_some]
      rw [Option.bind_some, lapsAfter_eq, named, reading]
      cases (numberOf "lastLapMs" car).filter (· ≠ 0) with
      | none => rfl
      | some ms =>
          rw [Option.bind_some]
          by_cases same : (lapsOf prev driver).getLast? = some ms
          · simp only [same, if_true, Option.none_or]
            rfl
          · simp only [same, if_false, Option.some_or, Option.getD_some]

/-- The history is the newest of the times without their repetitions. -/
theorem lapHistory_eq {frames : List (List Json)} (distinct : ∀ cars ∈ frames, (cars.map carName).Nodup)
    (driver : String) : lapsOf (lapHistory frames) driver =
      keepLast maxLapHistory (collapse (frames.filterMap (lapReading driver))) := by
  induction frames using List.reverseRecOn with
  | nil => rfl
  | append_singleton before frame ih =>
      have earlier := ih fun cars member => distinct cars (List.mem_append_left _ member)
      have folded : lapHistory (before ++ [frame]) = updateLapHistory (lapHistory before) frame := by
        simp [lapHistory]
      have room : 0 < maxLapHistory := by decide
      rw [folded, lapsOf_updateLapHistory _ (distinct frame (by simp)), earlier, List.filterMap_append]
      cases reading : lapReading driver frame with
      | none => simp [reading]
      | some ms =>
          simp only [reading, List.filterMap_cons, List.filterMap_nil, collapse_concat,
            getLast?_keepLast room, appendNew]
          split
          · rfl
          · exact keepLast_append_keepLast _ _ _

/-- A completed lap: its time and the lap that is being driven, on every frame up to the next one. -/
structure Completion (driver : String) where
  ms : Rat
  lap : Int
  frames : List (List Json)
  positive : 0 < ms
  broadcast : frames ≠ []
  shows : ∀ cars ∈ frames, ∃ car, cars.find? (fun car => carName car = driver) = some car ∧
    numberOf "lastLapMs" car = some ms ∧ numberOf "lap" car = some (lap : Rat)
  distinct : ∀ cars ∈ frames, (cars.map carName).Nodup

/-- What a driver's laps look like on the wire: frames without a time, then lap after lap. -/
structure LapRun (driver : String) where
  opening : List (List Json)
  untimed : ∀ cars ∈ opening, lapReading driver cars = none
  distinct : ∀ cars ∈ opening, (cars.map carName).Nodup
  completions : List (Completion driver)
  advancing : completions.Pairwise fun earlier later => earlier.lap < later.lap

def LapRun.frames {driver : String} (run : LapRun driver) : List (List Json) :=
  run.opening ++ run.completions.flatMap Completion.frames

def LapRun.times {driver : String} (run : LapRun driver) : List Rat := run.completions.map Completion.ms

section

variable {driver : String}

theorem Completion.readings (completion : Completion driver) :
    ∃ count, completion.frames.filterMap (lapReading driver) =
      List.replicate (count + 1) completion.ms := by
  have each : ∀ cars ∈ completion.frames, lapReading driver cars = some completion.ms := by
    intro cars member
    obtain ⟨car, found, time, -⟩ := completion.shows cars member
    simp [lapReading, found, time, completion.positive.ne']
  have whole (frames : List (List Json)) (each : ∀ cars ∈ frames, lapReading driver cars = some completion.ms) :
      frames.filterMap (lapReading driver) = List.replicate frames.length completion.ms := by
    rw [List.filterMap_congr each]
    simp
  have some := List.length_pos_iff.mpr completion.broadcast
  exact ⟨completion.frames.length - 1, by rw [whole _ each, Nat.sub_add_cancel some]⟩

theorem collapse_completions (completions : List (Completion driver)) :
    collapse ((completions.flatMap Completion.frames).filterMap (lapReading driver)) =
      collapse (completions.map Completion.ms) := by
  induction completions using List.reverseRecOn with
  | nil => rfl
  | append_singleton before completion ih =>
      obtain ⟨count, readings⟩ := completion.readings
      rw [List.flatMap_append, List.filterMap_append, List.map_append, List.flatMap_singleton, readings,
        collapse_append_replicate, ih, List.map_singleton, collapse_concat]

/-- The history is the last eight times exactly when no two neighbours among those are equal. -/
theorem lapHistory_iff (run : LapRun driver) :
    lapsOf (lapHistory run.frames) driver = keepLast maxLapHistory run.times ↔
      (keepLast maxLapHistory run.times).IsChain (· ≠ ·) := by
  have distinct : ∀ cars ∈ run.frames, (cars.map carName).Nodup := by
    intro cars member
    rcases List.mem_append.mp member with opening | later
    · exact run.distinct cars opening
    · obtain ⟨completion, -, listed⟩ := List.mem_flatMap.mp later
      exact completion.distinct cars listed
  have silent : run.opening.filterMap (lapReading driver) = [] := by
    rw [List.filterMap_eq_nil_iff]
    exact run.untimed
  rw [lapHistory_eq distinct, LapRun.frames, List.filterMap_append, silent, List.nil_append,
    collapse_completions]
  exact keepLast_collapse_iff maxLapHistory run.times

end

def timedCar (lap : Int) (ms : Rat) : Json :=
  .obj [("driverNum", .int 4), ("lap", .int lap), ("lastLapMs", .num ⟨ms, true⟩)]

theorem carName_timedCar (lap : Int) (ms : Rat) : carName (timedCar lap ms) = "4" := by
  change numberToString ((4 : Int) : Rat) = "4"
  decide +kernel

def shownLap (lap : Int) (ms : Rat) (positive : 0 < ms) : Completion "4" where
  ms := ms
  lap := lap
  frames := [[timedCar lap ms]]
  positive := positive
  broadcast := nofun
  shows := by
    intro cars member
    rw [List.mem_singleton.mp member]
    exact ⟨timedCar lap ms, by simp [carName_timedCar], rfl, rfl⟩
  distinct := by simp

def evenLaps : LapRun "4" where
  opening := []
  untimed := by simp
  distinct := by simp
  completions := [shownLap 2 90000 (by decide), shownLap 3 90000 (by decide)]
  advancing := by decide

/-- The second of them is taken for the first sent once more. -/
theorem even_lap_is_lost : lapsOf (lapHistory evenLaps.frames) "4" ≠ keepLast maxLapHistory evenLaps.times := by
  have distinct : ∀ cars ∈ evenLaps.frames, (cars.map carName).Nodup := by
    intro cars member
    obtain ⟨completion, -, listed⟩ := List.mem_flatMap.mp member
    exact completion.distinct cars listed
  have sent : evenLaps.frames.filterMap (lapReading "4") = [90000, 90000] := by
    decide +kernel
  rw [lapHistory_eq distinct, sent]
  decide +kernel

end RaceTracker.Web
