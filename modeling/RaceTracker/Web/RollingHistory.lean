import RaceTracker.Lib.Passes
import RaceTracker.Web.LapHistory
import RaceTracker.Web.RunningOrder

namespace RaceTracker.Web

open RaceTracker.Lib

/-! The histories that the board keeps of each driver, through one hook that starts them afresh. -/

/-- What the hook's effect depends on: `[state.rev, state.session]`. -/
def historyKey (state : RaceState) : Rat × String := (state.rev, state.session)

/-- Another session, or a clock that has gone back. -/
def NewHistory (last state : RaceState) : Prop := last.session ≠ state.session ∨ state.timeMs < last.timeMs

instance : DecidableRel NewHistory := fun _ _ => inferInstanceAs (Decidable (_ ∨ _))

structure Rolling (H : Type) where
  hist : H
  histRef : H
  sessionRef : String
  timeMsRef : Rat
  /-- The dependencies of the effect's last run. -/
  deps : Option (Rat × String)

namespace Rolling

variable {H : Type} (start : H) (update : H → List Json → H)

def initial (state : RaceState) : Rolling H where
  hist := start
  histRef := start
  sessionRef := state.session
  timeMsRef := state.timeMs
  deps := none

def effect (rolling : Rolling H) (state : RaceState) : Rolling H :=
  let fresh := rolling.sessionRef ≠ state.session ∨ state.timeMs < rolling.timeMsRef
  let next := update (if fresh then start else rolling.histRef) (objectValues state.cars)
  { hist := next
    histRef := next
    sessionRef := if fresh then state.session else rolling.sessionRef
    timeMsRef := state.timeMs
    deps := some (historyKey state) }

def render (rolling : Rolling H) (state : RaceState) : Rolling H :=
  if rolling.deps = some (historyKey state) then rolling else rolling.effect start update state

/-- `useRollingHistory`, mounted on a state and rendered with others after it. -/
def useRollingHistory (first : RaceState) (rest : List RaceState) : H :=
  ((first :: rest).foldl (render start update) (initial start first)).hist

/-- The hook as one that follows the board. -/
def follower : Follower RaceState (Rat × String) H (Rolling H) where
  step := render start update
  held := hist
  key := deps
  Knows rolling state := rolling.histRef = rolling.hist ∧ rolling.sessionRef = state.session ∧
    rolling.timeMsRef = state.timeMs

theorem follows : (follower start update).Follows historyKey NewHistory
    (fun hist state => update hist (objectValues state.cars)) start where
  skips same := if_pos same
  takes := by
    intro rolling last state knows new
    obtain ⟨held, session, timeMs⟩ := knows
    have fresh : (rolling.sessionRef ≠ state.session ∨ state.timeMs < rolling.timeMsRef) ↔
        NewHistory last state := by
      rw [NewHistory, session, timeMs]
    have ran : (follower start update).step rolling state = rolling.effect start update state := if_neg new
    rw [ran, effect]
    refine ⟨?_, rfl, rfl, ?_, rfl⟩
    · change update _ _ = _
      simp only [fresh, held]
      rfl
    · change (if _ then state.session else rolling.sessionRef) = _
      split
      · rfl
      · rename_i kept
        exact not_not.mp (not_or.mp kept).1

end Rolling

/-- The states that count: each that the hook has run for since the history was last a new one. -/
def remembered (states : List RaceState) : List RaceState := sinceBreak NewHistory (taken historyKey states)

theorem remembered_subset (states : List RaceState) : remembered states ⊆ states := by
  obtain ⟨_, before, whole, _⟩ := sinceBreak_spec NewHistory (taken historyKey states)
  intro state member
  refine (taken_sublist historyKey states).subset ?_
  rw [whole]
  exact List.mem_append_right _ member

theorem useRollingHistory_eq {H : Type} (start : H) (update : H → List Json → H) (first : RaceState)
    (rest : List RaceState) : Rolling.useRollingHistory start update first rest =
      (remembered (first :: rest)).foldl (fun hist state => update hist (objectValues state.cars)) start :=
  (Rolling.follows start update).run rfl rfl ⟨rfl, rfl, rfl⟩ (by simp [NewHistory]) rest

structure GapEntry where
  lap : Rat
  gaps : List (Option Rat)

abbrev GapHistory := Dict String GapEntry

def maxGapHistory : Nat := 8

/-- What one car writes: `none` where the loop goes on. -/
def gapsAfter (prev : GapHistory) (car : Json) : Option GapEntry :=
  match numberOf "lap" car with
  | none => none
  | some lap =>
      match prev.get? (carName car) with
      | none => some ⟨lap, keepLast maxGapHistory [numberOf "gapMs" car]⟩
      | some entry =>
          if lap ≤ entry.lap then none
          else some ⟨lap, keepLast maxGapHistory (entry.gaps ++ [numberOf "gapMs" car])⟩

/-- `next ?? prev` -/
def updateGapHistory (prev : GapHistory) (cars : List Json) : GapHistory :=
  (copied carName (gapsAfter prev) prev cars).getD prev

/-- The lap and the gap that a frame gives a driver. -/
def gapReading (driver : String) (cars : List Json) : Option (Rat × Option Rat) := do
  let car ← cars.find? fun car => carName car = driver
  let lap ← numberOf "lap" car
  return (lap, numberOf "gapMs" car)

/-- The readings whose lap is above all that were recorded before them. -/
def lapStarts (readings : List (Rat × Option Rat)) : List (Rat × Option Rat) :=
  readings.foldl (fun log reading =>
    if ∀ earlier ∈ log, earlier.1 < reading.1 then log ++ [reading] else log) []

section

variable {readings : List (Rat × Option Rat)} {reading : Rat × Option Rat}

theorem lapStarts_concat (readings : List (Rat × Option Rat)) (reading : Rat × Option Rat) :
    lapStarts (readings ++ [reading]) =
      if ∀ earlier ∈ lapStarts readings, earlier.1 < reading.1 then lapStarts readings ++ [reading]
      else lapStarts readings := by
  rw [lapStarts, List.foldl_append]
  rfl

theorem lapStarts_climb (readings : List (Rat × Option Rat)) :
    (lapStarts readings).Pairwise fun earlier later => earlier.1 < later.1 := by
  induction readings using List.reverseRecOn with
  | nil => exact .nil
  | append_singleton readings reading ih =>
      rw [lapStarts_concat]
      split
      · rename_i above
        refine List.pairwise_append.mpr ⟨ih, List.pairwise_singleton .., fun earlier member later newest => ?_⟩
        exact List.mem_singleton.mp newest ▸ above earlier member
      · exact ih

/-- The newest recorded lap is the highest of all. -/
theorem le_newest_lap (member : reading ∈ readings) :
    ∃ newest ∈ (lapStarts readings).getLast?, reading.1 ≤ newest.1 := by
  induction readings using List.reverseRecOn with
  | nil => cases member
  | append_singleton readings last ih =>
      rw [lapStarts_concat]
      split
      · rename_i above
        refine ⟨last, List.getLast?_concat .., ?_⟩
        rcases List.mem_append.mp member with older | same
        · obtain ⟨newest, ends, below⟩ := ih older
          exact below.trans (above newest (List.mem_of_getLast? ends)).le
        · rw [List.mem_singleton.mp same]
      · rename_i below
        push Not at below
        obtain ⟨earlier, listed, below⟩ := below
        rcases List.mem_append.mp member with older | same
        · exact ih older
        · rw [List.mem_singleton.mp same]
          obtain ⟨newest, ends⟩ := Option.ne_none_iff_exists'.mp
            (mt List.getLast?_eq_none_iff.mp (List.ne_nil_of_mem listed))
          refine ⟨newest, ends, below.trans ?_⟩
          obtain ⟨front, whole⟩ := List.getLast?_eq_some_iff.mp ends
          have climbs := lapStarts_climb readings
          rw [whole] at climbs listed
          rcases List.mem_append.mp listed with front | last
          · exact ((List.pairwise_append.mp climbs).2.2 earlier front newest (List.mem_singleton_self _)).le
          · rw [List.mem_singleton.mp last]

theorem above_all_iff {newest : Rat × Option Rat} (ends : newest ∈ (lapStarts readings).getLast?) :
    (∀ earlier ∈ lapStarts readings, earlier.1 < reading.1) ↔ newest.1 < reading.1 := by
  refine ⟨fun above => above newest (List.mem_of_getLast? ends), fun above earlier member => ?_⟩
  obtain ⟨front, whole⟩ := List.getLast?_eq_some_iff.mp ends
  have climbs := lapStarts_climb readings
  rw [whole] at climbs member
  rcases List.mem_append.mp member with older | last
  · exact ((List.pairwise_append.mp climbs).2.2 earlier older newest (List.mem_singleton_self _)).trans above
  · rw [List.mem_singleton.mp last]
    exact above

end

/-- What is remembered of the laps that have been recorded. -/
def gapEntry (recorded : List (Rat × Option Rat)) : Option GapEntry :=
  recorded.getLast?.map fun newest => ⟨newest.1, keepLast maxGapHistory (recorded.map Prod.snd)⟩

theorem get?_updateGapHistory (prev : GapHistory) {cars : List Json} (distinct : (cars.map carName).Nodup)
    {driver : String} {readings : List (Rat × Option Rat)} (known : prev.get? driver = gapEntry (lapStarts readings)) :
    (updateGapHistory prev cars).get? driver =
      gapEntry (lapStarts (readings ++ (gapReading driver cars).toList)) := by
  rw [updateGapHistory, get?_copied distinct, gapReading]
  cases found : cars.find? fun car => carName car = driver with
  | none => simpa using known
  | some car =>
      have named : carName car = driver := by simpa using List.find?_some found
      rw [Option.bind_some, gapsAfter, named]
      cases counted : numberOf "lap" car with
      | none => simpa [counted] using known
      | some lap =>
          simp only [Option.pure_def, Option.bind_eq_bind, Option.bind_some, counted, Option.toList_some]
          rw [known, lapStarts_concat, gapEntry]
          cases ends : (lapStarts readings).getLast? with
          | none =>
              rw [List.getLast?_eq_none_iff.mp ends]
              simp [gapEntry]
          | some newest =>
              by_cases stale : lap ≤ newest.1
              · rw [if_neg (mt (above_all_iff ends).mp (not_lt.mpr stale))]
                simp [stale, gapEntry, ends]
              · rw [if_pos ((above_all_iff ends).mpr (not_le.mp stale))]
                have kept := keepLast_append_keepLast maxGapHistory ((lapStarts readings).map Prod.snd)
                  [numberOf "gapMs" car]
                simp [stale, gapEntry, kept]

theorem gapHistory_eq {frames : List (List Json)} (distinct : ∀ cars ∈ frames, (cars.map carName).Nodup)
    (driver : String) : (frames.foldl updateGapHistory .empty).get? driver =
      gapEntry (lapStarts (frames.filterMap (gapReading driver))) := by
  induction frames using List.reverseRecOn with
  | nil => rfl
  | append_singleton frames cars ih =>
      have earlier := ih fun other member => distinct other (List.mem_append_left _ member)
      rw [List.foldl_append, List.foldl_cons, List.foldl_nil,
        get?_updateGapHistory _ (distinct cars (by simp)) earlier, List.filterMap_append]
      cases reading : gapReading driver cars <;> simp [reading]

/-- What each driver's histories hold, from the frames of one pass. -/
structure Remembers (laps : LapHistory) (gaps : GapHistory) (frames : List (List Json)) (driver : String) :
    Prop where
  laps : lapsOf laps driver = keepLast maxLapHistory (collapse (frames.filterMap (lapReading driver)))
  gaps : gaps.get? driver = gapEntry (lapStarts (frames.filterMap (gapReading driver)))
  climbs : (lapStarts (frames.filterMap (gapReading driver))).Pairwise fun earlier later => earlier.1 < later.1
  newest : ∀ reading ∈ frames.filterMap (gapReading driver),
    ∃ newest ∈ (lapStarts (frames.filterMap (gapReading driver))).getLast?, reading.1 ≤ newest.1

/-- Both histories are those of the pass that is on: since the session changed or the clock went back,
whatever was shown before; of the states that follow only those count that have a revision of their own. -/
theorem rolling_histories (first : RaceState) (rest : List RaceState)
    (keyed : ∀ state ∈ first :: rest, WellKeyed state.cars) :
    ((remembered (first :: rest)).IsChain fun last next => ¬ NewHistory last next) ∧
    (∃ before, taken historyKey (first :: rest) = before ++ remembered (first :: rest) ∧
      ∀ last ∈ before.getLast?, ∀ opens ∈ (remembered (first :: rest)).head?, NewHistory last opens) ∧
    ∀ driver, Remembers (Rolling.useRollingHistory .empty updateLapHistory first rest)
      (Rolling.useRollingHistory .empty updateGapHistory first rest)
      ((remembered (first :: rest)).map fun state => objectValues state.cars) driver := by
  obtain ⟨unbroken, before⟩ := sinceBreak_spec NewHistory (taken historyKey (first :: rest))
  refine ⟨unbroken, before, fun driver => ?_⟩
  have distinct : ∀ cars ∈ (remembered (first :: rest)).map fun state => objectValues state.cars,
      (cars.map carName).Nodup := by
    intro cars member
    obtain ⟨state, listed, rfl⟩ := List.mem_map.mp member
    have own := keyed state (remembered_subset _ listed)
    exact (objectValues_names own).nodup_iff.mpr state.cars.distinct
  have laps := lapHistory_eq distinct driver
  have gaps := gapHistory_eq distinct driver
  rw [lapHistory, List.foldl_map, ← useRollingHistory_eq] at laps
  rw [List.foldl_map, ← useRollingHistory_eq] at gaps
  exact ⟨laps, gaps, lapStarts_climb _, fun _ member => le_newest_lap member⟩

def gapCar (lap gapMs : Int) : Json :=
  .obj [("driverNum", .int 4), ("lap", .int lap), ("gapMs", .int gapMs)]

def gapBoard (rev timeMs lap gapMs : Int) : RaceState :=
  { emptyState with session := "monza", rev := rev, timeMs := timeMs, cars := ⟨[("4", gapCar lap gapMs)], by simp⟩ }

theorem gapBoard_keyed (rev timeMs lap gapMs : Int) : WellKeyed (gapBoard rev timeMs lap gapMs).cars := by
  have four : numberToString ((4 : Int) : Rat) = "4" := by decide +kernel
  intro key car found
  have listed : (key, car) ∈ [("4", gapCar lap gapMs)] := Dict.mem_of_get? found
  cases List.mem_singleton.mp listed
  exact ⟨_, rfl, four⟩

theorem objectValues_gapBoard (rev timeMs lap gapMs : Int) :
    objectValues (gapBoard rev timeMs lap gapMs).cars = [gapCar lap gapMs] := by
  have index : arrayIndex "4" = some 4 := by decide +kernel
  simp [objectValues, gapBoard, index]

/-- The clip begins again, and goes on for two laps. -/
theorem rolling_histories_wrap :
    ((Rolling.useRollingHistory .empty updateGapHistory (gapBoard 1 9000 5 900)
      [gapBoard 2 100 2 700, gapBoard 3 200 2 650, gapBoard 4 300 3 600]).get? "4").map
        (fun entry => (entry.lap, entry.gaps)) = some (3, [some 700, some 600]) := by
  have keyed : ∀ state ∈ [gapBoard 1 9000 5 900, gapBoard 2 100 2 700, gapBoard 3 200 2 650,
      gapBoard 4 300 3 600], WellKeyed state.cars := by
    simp [gapBoard_keyed]
  have pass : remembered [gapBoard 1 9000 5 900, gapBoard 2 100 2 700, gapBoard 3 200 2 650,
      gapBoard 4 300 3 600] = [gapBoard 2 100 2 700, gapBoard 3 200 2 650, gapBoard 4 300 3 600] := by
    rfl
  have held := (rolling_histories _ _ keyed).2.2 "4"
  rw [pass] at held
  rw [held.gaps]
  simp only [List.map_cons, List.map_nil, objectValues_gapBoard]
  decide +kernel

end RaceTracker.Web
