import RaceTracker.Bake.Distance
import RaceTracker.Bake.RaceControl
import RaceTracker.Bake.Timing
import RaceTracker.Ingest.Cars

namespace RaceTracker.Bake

open RaceTracker.Lib RaceTracker.Model RaceTracker.Ingest

/-! The frames of a clip, written one after another from the tables of the session.

The positions are given as the recorder has normalised them, and the arc lengths as it has projected
them.  The tables of a driver who has none are empty.
-/

/-- The resampled telemetry; the five arrays come together or not at all. -/
structure Telemetry where
  speed : List Int
  gear : List Int
  throttle : List Int
  brake : List Int
  drs : List Bool

/-- A driver in the window: one entry for each frame in `points`, `status`, `tel` and `sRaw`. -/
structure DriverFrames where
  code : String
  team : String
  points : List Point
  status : List String
  tel : Option Telemetry
  sRaw : List Rat
  /-- `order_lookup` and `lapnum_lookup`: times, and the values that hold from then on. -/
  order : List Rat × List Int
  lapNumbers : List Rat × List Int
  laps : List Lap
  pitWindows : List (Rat × Rat)

/-- What the frames are written from. -/
structure Tables where
  tGridS : List Rat
  lapLengthM : Rat
  drivers : Dict Int DriverFrames
  rcMsgs : List RcMessage
  /-- The times of the weather table, and its rounded readings. -/
  wxTimes : List Rat
  wxValues : List Weather

structure RecordedFrame where
  rev : Nat
  timeMs : Int
  cars : List Car
  messages : List RcEntry
  weather : Option Weather

def positive (value : Int) : Option Int := if 0 < value then some value else none

namespace DriverFrames

variable (driver : DriverFrames)

def getPosition (tS : Rat) : Int :=
  match driver.order.2 with
  | [] => unknownPos
  | first :: _ => stepValue driver.order.1 driver.order.2 tS first

def lapNumber (tS : Rat) : Int :=
  match driver.lapNumbers.2 with
  | [] => 1
  | first :: _ => stepValue driver.lapNumbers.1 driver.lapNumbers.2 tS first

/-- `_in_pit`. -/
def pitted (tS : Rat) : Bool := driver.pitWindows.any fun window => window.1 ≤ tS ∧ tS ≤ window.2

def statusAt (status : String) (tS : Rat) : String :=
  if driver.pitted tS then "Pit" else if status = "OnTrack" then "OnTrack" else "Out"

/-- The car before its frame ranks it; a number that is not positive is left out. -/
def car (driverNum : Int) (i : Nat) (tS : Rat) : Except Raised Car := do
  let p ← item driver.points i
  let status ← item driver.status i
  let timing := getTiming driver.laps tS
  let car : Car := {
    driverNum
    code := .str driver.code
    team := .str driver.team
    pos := some (driver.getPosition tS)
    lap := some (driver.lapNumber tS)
    p
    status := some (driver.statusAt status tS)
    tyre := if timing.tyre = "" then none else some timing.tyre
    tyreAge := positive timing.tyreAge
    lastLapMs := positive timing.lastLapMs
    bestLapMs := positive timing.bestLapMs
    s1Ms := positive timing.s1Ms
    s2Ms := positive timing.s2Ms
    s3Ms := positive timing.s3Ms
    gapMs := none
    gapLaps := none
    intMs := none
    speed := none
    gear := none
    throttle := none
    brake := none
    drs := none }
  match driver.tel with
  | none => return car
  | some tel =>
      let speed ← item tel.speed i
      let gear ← item tel.gear i
      let throttle ← item tel.throttle i
      let brake ← item tel.brake i
      let drs ← item tel.drs i
      return { car with
        speed := positive speed
        gear := positive gear
        throttle := positive throttle
        brake := positive brake
        drs := if drs then some true else none }

end DriverFrames

/-- A driver's `race_dist` and `pit_frames`. -/
structure Curve where
  dists : List Rat
  inPit : List Bool

def DriverFrames.curve (driver : DriverFrames) (tGridS : List Rat) (lapLengthM : Rat) :
    Except Raised Curve := do
  let t0 ← item tGridS 0
  let inPit := tGridS.map driver.pitted
  return ⟨raceDist (driver.lapNumber t0) (lapLengthM * 10) driver.sRaw inPit, inPit⟩

/-- Whole laps behind, with a tenth of a lap to spare. -/
def lapDeficit (metresBehind lapLength : Rat) : Int :=
  if lapLength ≤ 0 ∨ metresBehind ≤ 0 then 0 else ⌊metresBehind / lapLength + 1 / 10⌋

/-- The classified leader of a frame, as the others are measured against it. -/
structure Leader where
  hasLap : Bool
  /-- Nothing for an empty curve. -/
  curve : Option (List Rat)
  dist : Rat

def leaderOf (i : Nat) : List (Curve × Car) → Except Raised Leader
  | [] => .ok ⟨false, none, 0⟩
  | (curve, car) :: _ =>
      if curve.dists = [] then .ok ⟨car.lastLapMs.isSome, none, 0⟩
      else do
        let dist ← item curve.dists i
        return ⟨car.lastLapMs.isSome, some curve.dists, dist⟩

section

variable (tGridS : List Rat) (lapLengthM : Rat) (i : Nat) (tS : Rat) (leader : Leader)

/-- How long ago the leader was where the car is, if that may be quoted. -/
def leaderGap (quotable : Bool) (dCar : Rat) : Except Raised (Option Int) :=
  match leader.curve with
  | some curve => if quotable then behindMs tGridS curve tS dCar else .ok none
  | none => .ok none

/-- How long ago the car ahead was there; where its curve does not reach back far enough, the
difference of the two gaps. -/
def interval (quotable : Bool) (dCar : Rat) (gap : Option Int) :
    Option ((Curve × Car) × Option Int) → Except Raised (Option Int)
  | none => .ok none
  | some ((ahead, aheadCar), aheadGap) => do
      if ¬(quotable ∧ aheadCar.lastLapMs.isSome) then return none
      if ← item ahead.inPit i then return none
      match ← behindMs tGridS ahead.dists tS dCar with
      | some int => return some int
      | none => return do
          let own ← gap
          let other ← aheadGap
          return own - other

def withGaps (car : Car) (gap : Option Int) (gapLaps : Int) (int : Option Int) : Car :=
  { car with
    gapMs := gap.bind positive
    gapLaps := positive gapLaps
    intMs := int.bind positive }

/-- The gap pass, from P1 to the last car. -/
def gapPass : Option ((Curve × Car) × Option Int) → List (Curve × Car) → Except Raised (List Car)
  | _, [] => .ok []
  | ahead, (curve, car) :: rest => do
      let dCar ← item curve.dists i
      let inPit ← item curve.inPit i
      let quotable := car.lastLapMs.isSome && leader.hasLap && !inPit
      let gap ← leaderGap tGridS tS leader quotable dCar
      let int ← interval tGridS i tS quotable dCar gap ahead
      let car := withGaps car gap (lapDeficit (leader.dist - dCar) lapLengthM) int
      let later ← gapPass (some ((curve, car), gap)) rest
      return car :: later

end

def Tables.curves (tables : Tables) : Except Raised (List (Int × DriverFrames × Curve)) :=
  tables.drivers.entries.mapM fun entry => do
    return (entry.1, entry.2, ← entry.2.curve tables.tGridS tables.lapLengthM)

/-- The cars of one frame: in the order of their numbers, ranked, and then given their gaps. -/
def Tables.frameCars (tables : Tables) (curves : List (Int × DriverFrames × Curve)) (i : Nat)
    (tS : Rat) : Except Raised (List Car) := do
  let cars ← (curves.mergeSort fun first second => first.1 ≤ second.1).mapM fun entry => do
    return (entry.2.2, ← entry.2.1.car entry.1 i tS)
  let cars := reconcile cars
  let leader ← leaderOf i cars
  gapPass tables.tGridS tables.lapLengthM i tS leader none cars

def Tables.weatherAt (tables : Tables) (tS : Rat) : Except Raised (Option Weather) :=
  if tables.wxTimes = [] then .ok none
  else do return some (← item tables.wxValues (nearestIndex tables.wxTimes tS))

/-- Frame after frame; a reading of the weather goes out when it is not the last one that did. -/
def Tables.emit (tables : Tables) (curves : List (Int × DriverFrames × Curve)) :
    Nat → Option Weather → List Rat → Except Raised (List RecordedFrame)
  | _, _, [] => .ok []
  | i, last, tS :: rest => do
      let cars ← tables.frameCars curves i tS
      let wx ← tables.weatherAt tS
      let included := wx.isSome && (i == 0 || wx != last)
      let frame : RecordedFrame := {
        rev := i + 1
        timeMs := roundHalfEven (tS * 1000)
        cars
        messages := ((msgsByIdx tables.tGridS tables.rcMsgs).get? i).getD []
        weather := if included then wx else none }
      let later ← tables.emit curves (i + 1) (if included then wx else last) rest
      return frame :: later

def Tables.frames (tables : Tables) : Except Raised (List RecordedFrame) := do
  let curves ← tables.curves
  tables.emit curves 0 none tables.tGridS

end RaceTracker.Bake
