import RaceTracker.Lib.Dict
import RaceTracker.Lib.Double

namespace RaceTracker.Model

open RaceTracker.Lib

/-! The wire types every layer serialises and parses.

Go's `int` is 64 bits wide.  A slice or map behind `omitempty` is a plain list or
dictionary, since nil and empty are written alike; where nil shows, as `null` or
as a map that cannot be written, the field is an `Option`.
-/

structure Point where
  x : F64
  y : F64
deriving DecidableEq

structure CarState where
  driverNum : Int64
  code : String
  team : String
  pos : Int64
  lap : Int64
  p : Point
  status : String
  tyre : String
  tyreAge : Int64
  lastLapMs : Int64
  bestLapMs : Int64
  s1Ms : Int64
  s2Ms : Int64
  s3Ms : Int64
  gapMs : Int64
  gapLaps : Int64
  intMs : Int64
  speed : Int64
  gear : Int64
  throttle : Int64
  brake : Int64
  drs : Bool
deriving DecidableEq

structure RaceControlMessage where
  rev : Int64
  t : Int64
  category : String
  message : String
  driver : Option Int64
deriving DecidableEq

structure RadioMessage where
  timeMs : Int64
  driverNum : Int64
  clip : String
deriving DecidableEq

structure Stint where
  compound : String
  startLap : Int64
  endLap : Int64
deriving DecidableEq

structure PitStop where
  lap : Int64
  durationS : F64
deriving DecidableEq

structure PedalTrace where
  throttle : Option (List Int64)
  brake : Option (List Int64)
  gear : Option (List Int64)
deriving DecidableEq

structure Corner where
  number : Int64
  point : Point
  letter : String
deriving DecidableEq

structure Weather where
  airTempC : F64
  trackTempC : F64
  rainfall : Bool
deriving DecidableEq

structure Snapshot where
  sessionKey : String
  mode : String
  label : String
  track : List Point
  corners : List Corner
  cars : Option (Dict Int64 CarState)
  messages : List RaceControlMessage
  radio : List RadioMessage
  lapTrace : Dict Int64 (Option (List Int64))
  totalLaps : Int64
  stints : Dict Int64 (Option (List Stint))
  pitStops : Dict Int64 (Option (List PitStop))
  pedalTraces : Dict Int64 PedalTrace
  sectorDominance : List Int64
  weather : Option Weather
  timeMs : Int64
  rev : Int64
deriving DecidableEq

structure Frame where
  sessionKey : String
  rev : Int64
  t : Int64
  timeMs : Int64
  cars : Option (List CarState)
  messages : List RaceControlMessage
  radio : List RadioMessage
  weather : Option Weather
deriving DecidableEq

/-- An empty snapshot ready to receive frames. -/
def newSnapshot (session mode label : String) : Snapshot where
  sessionKey := session
  mode := mode
  label := label
  track := []
  corners := []
  cars := some .empty
  messages := []
  radio := []
  lapTrace := .empty
  totalLaps := 0
  stints := .empty
  pitStops := .empty
  pedalTraces := .empty
  sectorDominance := []
  weather := none
  timeMs := 0
  rev := 0

end RaceTracker.Model
