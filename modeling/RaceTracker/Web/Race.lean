import RaceTracker.Lib.Json
import RaceTracker.Lib.Outcome

namespace RaceTracker.Web

open RaceTracker.Lib

/-! The browser's race state: wire messages, `parseMsg` and the `applyMessage` reducer.

Everything here is a JavaScript value, so the parts nobody validates stay `Json`.
An absent property is `none`, which is not the same as `null`.
-/

inductive TypeError where
  | propertyOfNull
  | objectToPrimitive
deriving DecidableEq, Repr

/-- Rolling cap on the message buffer. -/
def maxMessages : Nat := 30

/-- How far the clock has to jump backwards before it counts as a clip wrap. -/
def loopRewindMs : Rat := 5000

structure RaceState where
  session : String
  mode : String
  label : String
  track : List Json
  corners : List Json
  cars : Dict String Json
  timeMs : Rat
  rev : Rat
  radio : List Json
  lapTrace : Json
  totalLaps : Json
  stints : Json
  pitStops : Json
  pedalTraces : Json
  sectorDominance : List Json
  weather : Option Json
  messages : List Json
  snapshotSeq : Nat
  loopSeq : Nat

def emptyState : RaceState where
  session := ""
  mode := ""
  label := ""
  track := []
  corners := []
  cars := .empty
  timeMs := 0
  rev := 0
  radio := []
  lapTrace := .obj []
  totalLaps := .int 0
  stints := .obj []
  pitStops := .obj []
  pedalTraces := .obj []
  sectorDominance := []
  weather := none
  messages := []
  snapshotSeq := 0
  loopSeq := 0

structure SnapshotData where
  session : String
  mode : String
  label : String
  track : Option (List Json)
  corners : Option (List Json)
  cars : List (String × Json)
  timeMs : Rat
  rev : Rat
  radio : Option (List Json)
  lapTrace : Option Json
  totalLaps : Option Json
  stints : Option Json
  pitStops : Option Json
  pedalTraces : Option Json
  sectorDominance : Option (List Json)
  weather : Option Json
  messages : Option (List Json)

structure FrameData where
  rev : Rat
  timeMs : Rat
  cars : Option (List Json)
  messages : Option (List Json)
  weather : Option Json
  radio : Option (List Json)

inductive Msg where
  | snapshot (data : SnapshotData)
  | frame (data : FrameData)

def asString : Json → Option String
  | .str text => some text
  | _ => none

def asNumber : Json → Option Rat
  | .num number => some number.value
  | _ => none

def asArray : Json → Option (List Json)
  | .arr items => some items
  | _ => none

/-- An object that is neither `null` nor an array. -/
def asMembers : Json → Option (List (String × Json))
  | .obj members => some members
  | _ => none

def asObject (json : Json) : Option Json := (asMembers json).map .obj

def isRadioRef (json : Json) : Bool :=
  ((json.get? "timeMs").bind asNumber).isSome && ((json.get? "driverNum").bind asNumber).isSome &&
    ((json.get? "clip").bind asString).isSome

def asRadioRefs (json : Json) : Option (List Json) :=
  (asArray json).filter fun items => items.all isRadioRef

/-- An absent property passes; a present one has to have the shape. -/
def ifPresent {α : Type} (shape : Json → Option α) : Option Json → Option (Option α)
  | none => some none
  | some json => (shape json).map some

def parseSnapshot (data : Json) : Option SnapshotData := do
  let session ← (data.get? "session").bind asString
  let mode ← (data.get? "mode").bind asString
  let label ← (data.get? "label").bind asString
  let cars ← (data.get? "cars").bind asMembers
  let timeMs ← (data.get? "timeMs").bind asNumber
  let rev ← (data.get? "rev").bind asNumber
  let messages ← ifPresent asArray (data.get? "messages")
  let radio ← ifPresent asRadioRefs (data.get? "radio")
  let track ← ifPresent asArray (data.get? "track")
  let corners ← ifPresent asArray (data.get? "corners")
  let stints ← ifPresent asObject (data.get? "stints")
  let pitStops ← ifPresent asObject (data.get? "pitStops")
  let pedalTraces ← ifPresent asObject (data.get? "pedalTraces")
  let sectorDominance ← ifPresent asArray (data.get? "sectorDominance")
  let weather ← ifPresent asObject (data.get? "weather")
  -- `lapTrace` and `totalLaps` are taken as they come.
  some { session, mode, label, track, corners, cars, timeMs, rev, radio,
         lapTrace := data.get? "lapTrace", totalLaps := data.get? "totalLaps",
         stints, pitStops, pedalTraces, sectorDominance, weather, messages }

def parseFrame (data : Json) : Option FrameData := do
  let rev ← (data.get? "rev").bind asNumber
  let timeMs ← (data.get? "timeMs").bind asNumber
  let cars ← ifPresent asArray (data.get? "cars")
  let messages ← ifPresent asArray (data.get? "messages")
  let radio ← ifPresent asRadioRefs (data.get? "radio")
  let weather ← ifPresent asObject (data.get? "weather")
  some { rev, timeMs, cars, messages, weather, radio }

def parseMsg (raw : Json) : Option Msg := do
  let data ← raw.get? "data"
  let type ← (raw.get? "type").bind asString
  if type = "snapshot" then (parseSnapshot data).map .snapshot
  else if type = "frame" then (parseFrame data).map .frame
  else none

mutual
/-- JavaScript's conversion of a JSON value to a string.  An object whose own
`toString` hides the inherited one has no way left to become a primitive. -/
def toText : Json → Except TypeError String
  | .null => .ok "null"
  | .bool value => .ok (if value then "true" else "false")
  | .num number => .ok (numberToString number.value)
  | .str text => .ok text
  | .arr items => do
      let texts ← elementTexts items
      return ",".intercalate texts
  | .obj members =>
      if (Json.lookup "toString" members).isSome then .error .objectToPrimitive
      else .ok "[object Object]"

def elementTexts : List Json → Except TypeError (List String)
  | [] => .ok []
  | .null :: rest => do
      let texts ← elementTexts rest
      return "" :: texts
  | item :: rest => do
      let text ← toText item
      let texts ← elementTexts rest
      return text :: texts
end

/-- The property that `cars[c.driverNum]` names. -/
def carKey (car : Json) : Except TypeError String :=
  match car.get? "driverNum" with
  | none => .ok "undefined"
  | some number => toText number

/-- A plain object under construction.  Writing `__proto__` replaces the prototype
instead of adding a property, unless an own property, or one of the new
prototype's, shadows the accessor. -/
structure CarsObject where
  own : Dict String Json
  shadowed : Bool

def CarsObject.write (cars : CarsObject) (key : String) (car : Json) : CarsObject :=
  if key = "__proto__" ∧ cars.own.get? key = none ∧ cars.shadowed = false then
    { cars with shadowed := (car.get? "__proto__").isSome }
  else { cars with own := cars.own.set key car }

def writeCar (cars : CarsObject) (car : Json) : Except TypeError CarsObject :=
  match car with
  | .null => .error .propertyOfNull
  | car => do
      let key ← carKey car
      return cars.write key car

def writeCars (cars : CarsObject) (list : List Json) : Except TypeError CarsObject :=
  list.foldlM writeCar cars

/-- `value ?? fallback` -/
def nullish (value : Option Json) (fallback : Json) : Json :=
  match value with
  | none => fallback
  | some .null => fallback
  | some value => value

/-- `list.slice(-cap)` -/
def sliceLast (cap : Nat) (list : List Json) : List Json := list.drop (list.length - cap)

def applySnapshot (state : RaceState) (data : SnapshotData) : RaceState where
  session := data.session
  mode := data.mode
  label := data.label
  track := data.track.getD []
  corners := data.corners.getD []
  cars := .ofMembers data.cars
  timeMs := data.timeMs
  rev := data.rev
  radio := data.radio.getD []
  lapTrace := nullish data.lapTrace (.obj [])
  totalLaps := nullish data.totalLaps (.int 0)
  stints := data.stints.getD (.obj [])
  pitStops := data.pitStops.getD (.obj [])
  pedalTraces := data.pedalTraces.getD (.obj [])
  sectorDominance := data.sectorDominance.getD []
  weather := data.weather
  messages := data.messages.getD []
  snapshotSeq := state.snapshotSeq + 1
  loopSeq := state.loopSeq

def looped (state : RaceState) (data : FrameData) : Bool :=
  0 < state.rev ∧ data.timeMs < nearest (state.timeMs - loopRewindMs)

def applyFrame (state : RaceState) (data : FrameData) : Except TypeError RaceState :=
  if data.rev ≤ state.rev then .ok state
  else do
    let cars ← writeCars ⟨state.cars, false⟩ (data.cars.getD [])
    let carried := if looped state data then [] else state.messages
    let messages :=
      match data.messages with
      | some (first :: rest) => sliceLast maxMessages (carried ++ first :: rest)
      | _ => carried
    let radio :=
      match data.radio with
      | some (first :: rest) => state.radio ++ first :: rest
      | _ => state.radio
    return { state with
      cars := cars.own, timeMs := data.timeMs, rev := data.rev, messages, radio
      weather := data.weather.or state.weather
      loopSeq := if looped state data then state.loopSeq + 1 else state.loopSeq }

def applyMessage (state : RaceState) : Msg → Except TypeError RaceState
  | .snapshot data => .ok (applySnapshot state data)
  | .frame data => applyFrame state data

/-- The socket's message handler on a text that parses to `value`: a message of the
wrong shape is dropped. -/
def onMessage (state : RaceState) (value : Json) : Except TypeError RaceState :=
  match parseMsg value with
  | none => .ok state
  | some message => applyMessage state message

end RaceTracker.Web
