import RaceTracker.Lib.Codec
import RaceTracker.Model.Types

namespace RaceTracker.Model

open RaceTracker.Lib

/-! The `json` tags of the wire types: key, value codec and `omitempty`, in
declaration order.  Maps marshal with string keys, JSON having no integer ones.
-/

def Point.record := Record.always "x" .float64 <| .always "y" .float64 .nil

def Point.codec : Codec Point :=
  Point.record.codec (by decide) (fun point => (point.x, point.y, ()))
    (fun (x, y, ()) => ⟨x, y⟩) (fun _ => rfl) rfl

def CarState.record :=
  Record.always "driverNum" .int64 <| .always "code" .string <| .always "team" .string <|
  .always "pos" .int64 <| .always "lap" .int64 <| .always "p" Point.codec <|
  .always "status" .string <| .omitempty "tyre" .string <| .omitempty "tyreAge" .int64 <|
  .omitempty "lastLapMs" .int64 <| .omitempty "bestLapMs" .int64 <| .omitempty "s1Ms" .int64 <|
  .omitempty "s2Ms" .int64 <| .omitempty "s3Ms" .int64 <| .omitempty "gapMs" .int64 <|
  .omitempty "gapLaps" .int64 <| .omitempty "intMs" .int64 <| .omitempty "speed" .int64 <|
  .omitempty "gear" .int64 <| .omitempty "throttle" .int64 <| .omitempty "brake" .int64 <|
  .omitempty "drs" .bool .nil

theorem CarState.record_distinct : (CarState.record.names.map Codec.foldName).Nodup := by
  decide

def CarState.codec : Codec CarState :=
  CarState.record.codec CarState.record_distinct
    (fun car => (car.driverNum, car.code, car.team, car.pos, car.lap, car.p, car.status, car.tyre,
      car.tyreAge, car.lastLapMs, car.bestLapMs, car.s1Ms, car.s2Ms, car.s3Ms, car.gapMs,
      car.gapLaps, car.intMs, car.speed, car.gear, car.throttle, car.brake, car.drs, ()))
    (fun (driverNum, code, team, pos, lap, p, status, tyre, tyreAge, lastLapMs, bestLapMs, s1Ms,
        s2Ms, s3Ms, gapMs, gapLaps, intMs, speed, gear, throttle, brake, drs, ()) =>
      ⟨driverNum, code, team, pos, lap, p, status, tyre, tyreAge, lastLapMs, bestLapMs, s1Ms,
        s2Ms, s3Ms, gapMs, gapLaps, intMs, speed, gear, throttle, brake, drs⟩)
    (fun _ => rfl) rfl

def RaceControlMessage.record :=
  Record.always "rev" .int64 <| .always "t" .int64 <| .always "category" .string <|
  .always "message" .string <| .omitempty "driver" (.pointer .int64 nofun) .nil

def RaceControlMessage.codec : Codec RaceControlMessage :=
  RaceControlMessage.record.codec (by decide)
    (fun message => (message.rev, message.t, message.category, message.message, message.driver, ()))
    (fun (rev, t, category, message, driver, ()) => ⟨rev, t, category, message, driver⟩)
    (fun _ => rfl) rfl

def RadioMessage.record :=
  Record.always "timeMs" .int64 <| .always "driverNum" .int64 <| .always "clip" .string .nil

def RadioMessage.codec : Codec RadioMessage :=
  RadioMessage.record.codec (by decide) (fun radio => (radio.timeMs, radio.driverNum, radio.clip, ()))
    (fun (timeMs, driverNum, clip, ()) => ⟨timeMs, driverNum, clip⟩) (fun _ => rfl) rfl

def Stint.codec : Codec Stint :=
  Record.codec
    (.always "compound" .string <| .always "startLap" .int64 <| .always "endLap" .int64 .nil)
    (by decide) (fun stint => (stint.compound, stint.startLap, stint.endLap, ()))
    (fun (compound, startLap, endLap, ()) => ⟨compound, startLap, endLap⟩) (fun _ => rfl) rfl

def PitStop.codec : Codec PitStop :=
  Record.codec (.always "lap" .int64 <| .always "durationS" .float64 .nil) (by decide)
    (fun stop => (stop.lap, stop.durationS, ())) (fun (lap, durationS, ()) => ⟨lap, durationS⟩)
    (fun _ => rfl) rfl

def PedalTrace.codec : Codec PedalTrace :=
  Record.codec
    (.always "throttle" (.slice .int64) <| .always "brake" (.slice .int64) <|
      .always "gear" (.slice .int64) .nil)
    (by decide) (fun trace => (trace.throttle, trace.brake, trace.gear, ()))
    (fun (throttle, brake, gear, ()) => ⟨throttle, brake, gear⟩) (fun _ => rfl) rfl

/-- The embedded point's fields stand at the corner's own level. -/
def Corner.codec : Codec Corner :=
  Record.codec
    (.always "number" .int64 <| .always "x" .float64 <| .always "y" .float64 <|
      .omitempty "letter" .string .nil)
    (by decide) (fun corner => (corner.number, corner.point.x, corner.point.y, corner.letter, ()))
    (fun (number, x, y, letter, ()) => ⟨number, ⟨x, y⟩, letter⟩) (fun _ => rfl) rfl

def Weather.codec : Codec Weather :=
  Record.codec
    (.always "airTempC" .float64 <| .always "trackTempC" .float64 <| .always "rainfall" .bool .nil)
    (by decide) (fun weather => (weather.airTempC, weather.trackTempC, weather.rainfall, ()))
    (fun (airTempC, trackTempC, rainfall, ()) => ⟨airTempC, trackTempC, rainfall⟩)
    (fun _ => rfl) rfl

def Snapshot.record :=
  Record.always "session" .string <| .always "mode" .string <| .always "label" .string <|
  .omitempty "track" (.list Point.codec) <| .omitempty "corners" (.list Corner.codec) <|
  .always "cars" (.mapping CarState.codec) <|
  .omitempty "messages" (.list RaceControlMessage.codec) <|
  .omitempty "radio" (.list RadioMessage.codec) <|
  .omitempty "lapTrace" (.dict (.slice .int64)) <| .omitempty "totalLaps" .int64 <|
  .omitempty "stints" (.dict (.slice Stint.codec)) <|
  .omitempty "pitStops" (.dict (.slice PitStop.codec)) <|
  .omitempty "pedalTraces" (.dict PedalTrace.codec) <|
  .omitempty "sectorDominance" (.list .int64) <|
  .omitempty "weather" (.pointer Weather.codec Record.codec_ne_null) <|
  .always "timeMs" .int64 <| .always "rev" .int64 .nil

theorem Snapshot.record_distinct : (Snapshot.record.names.map Codec.foldName).Nodup := by
  decide

def Snapshot.fields (snapshot : Snapshot) :=
  (snapshot.sessionKey, snapshot.mode, snapshot.label, snapshot.track, snapshot.corners,
    snapshot.cars, snapshot.messages, snapshot.radio, snapshot.lapTrace, snapshot.totalLaps,
    snapshot.stints, snapshot.pitStops, snapshot.pedalTraces, snapshot.sectorDominance,
    snapshot.weather, snapshot.timeMs, snapshot.rev, ())

def Snapshot.codec : Codec Snapshot :=
  Snapshot.record.codec Snapshot.record_distinct Snapshot.fields
    (fun (session, mode, label, track, corners, cars, messages, radio, lapTrace, totalLaps, stints,
        pitStops, pedalTraces, sectorDominance, weather, timeMs, rev, ()) =>
      ⟨session, mode, label, track, corners, cars, messages, radio, lapTrace, totalLaps, stints,
        pitStops, pedalTraces, sectorDominance, weather, timeMs, rev⟩)
    (fun _ => rfl) rfl

def Frame.record :=
  Record.always "session" .string <| .always "rev" .int64 <| .always "t" .int64 <|
  .always "timeMs" .int64 <| .always "cars" (.slice CarState.codec) <|
  .omitempty "messages" (.list RaceControlMessage.codec) <|
  .omitempty "radio" (.list RadioMessage.codec) <|
  .omitempty "weather" (.pointer Weather.codec Record.codec_ne_null) .nil

theorem Frame.record_distinct : (Frame.record.names.map Codec.foldName).Nodup := by
  decide

def Frame.fields (frame : Frame) :=
  (frame.sessionKey, frame.rev, frame.t, frame.timeMs, frame.cars, frame.messages, frame.radio,
    frame.weather, ())

def Frame.codec : Codec Frame :=
  Frame.record.codec Frame.record_distinct Frame.fields
    (fun (session, rev, t, timeMs, cars, messages, radio, weather, ()) =>
      ⟨session, rev, t, timeMs, cars, messages, radio, weather⟩)
    (fun _ => rfl) rfl

/-- `json.Unmarshal` into a fresh variable. -/
def Snapshot.unmarshal (text : Json) : Option Snapshot :=
  Snapshot.codec.unmarshal Snapshot.codec.zero text

def Frame.unmarshal (text : Json) : Option Frame :=
  Frame.codec.unmarshal Frame.codec.zero text

def Snapshot.marshal (snapshot : Snapshot) : Json := Snapshot.codec.marshal snapshot

def Frame.marshal (frame : Frame) : Json := Frame.codec.marshal frame

@[simp] theorem Snapshot.unmarshal_marshal (snapshot : Snapshot) :
    Snapshot.unmarshal snapshot.marshal = some snapshot :=
  Snapshot.codec.roundTrip snapshot

theorem Snapshot.marshal_injective : Function.Injective Snapshot.marshal := by
  intro left right same
  have read := congrArg Snapshot.unmarshal same
  simpa only [Snapshot.unmarshal_marshal, Option.some.injEq] using read

/-- What each field is decoded from: the keys of its name and no others. -/
structure Snapshot.Decodes (members : List (String × Json)) (snapshot : Snapshot) : Prop where
  session : Codec.string.field "session" members "" = some snapshot.sessionKey
  mode : Codec.string.field "mode" members "" = some snapshot.mode
  label : Codec.string.field "label" members "" = some snapshot.label
  track : (Codec.list Point.codec).field "track" members [] = some snapshot.track
  corners : (Codec.list Corner.codec).field "corners" members [] = some snapshot.corners
  cars : (Codec.mapping CarState.codec).field "cars" members none = some snapshot.cars
  messages : (Codec.list RaceControlMessage.codec).field "messages" members [] =
    some snapshot.messages
  radio : (Codec.list RadioMessage.codec).field "radio" members [] = some snapshot.radio
  lapTrace : (Codec.dict (.slice .int64)).field "lapTrace" members .empty = some snapshot.lapTrace
  totalLaps : Codec.int64.field "totalLaps" members 0 = some snapshot.totalLaps
  stints : (Codec.dict (.slice Stint.codec)).field "stints" members .empty = some snapshot.stints
  pitStops : (Codec.dict (.slice PitStop.codec)).field "pitStops" members .empty =
    some snapshot.pitStops
  pedalTraces : (Codec.dict PedalTrace.codec).field "pedalTraces" members .empty =
    some snapshot.pedalTraces
  sectorDominance : (Codec.list .int64).field "sectorDominance" members [] =
    some snapshot.sectorDominance
  weather : (Codec.pointer Weather.codec Record.codec_ne_null).field "weather" members none =
    some snapshot.weather
  timeMs : Codec.int64.field "timeMs" members 0 = some snapshot.timeMs
  rev : Codec.int64.field "rev" members 0 = some snapshot.rev

theorem Snapshot.unmarshal_obj_iff {members : List (String × Json)} {snapshot : Snapshot} :
    Snapshot.unmarshal (.obj members) = some snapshot ↔ Snapshot.Decodes members snapshot := by
  refine (Record.unmarshal_obj_iff fun _ => rfl).trans ?_
  simp only [Snapshot.record, Record.read_always, Record.read_omitempty]
  constructor
  · intro read
    obtain ⟨session, mode, label, track, corners, cars, messages, radio, lapTrace, totalLaps, stints,
      pitStops, pedalTraces, sectorDominance, weather, timeMs, rev, _⟩ := read
    exact ⟨session, mode, label, track, corners, cars, messages, radio, lapTrace, totalLaps, stints,
      pitStops, pedalTraces, sectorDominance, weather, timeMs, rev⟩
  · intro read
    exact ⟨read.session, read.mode, read.label, read.track, read.corners, read.cars, read.messages,
      read.radio, read.lapTrace, read.totalLaps, read.stints, read.pitStops, read.pedalTraces,
      read.sectorDominance, read.weather, read.timeMs, read.rev, rfl⟩

structure Frame.Decodes (members : List (String × Json)) (frame : Frame) : Prop where
  session : Codec.string.field "session" members "" = some frame.sessionKey
  rev : Codec.int64.field "rev" members 0 = some frame.rev
  t : Codec.int64.field "t" members 0 = some frame.t
  timeMs : Codec.int64.field "timeMs" members 0 = some frame.timeMs
  cars : (Codec.slice CarState.codec).field "cars" members none = some frame.cars
  messages : (Codec.list RaceControlMessage.codec).field "messages" members [] = some frame.messages
  radio : (Codec.list RadioMessage.codec).field "radio" members [] = some frame.radio
  weather : (Codec.pointer Weather.codec Record.codec_ne_null).field "weather" members none =
    some frame.weather

theorem Frame.unmarshal_obj_iff {members : List (String × Json)} {frame : Frame} :
    Frame.unmarshal (.obj members) = some frame ↔ Frame.Decodes members frame := by
  refine (Record.unmarshal_obj_iff fun _ => rfl).trans ?_
  simp only [Frame.record, Record.read_always, Record.read_omitempty]
  constructor
  · intro read
    obtain ⟨session, rev, t, timeMs, cars, messages, radio, weather, _⟩ := read
    exact ⟨session, rev, t, timeMs, cars, messages, radio, weather⟩
  · intro read
    exact ⟨read.session, read.rev, read.t, read.timeMs, read.cars, read.messages, read.radio,
      read.weather, rfl⟩

@[simp] theorem Frame.unmarshal_marshal (frame : Frame) :
    Frame.unmarshal frame.marshal = some frame :=
  Frame.codec.roundTrip frame

end RaceTracker.Model
