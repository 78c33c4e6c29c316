import RaceTracker.Web.Race
import RaceTracker.Ws.Frame

namespace RaceTracker.Seam

open RaceTracker.Lib RaceTracker.Model RaceTracker.Ws RaceTracker.Web

/-! What the browser reads in the envelopes the hub writes. -/

theorem Snapshot.get?_marshal (snapshot : Snapshot) (name : String) :
    snapshot.marshal.get? name = Snapshot.record.written? snapshot.fields name :=
  Snapshot.record.get?_toObject Snapshot.record_distinct snapshot.fields name

theorem Frame.get?_marshal (frame : Frame) (name : String) :
    frame.marshal.get? name = Frame.record.written? frame.fields name :=
  Frame.record.get?_toObject Frame.record_distinct frame.fields name

/-- A list behind `omitempty`, as the receiver sees it. -/
def listed {α : Type} (marshal : α → Json) (values : List α) : Option (List Json) :=
  if values.isEmpty then none else some (values.map marshal)

def snapshotData (snapshot : Snapshot) (cars : Dict Int64 CarState) : SnapshotData where
  session := snapshot.sessionKey
  mode := snapshot.mode
  label := snapshot.label
  track := listed Point.codec.marshal snapshot.track
  corners := listed Corner.codec.marshal snapshot.corners
  cars := CarState.codec.marshalMembers cars
  timeMs := snapshot.timeMs.toInt
  rev := snapshot.rev.toInt
  radio := listed RadioMessage.codec.marshal snapshot.radio
  lapTrace := Snapshot.record.written? snapshot.fields "lapTrace"
  totalLaps := Snapshot.record.written? snapshot.fields "totalLaps"
  stints := Snapshot.record.written? snapshot.fields "stints"
  pitStops := Snapshot.record.written? snapshot.fields "pitStops"
  pedalTraces := Snapshot.record.written? snapshot.fields "pedalTraces"
  sectorDominance := listed Codec.int64.marshal snapshot.sectorDominance
  weather := snapshot.weather.map Weather.codec.marshal
  messages := listed RaceControlMessage.codec.marshal snapshot.messages

theorem ifPresent_array {α : Type} (marshal : α → Json) (values : List α) :
    ifPresent asArray (if values.isEmpty then none else some (.arr (values.map marshal))) =
      some (listed marshal values) := by
  rw [listed]
  split <;> rfl

theorem ifPresent_radio (radio : List RadioMessage) :
    ifPresent asRadioRefs
        (if radio.isEmpty then none else some (.arr (radio.map RadioMessage.codec.marshal))) =
      some (listed RadioMessage.codec.marshal radio) := by
  have refs : (radio.map RadioMessage.codec.marshal).all isRadioRef = true := by
    rw [List.all_map, List.all_eq_true]
    intro ref _
    rfl
  rw [listed]
  split
  · rfl
  · simp [ifPresent, asRadioRefs, asArray, Option.filter, refs]

theorem ifPresent_object (absent : Bool) (members : List (String × Json)) :
    ifPresent asObject (if absent then none else some (.obj members)) =
      some (if absent then none else some (.obj members)) := by
  cases absent <;> rfl

theorem ifPresent_weather (weather : Option Weather) :
    ifPresent asObject (if weather.isNone then none
        else some ((Codec.pointer Weather.codec Record.codec_ne_null).marshal weather)) =
      some (weather.map Weather.codec.marshal) := by
  cases weather <;> rfl

theorem parseSnapshot_marshal {snapshot : Snapshot} {cars : Dict Int64 CarState}
    (present : snapshot.cars = some cars) :
    parseSnapshot snapshot.marshal = some (snapshotData snapshot cars) := by
  have carsEntry : Snapshot.record.written? snapshot.fields "cars" =
      some (.obj (CarState.codec.marshalMembers cars)) := by
    change some ((Codec.mapping CarState.codec).marshal snapshot.cars) = _
    rw [present]
    rfl
  have track : ifPresent asArray (Snapshot.record.written? snapshot.fields "track") =
      some (listed Point.codec.marshal snapshot.track) := ifPresent_array _ _
  have corners : ifPresent asArray (Snapshot.record.written? snapshot.fields "corners") =
      some (listed Corner.codec.marshal snapshot.corners) := ifPresent_array _ _
  have messages : ifPresent asArray (Snapshot.record.written? snapshot.fields "messages") =
      some (listed RaceControlMessage.codec.marshal snapshot.messages) := ifPresent_array _ _
  have dominance : ifPresent asArray (Snapshot.record.written? snapshot.fields "sectorDominance") =
      some (listed Codec.int64.marshal snapshot.sectorDominance) := ifPresent_array _ _
  have radio : ifPresent asRadioRefs (Snapshot.record.written? snapshot.fields "radio") =
      some (listed RadioMessage.codec.marshal snapshot.radio) := ifPresent_radio _
  have weather : ifPresent asObject (Snapshot.record.written? snapshot.fields "weather") =
      some (snapshot.weather.map Weather.codec.marshal) := ifPresent_weather _
  have stints : ifPresent asObject (Snapshot.record.written? snapshot.fields "stints") =
      some (Snapshot.record.written? snapshot.fields "stints") := ifPresent_object _ _
  have pitStops : ifPresent asObject (Snapshot.record.written? snapshot.fields "pitStops") =
      some (Snapshot.record.written? snapshot.fields "pitStops") := ifPresent_object _ _
  have pedalTraces : ifPresent asObject (Snapshot.record.written? snapshot.fields "pedalTraces") =
      some (Snapshot.record.written? snapshot.fields "pedalTraces") := ifPresent_object _ _
  simp only [parseSnapshot, Snapshot.get?_marshal, carsEntry, track, corners, messages, dominance,
    radio, weather, stints, pitStops, pedalTraces]
  rfl

/-- With a nil car map the snapshot has `"cars":null`, which the browser rejects. -/
theorem parseSnapshot_marshal_nil {snapshot : Snapshot} (absent : snapshot.cars = none) :
    parseSnapshot snapshot.marshal = none := by
  have carsEntry : Snapshot.record.written? snapshot.fields "cars" = some .null := by
    change some ((Codec.mapping CarState.codec).marshal snapshot.cars) = _
    rw [absent]
    rfl
  have rejected : (snapshot.marshal.get? "cars").bind asMembers = none := by
    rw [Snapshot.get?_marshal, carsEntry]
    rfl
  rw [Option.eq_none_iff_forall_not_mem]
  intro data parsed
  obtain ⟨_, _, parsed⟩ := Option.bind_eq_some_iff.mp parsed
  obtain ⟨_, _, parsed⟩ := Option.bind_eq_some_iff.mp parsed
  obtain ⟨_, _, parsed⟩ := Option.bind_eq_some_iff.mp parsed
  obtain ⟨_, members, _⟩ := Option.bind_eq_some_iff.mp parsed
  cases rejected.symm.trans members

def frameData (frame : Frame) (cars : List CarState) : FrameData where
  rev := frame.rev.toInt
  timeMs := frame.timeMs.toInt
  cars := some (cars.map CarState.codec.marshal)
  messages := listed RaceControlMessage.codec.marshal frame.messages
  weather := frame.weather.map Weather.codec.marshal
  radio := listed RadioMessage.codec.marshal frame.radio

theorem parseFrame_marshal {frame : Frame} {cars : List CarState} (present : frame.cars = some cars) :
    parseFrame frame.marshal = some (frameData frame cars) := by
  have carsEntry : Frame.record.written? frame.fields "cars" =
      some (.arr (cars.map CarState.codec.marshal)) := by
    change some ((Codec.slice CarState.codec).marshal frame.cars) = _
    rw [present]
    rfl
  have messages : ifPresent asArray (Frame.record.written? frame.fields "messages") =
      some (listed RaceControlMessage.codec.marshal frame.messages) := ifPresent_array _ _
  have radio : ifPresent asRadioRefs (Frame.record.written? frame.fields "radio") =
      some (listed RadioMessage.codec.marshal frame.radio) := ifPresent_radio _
  have weather : ifPresent asObject (Frame.record.written? frame.fields "weather") =
      some (frame.weather.map Weather.codec.marshal) := ifPresent_weather _
  simp only [parseFrame, Frame.get?_marshal, carsEntry, messages, radio, weather]
  rfl

/-- With nil cars the frame has `"cars":null`, which the browser rejects. -/
theorem parseFrame_marshal_nil {frame : Frame} (absent : frame.cars = none) :
    parseFrame frame.marshal = none := by
  have carsEntry : Frame.record.written? frame.fields "cars" = some .null := by
    change some ((Codec.slice CarState.codec).marshal frame.cars) = _
    rw [absent]
    rfl
  have rejected : ifPresent asArray (frame.marshal.get? "cars") = none := by
    rw [Frame.get?_marshal, carsEntry]
    rfl
  simp [parseFrame, rejected]

theorem parseMsg_encodeSnapshot (snapshot : Snapshot) :
    parseMsg (encodeSnapshot snapshot) = (parseSnapshot snapshot.marshal).map .snapshot := by
  simp [parseMsg, encodeSnapshot, asString]

theorem parseMsg_frameEnvelope (frame : Frame) :
    parseMsg (frameEnvelope frame) = (parseFrame frame.marshal).map .frame := by
  simp [parseMsg, frameEnvelope, asString]

end RaceTracker.Seam
