import RaceTracker.Web.Race

namespace RaceTracker.Web

open RaceTracker.Lib

/-! The wire validator on a parsed text.

`JSON.parse` turns every number into a double before `parseMsg` sees it.  The
validator looks at shapes only, so rounding before it and rounding after it agree.
-/

def onText (state : RaceState) (text : Json) : Except TypeError RaceState := onMessage state text.parsed

def roundedList (list : Option (List Json)) : Option (List Json) := list.map (List.map Json.parsed)

def FrameData.parsed (data : FrameData) : FrameData where
  rev := nearest data.rev
  timeMs := nearest data.timeMs
  cars := roundedList data.cars
  messages := roundedList data.messages
  weather := data.weather.map Json.parsed
  radio := roundedList data.radio

def SnapshotData.parsed (data : SnapshotData) : SnapshotData where
  session := data.session
  mode := data.mode
  label := data.label
  track := roundedList data.track
  corners := roundedList data.corners
  cars := data.cars.map fun member => (member.1, member.2.parsed)
  timeMs := nearest data.timeMs
  rev := nearest data.rev
  radio := roundedList data.radio
  lapTrace := data.lapTrace.map Json.parsed
  totalLaps := data.totalLaps.map Json.parsed
  stints := data.stints.map Json.parsed
  pitStops := data.pitStops.map Json.parsed
  pedalTraces := data.pedalTraces.map Json.parsed
  sectorDominance := roundedList data.sectorDominance
  weather := data.weather.map Json.parsed
  messages := roundedList data.messages

def Msg.parsed : Msg → Msg
  | .snapshot data => .snapshot data.parsed
  | .frame data => .frame data.parsed

variable (json : Json) (property : Option Json)

theorem asString_parsed : (property.map Json.parsed).bind asString = property.bind asString := by
  rcases property with _ | (_ | _ | _ | _ | _ | _) <;> rfl

theorem asNumber_parsed :
    (property.map Json.parsed).bind asNumber = (property.bind asNumber).map nearest := by
  rcases property with _ | (_ | _ | _ | _ | _ | _) <;> rfl

theorem asMembers_parsed : (property.map Json.parsed).bind asMembers =
    (property.bind asMembers).map (List.map fun member => (member.1, member.2.parsed)) := by
  cases property with
  | none => rfl
  | some json =>
      cases json with
      | obj members =>
          rw [Option.map_some, Json.parsed_obj]
          rfl
      | _ => rfl

theorem asArray_parsed : asArray json.parsed = (asArray json).map (List.map Json.parsed) := by
  cases json with
  | arr items =>
      rw [Json.parsed_arr]
      rfl
  | _ => rfl

theorem asObject_parsed : asObject json.parsed = (asObject json).map Json.parsed := by
  cases json with
  | obj members =>
      rw [Json.parsed_obj]
      exact congrArg some (Json.parsed_obj members).symm
  | _ => rfl

theorem isRadioRef_parsed : isRadioRef json.parsed = isRadioRef json := by
  simp only [isRadioRef, Json.get?_parsed, asNumber_parsed, asString_parsed, Option.isSome_map]

theorem asRadioRefs_parsed : asRadioRefs json.parsed = (asRadioRefs json).map (List.map Json.parsed) := by
  unfold asRadioRefs
  rw [asArray_parsed]
  cases asArray json with
  | none => rfl
  | some items =>
      have same : (items.map Json.parsed).all isRadioRef = items.all isRadioRef := by
        rw [List.all_map]
        exact congrArg items.all (funext isRadioRef_parsed)
      simp only [Option.map_some, Option.filter, same]
      split <;> rfl

theorem ifPresent_parsed {α : Type} {shape : Json → Option α} {round : α → α}
    (commutes : ∀ json : Json, shape json.parsed = (shape json).map round) :
    ifPresent shape (property.map Json.parsed) = (ifPresent shape property).map (Option.map round) := by
  cases property with
  | none => rfl
  | some json =>
      simp only [ifPresent, Option.map_some, commutes]
      cases shape json <;> rfl

/-- A field that rounding leaves alone, and the fields after it. -/
theorem same_bind {α β γ : Type} {field : Option α} {rest : α → Option β} {rest' : α → Option γ}
    {round : β → γ} (commutes : ∀ value, rest' value = (rest value).map round) :
    (field >>= rest') = (field >>= rest).map round := by
  cases field with
  | none => rfl
  | some value => exact commutes value

theorem rounded_bind {α α' β γ : Type} {field : Option α} {roundField : α → α'}
    {rest : α → Option β} {rest' : α' → Option γ} {round : β → γ}
    (commutes : ∀ value, rest' (roundField value) = (rest value).map round) :
    (field.map roundField >>= rest') = (field >>= rest).map round := by
  cases field with
  | none => rfl
  | some value => exact commutes value

theorem parseFrame_parsed : parseFrame json.parsed = (parseFrame json).map FrameData.parsed := by
  simp only [parseFrame, Json.get?_parsed, asNumber_parsed, ifPresent_parsed _ asArray_parsed,
    ifPresent_parsed _ asRadioRefs_parsed, ifPresent_parsed _ asObject_parsed]
  exact rounded_bind fun rev => rounded_bind fun timeMs => rounded_bind fun cars =>
    rounded_bind fun messages => rounded_bind fun radio => rounded_bind fun weather => rfl

theorem parseSnapshot_parsed :
    parseSnapshot json.parsed = (parseSnapshot json).map SnapshotData.parsed := by
  simp only [parseSnapshot, Json.get?_parsed, asString_parsed, asNumber_parsed, asMembers_parsed,
    ifPresent_parsed _ asArray_parsed, ifPresent_parsed _ asRadioRefs_parsed,
    ifPresent_parsed _ asObject_parsed]
  exact same_bind fun session => same_bind fun mode => same_bind fun label =>
    rounded_bind fun cars => rounded_bind fun timeMs => rounded_bind fun rev =>
    rounded_bind fun messages => rounded_bind fun radio => rounded_bind fun track =>
    rounded_bind fun corners => rounded_bind fun stints => rounded_bind fun pitStops =>
    rounded_bind fun pedalTraces => rounded_bind fun sectorDominance =>
    rounded_bind fun weather => rfl

theorem parseMsg_parsed : parseMsg json.parsed = (parseMsg json).map Msg.parsed := by
  simp only [parseMsg, Json.get?_parsed, asString_parsed]
  cases json.get? "data" with
  | none => rfl
  | some data =>
      cases (json.get? "type").bind asString with
      | none => rfl
      | some type =>
          simp only [bind, Option.map_some, Option.bind_some, parseSnapshot_parsed, parseFrame_parsed]
          split
          · simp [Function.comp_def, Msg.parsed]
          · split
            · simp [Function.comp_def, Msg.parsed]
            · rfl

end RaceTracker.Web
