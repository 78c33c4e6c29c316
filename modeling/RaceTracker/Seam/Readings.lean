import RaceTracker.Ingest.Live
import RaceTracker.Lib.Relay
import RaceTracker.Seam.Broadcasts

namespace RaceTracker.Seam

open RaceTracker.Lib RaceTracker.Model RaceTracker.Ws RaceTracker.Web RaceTracker.Ingest

/-! A car's readings from a Python writer through the gateway to the browser.

Three languages name absence in three ways: a missing key, Go's zero value behind
`omitempty`, `undefined`.  Go has one value for both a missing number and a zero.
-/

def optionalReadings (car : Car) : List (Option Int) :=
  [car.tyreAge, car.lastLapMs, car.bestLapMs, car.s1Ms, car.s2Ms, car.s3Ms, car.gapMs, car.gapLaps,
    car.intMs, car.speed, car.gear, car.throttle, car.brake]

/-- Nothing of the car is zero, empty or false where Go leaves such a value out, nothing is
missing where Go writes one regardless, and every number fits. -/
structure Kept (car : Car) : Prop where
  driverNum : Codec.Fits car.driverNum
  code : ∃ text, car.code = .str text
  team : ∃ text, car.team = .str text
  pos : ∃ pos, car.pos = some pos ∧ Codec.Fits pos
  lap : ∃ lap, car.lap = some lap ∧ Codec.Fits lap
  status : car.status ≠ none
  tyre : car.tyre ≠ some ""
  drs : car.drs ≠ some false
  readings : ∀ reading ∈ optionalReadings car, ∀ value, reading = some value →
    value ≠ 0 ∧ Codec.Fits value

/-- A text of the car, its keys in any order. -/
def Writes (car : Car) (text : Json) : Prop :=
  ∃ entries, entries.Perm car.entries ∧ text = .obj (Codec.members entries)

/-- The same fields are present, with the same values. -/
def Alike (sent received : Json) : Prop :=
  ∀ name, received.get? name = (sent.get? name).map Json.value

theorem entries_distinct (car : Car) :
    (car.entries.map fun entry => Codec.foldName entry.1).Nodup := by
  simp only [Car.entries, List.map_cons, List.map_nil]
  decide

theorem entries_names (car : Car) : car.entries.map Prod.fst = CarState.record.names := rfl

def entry (car : Car) (name : String) : Option Json :=
  (car.entries.find? fun entry => entry.1 = name).bind Prod.snd

theorem point_keepsAlways (point : Point) :
    Point.codec.KeepsAlways (some (.obj [("x", float point.x), ("y", float point.y)])) := by
  have coordinate (value old : F64) :
      Codec.float64.unmarshal old (float value) = some value := Codec.readFloat64_value value false
  have other : Codec.foldName "y" ≠ Codec.foldName "x" := by decide
  rw [Codec.keepsAlways_some]
  refine ⟨point, ?_, ?_⟩
  · simp [Point.codec, Record.codec, Point.record, Record.always, Record.field, Record.nil,
      Codec.field, other, other.symm, coordinate]
  · have shown (value : F64) : (Codec.float64.marshal value).parsed = (float value).value := by
      simp [Codec.float64, float, Json.parsed, Json.value, Json.mapNumbers, value.double]
    change Json.parsed (.obj [("x", Codec.float64.marshal point.x), ("y", Codec.float64.marshal point.y)]) =
      Json.value (.obj [("x", float point.x), ("y", float point.y)])
    rw [Json.parsed_obj]
    simp only [List.map_cons, List.map_nil, shown]
    rfl

/-- Go's struct keeps the car exactly when nothing of it meets a zero value. -/
theorem relays_iff {car : Car} {entries : List (String × Option Json)}
    (same : entries.Perm car.entries) : CarState.record.Relays entries ↔ Kept car := by
  have distinct : (entries.map fun entry => Codec.foldName entry.1).Nodup :=
    (same.map _).nodup_iff.mpr (entries_distinct car)
  have known (name : String) (member : name ∈ CarState.record.names) : name ∈ entries.map Prod.fst := by
    rw [(same.map Prod.fst).mem_iff, entries_names car]
    exact member
  have look (name : String) (member : name ∈ CarState.record.names) :
      Json.lookup name (Codec.members entries) = entry car name := by
    cases found : car.entries.find? fun entry => entry.1 = name with
    | none =>
        rw [← entries_names car] at member
        obtain ⟨pair, listed, same⟩ := List.mem_map.mp member
        exact absurd same (by simpa using List.find?_eq_none.mp found pair listed)
    | some pair =>
        have own : pair.1 = name := by simpa using List.find?_some found
        rw [entry, found, Option.bind_some]
        exact Codec.lookup_members (Codec.names_distinct distinct)
          (same.mem_iff.mpr (own ▸ List.mem_of_find?_eq_some found))
  rw [CarState.record]
  simp (disch := first | exact known _ (by decide) | decide) only [
    Record.relays_always distinct, Record.relays_omitempty distinct]
  simp (disch := decide) only [look]
  constructor
  · intro relays
    obtain ⟨driverNum, code, team, pos, lap, p, status, tyre, tyreAge, lastLapMs, bestLapMs, s1Ms,
      s2Ms, s3Ms, gapMs, gapLaps, intMs, speed, gear, throttle, brake, drs, _⟩ := relays
    exact {
      driverNum := by
        obtain ⟨_, held, fits⟩ := (Codec.int64_keepsAlways (some car.driverNum)).mp driverNum
        cases held
        exact fits
      code := (Codec.string_keepsAlways car.code).mp code
      team := (Codec.string_keepsAlways car.team).mp team
      pos := (Codec.int64_keepsAlways car.pos).mp pos
      lap := (Codec.int64_keepsAlways car.lap).mp lap
      status := by
        intro absent
        have missing : entry car "status" = none := congrArg (Option.map Json.str) absent
        rw [missing] at status
        exact Codec.keepsAlways_none _ status
      tyre := (Codec.string_keepsOmitempty car.tyre).mp tyre
      drs := (Codec.bool_keepsOmitempty car.drs).mp drs
      readings := by
        have kept : ∀ reading ∈ optionalReadings car,
            Codec.int64.KeepsOmitempty (reading.map .int) := by
          simp only [optionalReadings, List.forall_mem_cons]
          exact ⟨tyreAge, lastLapMs, bestLapMs, s1Ms, s2Ms, s3Ms, gapMs, gapLaps, intMs, speed, gear,
            throttle, brake, fun _ member => by cases member⟩
        exact fun reading member => (Codec.int64_keepsOmitempty reading).mp (kept reading member) }
  · intro kept
    have readings : ∀ reading ∈ optionalReadings car, Codec.int64.KeepsOmitempty (reading.map .int) :=
      fun reading member => (Codec.int64_keepsOmitempty reading).mpr (kept.readings reading member)
    simp only [optionalReadings, List.forall_mem_cons] at readings
    obtain ⟨tyreAge, lastLapMs, bestLapMs, s1Ms, s2Ms, s3Ms, gapMs, gapLaps, intMs, speed, gear,
      throttle, brake, _⟩ := readings
    obtain ⟨status, held⟩ := Option.ne_none_iff_exists'.mp kept.status
    have shown : entry car "status" = some (.str status) := congrArg (Option.map Json.str) held
    exact ⟨(Codec.int64_keepsAlways (some car.driverNum)).mpr ⟨_, rfl, kept.driverNum⟩,
      (Codec.string_keepsAlways car.code).mpr kept.code,
      (Codec.string_keepsAlways car.team).mpr kept.team,
      (Codec.int64_keepsAlways car.pos).mpr kept.pos, (Codec.int64_keepsAlways car.lap).mpr kept.lap,
      point_keepsAlways car.p, shown ▸ (Codec.string_keepsAlways _).mpr ⟨status, rfl⟩,
      (Codec.string_keepsOmitempty car.tyre).mpr kept.tyre, tyreAge, lastLapMs, bestLapMs, s1Ms, s2Ms,
      s3Ms, gapMs, gapLaps, intMs, speed, gear, throttle, brake,
      (Codec.bool_keepsOmitempty car.drs).mpr kept.drs, Record.relays_nil⟩

theorem kept_iff {car : Car} {text : Json} (writes : Writes car text) :
    (∃ state, CarState.codec.unmarshal CarState.codec.zero text = some state ∧
      Alike text (CarState.codec.marshal state).parsed) ↔ Kept car := by
  obtain ⟨entries, same, rfl⟩ := writes
  have known : entries.map Prod.fst ⊆ CarState.record.names := by
    intro name member
    rw [(same.map Prod.fst).mem_iff, entries_names car] at member
    exact member
  rw [← relays_iff same]
  constructor
  · intro kept
    obtain ⟨state, decoded, alike⟩ := kept
    obtain ⟨values, read, rfl⟩ := Option.map_eq_some_iff.mp decoded
    exact ⟨values, read,
      (Record.alike_iff CarState.record CarState.record_distinct known values).mp alike⟩
  · intro relays
    obtain ⟨values, read, kept⟩ := relays
    exact ⟨_, Option.map_eq_some_iff.mpr ⟨values, read, rfl⟩,
      (Record.alike_iff CarState.record CarState.record_distinct known values).mpr kept⟩

section

variable (session : String) (rev now timeMs : Int) (messages : List Json) (weather : Option Json)
  (radio : List Json)

def frameText (texts : List Json) : Json :=
  .obj (Codec.members (frameEntries session rev now timeMs texts messages weather radio))

/-- Every field but the cars is decoded the same whatever the cars are. -/
theorem field_frameEntries {τ : Type} (codec : Codec τ) {name : String}
    (different : Codec.foldName "cars" ≠ Codec.foldName name) (texts texts' : List Json) (old : τ) :
    codec.field name
        (Codec.members (frameEntries session rev now timeMs texts messages weather radio)) old =
      codec.field name
        (Codec.members (frameEntries session rev now timeMs texts' messages weather radio)) old := by
  let before : List (String × Option Json) :=
    [("session", some (.str session)), ("rev", some (.int rev)), ("t", some (.int now)),
      ("timeMs", some (.int timeMs))]
  exact (codec.field_skip different before _ (some (.arr texts)) old).trans
    (codec.field_skip different before _ (some (.arr texts')) old).symm

theorem field_cars (texts : List Json) :
    (Codec.slice CarState.codec).field "cars"
        (Codec.members (frameEntries session rev now timeMs texts messages weather radio)) none =
      (CarState.codec.unmarshalItems [] texts).map some :=
  Codec.field_entry _ (frameEntries_distinct session rev now timeMs texts messages weather radio)
    (show ("cars", some (.arr texts)) ∈ _ by simp [frameEntries]) none

/-- The cars are decoded by themselves, beside everything else. -/
theorem unmarshal_frameText (texts texts' : List Json) {frame : Frame}
    {cars : Option (List CarState)}
    (decoded : (CarState.codec.unmarshalItems [] texts').map some = some cars)
    (read : Frame.unmarshal (frameText session rev now timeMs messages weather radio texts) =
      some frame) :
    Frame.unmarshal (frameText session rev now timeMs messages weather radio texts') =
      some { frame with cars } := by
  have decodes := Frame.unmarshal_obj_iff.mp read
  have same {τ : Type} (codec : Codec τ) {name : String}
      (different : Codec.foldName "cars" ≠ Codec.foldName name) (old : τ) :=
    field_frameEntries session rev now timeMs messages weather radio codec different texts' texts old
  exact Frame.unmarshal_obj_iff.mpr {
    session := (same _ (by decide) _).trans decodes.session
    rev := (same _ (by decide) _).trans decodes.rev
    t := (same _ (by decide) _).trans decodes.t
    timeMs := (same _ (by decide) _).trans decodes.timeMs
    cars := (field_cars session rev now timeMs messages weather radio texts').trans decoded
    messages := (same _ (by decide) _).trans decodes.messages
    radio := (same _ (by decide) _).trans decodes.radio
    weather := (same _ (by decide) _).trans decodes.weather }

theorem cars_of_frameText {texts : List Json} {frame : Frame}
    (read : Frame.unmarshal (frameText session rev now timeMs messages weather radio texts) =
      some frame) : (CarState.codec.unmarshalItems [] texts).map some = some frame.cars :=
  (field_cars session rev now timeMs messages weather radio texts).symm.trans
    (Frame.unmarshal_obj_iff.mp read).cars

/-- Decoded, broadcast, parsed and validated: the cars the browser is given. -/
def throughGateway (payload : Json) : Option (List Json) := do
  let frame ← Frame.unmarshal payload
  let text ← encodeFrame frame
  match ← parseMsg text.parsed with
  | .frame data => data.cars
  | .snapshot _ => none

def relayed (state : CarState) : Json := (CarState.codec.marshal state).parsed

theorem throughGateway_frameText {texts : List Json} (nonempty : texts ≠ []) (received : List Json) :
    throughGateway (frameText session rev now timeMs messages weather radio texts) = some received ↔
      (Frame.unmarshal (frameText session rev now timeMs messages weather radio [])).isSome ∧
        ∃ states, CarState.codec.unmarshalItems [] texts = some states ∧
          received = states.map relayed := by
  have result {frame : Frame} {states : List CarState}
      (read : Frame.unmarshal (frameText session rev now timeMs messages weather radio texts) =
        some frame)
      (decoded : CarState.codec.unmarshalItems [] texts = some states) :
      throughGateway (frameText session rev now timeMs messages weather radio texts) =
        some (states.map relayed) := by
    have own := cars_of_frameText session rev now timeMs messages weather radio read
    rw [decoded] at own
    have cars : frame.cars = some states := (Option.some.inj own).symm
    -- A frame with cars is never the zero frame, so it is encoded.
    have full : (frame.cars.getD []).length ≠ 0 := by
      rw [cars, Option.getD_some, ← (Codec.unmarshalItems_eq_some_iff _).mp decoded |>.length_eq]
      exact fun empty => nonempty (List.length_eq_zero_iff.mp empty)
    have encoded : encodeFrame frame = some (frameEnvelope frame) := if_neg fun zero => full zero.2
    simp only [throughGateway, read, encoded, parseMsg_frameEnvelope_parsed cars, bind,
      Option.bind_some]
    simp [FrameData.parsed, frameData, roundedList, relayed]
  constructor
  · intro through
    cases read : Frame.unmarshal (frameText session rev now timeMs messages weather radio texts) with
    | none => simp [throughGateway, read] at through
    | some frame =>
        obtain ⟨states, decoded, _⟩ := Option.map_eq_some_iff.mp
          (cars_of_frameText session rev now timeMs messages weather radio read)
        rw [result read decoded] at through
        have bare := unmarshal_frameText session rev now timeMs messages weather radio texts []
          (show _ = some (some []) from rfl) read
        exact ⟨by rw [bare]; rfl, states, decoded, (Option.some.inj through).symm⟩
  · intro kept
    obtain ⟨rest, states, decoded, rfl⟩ := kept
    obtain ⟨bare, read⟩ := Option.isSome_iff_exists.mp rest
    exact result (unmarshal_frameText session rev now timeMs messages weather radio [] texts
      (congrArg (Option.map some) decoded) read) decoded

theorem all_kept_iff {cars : List Car} {texts : List Json} (writes : List.Forall₂ Writes cars texts) :
    (∃ states, CarState.codec.unmarshalItems [] texts = some states ∧
      List.Forall₂ Alike texts (states.map relayed)) ↔ ∀ car ∈ cars, Kept car := by
  simp only [Codec.unmarshalItems_eq_some_iff]
  induction writes with
  | nil =>
      constructor
      · intro _ _ member
        cases member
      · intro _
        exact ⟨[], .nil, .nil⟩
  | cons first rest ih =>
      rw [List.forall_mem_cons, ← ih, ← kept_iff first]
      constructor
      · intro kept
        obtain ⟨states, decoded, alike⟩ := kept
        cases decoded with
        | cons head tail =>
            cases alike with
            | cons same others => exact ⟨⟨_, head, same⟩, _, tail, others⟩
      · intro kept
        obtain ⟨⟨state, head, same⟩, states, tail, others⟩ := kept
        exact ⟨state :: states, .cons head tail, .cons same others⟩

/-- A frame's cars reach the browser with the fields and values they left with exactly when the
rest of the frame decodes and nothing of any car meets one of Go's zero values. -/
theorem readings_survive_iff {cars : List Car} {texts : List Json} (nonempty : cars ≠ [])
    (writes : List.Forall₂ Writes cars texts) :
    (∃ received,
      throughGateway (frameText session rev now timeMs messages weather radio texts) = some received ∧
        List.Forall₂ Alike texts received) ↔
      (Frame.unmarshal (frameText session rev now timeMs messages weather radio [])).isSome ∧
        ∀ car ∈ cars, Kept car := by
  have sent : texts ≠ [] := by
    intro empty
    cases writes with
    | nil => exact nonempty rfl
    | cons => cases empty
  rw [← all_kept_iff writes]
  constructor
  · intro survived
    obtain ⟨received, through, alike⟩ := survived
    obtain ⟨rest, states, decoded, rfl⟩ := (throughGateway_frameText session rev now timeMs messages
      weather radio sent received).mp through
    exact ⟨rest, states, decoded, alike⟩
  · intro kept
    obtain ⟨rest, states, decoded, alike⟩ := kept
    exact ⟨_, (throughGateway_frameText session rev now timeMs messages weather radio sent _).mpr
      ⟨rest, states, decoded, rfl⟩, alike⟩

end

theorem readings_survive_for_the_leader :
    (∃ received, throughGateway (frameText "live" 1 0 0 [] none [] [leaderCar.dumps]) = some received ∧
      List.Forall₂ Alike [leaderCar.dumps] received) ↔
      (Frame.unmarshal (frameText "live" 1 0 0 [] none [] [])).isSome ∧
        ∀ car ∈ [leaderCar], Kept car :=
  readings_survive_iff "live" 1 0 0 [] none [] (by simp) (.cons ⟨_, .refl _, rfl⟩ .nil)

def leaderState : CarState :=
  ⟨1, "VER", "Red Bull", 1, 0, Point.codec.zero, "OnTrack", "", 0, 0, 0, 0, 0, 0, 0, 0, 0, 0, 0, 0, 0,
    false⟩

/-- The leader's gap of zero goes missing, and the missing lap number becomes zero. -/
theorem zero_gap_is_lost :
    throughGateway (frameText "live" 1 0 0 [] none [] [leaderCar.dumps]) =
        some [relayed leaderState] ∧
      leaderCar.dumps.get? "gapMs" = some (.int 0) ∧ (relayed leaderState).get? "gapMs" = none ∧
      leaderCar.dumps.get? "lap" = none ∧ (relayed leaderState).get? "lap" = some (.int 0) ∧
      ¬ ∃ received, throughGateway (frameText "live" 1 0 0 [] none [] [leaderCar.dumps]) =
        some received ∧ List.Forall₂ Alike [leaderCar.dumps] received := by
  have decoded : CarState.codec.unmarshal CarState.codec.zero leaderCar.dumps = some leaderState := by
    decide +kernel
  have rest : (Frame.unmarshal (frameText "live" 1 0 0 [] none [] [])).isSome = true := by
    decide +kernel
  have through := (throughGateway_frameText "live" 1 0 0 [] none [] (by simp)
    [relayed leaderState]).mpr ⟨rest, [leaderState],
      (Codec.unmarshalItems_eq_some_iff CarState.codec).mpr (.cons decoded .nil), rfl⟩
  have gap : (relayed leaderState).get? "gapMs" = none := by
    rw [relayed, Json.get?_parsed]
    rfl
  have lap : (relayed leaderState).get? "lap" = some (.int 0) := by
    have written : (CarState.codec.marshal leaderState).get? "lap" = some (.int 0) := rfl
    rw [relayed, Json.get?_parsed, written, Option.map_some, Codec.parsed_int]
    rfl
  refine ⟨through, rfl, gap, rfl, lap, ?_⟩
  intro survived
  obtain ⟨received, same, alike⟩ := survived
  cases through.symm.trans same
  cases alike with
  | cons kept _ =>
      have lost := kept "gapMs"
      rw [gap] at lost
      cases lost

end RaceTracker.Seam
