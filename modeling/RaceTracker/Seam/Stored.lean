import RaceTracker.Ingest.Signalr
import RaceTracker.Model.Apply
import RaceTracker.Seam.Readings

namespace RaceTracker.Seam

open RaceTracker.Lib RaceTracker.Model RaceTracker.Ingest

/-! What Go reads in the texts of the Python writers: a frame, and the snapshot stored with it. -/

def readCar (car : Car) : Option CarState := CarState.codec.unmarshal CarState.codec.zero car.dumps

def readMessages : List Json → Option (List RaceControlMessage) :=
  RaceControlMessage.codec.unmarshalItems []

def readRadio : List Json → Option (List RadioMessage) := RadioMessage.codec.unmarshalItems []

theorem weather_ne_null (weather : Weather) : Weather.codec.marshal weather ≠ .null :=
  Record.codec_ne_null weather

def readWeather (weather : Option Json) : Option (Option Weather) :=
  weather.elim (some none) ((Codec.pointer Weather.codec weather_ne_null).unmarshal none)

theorem unmarshal_int_iff {old read : Int64} {value : Int} :
    Codec.int64.unmarshal old (.int value) = some read ↔ read.toInt = value := by
  change Codec.readInt64 ⟨(value : Rat), true⟩ = some read ↔ _
  constructor
  · intro same
    rw [Codec.readInt64_eq_some same, Rat.num_intCast]
  · intro same
    rw [← same, Codec.readInt64_int]

theorem unmarshal_listed {τ : Type} (codec : Codec τ) (items : List Json) :
    Option.elim (if items = [] then none else some (Json.arr items)) (some [])
      (codec.list.unmarshal []) = codec.unmarshalItems [] items := by
  by_cases empty : items = []
  · simp [empty, Codec.unmarshalItems]
  · simp [empty, Codec.list]

structure FrameReads (rev timeMs : Int) (cars : List Car) (messages : List Json)
    (weather : Option Json) (radio : List Json) (frame : Frame) : Prop where
  rev : frame.rev.toInt = rev
  timeMs : frame.timeMs.toInt = timeMs
  cars : ∃ states, frame.cars = some states ∧
    List.Forall₂ (fun car state => readCar car = some state) cars states
  messages : readMessages messages = some frame.messages
  weather : readWeather weather = some frame.weather
  radio : readRadio radio = some frame.radio

/-- A frame's members, in a clip or on the channel. -/
def frameMembers (session : Option String) (rev : Int) (t : Option Int) (timeMs : Int)
    (cars : List Car) (messages : List Json) (weather : Option Json) (radio : List Json) :
    List (String × Option Json) :=
  [("session", session.map .str), ("rev", some (.int rev)), ("t", t.map .int),
    ("timeMs", some (.int timeMs)), ("cars", some (.arr (cars.map Car.dumps))),
    ("messages", if messages = [] then none else some (.arr messages)), ("weather", weather),
    ("radio", if radio = [] then none else some (.arr radio))]

section

variable {session : Option String} {rev timeMs : Int} {t : Option Int} {cars : List Car}
  {messages radio : List Json} {weather : Option Json} {frame : Frame}

theorem frameMembers_distinct :
    ((frameMembers session rev t timeMs cars messages weather radio).map fun entry =>
      Codec.foldName entry.1).Nodup := by
  simp only [frameMembers, List.map_cons, List.map_nil]
  decide

theorem unmarshal_cars_iff {held : Option (List CarState)} :
    (Codec.slice CarState.codec).unmarshal none (.arr (cars.map Car.dumps)) = some held ↔
      ∃ states, held = some states ∧
        List.Forall₂ (fun car state => readCar car = some state) cars states := by
  refine Option.map_eq_some_iff.trans (exists_congr fun states => ?_)
  rw [Option.getD_none, Codec.unmarshalItems_eq_some_iff, List.forall₂_map_left_iff, and_comm,
    eq_comm]
  rfl

theorem unmarshal_frame_iff :
    Frame.unmarshal (.obj (Codec.members
        (frameMembers session rev t timeMs cars messages weather radio))) = some frame ↔
      frame.sessionKey = session.getD "" ∧
        (t.map Json.int).elim (some 0) (Codec.int64.unmarshal 0) = some frame.t ∧
        FrameReads rev timeMs cars messages weather radio frame := by
  have entry {τ : Type} (codec : Codec τ) (name : String) (json : Option Json) (old : τ)
      (member : (name, json) ∈ frameMembers session rev t timeMs cars messages weather radio) :
      codec.field name
          (Codec.members (frameMembers session rev t timeMs cars messages weather radio)) old =
        json.elim (some old) (codec.unmarshal old) :=
    codec.field_entry frameMembers_distinct member old
  have sessionRead := entry Codec.string "session" (session.map .str) "" (by simp [frameMembers])
  have revRead := entry Codec.int64 "rev" (some (.int rev)) 0 (by simp [frameMembers])
  have tRead := entry Codec.int64 "t" (t.map .int) 0 (by simp [frameMembers])
  have timeMsRead := entry Codec.int64 "timeMs" (some (.int timeMs)) 0 (by simp [frameMembers])
  have carsRead := entry (Codec.slice CarState.codec) "cars" (some (.arr (cars.map Car.dumps))) none
    (by simp [frameMembers])
  have messagesRead := (entry (Codec.list RaceControlMessage.codec) "messages"
    (if messages = [] then none else some (.arr messages)) [] (by simp [frameMembers])).trans
      (unmarshal_listed _ _)
  have radioRead := (entry (Codec.list RadioMessage.codec) "radio"
    (if radio = [] then none else some (.arr radio)) [] (by simp [frameMembers])).trans
      (unmarshal_listed _ _)
  have weatherRead := entry (Codec.pointer Weather.codec Record.codec_ne_null) "weather" weather none
    (by simp [frameMembers])
  have named : (session.map Json.str).elim (some "") (Codec.string.unmarshal "") =
      some frame.sessionKey ↔ frame.sessionKey = session.getD "" := by
    cases session <;> exact Option.some_inj.trans eq_comm
  rw [Frame.unmarshal_obj_iff]
  constructor
  · intro read
    exact ⟨named.mp (sessionRead.symm.trans read.session), tRead.symm.trans read.t, {
      rev := unmarshal_int_iff.mp (revRead.symm.trans read.rev)
      timeMs := unmarshal_int_iff.mp (timeMsRead.symm.trans read.timeMs)
      cars := unmarshal_cars_iff.mp (carsRead.symm.trans read.cars)
      messages := messagesRead.symm.trans read.messages
      weather := weatherRead.symm.trans read.weather
      radio := radioRead.symm.trans read.radio }⟩
  · intro reads
    obtain ⟨sessionKey, t, reads⟩ := reads
    exact {
      session := sessionRead.trans (named.mpr sessionKey)
      rev := revRead.trans (unmarshal_int_iff.mpr reads.rev)
      t := tRead.trans t
      timeMs := timeMsRead.trans (unmarshal_int_iff.mpr reads.timeMs)
      cars := carsRead.trans (unmarshal_cars_iff.mpr reads.cars)
      messages := messagesRead.trans reads.messages
      radio := radioRead.trans reads.radio
      weather := weatherRead.trans reads.weather }

end

section

variable {session : String} {rev now timeMs : Int} {cars : List Car} {messages radio : List Json}
  {weather : Option Json} {frame : Frame}

theorem unmarshal_carsFrame_iff :
    Frame.unmarshal (frameText session rev now timeMs messages weather radio
        (cars.map Car.dumps)) = some frame ↔
      frame.sessionKey = session ∧ Codec.int64.unmarshal 0 (.int now) = some frame.t ∧
        FrameReads rev timeMs cars messages weather radio frame :=
  show Frame.unmarshal (.obj (Codec.members (frameMembers (some session) rev (some now) timeMs cars
    messages weather radio))) = some frame ↔ _ from unmarshal_frame_iff

theorem frameReads (read : Frame.unmarshal (frameText session rev now timeMs messages weather radio
      (cars.map Car.dumps)) = some frame) :
    FrameReads rev timeMs cars messages weather radio frame :=
  (unmarshal_carsFrame_iff.mp read).2.2

end

structure SnapshotReads {κ : Type} (live : LiveSnapshot κ) (car : κ → Car) (held : Snapshot) :
    Prop where
  session : held.sessionKey = live.session
  mode : held.mode = "live"
  label : held.label = live.label
  track : (Codec.list Point.codec).unmarshal [] live.track = some held.track
  corners : held.corners = []
  cars : ∃ dict, held.cars = some dict ∧ CarState.codec.unmarshalMembers .empty
    (live.cars.entries.map fun entry => (entry.1, (car entry.2).dumps)) = some dict
  messages : readMessages (live.messages.getD []) = some held.messages
  radio : readRadio live.radio = some held.radio
  lapTrace : (Codec.dict (Codec.slice Codec.int64)).unmarshal .empty live.lapTrace =
    some held.lapTrace
  totalLaps : Codec.int64.unmarshal 0 live.totalLaps = some held.totalLaps
  stints : (Codec.dict (Codec.slice Stint.codec)).unmarshal .empty live.stints = some held.stints
  pitStops : held.pitStops = .empty
  pedalTraces : held.pedalTraces = .empty
  sectorDominance : held.sectorDominance = []
  weather : readWeather live.weather = some held.weather
  timeMs : held.timeMs.toInt = live.timeMs
  rev : held.rev.toInt = live.rev

section

variable {κ : Type} {live : LiveSnapshot κ} {car : κ → Car} {held : Snapshot}

theorem unmarshal_carDict_iff {dict : Option (Dict Int64 CarState)} {members : List (String × Json)} :
    (Codec.mapping CarState.codec).unmarshal none (.obj members) = some dict ↔
      ∃ cars, dict = some cars ∧ CarState.codec.unmarshalMembers .empty members = some cars := by
  refine Option.map_eq_some_iff.trans (exists_congr fun cars => ?_)
  rw [Option.getD_none, and_comm, eq_comm]

theorem unmarshal_dumps_iff :
    Snapshot.unmarshal (live.dumps car) = some held ↔ SnapshotReads live car held := by
  have entry {τ : Type} (codec : Codec τ) (name : String) (json : Option Json) (old : τ)
      (member : (name, json) ∈ live.entries car) : codec.field name
        (Codec.members (live.entries car)) old = json.elim (some old) (codec.unmarshal old) :=
    codec.field_entry (live.names_distinct car) member old
  have names : (live.entries car).map (fun entry => Codec.foldName entry.1) =
      ["session", "mode", "label", "track", "radio", "lapTrace", "totalLaps", "stints", "cars",
        "timeMs", "rev", "messages", "weather"].map Codec.foldName := rfl
  have fresh {τ : Type} (codec : Codec τ) (name : String) (old : τ) (absent : Codec.foldName name ∉
      ["session", "mode", "label", "track", "radio", "lapTrace", "totalLaps", "stints", "cars",
        "timeMs", "rev", "messages", "weather"].map Codec.foldName) :
      codec.field name (Codec.members (live.entries car)) old = some old :=
    codec.field_of_fresh (names ▸ absent) old
  have session := entry Codec.string "session" (some (.str live.session)) ""
    (by simp [LiveSnapshot.entries])
  have mode := entry Codec.string "mode" (some (.str "live")) "" (by simp [LiveSnapshot.entries])
  have label := entry Codec.string "label" (some (.str live.label)) ""
    (by simp [LiveSnapshot.entries])
  have track := entry (Codec.list Point.codec) "track" (some live.track) []
    (by simp [LiveSnapshot.entries])
  have corners := fresh (Codec.list Corner.codec) "corners" [] (by decide)
  have cars := entry (Codec.mapping CarState.codec) "cars"
    (some (.obj (live.cars.entries.map fun entry => (entry.1, (car entry.2).dumps)))) none
    (by simp [LiveSnapshot.entries])
  have messages := entry (Codec.list RaceControlMessage.codec) "messages" (live.messages.map .arr) []
    (by simp [LiveSnapshot.entries])
  have radio := entry (Codec.list RadioMessage.codec) "radio" (some (.arr live.radio)) []
    (by simp [LiveSnapshot.entries])
  have lapTrace := entry (Codec.dict (Codec.slice Codec.int64)) "lapTrace" (some live.lapTrace) .empty
    (by simp [LiveSnapshot.entries])
  have totalLaps := entry Codec.int64 "totalLaps" (some live.totalLaps) 0
    (by simp [LiveSnapshot.entries])
  have stints := entry (Codec.dict (Codec.slice Stint.codec)) "stints" (some live.stints) .empty
    (by simp [LiveSnapshot.entries])
  have pitStops := fresh (Codec.dict (Codec.slice PitStop.codec)) "pitStops" .empty (by decide)
  have pedalTraces := fresh (Codec.dict PedalTrace.codec) "pedalTraces" .empty (by decide)
  have sectorDominance := fresh (Codec.list Codec.int64) "sectorDominance" [] (by decide)
  have weather := entry (Codec.pointer Weather.codec Record.codec_ne_null) "weather" live.weather none
    (by simp [LiveSnapshot.entries])
  have timeMs := entry Codec.int64 "timeMs" (some (.int live.timeMs)) 0
    (by simp [LiveSnapshot.entries])
  have rev := entry Codec.int64 "rev" (some (.int live.rev)) 0 (by simp [LiveSnapshot.entries])
  have log : Option.elim (live.messages.map Json.arr) (some [])
      ((Codec.list RaceControlMessage.codec).unmarshal []) = readMessages (live.messages.getD []) := by
    cases live.messages <;> rfl
  refine Snapshot.unmarshal_obj_iff.trans ⟨?_, ?_⟩
  · intro read
    exact {
      session := Option.some.inj (read.session.symm.trans session)
      mode := Option.some.inj (read.mode.symm.trans mode)
      label := Option.some.inj (read.label.symm.trans label)
      track := track.symm.trans read.track
      corners := Option.some.inj (read.corners.symm.trans corners)
      cars := unmarshal_carDict_iff.mp (cars.symm.trans read.cars)
      messages := log.symm.trans (messages.symm.trans read.messages)
      radio := radio.symm.trans read.radio
      lapTrace := lapTrace.symm.trans read.lapTrace
      totalLaps := totalLaps.symm.trans read.totalLaps
      stints := stints.symm.trans read.stints
      pitStops := Option.some.inj (read.pitStops.symm.trans pitStops)
      pedalTraces := Option.some.inj (read.pedalTraces.symm.trans pedalTraces)
      sectorDominance := Option.some.inj (read.sectorDominance.symm.trans sectorDominance)
      weather := weather.symm.trans read.weather
      timeMs := unmarshal_int_iff.mp (timeMs.symm.trans read.timeMs)
      rev := unmarshal_int_iff.mp (rev.symm.trans read.rev) }
  · intro reads
    exact {
      session := session.trans (congrArg some reads.session.symm)
      mode := mode.trans (congrArg some reads.mode.symm)
      label := label.trans (congrArg some reads.label.symm)
      track := track.trans reads.track
      corners := corners.trans (congrArg some reads.corners.symm)
      cars := cars.trans (unmarshal_carDict_iff.mpr reads.cars)
      messages := messages.trans (log.trans reads.messages)
      radio := radio.trans reads.radio
      lapTrace := lapTrace.trans reads.lapTrace
      totalLaps := totalLaps.trans reads.totalLaps
      stints := stints.trans reads.stints
      pitStops := pitStops.trans (congrArg some reads.pitStops.symm)
      pedalTraces := pedalTraces.trans (congrArg some reads.pedalTraces.symm)
      sectorDominance := sectorDominance.trans (congrArg some reads.sectorDominance.symm)
      weather := weather.trans reads.weather
      timeMs := timeMs.trans (unmarshal_int_iff.mpr reads.timeMs)
      rev := rev.trans (unmarshal_int_iff.mpr reads.rev) }

/-- The entries are named by numbers Go can hold. -/
def Keyed (cars : Dict String κ) : Prop :=
  ∀ entry ∈ cars.entries, ∃ number : Int64, entry.1 = Codec.keyText number

def carOf (snapshot : Snapshot) (number : Int64) : Option CarState :=
  snapshot.cars.bind fun cars => cars.get? number

theorem keyed_members {cars : Dict String κ} (keyed : Keyed cars) (text : κ → Json) :
    ∀ member ∈ cars.entries.map fun entry => (entry.1, text entry.2),
      ∃ number : Int64, member.1 = Codec.keyText number := by
  intro member listed
  obtain ⟨entry, present, rfl⟩ := List.mem_map.mp listed
  exact keyed entry present

theorem SnapshotReads.carOf (reads : SnapshotReads live car held) (keyed : Keyed live.cars)
    (number : Int64) :
    carOf held number = (live.cars.get? (Codec.keyText number)).bind fun id => readCar (car id) := by
  obtain ⟨dict, present, read⟩ := reads.cars
  have distinct : ((live.cars.entries.map fun entry => (entry.1, (car entry.2).dumps)).map
      Prod.fst).Nodup := by
    rw [List.map_map]
    exact live.cars.distinct
  have found := CarState.codec.get?_unmarshalMembers (keyed_members keyed fun id => (car id).dumps)
    distinct read number
  rw [Dict.findEntry_map fun id => (car id).dumps, Dict.get?_empty] at found
  rw [Seam.carOf, present, Option.bind_some, found, Dict.get?]
  cases Dict.findEntry (Codec.keyText number) live.cars.entries <;> rfl

/-- What a publish writes into the snapshot, whichever car dicts it puts there. -/
def nextSnapshot (live : LiveSnapshot κ) (cars : Dict String κ) (rev timeMs : Int)
    (messages : List Json) (weather : Option Json) (radio : List Json) : LiveSnapshot κ :=
  { live with
    cars
    messages :=
      if messages = [] then live.messages
      else some (foldMessages (live.messages.getD []) messages)
    weather := weather.or live.weather
    radio := live.radio ++ radio
    timeMs
    rev }

theorem unmarshalItems_append {τ : Type} (codec : Codec τ) {first second : List Json}
    {values others : List τ} (read : codec.unmarshalItems [] first = some values)
    (later : codec.unmarshalItems [] second = some others) :
    codec.unmarshalItems [] (first ++ second) = some (values ++ others) := by
  rw [Codec.unmarshalItems_eq_some_iff] at *
  exact List.rel_append read later

theorem unmarshalItems_length {τ : Type} (codec : Codec τ) {items : List Json} {values : List τ}
    (read : codec.unmarshalItems [] items = some values) : items.length = values.length :=
  ((Codec.unmarshalItems_eq_some_iff codec).mp read).length_eq

theorem readMessages_next {log new : List Json} {held heard : List RaceControlMessage}
    (read : readMessages log = some held) (later : readMessages new = some heard) :
    readMessages ((if new = [] then some log else some (foldMessages log new)).getD []) =
      some (push maxMessages held heard) := by
  have lengths := unmarshalItems_length _ later
  have empty : heard = [] ↔ new = [] := by
    rw [← List.length_eq_zero_iff, ← List.length_eq_zero_iff, lengths]
  rw [push]
  by_cases none : new = []
  · rw [if_pos none, if_pos (empty.mpr none)]
    exact read
  · rw [if_neg none, if_neg fun same => none (empty.mp same)]
    have both := unmarshalItems_append _ read later
    have counts := unmarshalItems_length _ both
    change readMessages (keepLast 30 (log ++ new)) = some (keepLast 30 (held ++ heard))
    rw [keepLast]
    rw [counts]
    rw [Codec.unmarshalItems_eq_some_iff] at both
    exact (Codec.unmarshalItems_eq_some_iff _).mpr (List.forall₂_drop _ both)

theorem readWeather_or {sent stored : Option Json} (present : sent ≠ some .null)
    {weather old : Option Weather} (read : readWeather sent = some weather)
    (before : readWeather stored = some old) :
    readWeather (sent.or stored) = some (weather.or old) := by
  cases sent with
  | none =>
      cases read
      exact before
  | some json =>
      have real : weather ≠ none := by
        intro nothing
        subst nothing
        cases json with
        | null => exact present rfl
        | _ => simp [readWeather, Codec.pointer] at read
      obtain ⟨sky, rfl⟩ := Option.ne_none_iff_exists'.mp real
      simpa using read

/-- If every car of the next snapshot decodes, so does the snapshot. -/
theorem SnapshotReads.next (reads : SnapshotReads live car held) {car' : κ → Car}
    {cars : Dict String κ} (keyed : Keyed cars)
    (decodes : ∀ entry ∈ cars.entries, (readCar (car' entry.2)).isSome)
    {rev timeMs : Int} {list : List Car} {messages radio : List Json} {weather : Option Json}
    (present : weather ≠ some .null) {frame : Frame}
    (sent : FrameReads rev timeMs list messages weather radio frame) :
    ∃ after, SnapshotReads (nextSnapshot live cars rev timeMs messages weather radio) car' after ∧
      after.messages = push maxMessages held.messages frame.messages ∧
      after.radio = held.radio ++ frame.radio ∧ after.weather = frame.weather.or held.weather ∧
      after.timeMs = frame.timeMs ∧ after.rev = frame.rev := by
  have written : (CarState.codec.unmarshalMembers .empty
      (cars.entries.map fun entry => (entry.1, (car' entry.2).dumps))).isSome := by
    rw [Codec.unmarshalMembers_isSome_iff _ (keyed_members keyed fun id => (car' id).dumps)]
    intro member listed
    obtain ⟨entry, present, rfl⟩ := List.mem_map.mp listed
    exact decodes entry present
  obtain ⟨dict, written⟩ := Option.isSome_iff_exists.mp written
  have log : (nextSnapshot live cars rev timeMs messages weather radio).messages.getD [] =
      (if messages = [] then some (live.messages.getD [])
        else some (foldMessages (live.messages.getD []) messages)).getD [] := by
    rw [nextSnapshot]
    split <;> rfl
  exact ⟨{ held with
      cars := some dict
      messages := push maxMessages held.messages frame.messages
      radio := held.radio ++ frame.radio
      weather := frame.weather.or held.weather
      timeMs := frame.timeMs
      rev := frame.rev },
    { reads with
      cars := ⟨dict, rfl, written⟩
      messages := log ▸ readMessages_next reads.messages sent.messages
      radio := unmarshalItems_append _ reads.radio sent.radio
      weather := readWeather_or present sent.weather reads.weather
      timeMs := sent.timeMs
      rev := sent.rev },
    rfl, rfl, rfl, rfl, rfl⟩

end

/-- The same cars, messages, radio, weather, clock and revision. -/
structure SameFold (held folded : Snapshot) : Prop where
  cars : ∀ number, carOf held number = carOf folded number
  messages : held.messages = folded.messages
  radio : held.radio = folded.radio
  weather : held.weather = folded.weather
  timeMs : held.timeMs = folded.timeMs
  rev : held.rev = folded.rev

/-- At every publication the stored text reads as the fold of all frames published so far. -/
def FoldsTo (folded : Snapshot) : List (Json × Json) → Prop
  | [] => True
  | (stored, text) :: rest =>
      ∃ held frame after applied, Snapshot.unmarshal stored = some held ∧
        Frame.unmarshal text = some frame ∧ apply folded frame = .ok (after, applied) ∧
        SameFold held after ∧ FoldsTo after rest

theorem carOf_advance {folded : Snapshot} (map : folded.cars ≠ none) (frame : Frame)
    (number : Int64) : carOf (advance folded frame) number =
      (frame.carList.filter fun car => car.driverNum = number).getLast?.or (carOf folded number) := by
  obtain ⟨cars, present⟩ := Option.ne_none_iff_exists'.mp map
  simp only [carOf, advance, present, Option.map_some, Option.bind_some, setCars]
  rw [Dict.get?_foldl_set (fun car : CarState => car.driverNum) (fun car => car), Option.map_id']

end RaceTracker.Seam
