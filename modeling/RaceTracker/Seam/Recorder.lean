import RaceTracker.Bake.RecordedClip
import RaceTracker.Ingest.Ranking
import RaceTracker.Seam.ClipWriters

namespace RaceTracker.Seam

open RaceTracker.Lib RaceTracker.Model RaceTracker.Ingest RaceTracker.Bake

/-! A clip from the recorder's tables to the lines that Go loads. -/

def rcMembers (entry : RcEntry) : List (String × Option Json) :=
  [("rev", some (.int entry.rev)), ("t", some (.int entry.t)), ("category", some (.str entry.category)),
    ("message", some (.str entry.message)), ("driver", entry.driver.map .int)]

def rcDumps (entry : RcEntry) : Json := .obj (Codec.members (rcMembers entry))

def weatherDumps (weather : Weather) : Json :=
  .obj [("airTempC", Ingest.float weather.airTempC), ("trackTempC", Ingest.float weather.trackTempC),
    ("rainfall", .bool weather.rainfall)]

/-- `assemble_frame`, and the line around it. -/
def frameLine (frame : RecordedFrame) : FrameLine where
  timeMs := frame.timeMs
  session := none
  rev := frame.rev
  t := none
  radio := []
  frame := {
    timeMs := frame.timeMs
    cars := frame.cars
    messages := frame.messages.map rcDumps
    weather := frame.weather.map weatherDumps }

/-- What the header is assembled from, beside the number of frames. -/
structure HeaderPieces where
  track : Json
  corners : Json
  label : String
  radio : List Json
  lapTrace : Json
  totalLaps : Json
  stints : Json
  pitStops : Json
  pedalTraces : Json
  sectorDominance : Json

/-- `assemble_header`. -/
def headerLine (pieces : HeaderPieces) (maxRev : Nat) : HeaderLine where
  track := some pieces.track
  label := some pieces.label
  maxRev := some (.int maxRev)
  corners := some pieces.corners
  radio := some pieces.radio
  lapTrace := some pieces.lapTrace
  totalLaps := some pieces.totalLaps
  stints := some pieces.stints
  pitStops := some pieces.pitStops
  pedalTraces := some pieces.pedalTraces
  sectorDominance := some pieces.sectorDominance

/-- The clip as Go loads it. -/
def loadRecorded (pieces : HeaderPieces) (frames : List RecordedFrame) : Option Replay.Source :=
  Replay.load (headerLine pieces frames.length).text (frames.map fun frame => (frameLine frame).text)

/-- A car as the recorder writes it: whatever Go would leave out is left out. -/
structure Sparse (car : Car) : Prop where
  code : ∃ text, car.code = .str text
  team : ∃ text, car.team = .str text
  lap : car.lap ≠ none
  status : car.status ≠ none
  tyre : car.tyre ≠ some ""
  drs : car.drs ≠ some false
  readings : ∀ reading ∈ optionalReadings car, ∀ value, reading = some value → 0 < value

theorem pos_of_positive (number value : Int) (shown : positive number = some value) : 0 < value :=
  (positive_eq_some.mp shown).1

theorem sparse_car {driver : DriverFrames} {driverNum : Int} {i : Nat} {tS : Rat} {car : Car}
    (built : driver.car driverNum i tS = .ok car) : Sparse car := by
  have tyre (name : String) : (if name = "" then none else some name) ≠ some "" := by
    split
    · simp
    · rename_i known
      exact fun same => known (Option.some.inj same)
  have missing : ∀ value : Int, none = some value → 0 < value := by simp
  obtain ⟨p, _, rest⟩ := bind_eq_ok_iff.mp built
  obtain ⟨status, _, rest⟩ := bind_eq_ok_iff.mp rest
  simp only at rest
  cases sampled : driver.tel with
  | none =>
      rw [sampled] at rest
      cases rest
      refine ⟨⟨_, rfl⟩, ⟨_, rfl⟩, by simp, by simp, tyre _, by simp, ?_⟩
      simp only [optionalReadings, List.forall_mem_cons]
      exact ⟨pos_of_positive _, pos_of_positive _, pos_of_positive _, pos_of_positive _,
        pos_of_positive _, pos_of_positive _, missing, missing, missing, missing, missing, missing,
        missing, by simp⟩
  | some tel =>
      rw [sampled] at rest
      obtain ⟨speed, _, rest⟩ := bind_eq_ok_iff.mp rest
      obtain ⟨gear, _, rest⟩ := bind_eq_ok_iff.mp rest
      obtain ⟨throttle, _, rest⟩ := bind_eq_ok_iff.mp rest
      obtain ⟨brake, _, rest⟩ := bind_eq_ok_iff.mp rest
      obtain ⟨drs, _, rest⟩ := bind_eq_ok_iff.mp rest
      cases rest
      refine ⟨⟨_, rfl⟩, ⟨_, rfl⟩, by simp, by simp, tyre _, by cases drs <;> simp, ?_⟩
      simp only [optionalReadings, List.forall_mem_cons]
      exact ⟨pos_of_positive _, pos_of_positive _, pos_of_positive _, pos_of_positive _,
        pos_of_positive _, pos_of_positive _, missing, missing, missing, pos_of_positive _,
        pos_of_positive _, pos_of_positive _, pos_of_positive _, by simp⟩

/-- Ranks and gaps keep it so. -/
theorem Sparse.placed {tGridS : List Rat} {lapLengthM tS : Rat} {i : Nat} {leader : Leader}
    {above : Option (Curve × Car)} {entry : Curve × Car} {car : Car}
    (sparse : Sparse entry.2) (placed : Placed tGridS lapLengthM i tS leader above entry car) :
    Sparse car := by
  have same := placed.ungapped
  simp only [ungapped, Car.mk.injEq] at same
  obtain ⟨_, code, team, _, lap, _, status, tyre, tyreAge, lastLapMs, bestLapMs, s1Ms, s2Ms, s3Ms, _, _, _,
    speed, gear, throttle, brake, drs⟩ := same
  have readings := sparse.readings
  simp only [optionalReadings, List.forall_mem_cons] at readings
  obtain ⟨one, two, three, four, five, six, _, _, _, seven, eight, nine, ten, _⟩ := readings
  refine ⟨code ▸ sparse.code, team ▸ sparse.team, lap ▸ sparse.lap, status ▸ sparse.status,
    tyre ▸ sparse.tyre, drs ▸ sparse.drs, ?_⟩
  simp only [optionalReadings, List.forall_mem_cons, tyreAge, lastLapMs, bestLapMs, s1Ms, s2Ms, s3Ms, speed,
    gear, throttle, brake]
  exact ⟨one, two, three, four, five, six, fun ms shown => ((placed.gap ms).mp shown).1,
    fun laps shown => pos_of_positive _ laps (placed.laps ▸ shown),
    fun ms shown => ((placed.int ms).mp shown).1, seven, eight, nine, ten, by simp⟩

theorem Sparse.ranked {car : Car} (sparse : Sparse car) (pos : Option Int) : Sparse { car with pos } :=
  ⟨sparse.code, sparse.team, sparse.lap, sparse.status, sparse.tyre, sparse.drs, sparse.readings⟩

theorem recorded_sparse {tables : Tables} {i : Nat} {tS : Rat} {frame : RecordedFrame}
    (written : FrameWritten tables i tS frame) : ∀ car ∈ frame.cars, Sparse car ∧ car.pos ≠ none := by
  intro car member
  obtain ⟨raws, each, gaps⟩ := written.cars
  obtain ⟨leader, above, entry, ranked, placed⟩ := gaps.entry_of_mem member
  obtain ⟨raw, listed, pos, same⟩ := raw_of_mem_reconcile ranked
  obtain ⟨driver, _, _, built⟩ := forall₂_exists each.flip listed
  refine ⟨Sparse.placed (same ▸ (sparse_car built).ranked pos) placed, ?_⟩
  have ranks := written.ranks
  have place : car.pos ∈ frame.cars.map Car.pos := List.mem_map_of_mem member
  rw [ranks] at place
  obtain ⟨index, _, here⟩ := List.mem_map.mp place
  exact here ▸ Option.some_ne_none _

/-- Every number of the frame is one that Go and a browser both hold. -/
structure Words (frame : RecordedFrame) : Prop where
  rev : Codec.Fits frame.rev
  timeMs : Codec.Fits frame.timeMs
  numbers : ∀ car ∈ frame.cars, Codec.Fits car.driverNum
  readings : ∀ car ∈ frame.cars, ∀ reading ∈ car.pos :: car.lap :: optionalReadings car,
    ∀ value, reading = some value → Codec.Fits value
  messages : ∀ entry ∈ frame.messages, Codec.Fits entry.rev ∧ Codec.Fits entry.t ∧
    ∀ driver, entry.driver = some driver → Codec.Fits driver

instance (frame : RecordedFrame) : Decidable (Words frame) :=
  decidable_of_iff
    ((Codec.Fits frame.rev ∧ Codec.Fits frame.timeMs) ∧
      (∀ car ∈ frame.cars, Codec.Fits car.driverNum ∧
        ∀ reading ∈ car.pos :: car.lap :: optionalReadings car, ∀ value ∈ reading, Codec.Fits value) ∧
      ∀ entry ∈ frame.messages, Codec.Fits entry.rev ∧ Codec.Fits entry.t ∧
        ∀ driver ∈ entry.driver, Codec.Fits driver)
    ⟨fun ⟨⟨rev, timeMs⟩, cars, messages⟩ => ⟨rev, timeMs, fun car member => (cars car member).1,
        fun car member => (cars car member).2, messages⟩,
      fun words => ⟨⟨words.rev, words.timeMs⟩,
        fun car member => ⟨words.numbers car member, words.readings car member⟩, words.messages⟩⟩

theorem toInt_of_fits {value : Int} (fits : Codec.Fits value) : (Int64.ofInt value).toInt = value := by
  obtain ⟨low, high, _⟩ := fits
  rw [Int64.toInt_minValue] at low
  rw [Int64.toInt_maxValue] at high
  exact Int64.toInt_ofInt_of_le low (by omega)

theorem recorded_kept {tables : Tables} {i : Nat} {tS : Rat} {frame : RecordedFrame}
    (written : FrameWritten tables i tS frame) (words : Words frame) : ∀ car ∈ frame.cars, Kept car := by
  intro car member
  obtain ⟨sparse, placed⟩ := recorded_sparse written car member
  obtain ⟨pos, place⟩ := Option.ne_none_iff_exists'.mp placed
  obtain ⟨lap, counted⟩ := Option.ne_none_iff_exists'.mp sparse.lap
  have fits := words.readings car member
  exact {
    driverNum := words.numbers car member
    code := sparse.code
    team := sparse.team
    pos := ⟨pos, place, fits car.pos (by simp) pos place⟩
    lap := ⟨lap, counted, fits car.lap (by simp) lap counted⟩
    status := sparse.status
    tyre := sparse.tyre
    drs := sparse.drs
    readings := fun reading listed value shown =>
      ⟨(sparse.readings reading listed value shown).ne', fits reading (by simp [listed]) value shown⟩ }

/-- A race-control entry as Go has it. -/
def goMessage (entry : RcEntry) : RaceControlMessage where
  rev := Int64.ofInt entry.rev
  t := Int64.ofInt entry.t
  category := entry.category
  message := entry.message
  driver := entry.driver.map Int64.ofInt

/-- Python writes the entry as Go would. -/
theorem rcDumps_eq {entry : RcEntry} (rev : Codec.Fits entry.rev) (t : Codec.Fits entry.t)
    (driver : ∀ driver, entry.driver = some driver → Codec.Fits driver) :
    rcDumps entry = RaceControlMessage.codec.marshal (goMessage entry) := by
  have written : RaceControlMessage.codec.marshal (goMessage entry) = .obj (Codec.members
      [("rev", some (.int (goMessage entry).rev.toInt)), ("t", some (.int (goMessage entry).t.toInt)),
        ("category", some (.str entry.category)), ("message", some (.str entry.message)),
        ("driver", (goMessage entry).driver.map fun driver => .int driver.toInt)]) := by
    change Json.obj (Codec.members (RaceControlMessage.record.entries _)) = _
    refine congrArg (fun entries => Json.obj (Codec.members entries)) ?_
    cases number : entry.driver with
    | none =>
        simp only [goMessage, number]
        rfl
    | some value =>
        simp only [goMessage, number]
        rfl
  rw [written, rcDumps, rcMembers]
  have named : (entry.driver.map Json.int) = (goMessage entry).driver.map fun driver => .int driver.toInt := by
    cases number : entry.driver with
    | none => simp [goMessage, number]
    | some value => simp [goMessage, number, toInt_of_fits (driver value number)]
  rw [named]
  simp only [goMessage, toInt_of_fits rev, toInt_of_fits t]

theorem readWeather_dumps (weather : Option Weather) : readWeather (weather.map weatherDumps) = some weather := by
  cases weather with
  | none => rfl
  | some weather =>
      have number (value old : F64) : Codec.float64.unmarshal old (Ingest.float value) = some value :=
        Codec.readFloat64_value value false
      have air : Codec.foldName "airTempC" ≠ Codec.foldName "trackTempC" := by decide
      have wet : Codec.foldName "airTempC" ≠ Codec.foldName "rainfall" := by decide
      have dry : Codec.foldName "trackTempC" ≠ Codec.foldName "rainfall" := by decide
      have read : Weather.codec.unmarshal Weather.codec.zero (weatherDumps weather) = some weather := by
        simp [weatherDumps, Weather.codec, Record.codec, Record.always, Record.field, Record.nil, Codec.field,
          air, air.symm, wet, wet.symm, dry, dry.symm, number, Codec.bool]
      exact congrArg (Option.map some) read

/-- What Go makes of a recorded frame: the same clock and revision, the messages and the weather as they
were recorded, and cars that say what the recorder's do. -/
structure LineRecorded (frame : RecordedFrame) (line : Replay.ClipLine) : Prop where
  rev : line.frame.rev.toInt = frame.rev
  timeMs : line.frame.timeMs.toInt = frame.timeMs
  weather : line.frame.weather = frame.weather
  messages : line.frame.messages = frame.messages.map goMessage
  cars : ∃ states, line.frame.cars = some states ∧
    List.Forall₂ (fun car state => readCar car = some state) frame.cars states ∧
    List.Forall₂ (fun car state => Alike car.dumps (relayed state)) frame.cars states

theorem line_loads {tables : Tables} {i : Nat} {tS : Rat} {frame : RecordedFrame}
    (written : FrameWritten tables i tS frame) (words : Words frame) :
    ∃ line, Replay.ClipLine.codec.unmarshal Replay.ClipLine.codec.zero (frameLine frame).text = some line ∧
      LineRecorded frame line := by
  have texts : List.Forall₂ Writes frame.cars (frame.cars.map Car.dumps) :=
    List.forall₂_map_right_iff.mpr (List.forall₂_same.mpr fun car _ => ⟨car.entries, .refl _, rfl⟩)
  obtain ⟨states, decoded, alike⟩ := (all_kept_iff texts).mpr (recorded_kept written words)
  rw [Codec.unmarshalItems_eq_some_iff, List.forall₂_map_left_iff] at decoded
  rw [List.forall₂_map_left_iff, List.forall₂_map_right_iff] at alike
  have entries : readMessages (frame.messages.map rcDumps) = some (frame.messages.map goMessage) := by
    have same : frame.messages.map rcDumps =
        (frame.messages.map goMessage).map RaceControlMessage.codec.marshal := by
      rw [List.map_map]
      refine List.map_congr_left fun entry member => ?_
      obtain ⟨rev, t, driver⟩ := words.messages entry member
      exact rcDumps_eq rev t driver
    rw [same]
    exact RaceControlMessage.codec.unmarshalItems_marshal _
  let goFrame : Frame := {
    sessionKey := ""
    rev := Int64.ofInt frame.rev
    t := 0
    timeMs := Int64.ofInt frame.timeMs
    cars := some states
    messages := frame.messages.map goMessage
    radio := []
    weather := frame.weather }
  have reads : FrameReads frame.rev frame.timeMs frame.cars (frame.messages.map rcDumps)
      (frame.weather.map weatherDumps) [] goFrame := {
    rev := toInt_of_fits words.rev
    timeMs := toInt_of_fits words.timeMs
    cars := ⟨states, rfl, decoded⟩
    messages := entries
    weather := readWeather_dumps frame.weather
    radio := rfl }
  have frameRead := (@unmarshal_frame_iff none frame.rev frame.timeMs none frame.cars _ _ _ _).mpr ⟨rfl, rfl, reads⟩
  let members : List (String × Option Json) :=
    [("timeMs", some (.int frame.timeMs)), ("frame", some (.obj (Codec.members
      (frameMembers none frame.rev none frame.timeMs frame.cars (frame.messages.map rcDumps)
        (frame.weather.map weatherDumps) []))))]
  have distinct : (members.map fun entry => Codec.foldName entry.1).Nodup := by
    simp only [members, List.map_cons, List.map_nil]
    decide
  have clock := Codec.field_entry Codec.int64 distinct (List.mem_cons_self ..) 0
  have inner := Codec.field_entry Frame.codec distinct
    (List.mem_cons_of_mem _ (List.mem_singleton_self _)) Frame.codec.zero
  refine ⟨⟨Int64.ofInt frame.timeMs, goFrame⟩, ?_, {
    rev := reads.rev
    timeMs := reads.timeMs
    weather := rfl
    messages := rfl
    cars := ⟨states, rfl, decoded, alike⟩ }⟩
  refine Option.map_eq_some_iff.mpr ⟨(Int64.ofInt frame.timeMs, goFrame, ()), ?_, rfl⟩
  simp only [Replay.ClipLine.record, Record.read_always]
  exact ⟨clock.trans (unmarshal_int_iff.mpr (toInt_of_fits words.timeMs)), inner.trans frameRead, rfl⟩

/-- The cars stand as a writer that ranks them would put them. -/
theorem recorded_ranked {tables : Tables} {i : Nat} {tS : Rat} {frame : RecordedFrame}
    (written : FrameWritten tables i tS frame) : reconcilePositions frame.cars = frame.cars := by
  obtain ⟨raws, _, gaps⟩ := written.cars
  have ordered : frame.cars.Pairwise fun first second => byRank first second := by
    have sorted := renumbered_sorted (retired_stay_last (raws.map Prod.snd))
    rw [← reconcilePositions_eq, ← reconcile_map_snd] at sorted
    -- The rank does not look at the gaps.
    have blind : (frame.cars.map ungapped).Pairwise fun first second => byRank first second := by
      rw [gaps.ungapped_cars, List.pairwise_map]
      exact List.pairwise_map.mp sorted
    exact List.pairwise_map.mp blind
  rw [reconcilePositions_eq, List.mergeSort_of_pairwise ordered]
  apply List.ext_getElem
  · exact List.length_mapIdx
  · intro index within within'
    have place := congrArg (fun places => places[index]?) written.ranks
    simp only [List.getElem?_map, List.getElem?_eq_getElem within', List.getElem?_range within',
      Option.map_some, Option.some.injEq] at place
    rw [List.getElem_mapIdx, renumber, ← place]

theorem exists_unmarshalItems {frames : List RecordedFrame}
    (each : ∀ frame ∈ frames, ∃ line, Replay.ClipLine.codec.unmarshal Replay.ClipLine.codec.zero
      (frameLine frame).text = some line ∧ LineRecorded frame line) :
    ∃ lines, Replay.ClipLine.codec.unmarshalItems [] (frames.map fun frame => (frameLine frame).text) =
      some lines ∧ List.Forall₂ LineRecorded frames lines := by
  simp only [Codec.unmarshalItems_eq_some_iff, List.forall₂_map_left_iff]
  induction frames with
  | nil => exact ⟨[], .nil, .nil⟩
  | cons frame rest ih =>
      obtain ⟨first, others⟩ := List.forall_mem_cons.mp each
      obtain ⟨line, read, recorded⟩ := first
      obtain ⟨lines, later, all⟩ := ih others
      exact ⟨line :: lines, .cons read later, .cons recorded all⟩

/-- A recording whose numbers fit is a clip that Go loads: one line for each frame, and a last revision
that is their number; no car loses a reading on the way to the browser, and whoever ranks the cars again
leaves them as they are. -/
theorem recorded_clip_loads {tables : Tables} (fit : tables.Fit) {frames : List RecordedFrame}
    (written : tables.frames = .ok frames) (words : ∀ frame ∈ frames, Words frame)
    (pieces : HeaderPieces) {header : Replay.ClipHeader}
    (read : Replay.ClipHeader.codec.unmarshal Replay.ClipHeader.codec.zero
      (headerLine pieces frames.length).text = some header) :
    ∃ source, loadRecorded pieces frames = some source ∧ source.label = pieces.label ∧
      source.max.toInt = frames.length ∧ List.Forall₂ LineRecorded frames source.lines ∧
      ∀ frame ∈ frames, reconcilePositions frame.cars = frame.cars := by
  obtain ⟨_, recorded, whole⟩ := Tables.frames_spec fit
  cases written.symm.trans recorded
  have each : ∀ frame ∈ frames, ∃ i tS, FrameWritten tables i tS frame := by
    intro frame member
    obtain ⟨i, found⟩ := List.mem_iff_getElem?.mp member
    obtain ⟨within, _⟩ := List.getElem?_eq_some_iff.mp found
    rw [whole.length] at within
    exact ⟨i, _, whole.written i _ frame (List.getElem?_eq_getElem within) found⟩
  obtain ⟨lines, loaded, reads⟩ := @exists_unmarshalItems frames fun frame member => by
    obtain ⟨i, tS, written⟩ := each frame member
    exact line_loads written (words frame member)
  have lined : lines ≠ [] := by
    rw [← List.length_pos_iff, ← reads.length_eq, whole.length, List.length_pos_iff]
    exact fit.grid
  obtain ⟨last, ends⟩ := Option.ne_none_iff_exists'.mp (mt List.getLast?_eq_none_iff.mp lined)
  have shared := shared_of_read read
  have counted : header.maxRev.toInt = frames.length := by
    obtain ⟨fields, fieldsRead, rfl⟩ := Option.map_eq_some_iff.mp read
    simp only [Replay.ClipHeader.record, Record.read_always] at fieldsRead
    obtain ⟨_, _, _, maxRev, _⟩ := fieldsRead
    have own := (Codec.int64.field_entry (headerEntries_distinct (headerLine pieces frames.length))
      (show ("maxRev", some (.int frames.length)) ∈ _ by simp [HeaderLine.entries, headerLine]) 0).symm.trans
        maxRev
    exact unmarshal_int_iff.mp own
  have positive : 0 < frames.length := by
    rw [whole.length]
    exact List.length_pos_iff.mpr fit.grid
  have given : header.maxRev ≠ 0 := by
    intro zero
    rw [zero] at counted
    simp at counted
    omega
  refine ⟨{ header.clip with lines, max := header.maxRev }, ?_, shared.label, counted, reads, ?_⟩
  · simp only [loadRecorded, Replay.load, read, loaded, ends, if_neg given, bind, Option.bind_some, pure]
  · intro frame member
    obtain ⟨i, tS, written⟩ := each frame member
    exact recorded_ranked written

end RaceTracker.Seam
