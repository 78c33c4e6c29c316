import RaceTracker.Replay.Source
import RaceTracker.Seam.Clips
import RaceTracker.Seam.Restarts

namespace RaceTracker.Seam

open RaceTracker.Lib RaceTracker.Model RaceTracker.App RaceTracker.Ingest RaceTracker.Replay

/-! The two writers that play a clip: Go's replay writer and Python's `publish_clip`. -/

/-- The first line of a clip; an absent key is `none`. -/
structure HeaderLine where
  track : Option Json
  label : Option String
  maxRev : Option Json
  corners : Option Json
  radio : Option (List Json)
  lapTrace : Option Json
  totalLaps : Option Json
  stints : Option Json
  pitStops : Option Json
  pedalTraces : Option Json
  sectorDominance : Option Json

def HeaderLine.entries (header : HeaderLine) : List (String × Option Json) :=
  [("track", header.track), ("label", header.label.map .str), ("maxRev", header.maxRev),
    ("corners", header.corners), ("radio", header.radio.map .arr), ("lapTrace", header.lapTrace),
    ("totalLaps", header.totalLaps), ("stints", header.stints), ("pitStops", header.pitStops),
    ("pedalTraces", header.pedalTraces), ("sectorDominance", header.sectorDominance)]

def HeaderLine.text (header : HeaderLine) : Json := .obj (Codec.members header.entries)

/-- What the Python writer takes from it. -/
def HeaderLine.copied (header : HeaderLine) : Ingest.ClipHeader where
  label := header.label
  track := header.track
  radio := header.radio
  lapTrace := header.lapTrace
  totalLaps := header.totalLaps
  stints := header.stints

/-- A frame line.  The Python writer looks at `timeMs` and `frame`, the rest is for Go. -/
structure FrameLine where
  timeMs : Int
  session : Option String
  rev : Int
  t : Option Int
  radio : List Json
  frame : ClipFrame

def FrameLine.text (line : FrameLine) : Json :=
  .obj (Codec.members [("timeMs", some (.int line.timeMs)), ("frame", some (.obj (Codec.members
    (frameMembers line.session line.rev line.t line.frame.timeMs line.frame.cars
      line.frame.messages line.frame.weather line.radio))))])

/-- The session constants of a snapshot. -/
def sessionConstants (snapshot : Snapshot) : ClipSource where
  track := snapshot.track
  corners := snapshot.corners
  radio := snapshot.radio
  lapTrace := snapshot.lapTrace
  totalLaps := snapshot.totalLaps
  stints := snapshot.stints
  pitStops := snapshot.pitStops
  pedalTraces := snapshot.pedalTraces
  sectorDominance := snapshot.sectorDominance
  label := snapshot.label

/-- What both writers read alike: a key that is absent has its default in Python, and in Go
the zero value that the default is read as. -/
structure Shared (header : HeaderLine) (source : ClipSource) : Prop where
  track : (Codec.list Point.codec).unmarshal [] (header.track.getD (.arr [])) = some source.track
  radio : readRadio (header.radio.getD []) = some source.radio
  lapTrace : (Codec.dict (Codec.slice Codec.int64)).unmarshal .empty
    (header.lapTrace.getD (.obj [])) = some source.lapTrace
  totalLaps : Codec.int64.unmarshal 0 (header.totalLaps.getD (.int 0)) = some source.totalLaps
  stints : (Codec.dict (Codec.slice Stint.codec)).unmarshal .empty
    (header.stints.getD (.obj [])) = some source.stints
  label : source.label = header.label.getD ""

theorem headerEntries_distinct (header : HeaderLine) :
    (header.entries.map fun entry => Codec.foldName entry.1).Nodup := by
  simp only [HeaderLine.entries, List.map_cons, List.map_nil]
  decide

theorem elim_getD {α : Type} {json : Option Json} {default : Json} {value : α} {f : Json → Option α}
    {result : Option α} (read : json.elim (some value) f = result) (same : f default = some value) :
    f (json.getD default) = result := by
  cases json with
  | none => exact same.trans read
  | some json => exact read

theorem shared_of_read {header : HeaderLine} {values : Replay.ClipHeader}
    (decodes : ClipHeader.codec.unmarshal ClipHeader.codec.zero header.text = some values) :
    Shared header values.clip := by
  obtain ⟨fields, read, rfl⟩ := Option.map_eq_some_iff.mp decodes
  simp only [ClipHeader.record, Record.read_always] at read
  obtain ⟨track, _, label, _, radio, lapTrace, totalLaps, stints, _⟩ := read
  have entry {τ : Type} (codec : Codec τ) (name : String) (json : Option Json) (old : τ)
      (member : (name, json) ∈ header.entries) :
      json.elim (some old) (codec.unmarshal old) =
        codec.field name (Codec.members header.entries) old :=
    (codec.field_entry (headerEntries_distinct header) member old).symm
  exact {
    track := elim_getD ((entry _ "track" header.track []
      (by simp [HeaderLine.entries])).trans track) rfl
    radio := by
      have radioRead := (entry _ "radio" (header.radio.map .arr) []
        (by simp [HeaderLine.entries])).trans radio
      cases present : header.radio <;> rw [present] at radioRead <;> exact radioRead
    lapTrace := elim_getD ((entry _ "lapTrace" header.lapTrace Dict.empty
      (by simp [HeaderLine.entries])).trans lapTrace) rfl
    totalLaps := elim_getD ((entry _ "totalLaps" header.totalLaps 0
      (by simp [HeaderLine.entries])).trans totalLaps) rfl
    stints := elim_getD ((entry _ "stints" header.stints Dict.empty
      (by simp [HeaderLine.entries])).trans stints) rfl
    label := by
      have labelRead := (entry _ "label" (header.label.map .str) ""
        (by simp [HeaderLine.entries])).trans label
      cases present : header.label <;> rw [present] at labelRead <;>
        exact (Option.some.inj labelRead).symm }

def LineReads (line : FrameLine) (decoded : Replay.ClipLine) : Prop :=
  FrameReads line.rev line.frame.timeMs line.frame.cars line.frame.messages line.frame.weather
    line.radio decoded.frame

theorem lineReads {line : FrameLine} {decoded : Replay.ClipLine}
    (decodes : ClipLine.codec.unmarshal ClipLine.codec.zero line.text = some decoded) :
    LineReads line decoded := by
  obtain ⟨fields, read, rfl⟩ := Option.map_eq_some_iff.mp decodes
  simp only [ClipLine.record, Record.read_always] at read
  obtain ⟨_, frameRead, _⟩ := read
  let entries := [("timeMs", some (Json.int line.timeMs)), ("frame", some (.obj (Codec.members
    (frameMembers line.session line.rev line.t line.frame.timeMs line.frame.cars
      line.frame.messages line.frame.weather line.radio))))]
  have distinct : (entries.map fun entry => Codec.foldName entry.1).Nodup := by
    simp only [entries, List.map_cons, List.map_nil]
    decide
  have frame := (Codec.field_entry Frame.codec distinct
    (List.mem_cons_of_mem _ (List.mem_singleton_self _)) _).symm.trans frameRead
  exact (unmarshal_frame_iff.mp frame).2.2

theorem load_reads {header : HeaderLine} {lines : List FrameLine} {source : Source}
    (loaded : load header.text (lines.map FrameLine.text) = some source) :
    Shared header source.toClipSource ∧ List.Forall₂ LineReads lines source.lines ∧
      source.lines ≠ [] := by
  simp only [load, bind, Option.bind_eq_some_iff] at loaded
  obtain ⟨values, headerRead, decoded, linesRead, last, present, built⟩ := loaded
  cases built
  have each := (Codec.unmarshalItems_eq_some_iff _).mp linesRead
  rw [List.forall₂_map_left_iff] at each
  exact ⟨shared_of_read headerRead, each.imp fun _ _ => lineReads,
    List.ne_nil_of_mem (List.mem_of_getLast? present)⟩

/-- What is left of a clip's constants after `publish_clip`, and the label it shows. -/
def copiedConstants (source : ClipSource) (label : String) : ClipSource :=
  { source with
    corners := [], pitStops := .empty, pedalTraces := .empty, sectorDominance := [], label }

/-- The same cars, messages, weather and clock. -/
structure SameShown (frame other : Frame) : Prop where
  cars : frame.cars = other.cars
  messages : frame.messages = other.messages
  weather : frame.weather = other.weather
  timeMs : frame.timeMs = other.timeMs

/-- A clip's frame in reconciled order, and the line that Go decoded it to. -/
structure PlayedFrom (line : Replay.ClipLine) (frame : ClipFrame) : Prop where
  ranked : reconcilePositions frame.cars = frame.cars
  sky : frame.weather ≠ some .null
  reads : ∃ rev radio, FrameReads rev frame.timeMs frame.cars frame.messages frame.weather radio
    line.frame

/-- The run has the source's lines, the next one first, and its constants. -/
structure Playing (source : ClipSource) (label : String) (run : ClipRun)
    (due : List Replay.ClipLine) : Prop where
  frames : List.Forall₂ PlayedFrom due run.frames
  rev : run.rev = run.snapshot.rev
  keyed : Keyed run.snapshot.cars
  held : ∃ held, SnapshotReads run.snapshot id held ∧
    sessionConstants held = copiedConstants source label

def Shows (source : ClipSource) (label : String) (line : Replay.ClipLine)
    (published : Json × Json) : Prop :=
  ∃ held frame, Snapshot.unmarshal published.1 = some held ∧
    Frame.unmarshal published.2 = some frame ∧
    sessionConstants held = copiedConstants source label ∧ SameShown frame line.frame

/-- Go can hold `count` revisions from `rev` on. -/
def Room (rev : Int) (count : Nat) : Prop :=
  Int64.minValue.toInt ≤ rev ∧ rev + count ≤ Int64.maxValue.toInt

theorem Room.exists {rev : Int} {count : Nat} (room : Room rev count) {step : Nat}
    (within : step ≤ count) : ∃ held : Int64, held.toInt = rev + step := by
  obtain ⟨low, high⟩ := room
  refine ⟨Int64.ofInt (rev + step), ?_⟩
  rw [Int64.toInt_minValue] at low
  rw [Int64.toInt_maxValue] at high
  exact Int64.toInt_ofInt_of_le (by omega) (by omega)

section

variable {source : ClipSource} {label : String} {run : ClipRun} {line : Replay.ClipLine}
  {due : List Replay.ClipLine}

theorem reconcile_ranked {cars : List Car} (ranked : reconcilePositions cars = cars) :
    (reconcile (tagged cars)).map Prod.snd = cars := by
  have bare : (tagged cars).map Prod.snd = cars := by
    apply List.ext_getElem?
    intro index
    simp [tagged, List.getElem?_mapIdx]
  rw [reconcile_map_snd, bare, ranked]

theorem Playing.turn (playing : Playing source label run (line :: due)) (now : Int64) {count : Nat}
    (room : Room run.rev (count + 1)) : ∃ next published, run.turn now.toInt = some (next, published) ∧
      Shows source label line published ∧ Playing source label next (due ++ [line]) ∧
      Room next.rev count := by
  obtain ⟨frame, rest, plays, others, listed⟩ := List.forall₂_cons_left_iff.mp playing.frames
  obtain ⟨held, reads, constants⟩ := playing.held
  obtain ⟨rev, radio, decoded⟩ := plays.reads
  obtain ⟨revNext, fits⟩ := room.exists (Nat.le_add_left 1 count)
  have ranked := reconcile_ranked plays.ranked
  have bare : FrameReads (run.rev + 1) frame.timeMs ((reconcile (tagged frame.cars)).map Prod.snd)
      frame.messages frame.weather []
      { line.frame with sessionKey := run.session, rev := revNext, t := now, radio := [] } := {
    rev := fits
    timeMs := decoded.timeMs
    cars := by
      rw [ranked]
      exact decoded.cars
    messages := decoded.messages
    weather := decoded.weather
    radio := rfl }
  have text := unmarshal_carsFrame_iff.mpr ⟨rfl, unmarshal_int_iff.mpr rfl, bare⟩
  obtain ⟨keyed, after, readAfter, _, radioAfter, _, _, _⟩ :=
    turn_reads playing.keyed reads plays.sky bare
  have kept : sessionConstants after = copiedConstants source label := by
    rw [← constants]
    have track := Option.some.inj (readAfter.track.symm.trans reads.track)
    have lapTrace := Option.some.inj (readAfter.lapTrace.symm.trans reads.lapTrace)
    have totalLaps := Option.some.inj (readAfter.totalLaps.symm.trans reads.totalLaps)
    have stints := Option.some.inj (readAfter.stints.symm.trans reads.stints)
    simp only [sessionConstants, track, lapTrace, totalLaps, stints, readAfter.corners, reads.corners,
      readAfter.pitStops, reads.pitStops, readAfter.pedalTraces, reads.pedalTraces,
      readAfter.sectorDominance, reads.sectorDominance, readAfter.label, reads.label, radioAfter,
      List.append_nil, nextSnapshot]
  refine ⟨_, _, turn_eq listed, ⟨after, _, unmarshal_dumps_iff.mpr readAfter, text, kept, ?_⟩, ?_, ?_⟩
  · exact ⟨rfl, rfl, rfl, rfl⟩
  · exact {
      frames := by
        rw [ranked]
        exact List.rel_append others (.cons plays .nil)
      rev := rfl
      keyed := keyed
      held := ⟨after, readAfter, kept⟩ }
  · obtain ⟨low, high⟩ := room
    simp only [Room]
    omega

theorem Playing.publications (nows : List Int64) (playing : Playing source label run due)
    (room : Room run.rev nows.length) :
    List.Forall₂ (Shows source label) (cycle due nows.length)
      (publications run (nows.map Int64.toInt)) := by
  induction nows generalizing run due with
  | nil => exact List.Forall₂.nil
  | cons now nows ih =>
      cases due with
      | nil =>
          have idle : run.turn now.toInt = none := by
            rw [ClipRun.turn, List.forall₂_nil_left_iff.mp playing.frames]
          simp only [List.map_cons, Seam.publications, idle]
          exact List.Forall₂.nil
      | cons line due =>
          obtain ⟨next, published, turned, shows, goesOn, room⟩ := playing.turn now room
          simp only [List.map_cons, Seam.publications, turned]
          exact List.Forall₂.cons shows (ih goesOn room)

/-- The label the Python writer shows. -/
def shownLabel (labelOverride : Option String) (header : HeaderLine) : String :=
  (labelOverride.filter (· ≠ "")).getD (header.label.getD "Live")

theorem playing_start {intText : String → Option Int} {session : String} {header : HeaderLine}
    {labelOverride : Option String} {frames : List ClipFrame} {stored : Option Json} {count : Nat}
    (started : ClipRun.start intText session labelOverride header.copied frames stored = .ok run)
    (shared : Shared header source) (plays : List.Forall₂ PlayedFrom due frames)
    (room : Room run.rev count) :
    Playing source (shownLabel labelOverride header) run due := by
  obtain ⟨rev, fits⟩ := room.exists (Nat.zero_le count)
  rw [ClipRun.start] at started
  split at started
  · cases started
  · obtain ⟨base, _, built⟩ := bind_eq_ok_iff.mp started
    cases built
    refine {
      frames := plays
      rev := rfl
      keyed := by simp [Keyed, buildSnapshot, Dict.empty]
      held := ⟨{
        sessionKey := session
        mode := "live"
        label := shownLabel labelOverride header
        track := source.track
        corners := []
        cars := some .empty
        messages := []
        radio := source.radio
        lapTrace := source.lapTrace
        totalLaps := source.totalLaps
        stints := source.stints
        pitStops := .empty
        pedalTraces := .empty
        sectorDominance := []
        weather := none
        timeMs := 0
        rev }, ?_, rfl⟩ }
    exact {
      session := rfl
      mode := rfl
      label := rfl
      track := shared.track
      corners := rfl
      cars := ⟨.empty, rfl, rfl⟩
      messages := rfl
      radio := shared.radio
      lapTrace := shared.lapTrace
      totalLaps := shared.totalLaps
      stints := shared.stints
      pitStops := rfl
      pedalTraces := rfl
      sectorDominance := rfl
      weather := rfl
      timeMs := rfl
      rev := fits.trans (add_zero base) }

end

def writerPublications (session : String) : Writer → List Frame → List (Json × Json)
  | _, [] => []
  | writer, frame :: rest =>
      match writer.fold session frame with
      | .error _ => []
      | .ok (next, none) => writerPublications session next rest
      | .ok (next, some stamped) =>
          (next.snap.marshal, stamped.marshal) :: writerPublications session next rest

/-- Up to session key, mode, label override, wall clock and base revision, Go reads the same
session constants in what was stored and the same frame in what was published. -/
def Interchangeable (labelOverride : Option String) (clip replay : Json × Json) : Prop :=
  ∃ held frame snap sent, Snapshot.unmarshal clip.1 = some held ∧
    Frame.unmarshal clip.2 = some frame ∧ Snapshot.unmarshal replay.1 = some snap ∧
    Frame.unmarshal replay.2 = some sent ∧
    sessionConstants held = { sessionConstants snap with
      label := (labelOverride.filter (· ≠ "")).getD snap.label } ∧
    SameShown frame sent

/-- The clip has none of the sections that `publish_clip` leaves out, and a label to show. -/
structure Bare (labelOverride : Option String) (header : HeaderLine) (source : ClipSource) :
    Prop where
  corners : source.corners = []
  pitStops : source.pitStops = .empty
  pedalTraces : source.pedalTraces = .empty
  sectorDominance : source.sectorDominance = []
  label : labelOverride.filter (· ≠ "") = none → header.label ≠ none

section

variable {labelOverride : Option String} {header : HeaderLine} {source : ClipSource} {writer : Writer}
  {session : String}

theorem default_label_iff (header : HeaderLine) :
    header.label.getD "Live" = header.label.getD "" ↔ header.label ≠ none := by
  cases header.label with
  | none => decide
  | some label => simp

theorem constants_agree_iff (label : source.label = header.label.getD "") (heard : List RadioMessage) :
    copiedConstants source (shownLabel labelOverride header) =
        { source with
          radio := source.radio ++ heard
          label := (labelOverride.filter (· ≠ "")).getD source.label } ↔
      Bare labelOverride header source ∧ heard = [] := by
  have labels : shownLabel labelOverride header =
        (labelOverride.filter (· ≠ "")).getD source.label ↔
      (labelOverride.filter (· ≠ "") = none → header.label ≠ none) := by
    rw [shownLabel, label]
    cases labelOverride.filter (· ≠ "") with
    | none => simpa using default_label_iff header
    | some given => simp
  rw [copiedConstants, ClipSource.mk.injEq, labels]
  constructor
  · intro same
    obtain ⟨_, corners, radio, _, _, _, pitStops, pedalTraces, sectorDominance, label⟩ := same
    exact ⟨⟨corners.symm, pitStops.symm, pedalTraces.symm, sectorDominance.symm, label⟩,
      List.append_right_eq_self.mp radio.symm⟩
  · intro bare
    obtain ⟨bare, rfl⟩ := bare
    exact ⟨rfl, bare.corners.symm, (List.append_nil _).symm, rfl, rfl, rfl, bare.pitStops.symm,
      bare.pedalTraces.symm, bare.sectorDominance.symm, bare.label⟩

theorem toInt_succ {rev : Int64} {count : Nat} (room : Room rev.toInt (count + 1)) :
    (rev + 1).toInt = rev.toInt + 1 := by
  obtain ⟨low, high⟩ := room
  rw [Int64.toInt_minValue] at low
  rw [Int64.toInt_maxValue] at high
  have one : (1 : Int64).toInt = 1 := rfl
  rw [Int64.toInt_add, one, Int.bmod_eq_of_le (by omega) (by omega)]

/-- What one frame was published as, against the same frame on the other side. -/
theorem interchangeable_step {line : Replay.ClipLine} {frame : Frame} {published : Json × Json}
    {snap : Snapshot} (session : String) (rev : Int64) (label : source.label = header.label.getD "")
    (shows : Shows source (shownLabel labelOverride header) line published)
    (stamped : Stamped line frame) (constants : sessionConstants snap = source) :
    Interchangeable labelOverride published
        ((advance snap { frame with rev, sessionKey := session }).marshal,
          { frame with rev, sessionKey := session }.marshal) ↔
      Bare labelOverride header source ∧ frame.radio = [] := by
  obtain ⟨held, shown, heldRead, shownRead, copied, same⟩ := shows
  obtain ⟨_, _, rfl⟩ := stamped
  rw [← constants_agree_iff label, ← copied]
  have after : sessionConstants (advance snap { line.frame with rev, sessionKey := session }) =
      { source with radio := source.radio ++ line.frame.radio } := by
    rw [← constants]
    rfl
  have own : snap.label = source.label := congrArg ClipSource.label constants
  simp only [Interchangeable, heldRead, shownRead, Snapshot.unmarshal_marshal,
    Frame.unmarshal_marshal, Option.some.injEq]
  constructor
  · intro agree
    obtain ⟨_, _, _, _, rfl, rfl, rfl, rfl, agree, _⟩ := agree
    rw [agree, ← own]
    exact congrArg (fun constants : ClipSource => { constants with
      label := (labelOverride.filter (· ≠ "")).getD snap.label }) after
  · intro agree
    refine ⟨_, _, _, _, rfl, rfl, rfl, rfl, ?_, same.cars, same.messages, same.weather, same.timeMs⟩
    rw [agree, ← own]
    exact (congrArg (fun constants : ClipSource => { constants with
      label := (labelOverride.filter (· ≠ "")).getD snap.label }) after).symm

theorem interchangeable_run {published : List (Json × Json)} {frames : List Frame}
    (label : source.label = header.label.getD "")
    (each : List.Forall₂ (fun published frame => ∃ line,
      Shows source (shownLabel labelOverride header) line published ∧ Stamped line frame)
      published frames)
    (counting : Counting writer) (constants : sessionConstants writer.snap = source)
    (room : Room writer.snap.rev.toInt frames.length) :
    List.Forall₂ (Interchangeable labelOverride) published
        (writerPublications session writer frames) ↔
      (frames ≠ [] → Bare labelOverride header source) ∧ ∀ frame ∈ frames, frame.radio = [] := by
  induction each generalizing writer with
  | nil => simp [writerPublications]
  | @cons clip frame published frames first rest ih =>
      obtain ⟨line, shows, stamped⟩ := first
      have short : writer.snap.rev ≠ Int64.maxValue := by
        intro limit
        have high := room.2
        rw [limit, List.length_cons] at high
        omega
      have same : writer.snap.rev = writer.rev := counting.1.resolve_right short
      have folded := counting.fold_short short session frame
      have step := interchangeable_step session (writer.rev + 1) label shows stamped
        constants
      rw [writerPublications, folded, List.forall₂_cons, List.forall_mem_cons]
      have goesOn (silent : frame.radio = []) :
          List.Forall₂ (Interchangeable labelOverride) published
              (writerPublications session
                ⟨advance writer.snap (writer.stamp session frame), writer.rev + 1⟩ frames) ↔
            (frames ≠ [] → Bare labelOverride header source) ∧ ∀ frame ∈ frames, frame.radio = [] := by
        refine ih (counting.fold folded) ?_ ?_
        · rw [← constants]
          simp only [sessionConstants, advance, Writer.stamp, silent, List.append_nil]
        · have next : (advance writer.snap (writer.stamp session frame)).rev = writer.snap.rev + 1 := by
            rw [same]
            rfl
          rw [next, toInt_succ room]
          obtain ⟨low, high⟩ := room
          rw [List.length_cons] at high
          simp only [Room]
          omega
      constructor
      · intro agree
        obtain ⟨bare, silent⟩ := step.mp agree.1
        exact ⟨fun _ => bare, silent, ((goesOn silent).mp agree.2).2⟩
      · intro bare
        obtain ⟨bare, silent, others⟩ := bare
        have bare := bare (List.cons_ne_nil _ _)
        exact ⟨step.mpr ⟨bare, silent⟩, (goesOn silent).mpr ⟨fun _ => bare, others⟩⟩

end

/-- The writers are interchangeable on a clip exactly when it has nothing of what the Python
writer leaves out: the sections it does not copy, radio on a frame, or a label to default. -/
theorem clip_writers_interchangeable_iff {header : HeaderLine} {lines : List FrameLine}
    {source : Source} (loaded : load header.text (lines.map FrameLine.text) = some source)
    (reconciled : ∀ line ∈ lines, reconcilePositions line.frame.cars = line.frame.cars)
    (weather : ∀ line ∈ lines, line.frame.weather ≠ some .null)
    {intText : String → Option Int} {session session' : String} {labelOverride : Option String}
    {stored stored' : Option Json} {run : ClipRun} {writer : Writer}
    (started : ClipRun.start intText session labelOverride header.copied
      (lines.map FrameLine.frame) stored = .ok run)
    (begun : Writer.start source.toClipSource session' stored' = .ok writer)
    (phase : Option Nat) (within : ∀ first, phase = some first → first < lines.length)
    (nows times : List Int64) (turns : nows.length = phase.getD 0 + times.length)
    (nonempty : times ≠ [])
    (room : Room run.rev nows.length) (room' : Room writer.rev.toInt times.length) :
    List.Forall₂ (Interchangeable labelOverride)
        ((publications run (nows.map Int64.toInt)).drop (phase.getD 0))
        (writerPublications session' writer (source.events phase times)) ↔
      Bare labelOverride header source.toClipSource ∧
        ∀ frame ∈ source.events phase times, frame.radio = [] := by
  obtain ⟨shared, reads, lines'⟩ := load_reads loaded
  have plays : List.Forall₂ PlayedFrom source.lines (lines.map FrameLine.frame) := by
    have playable : ∀ line ∈ lines, reconcilePositions line.frame.cars = line.frame.cars ∧
        line.frame.weather ≠ some .null :=
      fun line member => ⟨reconciled line member, weather line member⟩
    have both := (List.forall₂_and_left _ _).mpr ⟨playable, reads⟩
    rw [List.forall₂_map_right_iff]
    refine List.Forall₂.flip (both.imp fun line decoded plays => ?_)
    exact ⟨plays.1.1, plays.1.2, _, _, plays.2⟩
  have bound : ∀ first, phase = some first → first < source.lines.length := by
    rw [← reads.length_eq]
    exact within
  have skipped : phase.getD 0 ≤ source.lines.length := by
    cases phase with
    | none => exact Nat.zero_le _
    | some first => exact (bound first rfl).le
  have shown := List.forall₂_drop (phase.getD 0)
    ((playing_start started shared plays room).publications nows room)
  rw [turns, cycle_drop _ skipped] at shown
  have played := events_cycle bound times
  have each := forall₂_through (List.Forall₂.flip shown) played
  have count : (source.events phase times).length = times.length := by
    have due : source.due phase ≠ [] := by
      rw [← List.length_pos_iff, source.due_length, List.length_pos_iff]
      exact lines'
    rw [← played.length_eq, cycle_length due]
  have sent : source.events phase times ≠ [] := by
    rw [← List.length_pos_iff, count, List.length_pos_iff]
    exact nonempty
  obtain ⟨same, cars⟩ := Writer.start_same begun
  have constants : sessionConstants writer.snap = source.toClipSource := by
    obtain ⟨_, _, _, fresh⟩ := Writer.start_cases begun
    rw [fresh]
    rfl
  rw [interchangeable_run shared.label each ⟨Or.inl same, cars⟩ constants
    (by rw [same, count]; exact room')]
  exact and_congr_left' ⟨fun bare => bare sent, fun bare _ => bare⟩

def cornerHeader : HeaderLine where
  track := none
  label := some "Demo"
  maxRev := none
  corners := some (.arr [.obj [("number", .int 1), ("x", .int 0), ("y", .int 0)]])
  radio := none
  lapTrace := none
  totalLaps := none
  stints := none
  pitStops := none
  pedalTraces := none
  sectorDominance := none

/-- A car on two frames. -/
def cornerLines : List FrameLine :=
  [⟨0, none, 1, none, [], ⟨0, [leaderCar], [], none⟩⟩,
    ⟨100, none, 2, none, [], ⟨100, [leaderCar], [], none⟩⟩]

def corner : Corner := ⟨1, Point.codec.zero, ""⟩

def cornerCar : CarState :=
  { CarState.codec.zero with
    driverNum := 1, code := "VER", team := "Red Bull", pos := 1, status := "OnTrack" }

def cornerSource : Source where
  track := []
  corners := [corner]
  radio := []
  lapTrace := .empty
  totalLaps := 0
  stints := .empty
  pitStops := .empty
  pedalTraces := .empty
  sectorDominance := []
  label := "Demo"
  lines := [⟨0, ⟨"", 1, 0, 0, some [cornerCar], [], [], none⟩⟩,
    ⟨100, ⟨"", 2, 0, 100, some [cornerCar], [], [], none⟩⟩]
  max := 2

theorem cornerSource_loaded :
    load cornerHeader.text (cornerLines.map FrameLine.text) = some cornerSource := by
  decide +kernel

theorem cornerRuns_start : ∃ run writer,
    ClipRun.start parseDecimal "live" none cornerHeader.copied (cornerLines.map FrameLine.frame) none =
        .ok run ∧
      Writer.start cornerSource.toClipSource "demo" none = .ok writer ∧
      run.rev = 0 ∧ writer.rev = 0 ∧
      (publications run [0, 100]).map (fun published =>
        (Snapshot.unmarshal published.1).map Snapshot.corners) = [some [], some []] ∧
      (writerPublications "demo" writer (cornerSource.events none [0, 100])).map (fun published =>
        (Snapshot.unmarshal published.1).map Snapshot.corners) = [some [corner], some [corner]] := by
  refine ⟨_, _, rfl, rfl, rfl, rfl, ?_⟩
  decide +kernel

theorem clip_writers_interchangeable_iff_corner : ∃ run writer,
    ClipRun.start parseDecimal "live" none cornerHeader.copied (cornerLines.map FrameLine.frame) none =
        .ok run ∧
      Writer.start cornerSource.toClipSource "demo" none = .ok writer ∧
      (List.Forall₂ (Interchangeable none) ((publications run ([0, 100].map Int64.toInt)).drop 0)
          (writerPublications "demo" writer (cornerSource.events none [0, 100])) ↔
        Bare none cornerHeader cornerSource.toClipSource ∧
          ∀ frame ∈ cornerSource.events none [0, 100], frame.radio = []) := by
  obtain ⟨run, writer, started, begun, rev, rev', _⟩ := cornerRuns_start
  refine ⟨run, writer, started, begun, ?_⟩
  have reconciled : reconcilePositions [leaderCar] = [leaderCar] := by
    simp [reconcilePositions, reconcile, leaderCar]
  exact clip_writers_interchangeable_iff cornerSource_loaded
    (by simp [cornerLines, reconciled]) (by simp [cornerLines]) started begun
    none (fun _ found => by cases found) [0, 100] [0, 100] rfl (by simp) (by rw [rev]; exact ⟨by decide, by decide⟩)
    (by rw [rev']; exact ⟨by decide, by decide⟩)

/-- The corner is in what Go stores and not in what Python stores. -/
theorem corners_are_dropped : ∃ run writer,
    load cornerHeader.text (cornerLines.map FrameLine.text) = some cornerSource ∧
      ClipRun.start parseDecimal "live" none cornerHeader.copied
          (cornerLines.map FrameLine.frame) none = .ok run ∧
      Writer.start cornerSource.toClipSource "demo" none = .ok writer ∧
      ¬ List.Forall₂ (Interchangeable none) (publications run [0, 100])
          (writerPublications "demo" writer (cornerSource.events none [0, 100])) := by
  obtain ⟨run, writer, started, begun, _, _, python, go⟩ := cornerRuns_start
  refine ⟨run, writer, cornerSource_loaded, started, begun, ?_⟩
  intro agree
  have same : List.Forall₂ (· = ·)
      ((publications run [0, 100]).map fun published =>
        (Snapshot.unmarshal published.1).map Snapshot.corners)
      ((writerPublications "demo" writer (cornerSource.events none [0, 100])).map fun published =>
        (Snapshot.unmarshal published.1).map Snapshot.corners) := by
    rw [List.forall₂_map_left_iff, List.forall₂_map_right_iff]
    refine agree.imp fun clip replay alike => ?_
    obtain ⟨held, _, snap, _, heldRead, _, snapRead, _, constants, _⟩ := alike
    rw [heldRead, snapRead]
    exact congrArg (fun constants : ClipSource => some constants.corners) constants
  rw [python, go, List.forall₂_eq_eq_eq] at same
  exact absurd same (by decide)

end RaceTracker.Seam
