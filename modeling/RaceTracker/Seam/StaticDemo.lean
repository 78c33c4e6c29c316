import RaceTracker.Replay.Source
import RaceTracker.Seam.Broadcasts
import RaceTracker.Web.Playback

namespace RaceTracker.Seam

open RaceTracker.Lib RaceTracker.Model RaceTracker.Ws RaceTracker.App RaceTracker.Replay RaceTracker.Web

/-! The public demo: `bake-static` writes a clip as the envelopes a live client gets, and the
browser plays the file through the reducer that its socket feeds. -/

def bakedSnapshot (source : Replay.Source) (session : String) : Snapshot :=
  { source.baked with sessionKey := session, cars := some .empty }

/-- The revision is the place in the file, whatever the clip says. -/
def bakedFrame (session : String) (index : Nat) (frame : Frame) : Frame :=
  { frame with rev := Int64.ofNat (index + 1), sessionKey := session }

def bakeFrames (session : String) : Nat → List Frame → Option (List Json)
  | _, [] => some []
  | index, frame :: rest => do
      let line ← encodeFrame (bakedFrame session index frame)
      let lines ← bakeFrames session (index + 1) rest
      return line :: lines

/-- The lines of the file; `none` is an encoder's refusal. -/
def bake (source : Replay.Source) (session : String) : Option (List Json) := do
  let lines ← bakeFrames session 0 source.frames
  return encodeSnapshot (bakedSnapshot source session) :: lines

/-- What the browser keeps of the file: a line of the wrong shape is dropped. -/
def loadClip (lines : List Json) : List Msg := lines.filterMap fun line => parseMsg line.parsed

theorem toInt_ofNat_succ {index : Nat} (room : index + 1 < 2 ^ 63) :
    (Int64.ofNat (index + 1)).toInt = index + 1 := by
  rw [Int64.toInt_ofNat_of_lt room]
  push_cast
  rfl

theorem bakedFrame_rev {session : String} {index : Nat} (room : index + 1 < 2 ^ 63) (frame : Frame) :
    (bakedFrame session index frame).rev.toInt = index + 1 := toInt_ofNat_succ room

theorem encodeFrame_bakedFrame {session : String} {index : Nat} (room : index + 1 < 2 ^ 63)
    (frame : Frame) :
    encodeFrame (bakedFrame session index frame) = some (frameEnvelope (bakedFrame session index frame)) := by
  have numbered : ¬ (bakedFrame session index frame).rev = 0 := by
    intro zero
    have rev := @bakedFrame_rev session _ room frame
    rw [zero] at rev
    have start : (0 : Int64).toInt = 0 := rfl
    omega
  exact if_neg fun refused => numbered refused.1

theorem bakeFrames_eq {session : String} (frames : List Frame) {index : Nat}
    (room : index + frames.length < 2 ^ 63) :
    bakeFrames session index frames =
      some (frames.mapIdx fun place frame => frameEnvelope (bakedFrame session (index + place) frame)) := by
  induction frames generalizing index with
  | nil => rfl
  | cons frame rest ih =>
      rw [List.length_cons] at room
      rw [bakeFrames, encodeFrame_bakedFrame (by omega), @ih (index + 1) (by omega)]
      simp [List.mapIdx_cons, Nat.add_assoc, Nat.add_comm 1]

theorem bake_eq {source : Replay.Source} {session : String} (room : source.lines.length < 2 ^ 63) :
    bake source session = some (encodeSnapshot (bakedSnapshot source session) ::
      source.frames.mapIdx fun index frame => frameEnvelope (bakedFrame session index frame)) := by
  have written := @bakeFrames_eq session source.frames 0
    (by rw [Replay.Source.frames, List.length_map]; omega)
  simp only [Nat.zero_add] at written
  simp [bake, written]

/-- The frame of a line as the browser holds it. -/
def loadedFrame (session : String) (index : Nat) (frame : Frame) : FrameData :=
  (frameData (bakedFrame session index frame) frame.carList).parsed

theorem parseMsg_bakedSnapshot (source : Replay.Source) (session : String) :
    parseMsg (encodeSnapshot (bakedSnapshot source session)).parsed =
      some (.snapshot (snapshotData (bakedSnapshot source session) .empty).parsed) := by
  have held : (bakedSnapshot source session).cars = some .empty := rfl
  rw [parseMsg_parsed, parseMsg_encodeSnapshot, parseSnapshot_marshal held]
  rfl

/-- A frame without a car list is written with `"cars":null`, which the validator refuses. -/
def keptFrame (session : String) (index : Nat) (frame : Frame) : Option Msg :=
  if frame.cars = none then none else some (.frame (loadedFrame session index frame))

theorem parseMsg_bakedFrame (session : String) (index : Nat) (frame : Frame) :
    parseMsg (frameEnvelope (bakedFrame session index frame)).parsed = keptFrame session index frame := by
  cases sent : frame.cars with
  | none =>
      rw [keptFrame, if_pos sent]
      exact @parseMsg_frameEnvelope_nil (bakedFrame session index frame) sent
  | some list =>
      rw [keptFrame, if_neg (by simp [sent]), loadedFrame, Frame.carList, sent]
      exact @parseMsg_frameEnvelope_parsed (bakedFrame session index frame) _ sent

theorem keptFrame_isSome (session : String) (index : Nat) (frame : Frame) :
    (keptFrame session index frame).isSome = true ↔ frame.cars ≠ none := by
  rw [keptFrame]
  split <;> simp_all

theorem loadedFrame_numbered (session : String) (index : Nat) (frame : Frame) :
    (loadedFrame session index frame).Numbered := frameData_numbered _ _

theorem loadedFrame_rev {session : String} {index : Nat} (exact : index < 2 ^ 53) (frame : Frame) :
    (loadedFrame session index frame).rev = (index : Rat) + 1 := by
  have rev : (bakedFrame session index frame).rev.toInt = ((index + 1 : Nat) : Int) := by
    rw [bakedFrame_rev (by omega)]
    push_cast
    rfl
  change nearest ((bakedFrame session index frame).rev.toInt : Rat) = _
  rw [nearest_intCast, rev, roundInt_natCast exact]
  push_cast
  rfl

theorem bare_bakedSnapshot (source : Replay.Source) (session : String) :
    Bare (snapshotData (bakedSnapshot source session) .empty).parsed :=
  ⟨nearest_intCast 0, rfl, rfl, rfl⟩

/-- The lines that are kept stand in the order of the file. -/
theorem filterMap_sublist {α β : Type} {keep : α → Option β} {shape : α → β}
    (shaped : ∀ item kept, keep item = some kept → kept = shape item) (items : List α) :
    (items.filterMap keep).Sublist (items.map shape) := by
  induction items with
  | nil => exact .refl _
  | cons item rest ih =>
      cases kept : keep item with
      | none =>
          rw [List.filterMap_cons_none kept]
          exact ih.cons _
      | some value =>
          rw [List.filterMap_cons_some kept, shaped item value kept]
          exact ih.cons_cons _

theorem keptFrame_shape {session : String} {index : Nat} {frame : Frame} {kept : Msg}
    (found : keptFrame session index frame = some kept) :
    kept = .frame (loadedFrame session index frame) := by
  rw [keptFrame] at found
  split at found
  · cases found
  · exact (Option.some.inj found).symm

theorem loadClip_bake (source : Replay.Source) (session : String) (frames : List Frame) :
    loadClip (encodeSnapshot (bakedSnapshot source session) ::
        frames.mapIdx fun index frame => frameEnvelope (bakedFrame session index frame)) =
      .snapshot (snapshotData (bakedSnapshot source session) .empty).parsed ::
        frames.zipIdx.filterMap fun pair => keptFrame session pair.2 pair.1 := by
  have head := parseMsg_bakedSnapshot source session
  rw [loadClip, List.filterMap_cons_some (f := fun line : Json => parseMsg line.parsed) head,
    List.mapIdx_eq_zipIdx_map, List.filterMap_map]
  congr 1
  exact List.filterMap_congr fun pair _ => parseMsg_bakedFrame session pair.2 pair.1

theorem loadedFrames_baked {source : Replay.Source} {session : String}
    (exact : source.frames.length ≤ 2 ^ 53) :
    Baked (.snapshot (snapshotData (bakedSnapshot source session) .empty).parsed ::
      source.frames.zipIdx.filterMap fun pair => keptFrame session pair.2 pair.1) := by
  refine ⟨_, source.frames.zipIdx.map fun pair => loadedFrame session pair.2 pair.1,
    bare_bakedSnapshot source session, ?_, ?_⟩
  · intro index data listed
    rw [List.getElem?_map, List.getElem?_zipIdx] at listed
    obtain ⟨pair, found, rfl⟩ := Option.map_eq_some_iff.mp listed
    obtain ⟨frame, present, rfl⟩ := Option.map_eq_some_iff.mp found
    have within := (List.getElem?_eq_some_iff.mp present).1
    rw [Nat.zero_add]
    exact ⟨loadedFrame_rev (by omega) frame, loadedFrame_numbered session index frame⟩
  · rw [List.map_map]
    apply List.Sublist.cons_cons
    exact filterMap_sublist (fun _ _ found => keptFrame_shape found) source.frames.zipIdx

theorem length_keptFrames_iff (session : String) (frames : List Frame) :
    (frames.zipIdx.filterMap fun pair => keptFrame session pair.2 pair.1).length = frames.length ↔
      ∀ frame ∈ frames, frame.cars ≠ none := by
  have size : frames.zipIdx.length = frames.length := List.length_zipIdx
  rw [← size, List.filterMap_length_eq_length]
  simp only [keptFrame_isSome]
  constructor
  · intro each frame member
    obtain ⟨index, listed⟩ := List.mem_iff_getElem?.mp member
    exact each (frame, index) (List.mem_zipIdx_iff_getElem?.mpr listed)
  · intro each pair member
    exact each _ (List.fst_mem_of_mem_zipIdx member)

theorem any_isFrame_keptFrames (session : String) (frames : List Frame) :
    (frames.zipIdx.filterMap fun pair => keptFrame session pair.2 pair.1).any isFrame = true ↔
      ∃ frame ∈ frames, frame.cars ≠ none := by
  rw [List.any_eq_true]
  constructor
  · intro some
    obtain ⟨message, kept, _⟩ := some
    obtain ⟨pair, member, found⟩ := List.mem_filterMap.mp kept
    have sent := (keptFrame_isSome session pair.2 pair.1).mp (Option.isSome_of_eq_some found)
    exact ⟨pair.1, List.fst_mem_of_mem_zipIdx member, sent⟩
  · intro some
    obtain ⟨frame, member, sent⟩ := some
    obtain ⟨index, listed⟩ := List.mem_iff_getElem?.mp member
    obtain ⟨message, found⟩ :=
      Option.isSome_iff_exists.mp ((keptFrame_isSome session index frame).mpr sent)
    refine ⟨message, List.mem_filterMap.mpr
      ⟨(frame, index), List.mem_zipIdx_iff_getElem?.mpr listed, found⟩, ?_⟩
    rw [keptFrame_shape found]
    rfl

/-- A kept line is the clip's own frame, as the browser reads it, at its place in the file. -/
theorem keptFrame_eq {index : Nat} (exact : index < 2 ^ 53) (session : String) (frame : Frame) :
    keptFrame session index frame = if frame.cars = none then none
      else some (.frame { (frameData frame frame.carList).parsed with rev := (index : Rat) + 1 }) := by
  rw [keptFrame, ← @loadedFrame_rev session index exact frame]
  rfl

/-- Whatever clip Go loads, every line is written, and the browser finds a clip that plays: the
clip's snapshot without cars, then its own frames at revisions 1, 2, … A line is dropped exactly
when its frame has no car list, and the demo starts unless all of them are. -/
theorem baked_clip_plays {source : Replay.Source} {session : String}
    (exact : source.lines.length ≤ 2 ^ 53) :
    ∃ lines, bake source session = some lines ∧ lines.length = source.lines.length + 1 ∧
      (loadClip lines = .snapshot (snapshotData
          { source.baked with sessionKey := session, cars := some .empty } .empty).parsed ::
        source.frames.zipIdx.filterMap fun pair => if pair.1.cars = none then none
          else some (.frame { (frameData pair.1 pair.1.carList).parsed with rev := (pair.2 : Rat) + 1 })) ∧
      Baked (loadClip lines) ∧
      ((loadClip lines).length = lines.length ↔ ∀ frame ∈ source.frames, frame.cars ≠ none) ∧
      ∀ now, (Playback.start (loadClip lines) now).isSome ↔
        ∃ frame ∈ source.frames, frame.cars ≠ none := by
  have size : source.frames.length = source.lines.length := by rw [Replay.Source.frames, List.length_map]
  refine ⟨_, bake_eq (by omega), by simp [size], ?_, ?_, ?_, ?_⟩
  · rw [loadClip_bake]
    refine congrArg _ (List.filterMap_congr fun pair member => ?_)
    obtain ⟨frame, index⟩ := pair
    have within := (List.getElem?_eq_some_iff.mp (List.mem_zipIdx_iff_getElem?.mp member)).1
    exact keptFrame_eq (by omega) session frame
  · rw [loadClip_bake]
    exact loadedFrames_baked (by omega)
  · rw [loadClip_bake, List.length_cons, List.length_cons, List.length_mapIdx, Nat.add_right_cancel_iff]
    exact length_keptFrames_iff session source.frames
  · intro now
    rw [loadClip_bake, Playback.start, List.any_cons, ← any_isFrame_keptFrames session source.frames,
      isFrame, Bool.false_or]
    split <;> simp_all

def onlyCar : CarState := { CarState.codec.zero with driverNum := 16, code := "LEC", pos := 1 }

/-- Two frames six seconds apart, the second with a message. -/
def shortClip : Replay.Source where
  track := []
  corners := []
  radio := []
  lapTrace := .empty
  totalLaps := 0
  stints := .empty
  pitStops := .empty
  pedalTraces := .empty
  sectorDominance := []
  label := "Demo"
  lines := [⟨0, ⟨"", 0, 0, 0, some [onlyCar], [], [], none⟩⟩,
    ⟨6000, ⟨"", 0, 0, 6000, some [{ onlyCar with lap := 1 }], [⟨0, 6000, "Flag", "GREEN LIGHT", none⟩], [],
      none⟩⟩]
  max := 0

theorem shortClip_plays : ∃ lines, bake shortClip "demo" = some lines ∧ lines.length = 3 ∧
    (loadClip lines = .snapshot (snapshotData
        { shortClip.baked with sessionKey := "demo", cars := some .empty } .empty).parsed ::
      shortClip.frames.zipIdx.filterMap fun pair => if pair.1.cars = none then none
        else some (.frame { (frameData pair.1 pair.1.carList).parsed with rev := (pair.2 : Rat) + 1 })) ∧
    Baked (loadClip lines) ∧
    ((loadClip lines).length = lines.length ↔ ∀ frame ∈ shortClip.frames, frame.cars ≠ none) ∧
    ∀ now, (Playback.start (loadClip lines) now).isSome ↔
      ∃ frame ∈ shortClip.frames, frame.cars ≠ none :=
  baked_clip_plays (by decide)

end RaceTracker.Seam
