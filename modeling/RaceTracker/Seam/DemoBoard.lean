import RaceTracker.Seam.LateJoiner
import RaceTracker.Seam.StaticDemo
import RaceTracker.Web.Scrubbing

namespace RaceTracker.Seam

open RaceTracker.Lib RaceTracker.Model RaceTracker.Ws RaceTracker.App RaceTracker.Replay RaceTracker.Web

/-! The public demo against a live tab on the same clip.

The demo's browser bumps the revisions of a file lap by lap, the writer numbers frames as they
come; both are folds of one sequence of frames.
-/

/-- Turns of the writer's loop: the writer after them, and the frames it publishes. -/
def publishAll (session : String) : Writer → List Frame → Except Panic (Writer × List Frame)
  | writer, [] => .ok (writer, [])
  | writer, frame :: rest => do
      let (next, sent) ← writer.fold session frame
      let (last, later) ← publishAll session next rest
      return (last, sent.toList ++ later)

/-- What a tab shows after `nows.length` frames if it joins a gateway that started when the
writer, alone on its key, had published the first frame and `missed` more. -/
def liveTab (source : Replay.Source) (session : String) (missed : Nat) (nows : List Int64) :
    Option RaceState := do
  let played := source.events none nows
  let first ← (Writer.start source.toClipSource session none).toOption
  let (writer, _) ← (publishAll session first (played.take (missed + 1))).toOption
  let hub ← (seedSnapshot session (some writer.snap.marshal)).toOption
  let (_, published) ← (publishAll session writer (played.drop (missed + 1))).toOption
  let (_, broadcasts) ← (broadcastAll hub (published.map Frame.marshal)).toOption
  (onTexts emptyState (encodeSnapshot hub :: broadcasts)).toOption

/-- A frame with a car list, every driver number of which is a double. -/
structure Readable (frame : Frame) : Prop where
  sent : frame.cars ≠ none
  numbers : ∀ car ∈ frame.carList, Exact car.driverNum

instance (frame : Frame) : Decidable (Readable frame) :=
  decidable_of_iff (frame.cars ≠ none ∧ ∀ car ∈ frame.carList, Exact car.driverNum)
    ⟨fun both => ⟨both.1, both.2⟩, fun readable => ⟨readable.sent, readable.numbers⟩⟩

/-- The clip's clock starts at zero or later, and a step back, the wrap from its end to its start
included, is one that the browser takes for a wrap as well. -/
structure WrapsSeen (frames : List Frame) : Prop where
  starts : ∀ first ∈ frames.head?, 0 ≤ first.timeMs.toInt
  steps : (frames ++ frames.head?.toList).IsChain fun earlier later =>
    later.timeMs < earlier.timeMs → FarBack earlier.timeMs later.timeMs

/-- The frames as they are published, and as they are baked, from revision `start + 1` on. -/
def stampedFrom (session : String) (start : Nat) (frames : List Frame) : List Frame :=
  frames.mapIdx fun index frame => bakedFrame session (start + index) frame

theorem stampedFrom_cons (session : String) (start : Nat) (frame : Frame) (rest : List Frame) :
    stampedFrom session start (frame :: rest) =
      bakedFrame session start frame :: stampedFrom session (start + 1) rest := by
  simp [stampedFrom, List.mapIdx_cons, Nat.add_assoc, Nat.add_comm 1]

theorem stampedFrom_append (session : String) (start : Nat) (first second : List Frame) :
    stampedFrom session start (first ++ second) =
      stampedFrom session start first ++ stampedFrom session (start + first.length) second := by
  simp only [stampedFrom, List.mapIdx_append, List.append_cancel_left_eq]
  congr 1
  funext index frame
  rw [Nat.add_assoc, Nat.add_comm index]

theorem next_ofNat (count : Nat) : Int64.ofNat count + 1 = Int64.ofNat (count + 1) :=
  (Int64.ofNat_add count 1).symm

/-- A snapshot into which the first `count` revisions have been folded. -/
structure AtRev (snapshot : Snapshot) (count : Nat) : Prop where
  rev : snapshot.rev = Int64.ofNat count
  cars : snapshot.cars ≠ none

theorem AtRev.newer {snapshot : Snapshot} {count : Nat} (counted : AtRev snapshot count)
    (room : count + 1 < 2 ^ 63) (session : String) (frame : Frame) :
    ¬ (bakedFrame session count frame).rev ≤ snapshot.rev := by
  rw [counted.rev, Int64.le_iff_toInt_le, bakedFrame_rev room, Int64.toInt_ofNat_of_lt (by omega)]
  omega

theorem AtRev.advance {snapshot : Snapshot} {count : Nat} (counted : AtRev snapshot count)
    (session : String) (frame : Frame) :
    AtRev (advance snapshot (bakedFrame session count frame)) (count + 1) where
  rev := rfl
  cars := by simpa [Model.advance] using counted.cars

theorem AtRev.apply {snapshot : Snapshot} {count : Nat} (counted : AtRev snapshot count)
    (room : count + 1 < 2 ^ 63) (session : String) (frame : Frame) :
    apply snapshot (bakedFrame session count frame) =
      .ok (Model.advance snapshot (bakedFrame session count frame), true) :=
  apply_advancing (counted.newer room session frame) (Or.inl counted.cars)

theorem advancing_stampedFrom {session : String} {start : Nat} {frames : List Frame}
    (room : start + frames.length < 2 ^ 63) :
    advancing (Int64.ofNat start) (stampedFrom session start frames) =
      stampedFrom session start frames := by
  induction frames generalizing start with
  | nil => rfl
  | cons frame rest ih =>
      rw [List.length_cons] at room
      have newer : ¬ (bakedFrame session start frame).rev ≤ Int64.ofNat start := by
        rw [Int64.le_iff_toInt_le, bakedFrame_rev (by omega), Int64.toInt_ofNat_of_lt (by omega)]
        omega
      rw [stampedFrom_cons, advancing, if_neg newer]
      exact congrArg _ (ih (by omega))

theorem publishAll_stamped {session : String} {start : Nat} {frames : List Frame} {writer : Writer}
    (room : start + frames.length < 2 ^ 63) (counts : writer.rev = Int64.ofNat start)
    (counted : AtRev writer.snap start) :
    ∃ last, publishAll session writer frames = .ok (last, stampedFrom session start frames) ∧
      last.rev = Int64.ofNat (start + frames.length) ∧ AtRev last.snap (start + frames.length) ∧
      applyAll writer.snap (stampedFrom session start frames) = .ok last.snap := by
  induction frames generalizing start writer with
  | nil => exact ⟨writer, rfl, counts, counted, rfl⟩
  | cons frame rest ih =>
      rw [List.length_cons] at room
      have stamped : writer.stamp session frame = bakedFrame session start frame := by
        rw [Writer.stamp, bakedFrame, counts, next_ofNat]
      have applied := counted.apply (by omega) session frame
      have folded : writer.fold session frame =
          .ok (⟨Model.advance writer.snap (bakedFrame session start frame), writer.rev + 1⟩,
            some (bakedFrame session start frame)) := by
        simp [Writer.fold, stamped, applied]
      obtain ⟨last, published, rev, reached, all⟩ := @ih (start + 1)
        ⟨Model.advance writer.snap (bakedFrame session start frame), writer.rev + 1⟩
        (by omega) (by rw [counts, next_ofNat]) (counted.advance session frame)
      refine ⟨last, ?_, ?_, ?_, ?_⟩
      · simp only [publishAll, folded, ok_bind, published, stampedFrom_cons]
        rfl
      · rw [rev, List.length_cons, Nat.add_assoc, Nat.add_comm 1]
      · rwa [List.length_cons, Nat.add_comm rest.length, ← Nat.add_assoc]
      · rw [stampedFrom_cons, applyAll_cons applied]
        exact all

theorem broadcastAll_stamped {session : String} {start : Nat} {frames : List Frame} {hub : Snapshot}
    (room : start + frames.length < 2 ^ 63) (counted : AtRev hub start) :
    ∃ last, broadcastAll hub ((stampedFrom session start frames).map Frame.marshal) =
      .ok (last, (stampedFrom session start frames).map frameEnvelope) := by
  induction frames generalizing start hub with
  | nil => exact ⟨hub, rfl⟩
  | cons frame rest ih =>
      rw [List.length_cons] at room
      obtain ⟨last, all⟩ := @ih (start + 1) _ (by omega) (counted.advance session frame)
      have consumed : consume hub (bakedFrame session start frame).marshal =
          .ok (Model.advance hub (bakedFrame session start frame),
            some (frameEnvelope (bakedFrame session start frame))) := by
        rw [consume_marshal, hubApply_advancing (counted.newer (by omega) session frame) (Or.inl counted.cars),
          encodeFrame_bakedFrame (by omega)]
      refine ⟨last, ?_⟩
      simp only [stampedFrom_cons, List.map_cons, broadcastAll, consumed, ok_bind, all]
      rfl

theorem applyAll_after {session : String} {start : Nat} {frames : List Frame}
    {snapshot after : Snapshot} (room : start + frames.length < 2 ^ 63) (counted : AtRev snapshot start)
    (folded : applyAll snapshot (stampedFrom session start frames) = .ok after) :
    after.timeMs = clockAfter snapshot.timeMs (stampedFrom session start frames) ∧
      after.rev = revAfter snapshot.rev (stampedFrom session start frames) := by
  induction frames generalizing start snapshot with
  | nil =>
      cases folded
      exact ⟨rfl, rfl⟩
  | cons frame rest ih =>
      rw [List.length_cons] at room
      rw [stampedFrom_cons, applyAll_cons (counted.apply (by omega) session frame)] at folded
      rw [stampedFrom_cons]
      exact ih (by omega) (counted.advance session frame) folded

/-- Where both folds take the same steps for wraps, they keep the same messages. -/
theorem rolled_same {frames : List Frame} {clock rev : Int64} (log : List RaceControlMessage)
    (positive : ∀ frame ∈ frames, 0 < roundInt frame.rev.toInt)
    (steps : frames.IsChain fun earlier later =>
      later.timeMs < earlier.timeMs → FarBack earlier.timeMs later.timeMs)
    (opens : ∀ frame ∈ frames.head?, serverRewind clock rev frame = clientRewind clock rev frame) :
    rolled serverRewind clock rev log frames = rolled clientRewind clock rev log frames := by
  induction frames generalizing clock rev log with
  | nil => rfl
  | cons frame rest ih =>
      obtain ⟨next, steps⟩ := List.isChain_cons.mp steps
      obtain ⟨fresh, positive⟩ := List.forall_mem_cons.mp positive
      rw [rolled, rolled, opens frame rfl]
      apply ih _ positive steps
      intro other head
      have seen := next other head
      simp only [serverRewind, clientRewind, fresh, true_and, decide_eq_decide]
      exact ⟨seen, FarBack.back⟩

section

variable {source : Replay.Source} {session : String} {missed : Nat} {nows : List Int64}

theorem start_fresh (source : Replay.Source) (session : String) :
    Writer.start source.toClipSource session none = .ok ⟨bakedSnapshot source session, 0⟩ := rfl

theorem atRev_baked (source : Replay.Source) (session : String) :
    AtRev (bakedSnapshot source session) 0 := ⟨rfl, by simp [bakedSnapshot]⟩

theorem stampedFrom_sent {session : String} {start : Nat} {frames : List Frame}
    (readable : ∀ frame ∈ frames, Readable frame) :
    ∀ frame ∈ stampedFrom session start frames, frame.cars ≠ none := by
  intro frame member
  obtain ⟨index, within, rfl⟩ := List.mem_mapIdx.mp member
  have cars := (readable frames[index] (List.getElem_mem within)).sent
  exact cars

/-- As long as the revisions are doubles they climb as such. -/
theorem legible_stampedFrom {session : String} {start : Nat} {frames : List Frame}
    (room : start + frames.length ≤ 2 ^ 53) (readable : ∀ frame ∈ frames, Readable frame) :
    Legible (Int64.ofNat start) (advancing (Int64.ofNat start) (stampedFrom session start frames)) := by
  rw [advancing_stampedFrom (by omega)]
  induction frames generalizing start with
  | nil => trivial
  | cons frame rest ih =>
      rw [List.length_cons] at room
      obtain ⟨own, readable⟩ := List.forall_mem_cons.mp readable
      have rev := @bakedFrame_rev session start (by omega) frame
      have exact := @roundInt_natCast (start + 1) (by omega)
      push_cast at exact
      rw [stampedFrom_cons]
      refine ⟨?_, ?_, own.numbers, ih (by omega) readable⟩
      · rw [rev, exact, Int64.toInt_ofNat_of_lt (by omega), roundInt_natCast (by omega)]
        omega
      · intro zero
        rw [zero.1] at rev
        have none : (0 : Int64).toInt = 0 := rfl
        omega

theorem encoded_stampedFrom {session : String} {start : Nat} {frames : List Frame}
    (room : start + frames.length < 2 ^ 63) :
    (stampedFrom session start frames).filterMap encodeFrame =
      (stampedFrom session start frames).map frameEnvelope := by
  rw [← List.filterMap_eq_map]
  refine List.filterMap_congr fun frame member => ?_
  obtain ⟨index, within, rfl⟩ := List.mem_mapIdx.mp member
  exact encodeFrame_bakedFrame (by omega) _

/-- The tab shows the snapshot into which every frame has been folded; its log starts with the
messages that the writer's snapshot had when the gateway read it. -/
theorem liveTab_eq {played before later : List Frame} (plays : source.events none nows = played)
    (split : played = before ++ later) (joins : before.length = missed + 1)
    (room : played.length ≤ 2 ^ 53) (readable : ∀ frame ∈ played, Readable frame) :
    ∃ hub hubCars loops,
      liveTab source session missed nows = some (board hub hubCars
        (rolled clientRewind (clockAfter 0 (stampedFrom session 0 before))
          (revAfter 0 (stampedFrom session 0 before))
          (rolled serverRewind 0 0 [] (stampedFrom session 0 before))
          (stampedFrom session before.length later)) 1 loops) ∧
      applyAll (bakedSnapshot source session) (stampedFrom session 0 played) = .ok hub ∧
      hub.cars = some hubCars := by
  subst split
  rw [List.length_append] at room
  have fresh := atRev_baked source session
  obtain ⟨writer, publishedFirst, rev, counted, folded⟩ :=
    @publishAll_stamped session 0 before ⟨bakedSnapshot source session, 0⟩ (by omega) rfl fresh
  rw [Nat.zero_add] at rev counted
  obtain ⟨last, publishedRest, _, _, _⟩ :=
    @publishAll_stamped session _ later _ (by omega) rev counted
  obtain ⟨_, broadcasts⟩ := @broadcastAll_stamped session _ later _ (by omega) counted
  obtain ⟨cars, held⟩ := Option.ne_none_iff_exists'.mp counted.cars
  have first : ∀ frame ∈ before, Readable frame :=
    fun frame member => readable frame (List.mem_append_left _ member)
  have second : ∀ frame ∈ later, Readable frame :=
    fun frame member => readable frame (List.mem_append_right _ member)
  have legible := @legible_stampedFrom session before.length later (by omega) second
  rw [← counted.rev] at legible
  obtain ⟨stored, _, _, again, _, messages, _⟩ := onTexts_frames (stampedFrom session 0 before)
    (stampedFrom_sent first) (@legible_stampedFrom session 0 before (by omega) first)
    (show (bakedSnapshot source session).cars = some .empty from rfl) [] 1 0
  cases folded.symm.trans again
  obtain ⟨clock, reached⟩ := applyAll_after (by omega) fresh folded
  obtain ⟨hub, hubCars, loops, foldedRest, kept, _, shown⟩ := onTexts_frames
    (stampedFrom session before.length later) (stampedFrom_sent second) legible held
    writer.snap.messages 1 0
  refine ⟨hub, hubCars, loops, ?_, ?_, kept⟩
  · rw [encoded_stampedFrom (by omega)] at shown
    have followed := (onTexts_cons (onText_snapshot emptyState held) _).trans shown
    have log : writer.snap.messages = rolled serverRewind 0 0 [] (stampedFrom session 0 before) :=
      messages.trans (congrArg _ (@advancing_stampedFrom _ 0 _ (by omega)))
    rw [counted.rev, advancing_stampedFrom (by omega), ← counted.rev, clock, reached, log] at followed
    simp only [liveTab, plays, start_fresh, ← joins, List.take_left', List.drop_left', publishedFirst,
      publishedRest, seedSnapshot_marshal, broadcasts, Except.toOption, Option.bind_eq_bind,
      Option.bind_some, followed]
    rfl
  · rw [stampedFrom_append, Nat.zero_add, applyAll, List.foldlM_append]
    rw [applyAll] at folded
    rw [folded, ok_bind]
    exact foldedRest

def shownData (frame : Frame) : FrameData := (frameData frame frame.carList).parsed

theorem shownData_rev {session : String} {index : Nat} (exact : index < 2 ^ 53) (frame : Frame) :
    (shownData (bakedFrame session index frame)).rev = (index : Rat) + 1 := loadedFrame_rev exact frame

theorem shownData_numbered (frame : Frame) : (shownData frame).Numbered := frameData_numbered _ _

/-- The file that the browser loads. -/
theorem loadClip_stamped (source : Replay.Source) (session : String)
    (readable : ∀ frame ∈ source.frames, Readable frame) :
    (source.frames.zipIdx.filterMap fun pair => keptFrame session pair.2 pair.1) =
      (stampedFrom session 0 source.frames).map fun frame => Msg.frame (shownData frame) := by
  have kept (pair : Frame × Nat) (member : pair ∈ source.frames.zipIdx) :
      keptFrame session pair.2 pair.1 = some (.frame (shownData (bakedFrame session pair.2 pair.1))) :=
    if_neg (readable pair.1 (List.fst_mem_of_mem_zipIdx member)).sent
  rw [List.filterMap_congr kept, List.filterMap_eq_map']
  simp [stampedFrom, List.mapIdx_eq_zipIdx_map]

/-- The revisions of a pass end with its length. -/
theorem foldl_maxRev_stamped {session : String} {start : Nat} (frames : List Frame)
    (room : start + frames.length ≤ 2 ^ 53) :
    ((stampedFrom session start frames).map fun frame => Msg.frame (shownData frame)).foldl
      (fun highest message =>
        match message with
        | .frame data => max highest data.rev
        | .snapshot _ => highest) (start : Rat) = ((start + frames.length : Nat) : Rat) := by
  induction frames generalizing start with
  | nil => simp [stampedFrom]
  | cons frame rest ih =>
      rw [List.length_cons] at room
      have climbs : max (start : Rat) (shownData (bakedFrame session start frame)).rev =
          ((start + 1 : Nat) : Rat) := by
        rw [shownData_rev (by omega), max_eq_right (by linarith)]
        push_cast
        rfl
      rw [stampedFrom_cons, List.map_cons, List.foldl_cons]
      simp only [climbs]
      rw [ih (by omega), List.length_cons, Nat.add_right_comm, Nat.add_assoc]

/-- A clip that plays the file as it was baked. -/
structure Plays (source : Replay.Source) (session : String) (clip : Clip) : Prop where
  head : clip.head = some (snapshotData (bakedSnapshot source session) .empty).parsed
  frames : clip.frames = (stampedFrom session 0 source.frames).map shownData
  maxRev : maxRev clip.messages = source.frames.length

theorem exists_plays (room : source.frames.length ≤ 2 ^ 53)
    (readable : ∀ frame ∈ source.frames, Readable frame) {messages : List Msg}
    (loaded : messages = .snapshot (snapshotData (bakedSnapshot source session) .empty).parsed ::
      (stampedFrom session 0 source.frames).map fun frame => .frame (shownData frame))
    (playable : messages.any isFrame = true) :
    ∃ clip : Clip, clip.messages = messages ∧ Plays source session clip := by
  have baked := @loadedFrames_baked source session room
  rw [loadClip_stamped source session readable, ← loaded] at baked
  obtain ⟨clip, same⟩ := baked.clip playable
  refine ⟨clip, same, ?_, ?_, ?_⟩
  · rw [loaded, Clip.messages] at same
    cases present : clip.head with
    | none =>
        obtain ⟨data, rest, frames⟩ := List.exists_cons_of_ne_nil clip.plays
        rw [present, frames] at same
        cases same
    | some data =>
        rw [present] at same
        exact congrArg some (Msg.snapshot.inj (List.cons.inj same).1)
  · rw [← clip.framesOf_messages, same, loaded, framesOf]
    simp [List.filterMap_map]
  · rw [same, loaded, Web.maxRev, List.foldl_cons]
    have top := @foldl_maxRev_stamped session 0 source.frames (by omega)
    rw [Nat.cast_zero, Nat.zero_add] at top
    exact top

theorem Plays.bumped {clip : Clip} (plays : Plays source session clip) (laps : Nat) {index : Nat}
    (room : laps * source.frames.length + index + 1 ≤ 2 ^ 53) (frame : Frame) :
    clip.bumped laps (shownData (bakedFrame session index frame)) =
      shownData (bakedFrame session (laps * source.frames.length + index) frame) := by
  have rev := @shownData_rev session _ room frame
  have own := @shownData_rev session index (by omega) frame
  rw [Clip.bumped, plays.maxRev, own]
  rw [show shownData (bakedFrame session (laps * source.frames.length + index) frame) =
    { shownData (bakedFrame session index frame) with
      rev := (shownData (bakedFrame session (laps * source.frames.length + index) frame)).rev } from rfl,
    rev]
  push_cast
  congr 1
  linarith

theorem Plays.lap {clip : Clip} (plays : Plays source session clip) (laps : Nat) {count : Nat}
    (room : laps * source.frames.length + count ≤ 2 ^ 53) :
    (clip.frames.take count).map (clip.bumped laps) =
      (stampedFrom session (laps * source.frames.length) (source.frames.take count)).map shownData := by
  apply List.ext_getElem?
  intro index
  simp only [plays.frames, stampedFrom, List.getElem?_map, List.getElem?_take, List.getElem?_mapIdx,
    Nat.zero_add]
  split
  · rename_i early
    cases found : source.frames[index]? with
    | none => rfl
    | some frame => exact congrArg some (plays.bumped laps (by omega) frame)
  · rfl

theorem Plays.lapsBefore {clip : Clip} (plays : Plays source session clip) {laps : Nat}
    (room : laps * source.frames.length ≤ 2 ^ 53) :
    clip.lapsBefore laps =
      (stampedFrom session 0 (List.replicate laps source.frames).flatten).map shownData := by
  induction laps with
  | zero => rfl
  | succ laps ih =>
      rw [Nat.succ_mul] at room
      have whole := @Plays.lap _ _ _ plays laps source.frames.length room
      have every : clip.frames.take source.frames.length = clip.frames :=
        List.take_of_length_le (by simp [plays.frames, stampedFrom])
      rw [every, List.take_length] at whole
      rw [Clip.lapsBefore, ih (by omega), whole, List.replicate_succ', List.flatten_append,
        List.flatten_singleton, stampedFrom_append, List.map_append]
      simp

theorem Plays.stateAt {clip : Clip} (plays : Plays source session clip) {laps count : Nat}
    (room : laps * source.frames.length + count ≤ 2 ^ 53) (within : count ≤ source.frames.length) :
    clip.stateAt laps count =
      ((stampedFrom session 0 (cycle source.frames (laps * source.frames.length + count))).map
        shownData).foldl advanceFrame clip.opening := by
  rw [Clip.stateAt, Clip.lapFold, plays.lapsBefore (by omega), plays.lap laps room,
    ← List.foldl_append, ← List.map_append, cycle_laps source.frames laps within, stampedFrom_append]
  simp

/-- What the clock and the loop stamp on a frame does not show. -/
theorem shownData_stamped {lines : List ClipLine} {played : List Frame}
    (stamped : List.Forall₂ Stamped lines played) (start : Nat) :
    (stampedFrom session start played).map shownData =
      (stampedFrom session start (lines.map ClipLine.frame)).map shownData := by
  induction stamped generalizing start with
  | nil => rfl
  | cons first _ ih =>
      obtain ⟨rev, t, rfl⟩ := first
      rw [List.map_cons, stampedFrom_cons, stampedFrom_cons, List.map_cons, List.map_cons, ih]
      rfl

theorem onTexts_stamped {frames : List Frame} {start : Nat} {state : RaceState}
    (room : start + frames.length ≤ 2 ^ 53) (readable : ∀ frame ∈ frames, Readable frame)
    (rev : state.rev = start) :
    onTexts state ((stampedFrom session start frames).map frameEnvelope) =
      .ok (((stampedFrom session start frames).map shownData).foldl advanceFrame state) := by
  induction frames generalizing start state with
  | nil => rfl
  | cons frame rest ih =>
      rw [List.length_cons] at room
      obtain ⟨own, readable⟩ := List.forall_mem_cons.mp readable
      obtain ⟨list, sent⟩ := Option.ne_none_iff_exists'.mp own.sent
      have climbs := @shownData_rev session start (by omega) frame
      have newer : state.rev < (shownData (bakedFrame session start frame)).rev := by
        rw [rev, climbs]
        linarith
      have read : parseMsg (frameEnvelope (bakedFrame session start frame)).parsed =
          some (.frame (shownData (bakedFrame session start frame))) := by
        rw [parseMsg_bakedFrame, keptFrame, if_neg own.sent]
        rfl
      have step : onText state (frameEnvelope (bakedFrame session start frame)) =
          .ok (advanceFrame state (shownData (bakedFrame session start frame))) := by
        rw [onText, onMessage, read]
        exact applyFrame_newer newer (shownData_numbered _)
      rw [stampedFrom_cons, List.map_cons, onTexts_cons step]
      apply ih (by omega) readable
      change (shownData (bakedFrame session start frame)).rev = _
      rw [climbs]
      push_cast
      rfl

theorem opening_board {clip : Clip} (plays : Plays source session clip) :
    clip.opening = board (bakedSnapshot source session) .empty [] 1 0 := by
  have held : (bakedSnapshot source session).cars = some .empty := rfl
  have greeted := onText_snapshot emptyState held
  have applied : onText emptyState (encodeSnapshot (bakedSnapshot source session)) =
      .ok (applySnapshot emptyState (snapshotData (bakedSnapshot source session) .empty).parsed) := by
    rw [onText, onMessage, parseMsg_bakedSnapshot]
    rfl
  rw [Clip.opening, plays.head]
  exact Except.ok.inj (applied.symm.trans greeted)

theorem clocks_stampedFrom (session : String) (start : Nat) (frames : List Frame) :
    (stampedFrom session start frames).map Frame.timeMs = frames.map Frame.timeMs := by
  induction frames generalizing start with
  | nil => rfl
  | cons frame rest ih =>
      rw [stampedFrom_cons, List.map_cons, List.map_cons, ih]
      rfl

theorem clocks_stamped {lines : List ClipLine} {played : List Frame}
    (stamped : List.Forall₂ Stamped lines played) :
    played.map Frame.timeMs = (lines.map ClipLine.frame).map Frame.timeMs := by
  induction stamped with
  | nil => rfl
  | cons first _ ih =>
      obtain ⟨rev, t, rfl⟩ := first
      simp [ih]

theorem readable_stamped {lines : List ClipLine} {played : List Frame}
    (stamped : List.Forall₂ Stamped lines played)
    (readable : ∀ line ∈ lines, Readable line.frame) : ∀ frame ∈ played, Readable frame := by
  induction stamped with
  | nil => simp
  | cons first _ ih =>
      obtain ⟨rev, t, rfl⟩ := first
      obtain ⟨own, readable⟩ := List.forall_mem_cons.mp readable
      exact List.forall_mem_cons.mpr ⟨⟨own.sent, own.numbers⟩, ih readable⟩

/-- Up to the moment the gateway read the snapshot, writer and browser keep the same messages. -/
theorem WrapsSeen.rolled {frames before : List Frame} (seen : WrapsSeen frames) {count : Nat}
    (clocks : before.map Frame.timeMs = (cycle frames count).map Frame.timeMs)
    (room : before.length ≤ 2 ^ 53) :
    Seam.rolled serverRewind 0 0 [] (stampedFrom session 0 before) =
      Seam.rolled clientRewind 0 0 [] (stampedFrom session 0 before) := by
  have steps := isChain_cycle seen.steps count
  rw [← List.isChain_map (R := fun earlier later : Int64 =>
    later < earlier → FarBack earlier later) Frame.timeMs, ← clocks,
    ← clocks_stampedFrom session 0, List.isChain_map] at steps
  apply rolled_same [] ?_ steps
  · intro frame head
    have clock : frame.timeMs ∈ ((cycle frames count).map Frame.timeMs).head? := by
      rw [← clocks, ← clocks_stampedFrom session 0, List.head?_map]
      exact Option.mem_map_of_mem _ head
    rw [List.head?_map] at clock
    obtain ⟨first, opens, same⟩ := Option.mem_map.mp clock
    have nonneg := seen.starts first (head?_cycle opens)
    rw [same] at nonneg
    have zero : (0 : Int64).toInt = 0 := rfl
    have still : roundInt 0 = 0 := rfl
    simp only [serverRewind, clientRewind, Int64.lt_iff_toInt_lt, zero, still, lt_irrefl, false_and,
      decide_false, decide_eq_false_iff_not]
    omega
  · intro frame member
    obtain ⟨index, within, rfl⟩ := List.mem_mapIdx.mp member
    have exact := @roundInt_natCast (index + 1) (by omega)
    push_cast at exact
    rw [Nat.zero_add, bakedFrame_rev (by omega), exact]
    omega

theorem loadClip_lines {lines : List Json} (short : source.frames.length < 2 ^ 63)
    (baked : bake source session = some lines) (readable : ∀ frame ∈ source.frames, Readable frame) :
    loadClip lines = .snapshot (snapshotData (bakedSnapshot source session) .empty).parsed ::
      (stampedFrom session 0 source.frames).map fun frame => .frame (shownData frame) := by
  rw [Replay.Source.frames, List.length_map] at short
  cases (bake_eq short).symm.trans baked
  rw [loadClip_bake, loadClip_stamped source session readable]

theorem playable_of_started {messages : List Msg} {first : Playback} {now : Rat}
    (started : Playback.start messages now = some first) : messages.any isFrame = true := by
  rw [Playback.start] at started
  split at started
  · assumption
  · cases started

/-- Playback that has been left alone has folded in what the writer has published by then. -/
theorem demo_state {lines : List Json} {first playback : Playback} {now : Rat} {last : Web.Shown}
    (short : source.frames.length ≤ 2 ^ 53) (baked : bake source session = some lines)
    (readable : ∀ frame ∈ source.frames, Readable frame)
    (started : Playback.start (loadClip lines) now = some first)
    (alone : Playback.Uninterrupted (loadClip lines) first playback)
    (shown : playback.shown.getLast? = some last)
    (room : last.lap * source.frames.length + last.index ≤ 2 ^ 53) :
    playback.state = ((stampedFrom session 0 (cycle source.frames
      (last.lap * source.frames.length + last.index))).map shownData).foldl advanceFrame
        (board (bakedSnapshot source session) .empty [] 1 0) := by
  obtain ⟨clip, same, plays⟩ := exists_plays short readable
    (loadClip_lines (by omega) baked readable) (playable_of_started started)
  rw [← same] at started alone
  have own := alone.onItsOwn started
  have opens : clip.first = 1 := by simp [Clip.first, plays.head]
  have inRange := own.inRange last (List.mem_of_getLast? shown)
  have frames : clip.frames.length = source.frames.length := by simp [plays.frames, stampedFrom]
  rw [Clip.total, opens, frames] at inRange
  have state := own.state
  rw [shown] at state
  simp only [opens, Nat.add_sub_cancel] at state
  rw [state, plays.stateAt room (by omega), opening_board plays]

/-- The frames that are published are the clip's in turn, but for what the clock stamps on them. -/
theorem events_turns (nonempty : source.lines ≠ []) (readable : ∀ frame ∈ source.frames, Readable frame) :
    (source.events none nows).length = nows.length ∧
      (∀ frame ∈ source.events none nows, Readable frame) ∧
      (source.events none nows).map Frame.timeMs =
        (cycle source.frames nows.length).map Frame.timeMs ∧
      (stampedFrom session 0 (source.events none nows)).map shownData =
        (stampedFrom session 0 (cycle source.frames nows.length)).map shownData := by
  have stamped : List.Forall₂ Stamped (cycle source.lines nows.length) (source.events none nows) := by
    have due : source.due none = source.lines := by simp [Replay.Source.due]
    rw [← due]
    exact events_cycle (fun _ absent => by cases absent) nows
  have turns : (cycle source.lines nows.length).map ClipLine.frame = cycle source.frames nows.length :=
    map_cycle ..
  rw [← turns]
  refine ⟨?_, ?_, clocks_stamped stamped, shownData_stamped stamped 0⟩
  · rw [← stamped.length_eq, cycle_length nonempty]
  · exact readable_stamped stamped fun line member =>
      readable line.frame (List.mem_map_of_mem (mem_of_mem_cycle member))

/-- A log that the hub began and the browser goes on with is the browser's own. -/
theorem WrapsSeen.joined {frames before later : List Frame} (seen : WrapsSeen frames) {count : Nat}
    (clocks : (before ++ later).map Frame.timeMs = (cycle frames count).map Frame.timeMs)
    (joins : before.length ≤ count) (room : before.length ≤ 2 ^ 53) :
    Seam.rolled clientRewind (clockAfter 0 (stampedFrom session 0 before))
        (revAfter 0 (stampedFrom session 0 before))
        (Seam.rolled serverRewind 0 0 [] (stampedFrom session 0 before))
        (stampedFrom session before.length later) =
      Seam.rolled clientRewind 0 0 [] (stampedFrom session 0 (before ++ later)) := by
  have opening : before.map Frame.timeMs = (cycle frames before.length).map Frame.timeMs := by
    obtain ⟨more, rest⟩ := Nat.exists_eq_add_of_le joins
    have first := congrArg (List.take before.length) clocks
    rwa [List.map_append, ← List.map_take, rest, take_cycle,
      List.take_left' (List.length_map _)] at first
  rw [seen.rolled opening room, stampedFrom_append, Nat.zero_add, rolled_append]

end

theorem shortClip_wraps : WrapsSeen shortClip.frames where
  starts := by decide
  steps := by
    have far : FarBack 6000 0 := by decide
    simp [shortClip, Replay.Source.frames, far]

end RaceTracker.Seam
