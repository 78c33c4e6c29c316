import RaceTracker.App.Lane
import RaceTracker.Lib.GatedLog

namespace RaceTracker.App

open RaceTracker.Lib RaceTracker.Model RaceTracker.Ws

/-! Subscribe before snapshot: one run reaches the hub without gap or repetition.

The run's frames are a log with climbing revisions.  GET reads a beginning of it at
once, the subscription reads it frame by frame from wherever SUBSCRIBE happened,
and the revision check is the gate between the two readings.
-/

def revKey (frame : Frame) : Int := frame.rev.toInt

/-- The fields a frame can change. -/
structure SameRolling (left right : Snapshot) : Prop where
  cars : left.cars = right.cars
  messages : left.messages = right.messages
  weather : left.weather = right.weather
  timeMs : left.timeMs = right.timeMs
  rev : left.rev = right.rev

theorem SameRolling.refl (snapshot : Snapshot) : SameRolling snapshot snapshot :=
  ⟨rfl, rfl, rfl, rfl, rfl⟩

theorem SameRolling.symm {left right : Snapshot} (same : SameRolling left right) :
    SameRolling right left :=
  ⟨same.cars.symm, same.messages.symm, same.weather.symm, same.timeMs.symm, same.rev.symm⟩

theorem SameRolling.trans {left middle right : Snapshot} (first : SameRolling left middle)
    (second : SameRolling middle right) : SameRolling left right :=
  ⟨first.cars.trans second.cars, first.messages.trans second.messages,
    first.weather.trans second.weather, first.timeMs.trans second.timeMs,
    first.rev.trans second.rev⟩

theorem SameRolling.advance {left right : Snapshot} (same : SameRolling left right) (frame : Frame) :
    SameRolling (advance left frame) (advance right frame) where
  cars := by simp only [Model.advance, same.cars]
  messages := by simp only [Model.advance, carriedMessages, same.messages, same.timeMs]
  weather := by simp only [Model.advance, same.weather]
  timeMs := rfl
  rev := rfl

def foldFrames (session : String) (frames : List Frame) : Snapshot :=
  frames.foldl advance (newSnapshot session "" "")

theorem foldFrames_append_singleton (session : String) (frames : List Frame) (frame : Frame) :
    foldFrames session (frames ++ [frame]) = advance (foldFrames session frames) frame := by
  simp [foldFrames]

theorem foldFrames_rev (session : String) (frames : List Frame) :
    (foldFrames session frames).rev.toInt = lastKey revKey 0 frames := by
  induction frames using List.reverseRecOn with
  | nil => rfl
  | append_singleton earlier frame ih =>
      rw [foldFrames_append_singleton, lastKey_append_singleton]
      rfl

structure OneRun (session : String) (lane : Lane) : Prop where
  fresh : lane.starts = 0 → lane.writer = none
  idle : lane.writer = none → lane.sent = [] ∧ lane.unsent = none
  stored : lane.stored = if lane.sent = [] then none else lane.writer.map fun writer => writer.snap.marshal
  folded : ∀ writer, lane.writer = some writer → SameRolling writer.snap (foldFrames session lane.sent)
  split : lane.sent = lane.published ++ lane.unsent.toList
  climbs : Ascending revKey 0 lane.sent
  reading : ∀ queue, lane.channel = some queue → lane.read ++ queue.map Prod.snd = lane.published
  unseeded : lane.hub = none → lane.applied = [] ∧ lane.dropped = []
  seeded : ∀ hub, lane.hub = some hub →
    lane.seedFrames <+: lane.sent ∧ Overlap lane.seedFrames lane.applied lane.read ∧
      SameRolling hub (foldFrames session (lane.seedFrames ++ lane.applied)) ∧
      lane.dropped ⊆ lane.seedFrames
  subscribed : lane.hub ≠ none → lane.channel ≠ none

variable {session : String} {lane after : Lane} {action : LaneAction} {source : ClipSource}

theorem oneRun_initial (session : String) (source : ClipSource) :
    OneRun session (Lane.initial session source) where
  fresh _ := rfl
  idle _ := ⟨rfl, rfl⟩
  stored := rfl
  folded _ running := by cases running
  split := rfl
  climbs := trivial
  reading _ channel := by cases channel
  unseeded _ := ⟨rfl, rfl⟩
  seeded _ hub := by cases hub
  subscribed hub := absurd rfl hub

theorem OneRun.start (inv : OneRun session lane) (first : lane.starts = 0)
    (stepped : lane.start session source = some after) : OneRun session after := by
  obtain ⟨writer, started, rfl⟩ := Lane.start_cases stepped
  obtain ⟨noFrames, nothing⟩ := inv.idle (inv.fresh first)
  have unpublished : lane.published = [] := by
    have split := inv.split
    rw [noFrames, nothing] at split
    simpa using split.symm
  have empty : lane.stored = none := by rw [inv.stored, if_pos noFrames]
  obtain ⟨existing, read, rev, fresh⟩ := Writer.start_cases started
  rw [empty, getSnapshot_none] at read
  cases read
  rw [rev] at fresh
  exact {
    fresh := fun none => by simp at none
    idle := fun none => by cases none
    stored := by simpa using empty
    folded := by
      intro _ now
      cases now
      rw [fresh]
      exact ⟨rfl, rfl, rfl, rfl, rfl⟩
    split := rfl
    climbs := trivial
    reading := fun queue channel => by simpa [unpublished] using inv.reading queue channel
    unseeded := inv.unseeded
    seeded := fun hub held => by
      obtain ⟨within, rest⟩ := inv.seeded hub held
      exact ⟨by simpa [noFrames] using within, rest⟩
    subscribed := inv.subscribed }

theorem OneRun.fold (inv : OneRun session lane) {frame : Frame}
    (stepped : lane.fold session frame = some after) : OneRun session after := by
  obtain ⟨writer, next, running, waiting, ⟨folded, rfl⟩ | ⟨stamped, folded, rfl⟩⟩ :=
    Lane.fold_cases stepped
  · obtain ⟨_, ⟨_, same, _⟩ | ⟨sent, _⟩⟩ := Writer.fold_cases folded
    · exact {
        fresh := fun none => absurd (inv.fresh none) (by simp [running])
        idle := fun none => by cases none
        stored := by simpa [running, same] using inv.stored
        folded := by
          intro _ now
          cases now
          exact same ▸ inv.folded writer running
        split := inv.split
        climbs := inv.climbs
        reading := inv.reading
        unseeded := inv.unseeded
        seeded := inv.seeded
        subscribed := inv.subscribed }
    · cases sent
  · obtain ⟨_, ⟨sent, _⟩ | ⟨sent, same, newer⟩⟩ := Writer.fold_cases folded
    · cases sent
    · obtain rfl : stamped = writer.stamp session frame := by simpa using sent
      have last : lastKey revKey 0 lane.sent = writer.snap.rev.toInt := by
        rw [← foldFrames_rev session, (inv.folded writer running).rev]
      exact {
        fresh := fun none => absurd (inv.fresh none) (by simp [running])
        idle := fun none => by cases none
        stored := by simp
        folded := by
          intro _ now
          cases now
          rw [same, foldFrames_append_singleton]
          exact (inv.folded writer running).advance _
        split := by simp [inv.split, waiting]
        climbs := by
          rw [ascending_append, last]
          refine ⟨inv.climbs, ?_, trivial⟩
          rw [Int64.le_iff_toInt_le, Int.not_le] at newer
          exact newer
        reading := inv.reading
        unseeded := inv.unseeded
        seeded := fun hub held => by
          obtain ⟨within, rest⟩ := inv.seeded hub held
          exact ⟨within.trans (List.prefix_append _ _), rest⟩
        subscribed := inv.subscribed }

theorem OneRun.publish (inv : OneRun session lane) (stepped : lane.publish = some after) :
    OneRun session after := by
  obtain ⟨frame, waiting, rfl⟩ := Lane.publish_cases stepped
  exact { inv with
    idle := fun none => absurd (inv.idle none).2 (by simp [waiting])
    split := by simp [inv.split, waiting]
    reading := by
      intro queue channel
      obtain ⟨earlier, subscribed, rfl⟩ := Option.map_eq_some_iff.mp channel
      simp [← inv.reading earlier subscribed]
    subscribed := fun hub => by simpa using inv.subscribed hub }

theorem OneRun.subscribe (inv : OneRun session lane) (stepped : lane.subscribe = some after) :
    OneRun session after := by
  obtain ⟨unsubscribed, rfl⟩ := Lane.subscribe_cases stepped
  exact { inv with
    reading := by
      intro _ now
      cases now
      simp
    seeded := fun hub held => by
      have seeded : lane.hub = some hub := held
      exact absurd unsubscribed (inv.subscribed (by simp [seeded]))
    subscribed := fun _ => by simp }

theorem OneRun.seed (inv : OneRun session lane) (stepped : lane.seedHub session = some after) :
    OneRun session after := by
  obtain ⟨queue, snapshot, channel, unseeded, read, rfl⟩ := Lane.seed_cases stepped
  obtain ⟨noneApplied, noneDropped⟩ := inv.unseeded unseeded
  have rolling : SameRolling snapshot (foldFrames session lane.sent) := by
    rw [inv.stored] at read
    by_cases none : lane.sent = []
    · rw [if_pos none, seedSnapshot_none] at read
      cases read
      rw [none]
      exact SameRolling.refl _
    · cases running : lane.writer with
      | none => exact absurd (inv.idle running).1 none
      | some writer =>
          rw [if_neg none, running, Option.map_some, seedSnapshot_marshal] at read
          cases read
          exact inv.folded writer running
  have behind : lane.read <+: lane.sent := by
    rw [inv.split, ← inv.reading queue channel, List.append_assoc]
    exact List.prefix_append _ _
  exact { inv with
    unseeded := fun none => by cases none
    seeded := by
      intro _ now
      cases now
      simp only [noneApplied, noneDropped, List.append_nil]
      exact ⟨List.prefix_rfl, overlap_seed behind, rolling, List.nil_subset _⟩
    subscribed := fun _ => by simp [channel] }

theorem OneRun.consume (inv : OneRun session lane) (stepped : lane.consumeNext = some after) :
    OneRun session after := by
  obtain ⟨hub, number, frame, rest, held, channel, outcome⟩ := Lane.consume_cases stepped
  obtain ⟨within, overlap, rolling, dropped⟩ := inv.seeded hub held
  have reading := inv.reading _ channel
  have next : lane.read ++ frame :: rest.map Prod.snd <+: lane.sent := by
    rw [inv.split, ← reading]
    exact List.prefix_append _ _
  have gate : frame.rev ≤ hub.rev ↔
      revKey frame ≤ lastKey revKey 0 (lane.seedFrames ++ lane.applied) := by
    rw [Int64.le_iff_toInt_le, rolling.rev, foldFrames_rev]
    rfl
  have readOn : ∀ queue, some rest = some queue →
      (lane.read ++ [frame]) ++ queue.map Prod.snd = lane.published := by
    intro _ now
    cases now
    simpa using reading
  rcases outcome with ⟨stale, rfl⟩ | ⟨newer, _, rfl⟩
  · obtain ⟨inSeed, onward⟩ := overlap.skip inv.climbs next within (gate.mp stale)
    exact { inv with
      reading := readOn
      unseeded := fun none => by cases none
      seeded := by
        intro _ now
        cases now
        exact ⟨within, onward, rolling, by simpa using ⟨dropped, inSeed⟩⟩
      subscribed := fun _ => by simp }
  · have onward := overlap.take inv.climbs next within (mt gate.mpr newer)
    exact { inv with
      reading := readOn
      unseeded := fun none => by cases none
      seeded := by
        intro _ now
        cases now
        refine ⟨within, onward, ?_, dropped⟩
        rw [← List.append_assoc, foldFrames_append_singleton]
        exact rolling.advance frame
      subscribed := fun _ => by simp }

theorem starts_le (stepped : Lane.step session lane action = some after) :
    lane.starts ≤ after.starts := by
  cases action with
  | start source =>
      obtain ⟨_, _, rfl⟩ := Lane.start_cases stepped
      exact Nat.le_succ _
  | fold frame =>
      obtain ⟨_, _, _, _, ⟨_, rfl⟩ | ⟨_, _, rfl⟩⟩ := Lane.fold_cases stepped <;> exact le_rfl
  | publish =>
      obtain ⟨_, _, rfl⟩ := Lane.publish_cases stepped
      exact le_rfl
  | subscribe =>
      obtain ⟨_, rfl⟩ := Lane.subscribe_cases stepped
      exact le_rfl
  | seed =>
      obtain ⟨_, _, _, _, _, rfl⟩ := Lane.seed_cases stepped
      exact le_rfl
  | consume =>
      obtain ⟨_, _, _, _, _, _, ⟨_, rfl⟩ | ⟨_, _, rfl⟩⟩ := Lane.consume_cases stepped <;>
        exact le_rfl

theorem oneRun_step (inv : lane.starts ≤ 1 → OneRun session lane)
    (stepped : Lane.step session lane action = some after) :
    after.starts ≤ 1 → OneRun session after := by
  intro single
  have before := inv ((starts_le stepped).trans single)
  cases action with
  | start source =>
      obtain ⟨_, _, same⟩ := Lane.start_cases stepped
      have first : lane.starts = 0 := by
        rw [same] at single
        exact Nat.le_zero.mp (Nat.le_of_succ_le_succ single)
      exact before.start first stepped
  | fold frame => exact before.fold stepped
  | publish => exact before.publish stepped
  | subscribe => exact before.subscribe stepped
  | seed => exact before.seed stepped
  | consume => exact before.consume stepped

theorem oneRun_of_reachable
    (reachable : Reachable (Lane.step session) (Lane.initial session source) lane)
    (single : lane.starts ≤ 1) : OneRun session lane :=
  reachable.invariant (fun lane => lane.starts ≤ 1 → OneRun session lane)
    (fun _ => oneRun_initial session source) (fun _ _ _ inv stepped => oneRun_step inv stepped) single

/-- Once the channel is drained, the hub is the fold of every frame of the run exactly
once: those in the fetched snapshot, then those taken from the channel, and what was
in both was dropped.  The one frame that is stored but not yet published may be in
or not; apart from it the hub's changing fields are the writer's. -/
theorem drained_hub_reflects_each_frame_once
    (reachable : Reachable (Lane.step session) (Lane.initial session source) lane)
    (single : lane.starts ≤ 1) {hub : Snapshot} (held : lane.hub = some hub)
    (drained : lane.channel = some []) :
    (lane.seedFrames ++ lane.applied = lane.published ∨ ∃ frame, lane.unsent = some frame ∧
        lane.seedFrames ++ lane.applied = lane.published ++ [frame]) ∧
      (lane.seedFrames ++ lane.applied).Pairwise (fun first second => first.rev < second.rev) ∧
      lane.dropped ⊆ lane.seedFrames ∧
      SameRolling hub (foldFrames session (lane.seedFrames ++ lane.applied)) ∧
      ∀ writer, lane.writer = some writer → SameRolling hub writer.snap ∨
        ∃ frame, lane.unsent = some frame ∧ SameRolling (advance hub frame) writer.snap := by
  have inv := oneRun_of_reachable reachable single
  obtain ⟨within, overlap, rolling, dropped⟩ := inv.seeded hub held
  have caughtUp : lane.read = lane.published := by simpa using inv.reading [] drained
  have extent : lane.seedFrames ++ lane.applied = lane.published ∨
      ∃ frame, lane.unsent = some frame ∧
        lane.seedFrames ++ lane.applied = lane.published ++ [frame] := by
    rcases overlap with ⟨none, behind⟩ | level
    · rw [none, List.append_nil]
      rw [caughtUp] at behind
      have split := inv.split
      cases waiting : lane.unsent with
      | none =>
          rw [waiting, Option.toList_none, List.append_nil] at split
          exact Or.inl ((split ▸ within).eq_of_length_le behind.length_le)
      | some frame =>
          rw [waiting] at split
          rcases behind_cases behind
              (show lane.published ++ frame :: [] <+: lane.sent by rw [split]; exact List.prefix_rfl)
              within with level | further
          · exact Or.inl level.symm
          · refine Or.inr ⟨frame, rfl, ?_⟩
            exact (within.trans (by rw [split]; exact List.prefix_rfl)).eq_of_length_le
              further.length_le
    · exact Or.inl (level.symm.trans caughtUp)
  have reflected : lane.seedFrames ++ lane.applied <+: lane.sent := by
    rw [inv.split]
    rcases extent with level | ⟨frame, waiting, ahead⟩
    · exact level ▸ List.prefix_append _ _
    · rw [ahead, waiting]
      exact List.prefix_rfl
  refine ⟨extent, ?_, dropped, rolling, ?_⟩
  · refine (inv.climbs.pairwise.sublist reflected.sublist).imp fun climbs => ?_
    exact Int64.lt_iff_toInt_lt.mpr climbs
  · intro writer running
    have whole := inv.folded writer running
    rw [inv.split] at whole
    rcases extent with level | ⟨frame, waiting, ahead⟩
    · rw [level] at rolling
      cases waiting : lane.unsent with
      | none =>
          rw [waiting, Option.toList_none, List.append_nil] at whole
          exact Or.inl (rolling.trans whole.symm)
      | some frame =>
          rw [waiting, Option.toList_some, foldFrames_append_singleton] at whole
          exact Or.inr ⟨frame, rfl, (rolling.advance frame).trans whole.symm⟩
    · rw [ahead] at rolling
      rw [waiting] at whole
      exact Or.inl (rolling.trans whole.symm)

def oneFrameThrough : List LaneAction :=
  [.start demoSource, .subscribe, .seed, .fold demoFrame, .publish, .consume]

theorem one_frame_through :
    ∃ lane hub, run (Lane.step "demo") (Lane.initial "demo" demoSource) oneFrameThrough = some lane ∧
      lane.hub = some hub ∧ (lane.seedFrames ++ lane.applied).length = 1 ∧
      SameRolling hub (foldFrames "demo" (lane.seedFrames ++ lane.applied)) :=
  ⟨_, _, rfl, rfl, rfl,
    (drained_hub_reflects_each_frame_once ⟨oneFrameThrough, rfl⟩ (by decide) rfl rfl).2.2.2.1⟩

def storedNotPublished : List LaneAction :=
  [.start demoSource, .subscribe, .seed, .fold demoFrame]

/-- Everything published has been consumed, and yet the writer is one frame ahead. -/
theorem stored_not_published_splits :
    ∃ lane hub writer, Reachable (Lane.step "demo") (Lane.initial "demo" demoSource) lane ∧
      lane.starts ≤ 1 ∧ lane.hub = some hub ∧ lane.channel = some [] ∧
      lane.writer = some writer ∧ ¬ SameRolling hub writer.snap := by
  refine ⟨_, _, _, ⟨storedNotPublished, rfl⟩, by decide, rfl, rfl, rfl, ?_⟩
  intro same
  exact absurd same.rev (by decide)

end RaceTracker.App
