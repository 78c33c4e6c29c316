import RaceTracker.App.Lane

namespace RaceTracker.App

open RaceTracker.Lib RaceTracker.Model RaceTracker.Ws

/-! Where a hub's session constants come from.

Frames carry only what changes, so label, track, stints and the rest reach the hub
through the one GET that seeded it and stay as they were then, whatever runs later.
-/

/-- A snapshot without what a frame can change.  Of the radio the clip's own refs stay: a frame's come
behind them. -/
def constants (clip : ClipSource) (snapshot : Snapshot) : Snapshot :=
  { snapshot with
    cars := none, messages := [], radio := snapshot.radio.take clip.radio.length
    weather := none, timeMs := 0, rev := 0 }

/-- The refs behind the clip's own. -/
def liveRadio (clip : ClipSource) (snapshot : Snapshot) : List RadioMessage :=
  snapshot.radio.drop clip.radio.length

def runConstants (session : String) (source : ClipSource) : Snapshot :=
  constants source { source.baked with sessionKey := session }

def HasCar (snapshot : Snapshot) (number : Int64) (car : CarState) : Prop :=
  ∃ cars, snapshot.cars = some cars ∧ cars.get? number = some car

def Carried (frames : List Frame) (number : Int64) (car : CarState) : Prop :=
  car.driverNum = number ∧ ∃ frame ∈ frames, car ∈ frame.carList

def Heard (frames : List Frame) (ref : RadioMessage) : Prop := ∃ frame ∈ frames, ref ∈ frame.radio

/-- The hub carries the constants that the run stores, and behind them only refs and cars that this
run has stored. -/
def Faithful (lane : Lane) : Prop :=
  ∀ hub writer, lane.hub = some hub → lane.writer = some writer →
    constants lane.source hub = constants lane.source writer.snap ∧
      (∀ ref ∈ liveRadio lane.source hub, Heard lane.sent ref) ∧
      ∀ number car, HasCar hub number car → Carried lane.sent number car

/-- What a hub of the current run is: the clip's constants, and only the run's refs and cars. -/
structure Own (session : String) (clip : ClipSource) (sent : List Frame) (snapshot : Snapshot) : Prop where
  constants : constants clip snapshot = runConstants session clip
  radio : ∀ ref ∈ liveRadio clip snapshot, Heard sent ref
  cars : ∀ number car, HasCar snapshot number car → Carried sent number car

/-- What the seed and the applied frames say of a driver last. -/
def Lane.Latest (lane : Lane) (number : Int64) (car : CarState) : Prop :=
  ((lane.applied.flatMap Frame.carList).filter fun car => car.driverNum = number).getLast?.or
    (lane.seed.cars.bind fun cars => cars.get? number) = some car

/-- The seed with the refs of the applied frames. -/
def Lane.heard (lane : Lane) : Snapshot :=
  { lane.seed with radio := lane.seed.radio ++ lane.applied.flatMap Frame.radio }

theorem cars_advance {snapshot : Snapshot} (present : snapshot.cars ≠ none) (frame : Frame) :
    (advance snapshot frame).cars ≠ none := by
  simpa [advance] using present

theorem get?_setCars (cars : Dict Int64 CarState) (list : List CarState) (number : Int64) :
    (setCars cars list).get? number =
      (list.filter fun car => car.driverNum = number).getLast?.or (cars.get? number) := by
  rw [setCars, Dict.get?_foldl_set (fun car : CarState => car.driverNum) (fun car => car), Option.map_id']

theorem hasCar_advance {snapshot : Snapshot} {frame : Frame} {number : Int64} {car : CarState}
    (has : HasCar (advance snapshot frame) number car) :
    HasCar snapshot number car ∨ Carried [frame] number car := by
  obtain ⟨after, held, found⟩ := has
  obtain ⟨cars, before, rfl⟩ := Option.map_eq_some_iff.mp held
  rw [get?_setCars, Option.or_eq_some_iff] at found
  rcases found with new | ⟨_, old⟩
  · obtain ⟨member, named⟩ := List.mem_filter.mp (List.mem_of_getLast? new)
    exact Or.inr ⟨of_decide_eq_true named, frame, List.mem_singleton_self frame, member⟩
  · exact Or.inl ⟨cars, before, old⟩

namespace Own

variable {session : String} {clip : ClipSource} {sent : List Frame} {snapshot : Snapshot}

theorem opening (session : String) (clip : ClipSource) (rev : Int64) :
    Own session clip [] { clip.baked with sessionKey := session, cars := some .empty, rev } where
  constants := rfl
  radio ref member := by simp [liveRadio, ClipSource.baked] at member
  cars number car has := by
    obtain ⟨_, held, found⟩ := has
    cases held
    cases found

theorem mono (own : Own session clip sent snapshot) {more : List Frame} (within : sent ⊆ more) :
    Own session clip more snapshot where
  constants := own.constants
  radio ref member := by
    obtain ⟨frame, listed, carries⟩ := own.radio ref member
    exact ⟨frame, within listed, carries⟩
  cars number car has := by
    obtain ⟨named, frame, listed, carries⟩ := own.cars number car has
    exact ⟨named, frame, within listed, carries⟩

/-- The clip's refs stand in front, so that a frame's come behind them. -/
theorem long (own : Own session clip sent snapshot) : clip.radio.length ≤ snapshot.radio.length := by
  have same : snapshot.radio.take clip.radio.length = clip.radio.take clip.radio.length :=
    congrArg Snapshot.radio own.constants
  have counted := congrArg List.length same
  simp only [List.length_take, min_self] at counted
  omega

theorem advance (own : Own session clip sent snapshot) {frame : Frame} (listed : frame ∈ sent) :
    Own session clip sent (advance snapshot frame) where
  constants := by
    have kept : (snapshot.radio ++ frame.radio).take clip.radio.length =
        snapshot.radio.take clip.radio.length := List.take_append_of_le_length own.long
    rw [← own.constants, App.constants, App.constants, Model.advance]
    simp only [kept]
  radio ref member := by
    rw [liveRadio, Model.advance, List.drop_append_of_le_length own.long] at member
    rcases List.mem_append.mp member with old | new
    · exact own.radio ref old
    · exact ⟨frame, listed, new⟩
  cars number car has := by
    rcases hasCar_advance has with old | ⟨named, _, alone, carries⟩
    · exact own.cars number car old
    · exact ⟨named, frame, listed, List.mem_singleton.mp alone ▸ carries⟩

end Own

/-- What every schedule keeps: the writer holds its own run, and the hub the frames applied to its
seed. -/
structure Sound (session : String) (lane : Lane) : Prop where
  stored : lane.stored = none ∨ ∃ snapshot : Snapshot, lane.stored = some snapshot.marshal ∧
    snapshot.cars ≠ none
  writer : ∀ writer, lane.writer = some writer → writer.snap.cars ≠ none ∧
    Own session lane.source lane.sent writer.snap
  split : lane.sent = lane.published ++ lane.unsent.toList
  unseeded : lane.hub = none → lane.applied = []
  hub : ∀ hub, lane.hub = some hub → lane.seed.cars ≠ none ∧ hub = lane.applied.foldl advance lane.seed

variable {session : String} {lane after : Lane} {action : LaneAction} {source : ClipSource}

theorem seedSnapshot_sound {stored : Option Json} {snapshot : Snapshot}
    (sound : stored = none ∨ ∃ held : Snapshot, stored = some held.marshal ∧ held.cars ≠ none)
    (read : seedSnapshot session stored = .ok snapshot) : snapshot.cars ≠ none := by
  rcases sound with rfl | ⟨held, rfl, present⟩
  · rw [seedSnapshot_none] at read
    cases read
    simp [newSnapshot]
  · rw [seedSnapshot_marshal] at read
    cases read
    exact present

theorem sound_initial (session : String) (source : ClipSource) :
    Sound session (Lane.initial session source) where
  stored := Or.inl rfl
  writer _ running := by cases running
  split := rfl
  unseeded _ := rfl
  hub _ held := by cases held

theorem sound_step (inv : Sound session lane) (stepped : Lane.step session lane action = some after) :
    Sound session after := by
  cases action with
  | start source =>
      obtain ⟨writer, started, rfl⟩ := Lane.start_cases stepped
      obtain ⟨_, _, _, snap⟩ := Writer.start_cases started
      exact { inv with
        writer := by
          intro _ now
          cases now
          rw [snap]
          exact ⟨by simp, Own.opening ..⟩
        split := rfl }
  | fold frame =>
      obtain ⟨writer, next, running, waiting, ⟨folded, rfl⟩ | ⟨stamped, folded, rfl⟩⟩ :=
        Lane.fold_cases stepped
      · obtain ⟨_, ⟨_, same, _⟩ | ⟨sent, _⟩⟩ := Writer.fold_cases folded
        · exact { inv with
            writer := by
              intro _ now
              cases now
              rw [same]
              exact inv.writer writer running }
        · cases sent
      · obtain ⟨_, ⟨sent, _⟩ | ⟨sent, same, _⟩⟩ := Writer.fold_cases folded
        · cases sent
        · obtain ⟨present, own⟩ := inv.writer writer running
          obtain rfl : stamped = writer.stamp session frame := by simpa using sent
          have nextPresent : next.snap.cars ≠ none := same ▸ cars_advance present _
          exact { inv with
            stored := Or.inr ⟨next.snap, rfl, nextPresent⟩
            writer := by
              intro _ now
              cases now
              rw [same]
              exact ⟨cars_advance present _, (own.mono (List.subset_append_left ..)).advance (by simp)⟩
            split := by simp [inv.split, waiting] }
  | publish =>
      obtain ⟨_, waiting, rfl⟩ := Lane.publish_cases stepped
      exact { inv with split := by simp [inv.split, waiting] }
  | subscribe =>
      obtain ⟨_, rfl⟩ := Lane.subscribe_cases stepped
      exact { inv with }
  | seed =>
      obtain ⟨_, snapshot, _, unseeded, read, rfl⟩ := Lane.seed_cases stepped
      exact { inv with
        unseeded := fun none => by cases none
        hub := by
          intro _ now
          cases now
          exact ⟨seedSnapshot_sound inv.stored read, by rw [inv.unseeded unseeded]; rfl⟩ }
  | consume =>
      obtain ⟨hub, _, frame, _, held, _, ⟨_, rfl⟩ | ⟨_, _, rfl⟩⟩ := Lane.consume_cases stepped
      · exact { inv with
          unseeded := fun none => by cases none
          hub := by
            intro _ now
            cases now
            exact inv.hub hub held }
      · obtain ⟨present, same⟩ := inv.hub hub held
        exact { inv with
          unseeded := fun none => by cases none
          hub := by
            intro _ now
            cases now
            exact ⟨present, by rw [List.foldl_append, ← same]; rfl⟩ }

theorem sound_of_reachable
    (reachable : Reachable (Lane.step session) (Lane.initial session source) lane) :
    Sound session lane :=
  reachable.invariant (Sound session) (sound_initial session source) fun _ _ _ => sound_step

theorem foldl_radio (frames : List Frame) (snapshot : Snapshot) :
    (frames.foldl advance snapshot).radio = snapshot.radio ++ frames.flatMap Frame.radio := by
  induction frames generalizing snapshot with
  | nil => simp
  | cons frame rest ih =>
      rw [List.foldl_cons, ih, List.flatMap_cons, ← List.append_assoc]
      rfl

theorem foldl_cars (frames : List Frame) {snapshot : Snapshot} {cars : Dict Int64 CarState}
    (held : snapshot.cars = some cars) :
    (frames.foldl advance snapshot).cars = some (setCars cars (frames.flatMap Frame.carList)) := by
  induction frames generalizing snapshot cars with
  | nil => simpa [setCars] using held
  | cons frame rest ih =>
      have next : (advance snapshot frame).cars = some (setCars cars frame.carList) := by
        rw [advance, held]
        rfl
      rw [List.foldl_cons, ih next, List.flatMap_cons, setCars, setCars, setCars, List.foldl_append]

theorem foldl_constants (clip : ClipSource) (frames : List Frame) (snapshot : Snapshot) :
    constants clip (frames.foldl advance snapshot) =
      constants clip { snapshot with radio := snapshot.radio ++ frames.flatMap Frame.radio } := by
  induction frames generalizing snapshot with
  | nil => simp
  | cons frame rest ih =>
      rw [List.foldl_cons, ih, List.flatMap_cons, ← List.append_assoc]
      rfl

theorem hasCar_foldl_iff {seed : Snapshot} (present : seed.cars ≠ none) (frames : List Frame)
    (number : Int64) (car : CarState) :
    HasCar (frames.foldl advance seed) number car ↔
      ((frames.flatMap Frame.carList).filter fun car => car.driverNum = number).getLast?.or
        (seed.cars.bind fun cars => cars.get? number) = some car := by
  obtain ⟨cars, held⟩ := Option.ne_none_iff_exists'.mp present
  simp [HasCar, foldl_cars frames held, get?_setCars, held]

/-- Whatever happened, the hub is faithful exactly when its seed and the frames that went into it
are. -/
theorem faithful_iff (inv : Sound session lane) {hub : Snapshot} {writer : Writer}
    (held : lane.hub = some hub) (running : lane.writer = some writer) :
    Faithful lane ↔ constants lane.source lane.heard = runConstants session lane.source ∧
      (∀ ref ∈ liveRadio lane.source lane.heard, Heard lane.sent ref) ∧
      ∀ number car, lane.Latest number car → Carried lane.sent number car := by
  obtain ⟨present, folded⟩ := inv.hub hub held
  obtain ⟨_, own⟩ := inv.writer writer running
  have fields : constants lane.source hub = constants lane.source lane.heard := by
    rw [folded, foldl_constants, Lane.heard]
  have radio : liveRadio lane.source hub = liveRadio lane.source lane.heard := by
    rw [liveRadio, folded, foldl_radio]
    rfl
  have cars (number : Int64) (car : CarState) : HasCar hub number car ↔ lane.Latest number car := by
    rw [folded, hasCar_foldl_iff present, Lane.Latest]
  constructor
  · intro faithful
    obtain ⟨same, heard, only⟩ := faithful hub writer held running
    exact ⟨by rw [← fields, same, own.constants], fun ref member => heard ref (radio ▸ member),
      fun number car latest => only number car ((cars number car).mpr latest)⟩
  · intro sourced _ _ heldAgain runningAgain
    obtain ⟨same, heard, only⟩ := sourced
    cases held.symm.trans heldAgain
    cases running.symm.trans runningAgain
    exact ⟨by rw [fields, same, own.constants], fun ref member => heard ref (radio ▸ member),
      fun number car has => only number car ((cars number car).mp has)⟩

/-- The run is under way before the hub is seeded, and no other run follows. -/
def orderly (lane : Lane) : LaneAction → Bool
  | .start _ => lane.hub.isNone
  | .seed => !lane.sent.isEmpty
  | _ => true

/-- What orderly schedules keep: whatever an older run left in the channel is at or
below the revision the current run continues above, and the hub is above it. -/
structure Settled (session : String) (lane : Lane) : Prop where
  queued : ∀ queue, lane.channel = some queue → ∀ entry ∈ queue,
    (entry.2 ∈ lane.sent ∨ entry.2.rev.toInt ≤ lane.base.toInt) ∧
      ∃ held : Snapshot, lane.stored = some held.marshal ∧ entry.2.rev.toInt ≤ held.rev.toInt
  unsent : ∀ frame, lane.unsent = some frame → frame ∈ lane.sent ∧
    ∃ held : Snapshot, lane.stored = some held.marshal ∧ frame.rev.toInt ≤ held.rev.toInt
  stored : ∀ (held : Snapshot) writer, lane.stored = some held.marshal →
    lane.writer = some writer → held.rev.toInt ≤ writer.snap.rev.toInt
  current : lane.sent ≠ [] → ∃ writer, lane.writer = some writer ∧
    lane.stored = some writer.snap.marshal ∧ lane.base.toInt < writer.snap.rev.toInt
  running : ∀ writer, lane.writer = some writer → lane.base.toInt ≤ writer.snap.rev.toInt
  hub : ∀ hub, lane.hub = some hub → lane.base.toInt < hub.rev.toInt ∧
    Own session lane.source lane.sent hub

theorem settled_initial (session : String) (source : ClipSource) :
    Settled session (Lane.initial session source) where
  queued _ channel := by cases channel
  unsent _ waiting := by cases waiting
  stored _ _ held := by cases held
  current sent := absurd rfl sent
  running _ running := by cases running
  hub _ held := by cases held

theorem Settled.start (inv : Settled session lane) (unseeded : lane.hub = none)
    (stepped : lane.start session source = some after) : Settled session after := by
  obtain ⟨writer, started, rfl⟩ := Lane.start_cases stepped
  obtain ⟨existing, read, rev, fresh⟩ := Writer.start_cases started
  have base : ∀ held : Snapshot, lane.stored = some held.marshal → writer.rev = held.rev := by
    intro held stored
    rw [stored, getSnapshot_marshal] at read
    cases read
    exact rev
  have snap : writer.snap.rev = writer.rev := by rw [fresh]
  exact {
    queued := by
      intro queue channel entry member
      obtain ⟨_, held, stored, below⟩ := inv.queued queue channel entry member
      refine ⟨Or.inr ?_, held, stored, below⟩
      rw [base held stored]
      exact below
    unsent := fun _ waiting => by cases waiting
    stored := by
      intro held _ stored now
      cases now
      rw [snap, base held stored]
    current := fun sent => absurd rfl sent
    running := by
      intro _ now
      cases now
      rw [snap]
    hub := fun hub held => by
      rw [show lane.hub = some hub from held] at unseeded
      cases unseeded }

theorem Settled.fold (inv : Settled session lane) {frame : Frame}
    (stepped : lane.fold session frame = some after) : Settled session after := by
  obtain ⟨writer, next, running, _, ⟨folded, rfl⟩ | ⟨stamped, folded, rfl⟩⟩ := Lane.fold_cases stepped
  · obtain ⟨_, ⟨_, same, _⟩ | ⟨sent, _⟩⟩ := Writer.fold_cases folded
    · exact { inv with
        stored := by
          intro held _ stored now
          cases now
          rw [same]
          exact inv.stored held writer stored running
        current := fun sent => by
          obtain ⟨_, again, stored, above⟩ := inv.current sent
          cases running.symm.trans again
          exact ⟨next, rfl, by rw [same, stored], by rwa [same]⟩
        running := by
          intro _ now
          cases now
          rw [same]
          exact inv.running writer running }
    · cases sent
  · obtain ⟨_, ⟨sent, _⟩ | ⟨sent, same, newer⟩⟩ := Writer.fold_cases folded
    · cases sent
    · obtain rfl : stamped = writer.stamp session frame := by simpa using sent
      have climbed : writer.snap.rev.toInt < next.snap.rev.toInt := by
        rw [Int64.le_iff_toInt_le, Int.not_le] at newer
        rw [same]
        exact newer
      have above := inv.running writer running
      exact {
        queued := by
          intro queue channel entry member
          obtain ⟨origin, held, stored, below⟩ := inv.queued queue channel entry member
          have behind := inv.stored held writer stored running
          exact ⟨origin.imp_left (List.mem_append_left _), next.snap, rfl, by omega⟩
        unsent := by
          intro _ now
          cases now
          exact ⟨by simp, next.snap, rfl, by rw [same]; exact le_rfl⟩
        stored := by
          intro held _ stored now
          cases now
          rw [Snapshot.marshal_injective (Option.some.inj stored)]
        current := fun _ => ⟨next, rfl, rfl, above.trans_lt climbed⟩
        running := by
          intro _ now
          cases now
          exact (above.trans_lt climbed).le
        hub := fun hub held => by
          obtain ⟨higher, own⟩ := inv.hub hub held
          exact ⟨higher, own.mono (List.subset_append_left ..)⟩ }

theorem Settled.publish (inv : Settled session lane) (stepped : lane.publish = some after) :
    Settled session after := by
  obtain ⟨frame, waiting, rfl⟩ := Lane.publish_cases stepped
  obtain ⟨own, held⟩ := inv.unsent frame waiting
  exact { inv with
    queued := by
      intro queue channel entry member
      obtain ⟨earlier, subscribed, rfl⟩ := Option.map_eq_some_iff.mp channel
      rcases List.mem_append.mp member with old | new
      · exact inv.queued earlier subscribed entry old
      · cases List.mem_singleton.mp new
        exact ⟨Or.inl own, held⟩
    unsent := fun _ waiting => by cases waiting }

theorem Settled.subscribe (inv : Settled session lane) (stepped : lane.subscribe = some after) :
    Settled session after := by
  obtain ⟨_, rfl⟩ := Lane.subscribe_cases stepped
  exact { inv with
    queued := by
      intro _ now _ member
      cases now
      cases member }

theorem Settled.seed (sound : Sound session lane) (inv : Settled session lane)
    (underway : lane.sent ≠ []) (stepped : lane.seedHub session = some after) :
    Settled session after := by
  obtain ⟨_, snapshot, _, _, read, rfl⟩ := Lane.seed_cases stepped
  obtain ⟨writer, running, stored, above⟩ := inv.current underway
  rw [stored, seedSnapshot_marshal] at read
  cases read
  exact { inv with
    hub := by
      intro _ now
      cases now
      exact ⟨above, (sound.writer writer running).2⟩ }

theorem Settled.consume (inv : Settled session lane) (stepped : lane.consumeNext = some after) :
    Settled session after := by
  obtain ⟨hub, number, frame, rest, held, channel, outcome⟩ := Lane.consume_cases stepped
  obtain ⟨higher, holds⟩ := inv.hub hub held
  have queued : ∀ queue, some rest = some queue → ∀ entry ∈ queue,
      (entry.2 ∈ lane.sent ∨ entry.2.rev.toInt ≤ lane.base.toInt) ∧
        ∃ held : Snapshot, lane.stored = some held.marshal ∧ entry.2.rev.toInt ≤ held.rev.toInt := by
    intro _ now entry member
    cases now
    exact inv.queued _ channel entry (List.mem_cons_of_mem _ member)
  rcases outcome with ⟨_, rfl⟩ | ⟨newer, _, rfl⟩
  · exact { inv with
      queued := queued
      hub := by
        intro _ now
        cases now
        exact ⟨higher, holds⟩ }
  · rw [Int64.le_iff_toInt_le, Int.not_le] at newer
    have own : frame ∈ lane.sent := by
      rcases (inv.queued _ channel (number, frame) (List.mem_cons_self ..)).1 with own | below
      · exact own
      · exact absurd (higher.trans newer) (by simpa using below)
    exact { inv with
      queued := queued
      hub := by
        intro _ now
        cases now
        exact ⟨higher.trans newer, holds.advance own⟩ }

theorem settled_of_reachable
    (reachable : Reachable (restrict orderly (Lane.step session)) (Lane.initial session source) lane) :
    Sound session lane ∧ Settled session lane := by
  refine reachable.invariant (fun lane => Sound session lane ∧ Settled session lane)
    ⟨sound_initial session source, settled_initial session source⟩ ?_
  intro lane action after both allowedStep
  obtain ⟨sound, inv⟩ := both
  obtain ⟨allowed, stepped⟩ := restrict_eq_some_iff.mp allowedStep
  refine ⟨sound_step sound stepped, ?_⟩
  cases action with
  | start source => exact inv.start (by simpa [orderly] using allowed) stepped
  | fold frame => exact inv.fold stepped
  | publish => exact inv.publish stepped
  | subscribe => exact inv.subscribe stepped
  | seed => exact inv.seed sound (by simpa [orderly] using allowed) stepped
  | consume => exact inv.consume stepped

theorem faithful_of_settled (sound : Sound session lane) (inv : Settled session lane) :
    Faithful lane := by
  intro hub writer held running
  obtain ⟨_, own⟩ := inv.hub hub held
  obtain ⟨_, stored⟩ := sound.writer writer running
  exact ⟨own.constants.trans stored.constants.symm, own.radio, own.cars⟩

/-- Seeded while the run is under way, with no run after it, the hub is faithful in
every state.  On any schedule, at any time from then on, it is faithful exactly when
what GET returned has the current run's constants, with the clip's radio in front, and
every later ref, and the last car of every driver in it or in the frames applied since,
is one that this run has stored.  What is stored is published, but for a frame between
its SET and its PUBLISH. -/
theorem hub_faithful_when_seeded_by_the_run (session : String) (source : ClipSource) :
    (∀ lane, Reachable (restrict orderly (Lane.step session)) (Lane.initial session source) lane →
      Faithful lane) ∧
    ∀ lane, Reachable (Lane.step session) (Lane.initial session source) lane →
      lane.sent = lane.published ++ lane.unsent.toList ∧
      (lane.hub ≠ none → lane.writer ≠ none →
        (Faithful lane ↔ constants lane.source lane.heard = runConstants session lane.source ∧
          (∀ ref ∈ liveRadio lane.source lane.heard, Heard lane.sent ref) ∧
          ∀ number car, lane.Latest number car → Carried lane.sent number car)) := by
  constructor
  · intro lane reachable
    obtain ⟨sound, settled⟩ := settled_of_reachable reachable
    exact faithful_of_settled sound settled
  · intro lane reachable
    have sound := sound_of_reachable reachable
    refine ⟨sound.split, ?_⟩
    intro seeded started
    obtain ⟨hub, held⟩ := Option.ne_none_iff_exists'.mp seeded
    obtain ⟨writer, running⟩ := Option.ne_none_iff_exists'.mp started
    exact faithful_iff sound held running

def radioSource : ClipSource := { demoSource with radio := [⟨50, 16, "box"⟩] }

def carFrame : Frame :=
  { demoFrame with
    cars := some [{ CarState.codec.zero with driverNum := 16, pos := 1 }]
    radio := [⟨90, 16, "copy"⟩] }

def writerFirst : List LaneAction :=
  [.start radioSource, .subscribe, .fold carFrame, .seed, .publish, .consume, .fold carFrame, .publish,
    .consume]

theorem writer_first_is_faithful :
    ∃ lane hub, run (restrict orderly (Lane.step "demo")) (Lane.initial "demo" radioSource) writerFirst =
        some lane ∧ lane.hub = some hub ∧ lane.lastRun = lane.starts ∧ lane.applied.length = 1 ∧
      hub.radio = radioSource.radio ++ carFrame.radio ++ carFrame.radio ∧ Faithful lane := by
  have reached : (run (restrict orderly (Lane.step "demo")) (Lane.initial "demo" radioSource)
      writerFirst).map (fun lane =>
        (lane.hub.map Snapshot.radio, lane.lastRun, lane.starts, lane.applied.length)) =
      some (some (radioSource.radio ++ carFrame.radio ++ carFrame.radio), 1, 1, 1) := by
    decide +kernel
  obtain ⟨lane, ran, facts⟩ := Option.map_eq_some_iff.mp reached
  simp only [Prod.mk.injEq] at facts
  obtain ⟨shown, last, starts, applied⟩ := facts
  obtain ⟨hub, held, radio⟩ := Option.map_eq_some_iff.mp shown
  exact ⟨lane, hub, ran, held, last.trans starts.symm, applied, radio,
    (hub_faithful_when_seeded_by_the_run "demo" radioSource).1 lane ⟨writerFirst, ran⟩⟩

def gatewayFirst : List LaneAction :=
  [.subscribe, .seed, .start demoSource, .fold demoFrame, .publish, .consume]

/-- The current run's frame went in, and the hub still has no label. -/
theorem gateway_first_stays_unknown :
    ∃ lane, Reachable (Lane.step "demo") (Lane.initial "demo" demoSource) lane ∧
      lane.starts = 1 ∧ lane.lastRun = lane.starts ∧ lane.applied.length = 1 ∧ ¬ Faithful lane := by
  refine ⟨_, ⟨gatewayFirst, rfl⟩, rfl, rfl, rfl, ?_⟩
  intro faithful
  have label := congrArg Snapshot.label (faithful _ _ rfl rfl).1
  exact absurd label (by decide)

end RaceTracker.App
