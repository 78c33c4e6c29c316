import RaceTracker.Ingest.Bounds
import RaceTracker.Ingest.Feed

namespace RaceTracker.Ingest

open RaceTracker.Lib RaceTracker.Model

/-! The points that the live lane publishes, against the unit box. -/

section

variable {γ β : Type} (builtins : Builtins γ β)

/-- The records that the loops come to, up to the one that raises. -/
def payloadReadings (samples : Json) : List (Reading γ) :=
  match iterate samples with
  | .error _ => []
  | .ok samples => (reached builtins.quietSample samples).flatMap fun sample =>
      (reached builtins.quietRecord (recordsOf sample)).filterMap builtins.reading

def messageReadings (message : Message) : List (Reading γ) :=
  if message.topic = .position then
    payloadReadings builtins
      (builtins.decodePositionPayload (Feed.decodePayload builtins message.payload))
  else []

theorem positionSample_reached (reports : Reports) (state : β × List (String × Car)) (sample : Json) :
    (positionSample builtins reports state sample).1 = (reached builtins.quietRecord
      (recordsOf sample)).foldl (fun state entry => (positionRecord builtins reports state entry).1)
        state := by
  cases sample with
  | obj members =>
      simp only [positionSample, recordsOf, Json.get?]
      cases Json.lookup "Entries" members with
      | none => rfl
      | some value =>
          cases value with
          | obj entries => exact foldUntil_reached (positionRecord_tells builtins reports) state _
          | _ => rfl
  | _ => rfl

/-- A payload is one pass over the readings that the loops come to. -/
theorem applyPositionSamples_readings (reports : Reports) (box : β) (samples : Json) :
    (applyPositionSamples builtins reports box samples).1 =
      (boxAfter builtins box (payloadReadings builtins samples),
        (shownAt builtins box (payloadReadings builtins samples)).map
          fun spot => (spot.1, shownCar builtins reports spot.1 spot.2)) := by
  rw [applyPositionSamples, payloadReadings]
  cases iterate samples with
  | error error => rfl
  | ok samples =>
      simp only
      have records := foldl_records builtins reports box [] ((reached builtins.quietSample
        samples).flatMap fun sample => reached builtins.quietRecord (recordsOf sample))
      rw [List.foldl_flatMap, List.filterMap_flatMap, List.nil_append] at records
      rw [foldUntil_reached (positionSample_tells builtins reports), ← records]
      exact List.foldl_ext _ _ _ fun state sample _ =>
        positionSample_reached builtins reports state sample

end

def UnitCoordinate (value : F64) : Prop := 0 ≤ value.value ∧ value.value ≤ 1

def UnitPoint (p : Point) : Prop := UnitCoordinate p.x ∧ UnitCoordinate p.y

/-- Every reading is finite and keeps the bounds short, and after the freeze lies in the square
that they froze at. -/
def AllInside (clock : Nat → Clock) : BoundBox × Nat → List (Reading Binary64) → Prop
  | _, [] => True
  | (box, updates), reading :: rest => box.Holds (clock updates) reading.x reading.y ∧
      AllInside clock (box.update (clock updates) reading.x reading.y, updates + 1) rest

instance decideInside (clock : Nat → Clock) : (state : BoundBox × Nat) →
    (readings : List (Reading Binary64)) → Decidable (AllInside clock state readings)
  | _, [] => .isTrue trivial
  | (box, updates), reading :: rest =>
      let _ := decideInside clock (box.update (clock updates) reading.x reading.y, updates + 1) rest
      inferInstanceAs (Decidable (_ ∧ _))

theorem readFloat64_unit {value : Rat} (unit : 0 ≤ value ∧ value ≤ 1) :
    UnitCoordinate ((Codec.readFloat64 ⟨value, false⟩).getD F64.largest) := by
  obtain ⟨low, high⟩ := nearest_unit_iff.mpr unit
  have below : (nearest value).num ≤ (nearest value).den := by
    have scaled := Rat.num_div_den (nearest value)
    have positive : (0 : Rat) < (nearest value).den := by exact_mod_cast (nearest value).den_pos
    rw [← scaled, div_le_one positive] at high
    exact_mod_cast high
  have least := Rat.num_nonneg.mpr low
  have fits := Nat.le_mul_of_pos_left (nearest value).den (Nat.zero_lt_of_lt one_lt_maxDouble)
  have finite : (nearest value).num.natAbs ≤ maxDouble * (nearest value).den := by omega
  rw [Codec.readFloat64, dif_pos finite]
  exact ⟨low, high⟩

theorem doubleOf_unit {number : Binary64} (unit : InUnit number) : UnitCoordinate (doubleOf number) := by
  obtain ⟨finite, low, high⟩ := unit
  cases number with
  | finite number => exact readFloat64_unit (literal_unit low high)
  | infinite _ | nan => exact finite.elim

theorem BoundBox.point_update {box : BoundBox} {clock : Clock} {x y : Binary64}
    (held : box.Holds clock x y) : UnitPoint ((box.update clock x y).point x y) := by
  obtain ⟨across, along⟩ := BoundBox.normalise_update held
  exact ⟨doubleOf_unit across, doubleOf_unit along⟩

section

variable {β : Type} (builtins : Builtins Binary64 β) (clock : Nat → Clock)

theorem allInside_append {state : BoundBox × Nat} {first second : List (Reading Binary64)} :
    AllInside clock state (first ++ second) ↔ AllInside clock state first ∧
      AllInside clock (boxAfter (builtins.live clock) state first) second := by
  induction first generalizing state with
  | nil => simp [AllInside, boxAfter]
  | cons reading rest ih =>
      obtain ⟨box, updates⟩ := state
      rw [List.cons_append, AllInside, AllInside, ih, and_assoc]
      rfl

theorem shownAt_live {box : BoundBox} {updates : Nat} {reading : Reading Binary64}
    {rest : List (Reading Binary64)} :
    let after := box.update (clock updates) reading.x reading.y
    shownAt (builtins.live clock) (box, updates) (reading :: rest) =
      (reading.number, reading.status, after.point reading.x reading.y) ::
        shownAt (builtins.live clock) (after, updates + 1) rest := rfl

theorem shownAt_unit {state : BoundBox × Nat} {readings : List (Reading Binary64)}
    (inside : AllInside clock state readings) :
    ∀ spot ∈ shownAt (builtins.live clock) state readings, UnitPoint spot.2.2 := by
  induction readings generalizing state with
  | nil => exact List.forall_mem_nil _
  | cons reading rest ih =>
      obtain ⟨box, updates⟩ := state
      obtain ⟨held, later⟩ := inside
      rw [shownAt_live, List.forall_mem_cons]
      exact ⟨BoundBox.point_update held, ih later⟩

end

/-- Every dict made so far has its point in the unit box, and only those are pointed at. -/
structure Boxed {β : Type} (feed : Feed β) : Prop where
  dicts : ∀ id < feed.fresh, UnitPoint (feed.run.dicts id).p
  latest : ∀ entry ∈ feed.run.latestCars.entries, entry.2 < feed.fresh
  cars : ∀ entry ∈ feed.run.snapshot.cars.entries, entry.2 < feed.fresh

theorem writeDicts_p {dicts : Nat → Car} {cars : List (Nat × Car)}
    (own : ∀ entry ∈ cars, entry.2.p = (dicts entry.1).p) (id : Nat) :
    (writeDicts dicts cars id).p = (dicts id).p := by
  rw [writeDicts]
  induction cars generalizing dicts with
  | nil => rfl
  | cons entry rest ih =>
      have kept (id : Nat) : (Function.update dicts entry.1 entry.2 id).p = (dicts id).p := by
        by_cases here : id = entry.1
        · rw [here, Function.update_self, own entry (List.mem_cons_self ..)]
        · rw [Function.update_of_ne here]
      rw [List.foldl_cons, ih, kept]
      intro later member
      rw [kept, own later (List.mem_cons_of_mem _ member)]

/-- Ranking moves no car. -/
theorem reconcile_p {dicts : Nat → Car} {cars : List (Nat × Car)}
    (own : ∀ entry ∈ cars, entry.2.p = (dicts entry.1).p) :
    ∀ entry ∈ reconcile cars, entry.2.p = (dicts entry.1).p := by
  intro entry member
  obtain ⟨raw, listed, _, ranked⟩ := raw_of_mem_reconcile member
  rw [ranked]
  exact own (entry.1, raw) listed

def unitCoordinate (name : String) (p : Json) : Bool :=
  match p.get? name with
  | some (.num number) => 0 ≤ number.value ∧ number.value ≤ 1
  | _ => false

def unitCar (car : Json) : Bool :=
  match car.get? "p" with
  | some p => unitCoordinate "x" p && unitCoordinate "y" p
  | none => false

/-- A text's cars, a frame's list or a snapshot's map, all have their points in the unit box. -/
def unitCars (text : Json) : Bool :=
  match text.get? "cars" with
  | some (.arr cars) => cars.all unitCar
  | some (.obj members) => members.all fun member => unitCar member.2
  | _ => false

theorem unitCoordinate_float {name : String} {p : Json} {value : F64}
    (found : p.get? name = some (float value)) (unit : UnitCoordinate value) :
    unitCoordinate name p = true := by
  rw [UnitCoordinate] at unit
  simp [unitCoordinate, found, float, unit]

theorem unitCar_dumps {car : Car} (unit : UnitPoint car.p) : unitCar car.dumps = true := by
  have p : car.dumps.get? "p" = some (.obj [("x", float car.p.x), ("y", float car.p.y)]) :=
    Car.get?_dumps (by simp [Car.entries])
  simp only [unitCar, p, Bool.and_eq_true]
  exact ⟨unitCoordinate_float rfl unit.1, unitCoordinate_float rfl unit.2⟩

theorem unitCars_buildFrame {α : Type} {session : String} {rev now timeMs : Int}
    {cars : List (α × Car)} {messages radio : List Json} {weather : Option Json}
    (unit : ∀ entry ∈ reconcile cars, UnitPoint entry.2.p) :
    unitCars (buildFrame session rev now timeMs cars messages weather radio).2 = true := by
  have shown : (buildFrame session rev now timeMs cars messages weather radio).2.get? "cars" =
      some (.arr ((reconcile cars).map fun car => car.2.dumps)) :=
    get?_frame (by simp [frameEntries])
  simp only [unitCars, shown, List.all_map, List.all_eq_true]
  exact fun entry listed => unitCar_dumps (unit entry listed)

theorem unitCars_snapshot {κ : Type} {snapshot : LiveSnapshot κ} {car : κ → Car}
    (unit : ∀ entry ∈ snapshot.cars.entries, UnitPoint (car entry.2).p) :
    unitCars (snapshot.dumps car) = true := by
  have shown : (snapshot.dumps car).get? "cars" =
      some (.obj (snapshot.cars.entries.map fun entry => (entry.1, (car entry.2).dumps))) :=
    LiveSnapshot.get?_dumps (by simp [LiveSnapshot.entries])
  simp only [unitCars, shown, List.all_map, List.all_eq_true]
  exact fun entry listed => unitCar_dumps (unit entry listed)

def UnitSent (sent : Publish) : Prop := unitCars sent.text = true ∧ unitCars sent.stored = true

section

variable {β : Type} {feed : Feed β}

theorem boxed_start {γ : Type} {builtins : Builtins γ β} {session label : String}
    {stored : Option Json} {dicts : Nat → Car} {bounds : β} {text : Json}
    (begun : Feed.start builtins session label stored dicts bounds = .ok (feed, text)) :
    Boxed feed ∧ feed.bounds = bounds := by
  obtain ⟨rev, rfl, rfl⟩ := Feed.start_eq begun
  exact ⟨⟨nofun, List.forall_mem_nil _, List.forall_mem_nil _⟩, rfl⟩

theorem Boxed.record (boxed : Boxed feed) {entry : String × Car} (unit : UnitPoint entry.2.p) :
    Boxed (feed.record entry) where
  dicts := by
    intro id below
    rcases Nat.lt_succ_iff_lt_or_eq.mp below with old | rfl
    · rw [feed.record_other entry old.ne]
      exact boxed.dicts id old
    · rw [feed.record_fresh]
      exact unit
  latest := feed.record_below entry boxed.latest
  cars := fun listed member => (boxed.cars listed member).trans (Nat.lt_succ_self _)

theorem Boxed.records (boxed : Boxed feed) {entries : List (String × Car)}
    (unit : ∀ entry ∈ entries, UnitPoint entry.2.p) : Boxed (entries.foldl Feed.record feed) := by
  induction entries generalizing feed with
  | nil => exact boxed
  | cons entry rest ih =>
      exact ih (boxed.record (unit entry (List.mem_cons_self ..)))
        fun later member => unit later (List.mem_cons_of_mem _ member)

/-- A publish that ranks some of the dicts and points the snapshot at no others. -/
theorem Boxed.ranked (boxed : Boxed feed) {cars : List (Nat × Car)}
    (own : ∀ entry ∈ cars, entry.2.p = (feed.run.dicts entry.1).p) {after : Feed β}
    (fresh : after.fresh = feed.fresh) (latest : after.run.latestCars = feed.run.latestCars)
    (dicts : after.run.dicts = writeDicts feed.run.dicts (reconcile cars))
    (held : ∀ entry ∈ after.run.snapshot.cars.entries, entry.2 < feed.fresh) : Boxed after where
  dicts := by
    intro id below
    rw [dicts, writeDicts_p (reconcile_p own)]
    exact boxed.dicts id (fresh ▸ below)
  latest := by
    rw [fresh, latest]
    exact boxed.latest
  cars := by
    rw [fresh]
    exact held

theorem folded_below {bound : Nat} {cars : List (Nat × Car)} {dict : Dict String Nat}
    (old : ∀ entry ∈ dict.entries, entry.2 < bound) (new : ∀ car ∈ cars, car.1 < bound) :
    ∀ entry ∈ (cars.foldl (fun folded car => folded.set (decimal car.2.driverNum) car.1)
      dict).entries, entry.2 < bound := by
  induction cars generalizing dict with
  | nil => exact old
  | cons car rest ih =>
      refine ih ?_ fun later member => new later (List.mem_cons_of_mem _ member)
      intro entry member
      rcases Dict.mem_putEntry member with rfl | kept
      · exact new car (List.mem_cons_self ..)
      · exact old entry kept

/-- The cars of a frame are dicts of the feed, with the points they have there. -/
theorem Boxed.listed (boxed : Boxed feed) {cars : List (Nat × Car)}
    (tags : cars.map Prod.fst = feed.run.latestCars.entries.map Prod.snd)
    (own : ∀ entry ∈ cars, entry.2.p = (feed.run.dicts entry.1).p) :
    ∀ entry ∈ reconcile cars, entry.1 < feed.fresh ∧ UnitPoint entry.2.p := by
  intro entry member
  have tag := (reconcile_tags cars).subset (List.mem_map_of_mem member)
  rw [tags] at tag
  obtain ⟨known, listed, same⟩ := List.mem_map.mp tag
  have below : entry.1 < feed.fresh := same ▸ boxed.latest known listed
  refine ⟨below, ?_⟩
  rw [reconcile_p own entry member]
  exact boxed.dicts entry.1 below

theorem restamped_p : ∀ entry ∈ feed.run.restamped, entry.2.p = (feed.run.dicts entry.1).p := by
  intro entry member
  have same := congrArg Car.p (LiveRun.unranked_restamped member)
  exact same

theorem known_p : ∀ entry ∈ feed.run.known, entry.2.p = (feed.run.dicts entry.1).p := by
  intro entry member
  obtain ⟨listed, _, rfl⟩ := List.mem_map.mp member
  rfl

theorem Boxed.publish (boxed : Boxed feed) (message : Message) :
    Boxed (feed.publish message).1 ∧ UnitSent (feed.publish message).2 := by
  have listed := boxed.listed LiveRun.restamped_tags restamped_p
  have after : Boxed (feed.publish message).1 :=
    boxed.ranked restamped_p rfl rfl rfl
      (folded_below boxed.cars fun car member => (listed car member).1)
  refine ⟨after, ?_, ?_⟩
  · exact unitCars_buildFrame fun entry ranked => (listed entry ranked).2
  · exact unitCars_snapshot fun entry member => after.dicts entry.2 (after.cars entry member)

theorem Boxed.trailing (boxed : Boxed feed) {timeMs now : Int} {bus : Bus} {sent : Publish}
    (flushed : (feed.shutdownFlushRadio timeMs now bus).2 = some sent) : UnitSent sent := by
  have listed := boxed.listed LiveRun.known_tags known_p
  have after : Boxed { feed with run := (feed.run.publishTrailingRadioFrame timeMs now
      (feed.desk.pendingRadio.map RadioRef.dumps)).1 } :=
    boxed.ranked known_p rfl rfl rfl boxed.cars
  rw [Feed.shutdownFlushRadio_some flushed]
  refine ⟨?_, ?_⟩
  · exact unitCars_buildFrame fun entry ranked => (listed entry ranked).2
  · exact unitCars_snapshot fun entry member => after.dicts entry.2 (after.cars entry member)

end

section

variable {β : Type} {builtins : Builtins Binary64 β} {clock : Nat → Clock} {feed : Feed (BoundBox × Nat)}

/-- One message: the feed is boxed again, its bounds have seen the message's readings, and
whatever it published is in the unit box. -/
structure Steps (builtins : Builtins Binary64 β) (clock : Nat → Clock) (feed : Feed (BoundBox × Nat))
    (readings : List (Reading Binary64)) (after : Feed (BoundBox × Nat) × Option Publish) : Prop where
  boxed : Boxed after.1
  bounds : after.1.bounds = boxAfter (builtins.live clock) feed.bounds readings
  sent : ∀ sent ∈ after.2, UnitSent sent

theorem Boxed.position (boxed : Boxed feed) {message : Message} {readings : List (Reading Binary64)}
    (read : payloadReadings (builtins.live clock)
      ((builtins.live clock).decodePositionPayload message.payload) = readings)
    (inside : AllInside clock feed.bounds readings) :
    Steps builtins clock feed readings (feed.position (builtins.live clock) message) := by
  have shown := shownAt_unit builtins clock inside
  have folded := applyPositionSamples_readings (builtins.live clock) feed.reports feed.bounds
    ((builtins.live clock).decodePositionPayload message.payload)
  rw [read] at folded
  have moved : Boxed { feed with bounds := boxAfter (builtins.live clock) feed.bounds readings } :=
    ⟨boxed.dicts, boxed.latest, boxed.cars⟩
  have unit : ∀ entry ∈ (shownAt (builtins.live clock) feed.bounds readings).map fun spot =>
      (spot.1, shownCar (builtins.live clock) feed.reports spot.1 spot.2), UnitPoint entry.2.p := by
    intro entry member
    obtain ⟨spot, listed, rfl⟩ := List.mem_map.mp member
    exact shown spot listed
  have after := moved.records unit
  rw [Feed.position]
  simp only [folded]
  split
  · exact ⟨after, Feed.records_kept Feed.bounds (fun _ _ => rfl) _ _, nofun⟩
  · have published := after.publish message
    refine ⟨published.1, Feed.records_kept Feed.bounds (fun _ _ => rfl) _ _, ?_⟩
    intro sent member
    cases member
    exact published.2

theorem Boxed.dispatch (boxed : Boxed feed) {message : Message}
    (inside : AllInside clock feed.bounds (messageReadings (builtins.live clock) message)) :
    Steps builtins clock feed (messageReadings (builtins.live clock) message)
      (feed.dispatch (builtins.live clock) message) := by
  obtain ⟨topic, payload, due, timeMs, now, bus⟩ := message
  rw [messageReadings] at inside ⊢
  rw [Feed.dispatch]
  simp only at inside ⊢
  generalize Feed.decodePayload (builtins.live clock) payload = decoded at inside ⊢
  -- A topic that reads no positions changes none of the fields that matter here.
  cases topic with
  | position => exact boxed.position rfl inside
  | driverList | timingData | timingAppData =>
      cases decoded <;> exact ⟨⟨boxed.dicts, boxed.latest, boxed.cars⟩, rfl, nofun⟩
  | _ => exact ⟨⟨boxed.dicts, boxed.latest, boxed.cars⟩, rfl, nofun⟩

theorem Boxed.dispatchAll (boxed : Boxed feed) {messages : List Message}
    (inside : AllInside clock feed.bounds
      (messages.flatMap (messageReadings (builtins.live clock)))) :
    Boxed (feed.dispatchAll (builtins.live clock) messages).1 ∧
      ∀ sent ∈ (feed.dispatchAll (builtins.live clock) messages).2, UnitSent sent := by
  induction messages generalizing feed with
  | nil => exact ⟨boxed, List.forall_mem_nil _⟩
  | cons message rest ih =>
      rw [List.flatMap_cons, allInside_append builtins] at inside
      obtain ⟨now, later⟩ := inside
      have step := boxed.dispatch now
      rw [← step.bounds] at later
      obtain ⟨last, sent⟩ := ih step.boxed later
      refine ⟨last, ?_⟩
      intro frame member
      rcases List.mem_append.mp member with own | after
      · exact step.sent frame (Option.mem_toList.mp own)
      · exact sent frame after

/-- As long as the readings are finite and stay in the square that the bounds froze at, the
positions are in the unit box, and so is every text that goes out. -/
theorem published_in_unit_box (builtins : Builtins Binary64 β) (clock : Nat → Clock)
    {session label : String} {stored : Option Json} {dicts : Nat → Car} {text : Json}
    (begun : Feed.start (builtins.live clock) session label stored dicts (BoundBox.start, 0) =
      .ok (feed, text)) (messages : List Message) :
    let readings := messages.flatMap (messageReadings (builtins.live clock))
    AllInside clock (BoundBox.start, 0) readings →
      (∀ spot ∈ shownAt (builtins.live clock) (BoundBox.start, 0) readings, UnitPoint spot.2.2) ∧
        ∀ timeMs now bus, ∀ sent ∈ feed.allFrames (builtins.live clock) messages timeMs now bus,
          unitCars sent.text = true ∧ unitCars sent.stored = true := by
  intro readings inside
  refine ⟨shownAt_unit builtins clock inside, ?_⟩
  intro timeMs now bus
  obtain ⟨boxed, bounds⟩ := boxed_start begun
  rw [← bounds] at inside
  obtain ⟨last, sent⟩ := boxed.dispatchAll inside
  intro frame member
  rcases List.mem_append.mp member with own | trailing
  · exact sent frame own
  · exact last.trailing (Option.mem_toList.mp trailing)

end

/-- The third sample ends the warm-up. -/
def slowClock (updates : Nat) : Clock := ⟨0, 15 * updates⟩

/-- The same built-ins, with `float` as Python has it. -/
def doubleBuiltins : Builtins Binary64 Unit :=
  { plainBuiltins with
    float := fun value => match value with
      | .num number => .ok (.ofRat number.value)
      | _ => .error .valueError
    place := fun _ _ _ => ((), ⟨Codec.float64.zero, Codec.float64.zero⟩) }

def leaderAt (x y : Int) : Message :=
  plainMessage .position (.obj [("Position", .arr [.obj [("Entries", .obj [
    ("1", .obj [("X", .int x), ("Y", .int y)])])]])])

def warmUp : List Message := [leaderAt 0 0, leaderAt 100 100, leaderAt 50 50]

def boxedFeed : Feed (BoundBox × Nat) := { quietFeed with bounds := (BoundBox.start, 0) }

theorem boxedFeed_start :
    Feed.start (doubleBuiltins.live slowClock) "live" "Live" none (fun _ => leaderCar)
      (BoundBox.start, 0) = .ok (boxedFeed, boxedFeed.run.snapshot.dumps boxedFeed.run.dicts) := rfl

theorem published_in_unit_box_late : (boxedFeed.allFrames (doubleBuiltins.live slowClock)
    (warmUp ++ [leaderAt 70 100]) 2000 2000 .delivered).all
      (fun sent => unitCars sent.text ∧ unitCars sent.stored) = true := by
  have inside : AllInside slowClock (BoundBox.start, 0) ((warmUp ++ [leaderAt 70 100]).flatMap
      (messageReadings (doubleBuiltins.live slowClock))) := by decide +kernel
  have published := (published_in_unit_box doubleBuiltins slowClock boxedFeed_start
    (warmUp ++ [leaderAt 70 100]) inside).2 2000 2000 .delivered
  exact List.all_eq_true.mpr fun sent listed => decide_eq_true (published sent listed)

/-- The car is shown at twice the width of the box. -/
theorem published_outside : ∃ sent ∈ boxedFeed.allFrames (doubleBuiltins.live slowClock)
    (warmUp ++ [leaderAt 200 0]) 2000 2000 .delivered,
      unitCars sent.text = false ∧ unitCars sent.stored = false := by
  decide +kernel

end RaceTracker.Ingest
