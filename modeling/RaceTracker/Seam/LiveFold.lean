import RaceTracker.Ingest.RunningOrder
import RaceTracker.Seam.Clips

namespace RaceTracker.Seam

open RaceTracker.Lib RaceTracker.Model RaceTracker.Ingest

/-! The live writer's stored snapshot against the fold of its frames.

The snapshot names a driver's dict, and a new `Position.z` record is a new dict: the
snapshot sees it at the next regular publish, a trailing frame shows it at once.
-/

/-- Under every number the snapshot names the dict that the frame shows last. -/
def Holds (held : Dict String Nat) (cars : List (Nat × Car)) : Prop :=
  ∀ number, held.get? (decimal number) = lastOf number cars

theorem lastOf_mem {number : Int} {cars : List (Nat × Car)} {id : Nat}
    (last : lastOf number cars = some id) :
    ∃ car, (id, car) ∈ cars ∧ car.driverNum = number := by
  obtain ⟨⟨id, car⟩, ranked, rfl⟩ := Option.map_eq_some_iff.mp last
  obtain ⟨member, own⟩ := List.mem_filter.mp (List.mem_of_getLast? ranked)
  exact ⟨car, member, by simpa using own⟩

theorem lastOf_ne_none {number : Int} {cars : List (Nat × Car)} {entry : Nat × Car}
    (member : entry ∈ cars) (own : entry.2.driverNum = number) : lastOf number cars ≠ none := by
  intro nobody
  have empty := List.getLast?_eq_none_iff.mp (Option.map_eq_none_iff.mp nobody)
  have listed : entry ∈ cars.filter fun entry => entry.2.driverNum = number :=
    List.mem_filter.mpr ⟨member, by simpa using own⟩
  rw [empty] at listed
  cases listed

section

variable {live : LiveSnapshot Nat} {named : Dict String Nat} {cars : List (Nat × Car)}
  {dicts : Nat → Car} {rev timeMs : Int} {radio : List Json} {frame : Frame} {held folded : Snapshot}

/-- The parts that a publish leaves alone. -/
def bare (live : LiveSnapshot Nat) : LiveSnapshot Nat :=
  { live with cars := .empty, timeMs := 0, rev := 0 }

theorem SnapshotReads.bare (reads : SnapshotReads live dicts held) (other : Nat → Car) :
    SnapshotReads (bare live) other { held with cars := some .empty, timeMs := 0, rev := 0 } :=
  { reads with
    cars := ⟨.empty, rfl, rfl⟩
    timeMs := rfl
    rev := rfl }

/-- The snapshot reads, and under every number Go finds in it what the frame shows last. -/
theorem stored_reads (reads : SnapshotReads (bare live) dicts held) (holds : Holds named cars)
    (keys : ∀ entry ∈ named.entries, ∃ number, entry.1 = decimal number)
    (own : ∀ entry ∈ cars, dicts entry.1 = entry.2)
    (sent : FrameReads rev timeMs (cars.map Prod.snd) [] none radio frame) :
    ∃ after, SnapshotReads (nextSnapshot live named rev timeMs [] none radio) dicts after ∧
      (∀ number, carOf after number =
        (frame.carList.filter fun car => car.driverNum = number).getLast?) ∧
      after.messages = held.messages ∧ after.radio = held.radio ++ frame.radio ∧
      after.weather = held.weather ∧ after.timeMs = frame.timeMs ∧ after.rev = frame.rev := by
  obtain ⟨states, present, decoded⟩ := sent.cars
  have shown {entry : String × Nat} (listed : entry ∈ named.entries) :
      ∃ state, readCar (dicts entry.2) = some state ∧ entry.1 = Codec.keyText state.driverNum := by
    obtain ⟨number, key⟩ := keys entry listed
    have found := Dict.get?_of_mem listed
    rw [key, holds] at found
    obtain ⟨car, member, numbered⟩ := lastOf_mem found
    obtain ⟨state, _, read⟩ := forall₂_exists decoded (List.mem_map_of_mem member)
    refine ⟨state, by rw [own _ member]; exact read, ?_⟩
    rw [key, Codec.keyText, (readCar_fields read).1, numbered]
  have keyed : Keyed named := by
    intro entry listed
    obtain ⟨state, _, key⟩ := shown listed
    exact ⟨state.driverNum, key⟩
  have silent : frame.messages = [] := (Option.some.inj sent.messages).symm
  have clear : frame.weather = none := (Option.some.inj sent.weather).symm
  obtain ⟨after, readAfter, messages, heard, weather, clock, revision⟩ := reads.next keyed
    (fun entry listed => by
      obtain ⟨state, read, _⟩ := shown listed
      rw [read]
      rfl) (Option.some_ne_none _).symm sent
  refine ⟨after, readAfter, ?_, ?_, heard, ?_, clock, revision⟩
  · intro number
    have last := getLast?_states decoded number
    rw [readAfter.carOf keyed, Frame.carList, present, Option.getD_some, last]
    change (named.get? (Codec.keyText number)).bind _ = _
    rw [Codec.keyText, holds, lastOf]
    cases ranked : (cars.filter fun entry => entry.2.driverNum = number.toInt).getLast? with
    | none => rfl
    | some entry =>
        have member := (List.mem_filter.mp (List.mem_of_getLast? ranked)).1
        simp only [Option.map_some, Option.bind_some, own entry member]
  · rw [messages, silent]
    rfl
  · rw [weather, clear]
    rfl

/-- Then it is the fold, as far as Go knows of no car but those the frame shows. -/
theorem stored_folds (reads : SnapshotReads (bare live) dicts held) (holds : Holds named cars)
    (keys : ∀ entry ∈ named.entries, ∃ number, entry.1 = decimal number)
    (own : ∀ entry ∈ cars, dicts entry.1 = entry.2)
    (sent : FrameReads rev timeMs (cars.map Prod.snd) [] none radio frame)
    (map : folded.cars ≠ none) (older : folded.rev.toInt < rev)
    (quiet : held.messages = [] ∧ folded.messages = []) (heard : held.radio = folded.radio)
    (sky : held.weather = folded.weather)
    (drivers : ∀ number, carOf folded number ≠ none → ∃ entry ∈ cars,
      entry.2.driverNum = number.toInt) :
    ∃ after, SnapshotReads (nextSnapshot live named rev timeMs [] none radio) dicts after ∧
      apply folded frame = .ok (advance folded frame, true) ∧
      SameFold after (advance folded frame) := by
  obtain ⟨after, readAfter, shown, messages, radio', weather, clock, revision⟩ :=
    stored_reads reads holds keys own sent
  obtain ⟨states, present, decoded⟩ := sent.cars
  have silent : frame.messages = [] := (Option.some.inj sent.messages).symm
  have clear : frame.weather = none := (Option.some.inj sent.weather).symm
  have newer : ¬ frame.rev ≤ folded.rev := by
    rw [Int64.le_iff_toInt_le, sent.rev]
    omega
  refine ⟨after, readAfter, apply_advancing newer (.inl map), ?_⟩
  exact {
    cars := by
      intro number
      rw [carOf_advance map, shown]
      by_cases known : carOf folded number = none
      · rw [known, Option.or_none]
      · obtain ⟨entry, member, own'⟩ := drivers number known
        obtain ⟨state, listed, read⟩ := forall₂_exists decoded (List.mem_map_of_mem member)
        have same : state.driverNum = number :=
          Int64.toInt_inj.mp ((readCar_fields read).1.trans own')
        have some' : (frame.carList.filter fun car => car.driverNum = number) ≠ [] := by
          rw [Frame.carList, present, Option.getD_some]
          exact List.ne_nil_of_mem (List.mem_filter.mpr ⟨listed, by simpa using same⟩)
        rw [List.getLast?_eq_some_getLast some', Option.some_or]
    messages := by
      rw [messages, quiet.1, advance, carriedMessages, quiet.2, silent, ite_self]
      rfl
    radio := by
      rw [radio', heard]
      rfl
    weather := by
      rw [weather, sky]
      simp only [advance, clear, Option.none_or]
    timeMs := clock
    rev := revision }

end

section

variable {γ β : Type} (builtins : Builtins γ β)

/-- The numbers of the known drivers. -/
def numbers (run : LiveRun) : List Int := run.latestCars.keys.map builtins.safeInt

/-- The snapshot names the dicts that a trailing frame would show. -/
def Settled (run : LiveRun) : Prop := Holds run.snapshot.cars (reconcile run.known)

/-- `upTo` dicts had been made when the last regular frame was built; since then the snapshot is
settled as long as none has been made. -/
structure Drivers (feed : Feed β) (upTo : Nat) : Prop where
  follows : ∃ heard : Heard β, Follows feed heard
  numbered : ∀ entry ∈ feed.run.latestCars.entries,
    (feed.run.dicts entry.2).driverNum = builtins.safeInt entry.1
  keys : ∀ entry ∈ feed.run.snapshot.cars.entries,
    ∃ number ∈ numbers builtins feed.run, entry.1 = decimal number
  made : upTo ≤ feed.fresh
  settled : feed.fresh = upTo → Settled feed.run

/-- Go's fold, against the snapshot's parts that do not come anew with every publish. -/
structure Values (run : LiveRun) (folded : Snapshot) : Prop where
  map : folded.cars ≠ none
  rev : folded.rev.toInt ≤ run.rev
  quiet : folded.messages = []
  drivers : ∀ number, carOf folded number ≠ none → number.toInt ∈ numbers builtins run
  stored : ∃ held, (∀ dicts, SnapshotReads (bare run.snapshot) dicts held) ∧ held.messages = [] ∧
    held.radio = folded.radio ∧ held.weather = folded.weather

end

section

variable {γ β : Type} {builtins : Builtins γ β} {feed : Feed β} {run : LiveRun} {upTo : Nat}
  {folded : Snapshot}

/-- Each driver's dict knows its racing number, so ranking keeps the numbers. -/
theorem ranked_iff {cars : List (Nat × Car)}
    (own : cars.map (fun entry => entry.2.driverNum) = numbers builtins run) {number : Int} :
    number ∈ numbers builtins run ↔ ∃ entry ∈ reconcile cars, entry.2.driverNum = number := by
  rw [← own, ← (reconcile_numbers cars).mem_iff]
  exact List.mem_map

theorem restamped_numbers
    (numbered : ∀ entry ∈ run.latestCars.entries,
      (run.dicts entry.2).driverNum = builtins.safeInt entry.1) :
    run.restamped.map (fun entry => entry.2.driverNum) = numbers builtins run := by
  rw [LiveRun.restamped, numbers, Dict.keys, List.map_map, List.map_map]
  exact List.map_congr_left numbered

theorem known_numbers
    (numbered : ∀ entry ∈ run.latestCars.entries,
      (run.dicts entry.2).driverNum = builtins.safeInt entry.1) :
    run.known.map (fun entry => entry.2.driverNum) = numbers builtins run := by
  rw [LiveRun.known, numbers, Dict.keys, List.map_map, List.map_map]
  exact List.map_congr_left numbered

theorem numbers_record (feed : Feed β) (entry : String × Car) :
    numbers builtins feed.run ⊆ numbers builtins (feed.record entry).run := by
  apply List.map_subset _
  intro key known
  exact (Dict.mem_keys_set ..).mpr (.inr known)

theorem Drivers.record (drivers : Drivers builtins feed upTo) {entry : String × Car}
    (numbered : entry.2.driverNum = builtins.safeInt entry.1) :
    Drivers builtins (feed.record entry) upTo := by
  obtain ⟨heard, follows⟩ := drivers.follows
  refine ⟨⟨_, follows.record entry⟩, ?_, ?_, drivers.made.trans (Nat.le_succ _), ?_⟩
  · intro listed member
    rcases Dict.mem_putEntry member with rfl | old
    · rw [feed.record_fresh]
      exact numbered
    · rw [feed.record_other entry (follows.below listed old).ne]
      exact drivers.numbered listed old
  · intro listed member
    obtain ⟨number, known, key⟩ := drivers.keys listed member
    exact ⟨number, numbers_record feed entry known, key⟩
  · intro same
    exact absurd same (Nat.lt_succ_of_le drivers.made).ne'

theorem Drivers.records (drivers : Drivers builtins feed upTo) {entries : List (String × Car)}
    (numbered : ∀ entry ∈ entries, entry.2.driverNum = builtins.safeInt entry.1) :
    Drivers builtins (entries.foldl Feed.record feed) upTo := by
  induction entries generalizing feed with
  | nil => exact drivers
  | cons entry rest ih =>
      exact ih (drivers.record (numbered entry (List.mem_cons_self ..)))
        fun later member => numbered later (List.mem_cons_of_mem _ member)

/-- The snapshot's car entries after a regular publish. -/
def namedCars (run : LiveRun) : Dict String Nat :=
  (reconcile run.restamped).foldl (fun named entry => named.set (decimal entry.2.driverNum) entry.1)
    run.snapshot.cars

theorem publishFrame_eq (run : LiveRun) (timeMs now : Int) (radio : List Json) :
    run.publishFrame timeMs now radio =
      let snapshot := nextSnapshot run.snapshot (namedCars run) (run.rev + 1) timeMs [] none radio
      let dicts := writeDicts run.dicts (reconcile run.restamped)
      ({ run with snapshot, rev := run.rev + 1, dicts }, snapshot.dumps dicts,
        frameText run.session (run.rev + 1) now timeMs [] none radio
          (((reconcile run.restamped).map Prod.snd).map Car.dumps)) := by
  rw [List.map_map]
  rfl

theorem get?_namedCars (run : LiveRun) (number : Int) : (namedCars run).get? (decimal number) =
    (lastOf number (reconcile run.restamped)).or (run.snapshot.cars.get? (decimal number)) := by
  rw [namedCars, Dict.get?_foldl_set, lastOf]
  congr 3
  apply List.filter_congr
  intro entry _
  rw [decide_eq_decide]
  exact decimal_injective.eq_iff

theorem Drivers.named (drivers : Drivers builtins feed upTo) :
    ∀ entry ∈ (namedCars feed.run).entries,
      ∃ number ∈ numbers builtins feed.run, entry.1 = decimal number := by
  intro entry member
  have found := Dict.get?_of_mem member
  rw [namedCars, Dict.get?_foldl_set] at found
  rcases Option.or_eq_some_iff.mp found with last | ⟨_, before⟩
  · obtain ⟨ranked, last, _⟩ := Option.map_eq_some_iff.mp last
    obtain ⟨listed, own⟩ := List.mem_filter.mp (List.mem_of_getLast? last)
    exact ⟨ranked.2.driverNum, (ranked_iff (restamped_numbers drivers.numbered)).mpr ⟨ranked, listed, rfl⟩,
      (of_decide_eq_true own).symm⟩
  · exact drivers.keys entry (Dict.mem_of_get? before)

/-- A regular publish names, under every number, the dict that its frame shows last. -/
theorem Drivers.holds (drivers : Drivers builtins feed upTo) :
    Holds (namedCars feed.run) (reconcile feed.run.restamped) := by
  intro number
  rw [get?_namedCars]
  cases shown : lastOf number (reconcile feed.run.restamped) with
  | some id => rw [Option.some_or]
  | none =>
      cases before : feed.run.snapshot.cars.get? (decimal number) with
      | none => rfl
      | some id =>
          obtain ⟨known, listed, key⟩ := drivers.keys _ (Dict.mem_of_get? before)
          obtain rfl : number = known := decimal_injective key
          obtain ⟨entry, ranked, own⟩ := (ranked_iff (restamped_numbers drivers.numbered)).mp listed
          exact absurd shown (lastOf_ne_none ranked own)

theorem restamped_nodup (apart : run.Apart) : (run.restamped.map Prod.fst).Nodup := by
  rw [LiveRun.restamped_tags]
  exact apart

theorem known_nodup (apart : run.Apart) : (run.known.map Prod.fst).Nodup := by
  rw [LiveRun.known_tags]
  exact apart

theorem writeDicts_own {dicts : Nat → Car} {cars : List (Nat × Car)}
    (distinct : (cars.map Prod.fst).Nodup) :
    ∀ entry ∈ reconcile cars, writeDicts dicts (reconcile cars) entry.1 = entry.2 :=
  fun _ member => writeDicts_mem ((reconcile_tags cars).nodup_iff.mpr distinct) member

theorem Drivers.publish (drivers : Drivers builtins feed upTo) (message : Message) :
    Drivers builtins (feed.publish message).1 feed.fresh := by
  obtain ⟨heard, follows⟩ := drivers.follows
  have holds := drivers.holds
  have named := drivers.named
  refine ⟨⟨heard, follows.publish message⟩, ?_, ?_, Nat.le_refl _, ?_⟩
  · intro entry member
    have kept := unranked_writeDicts (restamped_nodup follows.apart)
      (fun _ => LiveRun.unranked_restamped) entry.2
    exact (congrArg Car.driverNum kept).trans (drivers.numbered entry member)
  · exact named
  · intro _
    have order := LiveRun.reconcile_published follows.apart message.timeMs message.now
      (feed.desk.pendingRadio.map RadioRef.dumps)
    rw [← order] at holds
    exact holds

theorem Values.mono {after : LiveRun} (values : Values builtins run folded)
    (grows : numbers builtins run ⊆ numbers builtins after)
    (same : bare after.snapshot = bare run.snapshot) (later : run.rev ≤ after.rev) :
    Values builtins after folded where
  map := values.map
  rev := values.rev.trans later
  quiet := values.quiet
  drivers number known := grows (values.drivers number known)
  stored := same ▸ values.stored

theorem Values.shown {cars : List (Nat × Car)} {named : Dict String Nat} {dicts : Nat → Car}
    {timeMs now : Int} {session : String} {radio : List Json} {frame : Frame} {after : LiveRun}
    (values : Values builtins run folded) (holds : Holds named cars)
    (keys : ∀ entry ∈ named.entries, ∃ number ∈ numbers builtins run, entry.1 = decimal number)
    (own : ∀ entry ∈ cars, dicts entry.1 = entry.2)
    (ranked : ∀ number ∈ numbers builtins run, ∃ entry ∈ cars, entry.2.driverNum = number)
    (read : Frame.unmarshal (frameText session (run.rev + 1) now timeMs [] none radio
      ((cars.map Prod.snd).map Car.dumps)) = some frame)
    (rev : after.rev = run.rev + 1) (latest : after.latestCars = run.latestCars)
    (snapshot : after.snapshot = nextSnapshot run.snapshot named (run.rev + 1) timeMs [] none radio) :
    ∃ held, Snapshot.unmarshal (after.snapshot.dumps dicts) = some held ∧
      apply folded frame = .ok (advance folded frame, true) ∧ SameFold held (advance folded frame) ∧
        Values builtins after (advance folded frame) := by
  obtain ⟨held, reads, silent, heard, sky⟩ := values.stored
  have sent := frameReads read
  obtain ⟨stored, readStored, applied, same⟩ := stored_folds (reads dicts) holds
    (fun entry member => (keys entry member).imp fun _ known => known.2) own sent values.map
    (by have := values.rev; omega) ⟨silent, values.quiet⟩ heard sky
    fun number known => ranked _ (values.drivers number known)
  have quiet : (advance folded frame).messages = [] := by
    have nothing : frame.messages = [] := (Option.some.inj sent.messages).symm
    rw [advance, carriedMessages, values.quiet, nothing, ite_self]
    rfl
  refine ⟨stored, by rw [snapshot]; exact unmarshal_dumps_iff.mpr readStored, applied, same, ?_⟩
  exact {
    map := by simpa [advance] using values.map
    rev := by
      rw [rev]
      exact sent.rev.le
    quiet := quiet
    drivers := by
      intro number known
      rw [numbers, latest]
      by_cases before : carOf folded number = none
      · obtain ⟨states, present, decoded⟩ := sent.cars
        rw [carOf_advance values.map, before, Option.or_none, Frame.carList, present,
          Option.getD_some, getLast?_states decoded] at known
        have shown : lastOf number.toInt cars ≠ none := fun nobody =>
          known (by rw [Option.map_eq_none_iff.mp nobody, Option.bind_none])
        obtain ⟨id, last⟩ := Option.ne_none_iff_exists'.mp shown
        have found := (holds number.toInt).trans last
        obtain ⟨listed, member, key⟩ := keys _ (Dict.mem_of_get? found)
        rwa [decimal_injective key]
      · exact values.drivers number before
    stored := by
      rw [snapshot]
      exact ⟨_, fun other => readStored.bare other, same.messages.trans quiet, same.radio, same.weather⟩ }

theorem positionRecord_cases (reports : Reports) (state : β × List (String × Car))
    (entry : String × Json) :
    (positionRecord builtins reports state entry).1 = state ∨
      ∃ bounds status p, (positionRecord builtins reports state entry).1 =
        (bounds, state.2 ++ [(entry.1, recordCar builtins reports entry.1 status p)]) := by
  rw [positionRecord]
  split
  · split
    · exact .inl rfl
    · exact .inl rfl
    · split
      · exact .inl rfl
      · exact .inl rfl
      · exact .inr ⟨_, _, _, rfl⟩
  · exact .inl rfl

/-- Every record makes a dict that knows its own racing number. -/
theorem applyPositionSamples_numbered (reports : Reports) (bounds : β) (samples : Json) :
    ∀ entry ∈ (applyPositionSamples builtins reports bounds samples).1.2,
      entry.2.driverNum = builtins.safeInt entry.1 := by
  let Numbered (state : β × List (String × Car)) : Prop :=
    ∀ entry ∈ state.2, entry.2.driverNum = builtins.safeInt entry.1
  have record (state : β × List (String × Car)) (entry : String × Json) (numbered : Numbered state) :
      Numbered (positionRecord builtins reports state entry).1 := by
    rcases positionRecord_cases reports state entry with passed | ⟨bounds, status, p, made⟩
    · rw [passed]
      exact numbered
    · rw [made]
      intro listed member
      rcases List.mem_append.mp member with old | new
      · exact numbered listed old
      · rw [List.mem_singleton.mp new]
        rfl
  have sample (state : β × List (String × Car)) (item : Json) (numbered : Numbered state) :
      Numbered (positionSample builtins reports state item).1 := by
    unfold positionSample
    split
    · split
      · exact foldUntil_invariant (fun state entry _ => record state entry) numbered
      · exact numbered
    · exact numbered
  rw [applyPositionSamples]
  split
  · exact fun _ member => absurd member List.not_mem_nil
  · exact foldUntil_invariant (P := Numbered) (fun state item _ => sample state item)
      fun _ member => absurd member List.not_mem_nil

theorem records_grow (builtins : Builtins γ β) (feed : Feed β) (entries : List (String × Car)) :
    numbers builtins feed.run ⊆ numbers builtins (entries.foldl Feed.record feed).run := by
  induction entries generalizing feed with
  | nil => exact List.Subset.refl _
  | cons entry rest ih => exact List.Subset.trans (numbers_record feed entry) (ih (feed.record entry))

/-- What a message does before any publish: it leaves the snapshot and the revision alone. -/
structure Told (builtins : Builtins γ β) (feed told : Feed β) (upTo : Nat) : Prop where
  drivers : Drivers builtins told upTo
  grows : numbers builtins feed.run ⊆ numbers builtins told.run
  snapshot : told.run.snapshot = feed.run.snapshot
  rev : told.run.rev = feed.run.rev

theorem Drivers.position (drivers : Drivers builtins feed upTo) (message : Message) :
    ∃ told, Told builtins feed told upTo ∧
      (feed.position builtins message = (told, none) ∨
        feed.position builtins message = ((told.publish message).1, some (told.publish message).2)) := by
  obtain ⟨heard, follows⟩ := drivers.follows
  let folded := (applyPositionSamples builtins feed.reports feed.bounds
    (builtins.decodePositionPayload message.payload)).1
  have begun : Drivers builtins { feed with bounds := folded.1 } upTo :=
    ⟨⟨{ heard with bounds := folded.1 },
      ⟨follows.reports, rfl, follows.known, follows.apart, follows.below⟩⟩,
      drivers.numbered, drivers.keys, drivers.made, drivers.settled⟩
  have told := begun.records (applyPositionSamples_numbered feed.reports feed.bounds
    (builtins.decodePositionPayload message.payload))
  have grows := records_grow builtins { feed with bounds := folded.1 } folded.2
  have snapshot := Feed.records_kept (fun feed => feed.run.snapshot) (fun _ _ => rfl)
    { feed with bounds := folded.1 } folded.2
  have rev := Feed.records_kept (fun feed => feed.run.rev) (fun _ _ => rfl)
    { feed with bounds := folded.1 } folded.2
  refine ⟨_, ⟨told, grows, snapshot, rev⟩, ?_⟩
  rw [Feed.position]
  simp only
  split
  · exact .inl rfl
  · exact .inr rfl

/-- Only a `Position.z` message makes dicts or publishes. -/
theorem dispatch_quiet (builtins : Builtins γ β) (feed : Feed β) {message : Message}
    (other : message.topic ≠ .position) :
    ∃ told, feed.dispatch builtins message = (told, none) ∧ told.run.latestCars = feed.run.latestCars ∧
      told.run.dicts = feed.run.dicts ∧ told.run.snapshot = feed.run.snapshot ∧
        told.run.rev = feed.run.rev ∧ told.fresh = feed.fresh := by
  obtain ⟨topic, payload, due, timeMs, now, bus⟩ := message
  rw [Feed.dispatch]
  simp only
  generalize Feed.decodePayload builtins payload = decoded
  cases topic with
  | position => exact absurd rfl other
  | driverList => cases decoded <;> exact ⟨_, rfl, rfl, rfl, rfl, rfl, rfl⟩
  | timingData => cases decoded <;> exact ⟨_, rfl, rfl, rfl, rfl, rfl, rfl⟩
  | timingAppData => cases decoded <;> exact ⟨_, rfl, rfl, rfl, rfl, rfl, rfl⟩
  | _ => exact ⟨_, rfl, rfl, rfl, rfl, rfl, rfl⟩

theorem Drivers.dispatch (drivers : Drivers builtins feed upTo) (message : Message) :
    ∃ told message', Told builtins feed told upTo ∧ message'.bus = message.bus ∧
      (feed.dispatch builtins message = (told, none) ∨ feed.dispatch builtins message =
        ((told.publish message').1, some (told.publish message').2)) := by
  by_cases position : message.topic = .position
  · obtain ⟨topic, payload, due, timeMs, now, bus⟩ := message
    cases position
    obtain ⟨told, same, published⟩ := drivers.position
      ⟨.position, Feed.decodePayload builtins payload, due, timeMs, now, bus⟩
    exact ⟨told, _, same, rfl, published⟩
  · obtain ⟨told, same, latest, dicts, snapshot, rev, fresh⟩ :=
      dispatch_quiet builtins feed position
    obtain ⟨heard, follows⟩ := drivers.follows
    have after := follows.dispatch builtins message
    rw [same] at after
    have known : told.run.known = feed.run.known := by
      rw [LiveRun.known, LiveRun.known, latest, dicts]
    have numbers : numbers builtins told.run = numbers builtins feed.run := by
      rw [Seam.numbers, Seam.numbers, latest]
    refine ⟨told, message, ⟨⟨⟨_, after⟩, ?_, ?_, fresh ▸ drivers.made, ?_⟩, ?_, snapshot, rev⟩, rfl,
      .inl same⟩
    · rw [latest, dicts]
      exact drivers.numbered
    · rw [snapshot, numbers]
      exact drivers.keys
    · rw [fresh, Settled, snapshot, known]
      exact drivers.settled
    · rw [numbers]
      exact List.Subset.refl _

end

/-- The snapshot text and the frame text of every frame that went out. -/
def goneOut (frames : List Publish) : List (Json × Json) :=
  (frames.filter fun frame => frame.bus = .delivered).map fun frame => (frame.stored, frame.text)

/-- How many dicts had been made when the last regular frame was built. -/
def dictsShown {γ β : Type} (builtins : Builtins γ β) (feed : Feed β) (upTo : Nat) :
    List Message → Nat
  | [] => upTo
  | message :: rest =>
      let (next, sent) := feed.dispatch builtins message
      dictsShown builtins next (if sent.isSome then next.fresh else upTo) rest

theorem goneOut_append (first second : List Publish) :
    goneOut (first ++ second) = goneOut first ++ goneOut second := by
  simp [goneOut]

section

variable {γ β : Type} {builtins : Builtins γ β} {feed : Feed β} {upTo : Nat} {folded : Snapshot}

theorem publish_text (feed : Feed β) (message : Message) : (feed.publish message).2.text =
    frameText feed.run.session (feed.run.rev + 1) message.now message.timeMs [] none
      (feed.desk.pendingRadio.map RadioRef.dumps)
      (((reconcile feed.run.restamped).map Prod.snd).map Car.dumps) :=
  congrArg (fun published => published.2.2) (publishFrame_eq feed.run message.timeMs message.now
    (feed.desk.pendingRadio.map RadioRef.dumps))

theorem publish_snapshot (feed : Feed β) (message : Message) : (feed.publish message).1.run.snapshot =
    nextSnapshot feed.run.snapshot (namedCars feed.run) (feed.run.rev + 1) message.timeMs [] none
      (feed.desk.pendingRadio.map RadioRef.dumps) := rfl

/-- A frame that goes out was stored as the fold; one that fails takes no refs with it. -/
theorem publish_folds (drivers : Drivers builtins feed upTo) (values : Values builtins feed.run folded)
    {message : Message} (whole : message.bus = .delivered ∨ feed.desk.pendingRadio = [])
    (decodes : message.bus = .delivered → (Frame.unmarshal (feed.publish message).2.text).isSome) :
    ∃ after, Values builtins (feed.publish message).1.run after ∧
      ∀ tail, FoldsTo after tail → FoldsTo folded (goneOut [(feed.publish message).2] ++ tail) := by
  by_cases delivered : message.bus = .delivered
  · obtain ⟨heard, follows⟩ := drivers.follows
    obtain ⟨frame, read⟩ := Option.isSome_iff_exists.mp (decodes delivered)
    have shown := publish_text feed message ▸ read
    obtain ⟨held, stored, applied, same, next⟩ := values.shown drivers.holds drivers.named
      (writeDicts_own (restamped_nodup follows.apart))
      (fun number => (ranked_iff (restamped_numbers drivers.numbered)).mp) shown
      (rfl : (feed.publish message).1.run.rev = feed.run.rev + 1) rfl (publish_snapshot feed message)
    refine ⟨_, next, ?_⟩
    intro tail folds
    have out : goneOut [(feed.publish message).2] =
        [((feed.publish message).2.stored, (feed.publish message).2.text)] := by
      simp [goneOut, Feed.publish, delivered]
    rw [out]
    exact ⟨held, frame, _, true, stored, read, applied, same, folds⟩
  · refine ⟨folded, values.mono (List.Subset.refl _) ?_ (Int.le_add_one (Int.le_refl _)), ?_⟩
    · have silent := whole.resolve_left delivered
      rw [publish_snapshot, silent]
      simp [bare, nextSnapshot]
    · intro tail folds
      have lost : goneOut [(feed.publish message).2] = [] := by
        simp [goneOut, Feed.publish, delivered]
      rw [lost]
      exact folds

theorem dispatch_folds (drivers : Drivers builtins feed upTo)
    (values : Values builtins feed.run folded) {message : Message}
    (whole : ∀ frame ∈ (feed.dispatch builtins message).2,
      frame.bus = .delivered ∨ frame.radio = [])
    (decodes : ∀ frame ∈ (feed.dispatch builtins message).2,
      frame.bus = .delivered → (Frame.unmarshal frame.text).isSome) :
    let (next, sent) := feed.dispatch builtins message
    ∃ after, Drivers builtins next (if sent.isSome then next.fresh else upTo) ∧
      Values builtins next.run after ∧
        ∀ tail, FoldsTo after tail → FoldsTo folded (goneOut sent.toList ++ tail) := by
  obtain ⟨told, message', same, _, quiet | published⟩ := drivers.dispatch message
  · rw [quiet]
    exact ⟨folded, same.drivers,
      values.mono same.grows (congrArg bare same.snapshot) same.rev.ge, fun _ folds => folds⟩
  · rw [published] at whole decodes ⊢
    have carried := values.mono same.grows (congrArg bare same.snapshot) same.rev.ge
    obtain ⟨after, next, folds⟩ := publish_folds same.drivers carried (whole _ rfl) (decodes _ rfl)
    exact ⟨after, same.drivers.publish message', next, folds⟩

theorem dispatchAll_folds (drivers : Drivers builtins feed upTo)
    (values : Values builtins feed.run folded) {messages : List Message}
    (whole : ∀ frame ∈ (feed.dispatchAll builtins messages).2,
      frame.bus = .delivered ∨ frame.radio = [])
    (decodes : ∀ frame ∈ (feed.dispatchAll builtins messages).2,
      frame.bus = .delivered → (Frame.unmarshal frame.text).isSome) :
    let (last, frames) := feed.dispatchAll builtins messages
    ∃ after, Drivers builtins last (dictsShown builtins feed upTo messages) ∧
      Values builtins last.run after ∧
        ∀ tail, FoldsTo after tail → FoldsTo folded (goneOut frames ++ tail) := by
  induction messages generalizing feed upTo folded with
  | nil => exact ⟨folded, drivers, values, fun _ folds => folds⟩
  | cons message rest ih =>
      have first := dispatch_folds drivers values
        (fun frame sent => whole frame (List.mem_append_left _ (Option.mem_toList.mpr sent)))
        (fun frame sent => decodes frame (List.mem_append_left _ (Option.mem_toList.mpr sent)))
      obtain ⟨after, drivers', values', folds⟩ := first
      obtain ⟨last, driversLast, valuesLast, folds'⟩ := ih drivers' values'
        (fun frame sent => whole frame (List.mem_append_right _ sent))
        (fun frame sent => decodes frame (List.mem_append_right _ sent))
      refine ⟨last, driversLast, valuesLast, ?_⟩
      intro tail tailFolds
      have together := folds _ (folds' tail tailFolds)
      rw [← List.append_assoc, ← goneOut_append] at together
      exact together

theorem trailing_text (feed : Feed β) (timeMs now : Int) (radio : List Json) :
    let clock := if feed.run.snapshot.timeMs < timeMs then timeMs else feed.run.snapshot.timeMs
    (feed.run.publishTrailingRadioFrame timeMs now radio).2.2 =
      frameText feed.run.session (feed.run.rev + 1) now clock [] none radio
        (((reconcile feed.run.known).map Prod.snd).map Car.dumps) := by
  intro clock
  rw [List.map_map]
  rfl

/-- A trailing frame is stored as the fold if the snapshot names every dict that it shows. -/
theorem flush_folds (drivers : Drivers builtins feed upTo) (values : Values builtins feed.run folded)
    {timeMs now : Int} {bus : Bus}
    (settled : bus = .delivered → feed.desk.pendingRadio ≠ [] → feed.fresh = upTo)
    (decodes : ∀ frame ∈ (feed.shutdownFlushRadio timeMs now bus).2,
      frame.bus = .delivered → (Frame.unmarshal frame.text).isSome) :
    FoldsTo folded (goneOut (feed.shutdownFlushRadio timeMs now bus).2.toList) := by
  unfold Feed.shutdownFlushRadio at decodes ⊢
  simp only at decodes ⊢
  by_cases silent : feed.desk.pendingRadio = []
  · rw [if_pos silent]
    trivial
  by_cases delivered : bus = .delivered
  · rw [if_neg silent] at decodes ⊢
    obtain ⟨heard, follows⟩ := drivers.follows
    obtain ⟨frame, read⟩ := Option.isSome_iff_exists.mp (decodes _ rfl delivered)
    have shown := trailing_text feed timeMs now (feed.desk.pendingRadio.map RadioRef.dumps) ▸ read
    let trailing := feed.run.publishTrailingRadioFrame timeMs now
      (feed.desk.pendingRadio.map RadioRef.dumps)
    obtain ⟨held, stored, applied, same, _⟩ := values.shown
      (drivers.settled (settled delivered silent)) drivers.keys
      (writeDicts_own (known_nodup follows.apart))
      (fun number => (ranked_iff (known_numbers drivers.numbered)).mp) shown
      (rfl : trailing.1.rev = feed.run.rev + 1) rfl rfl
    have out : goneOut (some (⟨trailing.2.1, trailing.2.2, feed.desk.pendingRadio, bus⟩ :
        Publish)).toList = [(trailing.2.1, trailing.2.2)] := by
      simp [goneOut, delivered]
    exact out ▸ ⟨held, frame, _, true, stored, read, applied, same, trivial⟩
  · rw [if_neg silent]
    simp [goneOut, delivered, FoldsTo]

theorem values_start {session label : String} {previous : Option Json} {dicts : Nat → Car} {bounds : β}
    {text : Json} (begun : Feed.start builtins session label previous dicts bounds = .ok (feed, text))
    (read : Snapshot.unmarshal text = some folded) :
    Drivers builtins feed 0 ∧ Values builtins feed.run folded := by
  have follows := follows_start begun
  obtain ⟨rev, rfl, rfl⟩ := Feed.start_eq begun
  have reads := unmarshal_dumps_iff.mp read
  obtain ⟨dict, present, empty⟩ := reads.cars
  cases empty
  constructor
  · refine ⟨⟨_, follows⟩, nofun, nofun, Nat.le_refl 0, ?_⟩
    intro _ number
    change none = lastOf number (reconcile [])
    simp [lastOf, reconcile]
  · exact {
      map := by rw [present]; exact Option.some_ne_none _
      rev := reads.rev.le
      quiet := (Option.some.inj reads.messages).symm
      drivers := by
        intro number known
        exact absurd (by rw [carOf, present]; rfl) known
      stored := ⟨_, fun other => reads.bare other, (Option.some.inj reads.messages).symm, rfl, rfl⟩ }

/-- Every frame that goes out was stored as the fold of the frames so far, if every publish with
refs goes out and a trailing frame shows no dict that is newer than the last regular frame. -/
theorem live_snapshot_folds {session label : String} {previous : Option Json} {dicts : Nat → Car}
    {bounds : β} {text : Json}
    (begun : Feed.start builtins session label previous dicts bounds = .ok (feed, text))
    (read : Snapshot.unmarshal text = some folded) (messages : List Message) (timeMs now : Int)
    (bus : Bus)
    (decodes : ∀ frame ∈ feed.allFrames builtins messages timeMs now bus,
      frame.bus = .delivered → (Frame.unmarshal frame.text).isSome)
    (whole : ∀ frame ∈ (feed.dispatchAll builtins messages).2,
      frame.bus = .delivered ∨ frame.radio = [])
    (settled : bus = .delivered → (feed.dispatchAll builtins messages).1.desk.pendingRadio ≠ [] →
      (feed.dispatchAll builtins messages).1.fresh = dictsShown builtins feed 0 messages) :
    FoldsTo folded (goneOut (feed.allFrames builtins messages timeMs now bus)) := by
  obtain ⟨drivers, values⟩ := values_start begun read
  obtain ⟨after, last, kept, folds⟩ := dispatchAll_folds drivers values whole
    fun frame sent => decodes frame (List.mem_append_left _ sent)
  have flushed := flush_folds last kept settled
    fun frame sent => decodes frame (List.mem_append_right _ (Option.mem_toList.mpr sent))
  rw [Feed.allFrames, goneOut_append]
  exact folds _ flushed

end

def oneCar (status : String) : Json := .obj [("Position", .arr [.obj [("Entries", .obj [
  ("1", .obj [("X", .int 0), ("Y", .int 0), ("Status", .str status)])])]])]

/-- Radio is pending when the stream ends, and nothing else has come since the last frame. -/
def radioLast : List Message := [
  plainMessage .sessionInfo (.obj [("Path", .str "2024/Monza/")]),
  plainMessage .position (oneCar "OnTrack"),
  plainMessage .teamRadio oneCapture]

theorem live_snapshot_folds_radioLast : ∃ folded,
    Snapshot.unmarshal (quietFeed.run.snapshot.dumps quietFeed.run.dicts) = some folded ∧
      FoldsTo folded (goneOut (quietFeed.allFrames plainBuiltins radioLast 2000 2000 .delivered)) := by
  have reads : (Snapshot.unmarshal
      (quietFeed.run.snapshot.dumps quietFeed.run.dicts)).isSome := by decide +kernel
  obtain ⟨folded, read⟩ := Option.isSome_iff_exists.mp reads
  refine ⟨folded, read, live_snapshot_folds quietFeed_start read radioLast 2000 2000 .delivered ?_ ?_ ?_⟩
  · decide +kernel
  · decide +kernel
  · exact fun _ _ => by decide +kernel

/-- The fold's car and the stored one, compared at every publication. -/
def carsAgree (number : Int64) : Snapshot → List (Json × Json) → Bool
  | _, [] => true
  | folded, (stored, text) :: rest =>
      match Snapshot.unmarshal stored, Frame.unmarshal text with
      | some held, some frame => match apply folded frame with
          | .ok (after, _) => carOf held number = carOf after number && carsAgree number after rest
          | .error _ => false
      | _, _ => false

theorem carsAgree_of_foldsTo {number : Int64} {folded : Snapshot} {published : List (Json × Json)}
    (folds : FoldsTo folded published) : carsAgree number folded published = true := by
  induction published generalizing folded with
  | nil => rfl
  | cons first rest ih =>
      obtain ⟨held, frame, after, applied, stored, read, result, same, later⟩ := folds
      simp only [carsAgree, stored, read, result, same.cars, ih later, decide_true, Bool.and_self]

/-- The last `Position.z` record comes too soon for a regular frame. -/
def radioAfterRecord : List Message := [
  plainMessage .sessionInfo (.obj [("Path", .str "2024/Monza/")]),
  plainMessage .position (oneCar "OnTrack"),
  { plainMessage .position (oneCar "OffTrack") with due := false },
  plainMessage .teamRadio oneCapture]

/-- The trailing frame shows the car out, and the snapshot stored with it does not. -/
theorem trailing_cars_are_not_stored : ∃ folded,
    Snapshot.unmarshal (quietFeed.run.snapshot.dumps quietFeed.run.dicts) = some folded ∧
      ¬ FoldsTo folded
        (goneOut (quietFeed.allFrames plainBuiltins radioAfterRecord 2000 2000 .delivered)) := by
  have differs : (Snapshot.unmarshal (quietFeed.run.snapshot.dumps quietFeed.run.dicts)).any
      fun folded => !carsAgree 1 folded
        (goneOut (quietFeed.allFrames plainBuiltins radioAfterRecord 2000 2000 .delivered)) := by
    decide +kernel
  obtain ⟨folded, read, disagrees⟩ := (Option.any_eq_true _ _).mp differs
  refine ⟨folded, read, ?_⟩
  intro folds
  rw [carsAgree_of_foldsTo folds] at disagrees
  cases disagrees

end RaceTracker.Seam
