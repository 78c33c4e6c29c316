import RaceTracker.Seam.Stored

namespace RaceTracker.Seam

open RaceTracker.Lib RaceTracker.Model RaceTracker.Ingest

/-! The Python clip writer's stored snapshot against the fold of its frames.

Both keep the same fields, but the Python writer has no rule for a clock that runs
backwards, and folds a frame's cars in the order of the clip, not in running order.
-/

def tagged (cars : List Car) : List (Nat × Car) := cars.mapIdx fun index car => (index, car)

theorem tagged_distinct (cars : List Car) : ((tagged cars).map Prod.fst).Nodup := by
  have tags : (tagged cars).map Prod.fst = List.range cars.length := by
    apply List.ext_getElem?
    intro index
    simp only [tagged, List.getElem?_map, List.getElem?_mapIdx, Option.map_map]
    by_cases within : index < cars.length
    · simp [within]
    · simp [within]
  rw [tags]
  exact List.nodup_range

theorem written_of_mem {cars : List (Nat × Car)} (distinct : (cars.map Prod.fst).Nodup) {tag : Nat}
    {car : Car} (member : (tag, car) ∈ cars) (fallback : Car) : written cars tag fallback = car := by
  rw [written]
  cases found : cars.find? fun entry => entry.1 = tag with
  | none => exact absurd (List.find?_eq_none.mp found _ member) (by simp)
  | some entry =>
      have own : entry.1 = tag := by simpa using List.find?_some found
      cases eq_of_tag distinct (List.mem_of_find?_eq_some found) member own
      rfl

/-- The car of a number that is written last. -/
def lastOf (number : Int) (cars : List (Nat × Car)) : Option Nat :=
  ((cars.filter fun entry => entry.2.driverNum = number).getLast?).map Prod.fst

/-- Of cars that share a number the one listed last also ranks last. -/
def LastRanksLast (cars : List Car) : Prop :=
  ∀ number, lastOf number (tagged cars) = lastOf number (reconcile (tagged cars))

theorem readCar_fields {car : Car} {state : CarState} (decoded : readCar car = some state) :
    state.driverNum.toInt = car.driverNum ∧ ∀ pos, car.pos = some pos → state.pos.toInt = pos := by
  obtain ⟨values, read, rfl⟩ := Option.map_eq_some_iff.mp decoded
  simp only [CarState.record, Record.read_always] at read
  obtain ⟨driverNumRead, _, _, posRead, _⟩ := read
  have entry (name : String) (json : Option Json) (old : Int64) (member : (name, json) ∈ car.entries) :
      json.elim (some old) (Codec.int64.unmarshal old) =
        Codec.int64.field name (Codec.members car.entries) old :=
    (Codec.field_entry _ (entries_distinct car) member old).symm
  refine ⟨unmarshal_int_iff.mp ((entry "driverNum" (some (.int car.driverNum)) 0
    (by simp [Car.entries])).trans driverNumRead), ?_⟩
  intro pos present
  refine unmarshal_int_iff.mp ((entry "pos" (some (.int pos)) 0 ?_).trans posRead)
  simp [Car.entries, present]

theorem forall₂_getLast? {α β : Type} {f : α → Option β} {xs : List α} {ys : List β}
    (each : List.Forall₂ (fun x y => f x = some y) xs ys) : xs.getLast?.bind f = ys.getLast? := by
  induction each with
  | nil => rfl
  | @cons x y xs ys first rest ih =>
      rw [List.getLast?_cons, List.getLast?_cons, Option.bind_some, ← ih]
      cases last : xs.getLast? with
      | none => simpa [last] using first
      | some end' =>
          cases read : f end' with
          | some value => simp [read]
          | none =>
              rw [last, Option.bind_some, read] at ih
              have empty : ys = [] := List.getLast?_eq_none_iff.mp ih.symm
              rw [empty] at rest
              cases rest
              cases last

theorem written_raw {cars : List (Nat × Car)} (distinct : (cars.map Prod.fst).Nodup)
    {entry : Nat × Car} (member : entry ∈ cars) :
    (entry.1, written (reconcile cars) entry.1 entry.2) ∈ reconcile cars ∧
      (written (reconcile cars) entry.1 entry.2).driverNum = entry.2.driverNum := by
  have ranked : ((reconcile cars).map Prod.fst).Nodup :=
    (reconcile_tags cars).nodup_iff.mpr distinct
  have listed : entry.1 ∈ (reconcile cars).map Prod.fst :=
    (reconcile_tags cars).mem_iff.mpr (List.mem_map_of_mem member)
  obtain ⟨⟨tag, car⟩, present, same⟩ := List.mem_map.mp listed
  obtain rfl : tag = entry.1 := same
  rw [written_of_mem ranked present]
  obtain ⟨raw, own, pos, rfl⟩ := raw_of_mem_reconcile present
  have one := eq_of_tag distinct own member rfl
  exact ⟨present, by rw [← one]⟩

section

variable {cars : List Car} {states : List CarState}

/-- The car that ends up in the snapshot under a number: the last one in the order of the clip. -/
theorem get?_folded (cars : List Car) (old : Dict String Car) (number : Int) :
    ((tagged cars).foldl (fun folded entry =>
        let car := written (reconcile (tagged cars)) entry.1 entry.2
        folded.set (decimal car.driverNum) car) old).get? (decimal number) =
      ((((tagged cars).filter fun entry => entry.2.driverNum = number).getLast?).map fun entry =>
        written (reconcile (tagged cars)) entry.1 entry.2).or (old.get? (decimal number)) := by
  rw [Dict.get?_foldl_set]
  congr 3
  apply List.filter_congr
  intro entry member
  rw [(written_raw (tagged_distinct cars) member).2, decide_eq_decide]
  exact decimal_injective.eq_iff

/-- The car that Go's fold ends up with: the last one in running order. -/
theorem getLast?_states {ranked : List (Nat × Car)}
    (read : List.Forall₂ (fun car state => readCar car = some state) (ranked.map Prod.snd) states)
    (number : Int64) : (states.filter fun state => state.driverNum = number).getLast? =
      ((ranked.filter fun entry => entry.2.driverNum = number.toInt).getLast?).bind
        fun entry => readCar entry.2 := by
  have kept : List.Forall₂ (fun car state => readCar car = some state)
      ((ranked.map Prod.snd).filter fun car => car.driverNum = number.toInt)
      (states.filter fun state => state.driverNum = number) := by
    refine List.rel_filter ?_ read
    intro car state decoded
    simp only [decide_eq_true_eq]
    rw [← (readCar_fields decoded).1, Int64.toInt_inj]
  rw [← forall₂_getLast? kept, List.filter_map, List.getLast?_map, Option.bind_map]
  rfl

theorem ranked_none_iff (cars : List Car) (number : Int) :
    ((reconcile (tagged cars)).filter fun entry => entry.2.driverNum = number).getLast? = none ↔
      ((tagged cars).filter fun entry => entry.2.driverNum = number).getLast? = none := by
  simp only [List.getLast?_eq_none_iff, List.filter_eq_nil_iff, decide_eq_true_eq]
  constructor
  · intro nobody entry member same
    obtain ⟨moved, kept⟩ := written_raw (tagged_distinct cars) member
    exact nobody _ moved (kept.trans same)
  · intro nobody entry member same
    obtain ⟨raw, own, pos, moved⟩ := raw_of_mem_reconcile member
    rw [moved] at same
    exact nobody _ own same

/-- Both orders end with the same car exactly when the last one listed ranks last. -/
theorem winners_agree_iff
    (read : List.Forall₂ (fun car state => readCar car = some state)
      ((reconcile (tagged cars)).map Prod.snd) states) {number : Int} {entry other : Nat × Car}
    (listed : ((tagged cars).filter fun entry => entry.2.driverNum = number).getLast? = some entry)
    (last : ((reconcile (tagged cars)).filter fun entry => entry.2.driverNum = number).getLast? =
      some other) :
    readCar (written (reconcile (tagged cars)) entry.1 entry.2) = readCar other.2 ↔
      entry.1 = other.1 := by
  have distinct := tagged_distinct cars
  have ranked : ((reconcile (tagged cars)).map Prod.fst).Nodup :=
    (reconcile_tags _).nodup_iff.mpr distinct
  have member := (List.mem_filter.mp (List.mem_of_getLast? listed)).1
  have moved := (written_raw distinct member).1
  have ranks := (List.mem_filter.mp (List.mem_of_getLast? last)).1
  constructor
  · intro same
    obtain ⟨state, _, decoded⟩ := forall₂_exists read (List.mem_map_of_mem moved)
    have decoded' : readCar other.2 = some state := same ▸ decoded
    obtain ⟨_, _, _, pos⟩ := mem_reconcile_iff.mp moved
    obtain ⟨_, _, _, pos'⟩ := mem_reconcile_iff.mp ranks
    have equal : (written (reconcile (tagged cars)) entry.1 entry.2).pos = other.2.pos := by
      have place := congrArg Car.pos pos
      have place' := congrArg Car.pos pos'
      rw [place, place', ← (readCar_fields decoded).2 _ place,
        ← (readCar_fields decoded').2 _ place']
    have one := eq_of_same_pos moved ranks equal
    rw [← one]
  · intro same
    rw [← eq_of_tag ranked moved ranks same]

def foldCars (cars : List Car) (old : Dict String Car) : Dict String Car :=
  (tagged cars).foldl (fun folded entry =>
    let car := written (reconcile (tagged cars)) entry.1 entry.2
    folded.set (decimal car.driverNum) car) old

theorem cars_agree_iff
    (read : List.Forall₂ (fun car state => readCar car = some state)
      ((reconcile (tagged cars)).map Prod.snd) states) (old : Dict String Car) :
    (∀ number : Int64, ((foldCars cars old).get? (Codec.keyText number)).bind readCar =
      ((states.filter fun state => state.driverNum = number).getLast?).or
        ((old.get? (Codec.keyText number)).bind readCar)) ↔ LastRanksLast cars := by
  have decodes {entry : Nat × Car} (member : entry ∈ reconcile (tagged cars)) :
      ∃ state, readCar entry.2 = some state := by
    obtain ⟨state, _, decoded⟩ := forall₂_exists read (List.mem_map_of_mem member)
    exact ⟨state, decoded⟩
  have each (number : Int64) : ((foldCars cars old).get? (Codec.keyText number)).bind readCar =
        ((states.filter fun state => state.driverNum = number).getLast?).or
          ((old.get? (Codec.keyText number)).bind readCar) ↔
      lastOf number.toInt (tagged cars) = lastOf number.toInt (reconcile (tagged cars)) := by
    rw [foldCars, Codec.keyText, get?_folded, getLast?_states read, lastOf, lastOf]
    cases listed : ((tagged cars).filter fun entry => entry.2.driverNum = number.toInt).getLast? with
    | none => simp [(ranked_none_iff cars number.toInt).mpr listed]
    | some entry =>
        cases last : ((reconcile (tagged cars)).filter fun entry =>
            entry.2.driverNum = number.toInt).getLast? with
        | none =>
            rw [(ranked_none_iff cars number.toInt).mp last] at listed
            cases listed
        | some other =>
            obtain ⟨state, decoded⟩ :=
              decodes (List.mem_filter.mp (List.mem_of_getLast? last)).1
            have winners := winners_agree_iff read listed last
            rw [decoded] at winners
            simpa [decoded] using winners
  simp only [each, LastRanksLast]
  constructor
  · intro agree number
    cases listed : ((tagged cars).filter fun entry => entry.2.driverNum = number).getLast? with
    | none => rw [lastOf, lastOf, listed, (ranked_none_iff cars number).mpr listed]
    | some entry =>
        obtain ⟨member, own⟩ := List.mem_filter.mp (List.mem_of_getLast? listed)
        obtain ⟨moved, kept⟩ := written_raw (tagged_distinct cars) member
        obtain ⟨state, decoded⟩ := decodes moved
        have fits : state.driverNum.toInt = number := by
          rw [(readCar_fields decoded).1, kept]
          exact of_decide_eq_true own
        exact fits ▸ agree state.driverNum
  · intro agree number
    exact agree number.toInt

end

variable {run next : ClipRun} {now : Int} {stored text : Json} {folded : Snapshot}

/-- The frame due meets no messages of an earlier pass that it does not push out, and of its
cars that share a number the last one listed ranks last. -/
def Harmless (run : ClipRun) : Prop :=
  match run.frames with
  | [] => True
  | frame :: _ =>
      (frame.timeMs < run.snapshot.timeMs →
        run.snapshot.messages.getD [] = [] ∨ maxMessages ≤ frame.messages.length) ∧
      LastRanksLast frame.cars

/-- The running snapshot reads as `folded`. -/
structure Tracks (run : ClipRun) (folded : Snapshot) : Prop where
  rev : run.rev = run.snapshot.rev
  weather : ∀ frame ∈ run.frames, frame.weather ≠ some .null
  keyed : Keyed run.snapshot.cars
  map : folded.cars ≠ none
  held : ∃ held, SnapshotReads run.snapshot id held ∧ SameFold held folded

theorem turn_eq {frame : ClipFrame} {rest : List ClipFrame} (due : run.frames = frame :: rest) :
    run.turn now = some (
      { run with
        snapshot := nextSnapshot run.snapshot (foldCars frame.cars run.snapshot.cars) (run.rev + 1)
          frame.timeMs frame.messages frame.weather []
        rev := run.rev + 1
        frames := rest ++
          [{ frame with cars := (reconcile (tagged frame.cars)).map Prod.snd }] },
      (nextSnapshot run.snapshot (foldCars frame.cars run.snapshot.cars) (run.rev + 1)
        frame.timeMs frame.messages frame.weather []).dumps id,
      frameText run.session (run.rev + 1) now frame.timeMs frame.messages frame.weather []
        (((reconcile (tagged frame.cars)).map Prod.snd).map Car.dumps)) := by
  rw [ClipRun.turn, due, List.map_map]
  simp only [nextSnapshot, List.append_nil]
  rfl

theorem mem_foldCars {cars : List Car} {old : Dict String Car} {entry : String × Car}
    (member : entry ∈ (foldCars cars old).entries) :
    entry ∈ old.entries ∨ ∃ tag, (tag, entry.2) ∈ reconcile (tagged cars) ∧
      entry.1 = decimal entry.2.driverNum := by
  have found := Dict.get?_of_mem member
  rw [foldCars, Dict.get?_foldl_set] at found
  rcases Option.or_eq_some_iff.mp found with last | ⟨_, before⟩
  · obtain ⟨one, last, same⟩ := Option.map_eq_some_iff.mp last
    obtain ⟨listed, own⟩ := List.mem_filter.mp (List.mem_of_getLast? last)
    have ranked := (written_raw (tagged_distinct cars) listed).1
    simp only [decide_eq_true_eq] at own
    rw [same] at own ranked
    exact Or.inr ⟨one.1, ranked, own.symm⟩
  · exact Or.inl (Dict.mem_of_get? before)

theorem int64_back_iff {clock before : Int64} {time earlier : Int} (now : clock.toInt = time)
    (held : before.toInt = earlier) : clock < before ↔ time < earlier := by
  rw [Int64.lt_iff_toInt_lt, now, held]

/-- Whatever the frame did, the snapshot stored with it decodes when the frame does. -/
theorem turn_reads {held : Snapshot} {listed : ClipFrame} {rev : Int} {frame : Frame}
    (keyed : Keyed run.snapshot.cars) (reads : SnapshotReads run.snapshot id held)
    (sky : listed.weather ≠ some .null)
    (sent : FrameReads rev listed.timeMs ((reconcile (tagged listed.cars)).map Prod.snd)
      listed.messages listed.weather [] frame) :
    Keyed (foldCars listed.cars run.snapshot.cars) ∧
      ∃ after, SnapshotReads (nextSnapshot run.snapshot (foldCars listed.cars run.snapshot.cars) rev
          listed.timeMs listed.messages listed.weather []) id after ∧
        after.messages = push maxMessages held.messages frame.messages ∧
        after.radio = held.radio ++ frame.radio ∧ after.weather = frame.weather.or held.weather ∧
        after.timeMs = frame.timeMs ∧ after.rev = frame.rev := by
  obtain ⟨states, _, decoded⟩ := sent.cars
  have ranks {entry : String × Car} (member : entry ∈ (foldCars listed.cars run.snapshot.cars).entries) :
      entry ∈ run.snapshot.cars.entries ∨ ∃ state, readCar entry.2 = some state ∧
        entry.1 = decimal entry.2.driverNum := by
    rcases mem_foldCars member with old | ⟨tag, ranked, own⟩
    · exact Or.inl old
    · obtain ⟨state, _, decoded⟩ := forall₂_exists decoded (List.mem_map_of_mem ranked)
      exact Or.inr ⟨state, decoded, own⟩
  have keyed' : Keyed (foldCars listed.cars run.snapshot.cars) := by
    intro entry member
    rcases ranks member with old | ⟨state, decoded, own⟩
    · exact keyed entry old
    · exact ⟨state.driverNum, by rw [own, Codec.keyText, (readCar_fields decoded).1]⟩
  refine ⟨keyed', reads.next keyed' ?_ sky sent⟩
  intro entry member
  rcases ranks member with old | ⟨state, decoded, _⟩
  · obtain ⟨dict, _, all⟩ := reads.cars
    have each := (Codec.unmarshalMembers_isSome_iff CarState.codec
      (keyed_members keyed fun car => (id car).dumps) .empty).mp (by rw [all]; rfl)
    exact each _ (List.mem_map_of_mem old)
  · exact Option.isSome_iff_exists.mpr ⟨state, decoded⟩

/-- One frame: the stored snapshot is the fold again exactly when the frame was harmless. -/
theorem Tracks.turn (tracks : Tracks run folded) (turned : run.turn now = some (next, stored, text))
    {frame : Frame} (read : Frame.unmarshal text = some frame) :
    ∃ held after, Snapshot.unmarshal stored = some held ∧
      apply folded frame = .ok (after, true) ∧ (SameFold held after ↔ Harmless run) ∧
      (Harmless run → Tracks next after) := by
  cases due : run.frames with
  | nil => simp [ClipRun.turn, due] at turned
  | cons listed rest =>
      rw [turn_eq due] at turned
      cases turned
      have sent := frameReads read
      obtain ⟨held, reads, same⟩ := tracks.held
      obtain ⟨states, present, decoded⟩ := sent.cars
      have carList : frame.carList = states := by rw [Frame.carList, present, Option.getD_some]
      have sky : listed.weather ≠ some .null :=
        tracks.weather listed (by rw [due]; exact List.mem_cons_self ..)
      obtain ⟨keyed, after, readAfter, messages, radio, weather, timeMs, rev⟩ :=
        turn_reads tracks.keyed reads sky sent
      have newer : ¬ frame.rev ≤ folded.rev := by
        rw [Int64.le_iff_toInt_le, sent.rev, ← same.rev, reads.rev, ← tracks.rev]
        omega
      have cars : (∀ number, carOf after number = carOf (advance folded frame) number) ↔
          LastRanksLast listed.cars := by
        rw [← cars_agree_iff decoded run.snapshot.cars]
        refine forall_congr' fun number => ?_
        rw [readAfter.carOf keyed, carOf_advance tracks.map, carList, ← same.cars,
          reads.carOf tracks.keyed]
        rfl
      have back := int64_back_iff sent.timeMs (same.timeMs ▸ reads.timeMs)
      have log : held.messages = [] ↔ run.snapshot.messages.getD [] = [] := by
        rw [← List.length_eq_zero_iff, ← List.length_eq_zero_iff,
          unmarshalItems_length _ reads.messages]
      have rolled : after.messages = (advance folded frame).messages ↔
          (listed.timeMs < run.snapshot.timeMs →
            run.snapshot.messages.getD [] = [] ∨ maxMessages ≤ listed.messages.length) := by
        rw [messages, advance, carriedMessages, ← log, unmarshalItems_length _ sent.messages, ← back]
        split
        · rename_i rewound
          simp only [rewound, true_imp_iff]
          exact push_eq_push_nil_iff (by decide)
        · rename_i forward
          simp only [forward, false_imp_iff, same.messages]
      have agrees : SameFold after (advance folded frame) ↔ Harmless run := by
        simp only [Harmless, due]
        rw [← cars, ← rolled]
        constructor
        · intro agree
          exact ⟨agree.messages, agree.cars⟩
        · intro harmless
          exact {
            cars := harmless.2
            messages := harmless.1
            radio := by rw [radio, same.radio]; rfl
            weather := by rw [weather, same.weather]; rfl
            timeMs := timeMs
            rev := rev }
      refine ⟨after, advance folded frame, unmarshal_dumps_iff.mpr readAfter,
        apply_advancing newer (Or.inl tracks.map), agrees, ?_⟩
      intro harmless
      exact {
        rev := rfl
        weather := by
          intro other member
          rcases List.mem_append.mp member with later | played
          · exact tracks.weather other (by rw [due]; exact List.mem_cons_of_mem _ later)
          · rw [List.mem_singleton.mp played]
            exact sky
        keyed := keyed
        map := by simpa [advance] using tracks.map
        held := ⟨after, readAfter, agrees.mpr harmless⟩ }

/-- The snapshot and the frame of each turn. -/
def publications : ClipRun → List Int → List (Json × Json)
  | _, [] => []
  | run, now :: rest =>
      match run.turn now with
      | none => []
      | some (next, stored, text) => (stored, text) :: publications next rest

def AllHarmless : ClipRun → List Int → Prop
  | _, [] => True
  | run, now :: rest =>
      match run.turn now with
      | none => True
      | some (next, _, _) => Harmless run ∧ AllHarmless next rest

theorem Tracks.foldsTo_iff (nows : List Int) (tracks : Tracks run folded)
    (decodes : ∀ published ∈ publications run nows, (Frame.unmarshal published.2).isSome) :
    FoldsTo folded (publications run nows) ↔ AllHarmless run nows := by
  induction nows generalizing run folded with
  | nil => exact Iff.rfl
  | cons now rest ih =>
      unfold publications AllHarmless
      cases turned : run.turn now with
      | none => exact Iff.rfl
      | some turn =>
          obtain ⟨next, stored, text⟩ := turn
          simp only [publications, turned, List.forall_mem_cons] at decodes
          obtain ⟨frame, read⟩ := Option.isSome_iff_exists.mp decodes.1
          obtain ⟨held, after, reads, applied, agrees, goesOn⟩ := tracks.turn turned read
          simp only [FoldsTo, reads, read, Option.some.injEq]
          constructor
          · intro folds
            obtain ⟨_, _, _, _, rfl, rfl, same, agree, rest⟩ := folds
            cases applied.symm.trans same
            have harmless := agrees.mp agree
            exact ⟨harmless, (ih (goesOn harmless) decodes.2).mp rest⟩
          · intro harmless
            exact ⟨_, _, _, _, rfl, rfl, applied, agrees.mpr harmless.1,
              (ih (goesOn harmless.1) decodes.2).mpr harmless.2⟩

theorem tracks_start {intText : String → Option Int} {session : String} {label : Option String}
    {header : ClipHeader} {frames : List ClipFrame} {previous : Option Json}
    (started : ClipRun.start intText session label header frames previous = .ok run)
    (weather : ∀ frame ∈ frames, frame.weather ≠ some .null)
    (read : Snapshot.unmarshal (run.snapshot.dumps id) = some folded) : Tracks run folded := by
  have reads := unmarshal_dumps_iff.mp read
  have begun : run.rev = run.snapshot.rev ∧ run.snapshot.cars = .empty ∧ run.frames = frames := by
    rw [ClipRun.start] at started
    split at started
    · cases started
    · obtain ⟨rev, _, built⟩ := bind_eq_ok_iff.mp started
      cases built
      exact ⟨rfl, rfl, rfl⟩
  obtain ⟨rev, cars, same⟩ := begun
  obtain ⟨dict, present, _⟩ := reads.cars
  exact {
    rev := rev
    weather := same ▸ weather
    keyed := by
      intro entry member
      rw [cars] at member
      cases member
    map := by rw [present]; exact Option.some_ne_none dict
    held := ⟨folded, reads, fun _ => rfl, rfl, rfl, rfl, rfl, rfl⟩ }

/-- The stored snapshot is the fold of the published frames after every one of them exactly when
every frame is harmless where it falls. -/
theorem clip_snapshot_folds_iff {intText : String → Option Int} {session : String}
    {label : Option String} {header : ClipHeader} {frames : List ClipFrame} {previous : Option Json}
    (started : ClipRun.start intText session label header frames previous = .ok run)
    (weather : ∀ frame ∈ frames, frame.weather ≠ some .null)
    (read : Snapshot.unmarshal (run.snapshot.dumps id) = some folded) (nows : List Int)
    (decodes : ∀ published ∈ publications run nows, (Frame.unmarshal published.2).isSome) :
    FoldsTo folded (publications run nows) ↔ AllHarmless run nows :=
  (tracks_start started weather read).foldsTo_iff nows decodes

def bareHeader : ClipHeader := ⟨some "Demo", none, none, none, none, none⟩

def greenLight : Json := .obj [
  ("rev", .int 1), ("t", .int 0), ("category", .str "Flag"), ("message", .str "GREEN LIGHT")]

/-- A clip of two frames, the first with a message. -/
def flaggedFrames : List ClipFrame := [⟨0, [], [greenLight], none⟩, ⟨100, [], [], none⟩]

theorem flaggedFrames_start : ∃ run folded,
    ClipRun.start parseDecimal "live" none bareHeader flaggedFrames none = .ok run ∧
      Snapshot.unmarshal (run.snapshot.dumps id) = some folded ∧
      ∀ published ∈ publications run [0, 100, 200], (Frame.unmarshal published.2).isSome := by
  have begun : ∃ run,
      ClipRun.start parseDecimal "live" none bareHeader flaggedFrames none = .ok run ∧
        (Snapshot.unmarshal (run.snapshot.dumps id)).isSome ∧
        (publications run [0, 100, 200]).all fun published => (Frame.unmarshal published.2).isSome := by
    refine ⟨_, rfl, ?_⟩
    decide +kernel
  obtain ⟨run, started, read, decodes⟩ := begun
  obtain ⟨folded, read⟩ := Option.isSome_iff_exists.mp read
  exact ⟨run, folded, started, read, List.all_eq_true.mp decodes⟩

theorem clip_snapshot_folds_iff_flagged : ∃ run folded,
    ClipRun.start parseDecimal "live" none bareHeader flaggedFrames none = .ok run ∧
      (FoldsTo folded (publications run [0, 100, 200]) ↔ AllHarmless run [0, 100, 200]) := by
  obtain ⟨run, folded, started, read, decodes⟩ := flaggedFrames_start
  exact ⟨run, folded, started,
    clip_snapshot_folds_iff started (by simp [flaggedFrames]) read [0, 100, 200] decodes⟩

/-- When the clip comes round again Go clears the message that the Python writer keeps. -/
theorem messages_survive_the_wrap : ∃ run folded,
    ClipRun.start parseDecimal "live" none bareHeader flaggedFrames none = .ok run ∧
      Snapshot.unmarshal (run.snapshot.dumps id) = some folded ∧
      (∀ published ∈ publications run [0, 100, 200], (Frame.unmarshal published.2).isSome) ∧
      ¬ FoldsTo folded (publications run [0, 100, 200]) := by
  obtain ⟨run, folded, started, read, decodes⟩ := flaggedFrames_start
  refine ⟨run, folded, started, read, decodes, ?_⟩
  rw [(tracks_start started (by simp [flaggedFrames]) read).foldsTo_iff _ decodes]
  cases started
  intro harmless
  have wrap := harmless.2.2.1.1 (by decide)
  rcases wrap with empty | full
  · cases empty
  · exact absurd full (by decide)

end RaceTracker.Seam
