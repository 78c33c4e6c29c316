import RaceTracker.Bake.FrameGaps
import RaceTracker.Lib.Changes

namespace RaceTracker.Bake

open RaceTracker.Lib RaceTracker.Model RaceTracker.Ingest

/-! What a recording holds, frame by frame. -/

/-- One entry for each of `n` frames. -/
structure DriverFrames.Fits (n : Nat) (driver : DriverFrames) : Prop where
  points : driver.points.length = n
  status : driver.status.length = n
  sRaw : driver.sRaw.length = n
  tel : ∀ tel ∈ driver.tel, tel.speed.length = n ∧ tel.gear.length = n ∧ tel.throttle.length = n ∧
    tel.brake.length = n ∧ tel.drs.length = n

/-- Tables that were resampled onto a grid which is not empty. -/
structure Tables.Fit (tables : Tables) : Prop where
  grid : tables.tGridS ≠ []
  clock : tables.tGridS.Pairwise (· < ·)
  drivers : ∀ entry ∈ tables.drivers.entries, entry.2.Fits tables.tGridS.length
  wxClock : tables.wxTimes.Pairwise (· ≤ ·)
  wxValues : tables.wxValues.length = tables.wxTimes.length

variable {tables : Tables} {i n : Nat} {tS : Rat}

theorem item_ok {τ : Type} {list : List τ} (within : i < list.length) : ∃ value, item list i = .ok value :=
  ⟨list[i], item_eq (List.getElem?_eq_getElem within)⟩

/-- A car as it is before its frame ranks it. -/
structure Raw (driver : DriverFrames) (driverNum : Int) (tS : Rat) (car : Car) : Prop where
  number : car.driverNum = driverNum
  pos : car.pos = some (driver.getPosition tS)
  pit : car.status = some "Pit" ↔ driver.pitted tS = true
  gapMs : car.gapMs = none
  gapLaps : car.gapLaps = none
  intMs : car.intMs = none

theorem DriverFrames.car_spec {driver : DriverFrames} (fits : driver.Fits n) (within : i < n)
    (driverNum : Int) (tS : Rat) : ∃ car, driver.car driverNum i tS = .ok car ∧ Raw driver driverNum tS car := by
  obtain ⟨p, point⟩ := item_ok (fits.points.symm ▸ within : i < driver.points.length)
  obtain ⟨status, known⟩ := item_ok (fits.status.symm ▸ within : i < driver.status.length)
  have pit : driver.statusAt status tS = "Pit" ↔ driver.pitted tS = true := by
    rw [statusAt]
    cases driver.pitted tS with
    | true => simp
    | false =>
        simp only [Bool.false_eq_true, if_false, iff_false]
        split <;> decide
  rw [car, point, ok_bind, known, ok_bind]
  cases sampled : driver.tel with
  | none => exact ⟨_, rfl, rfl, rfl, Option.some_inj.trans pit, rfl, rfl, rfl⟩
  | some tel =>
      obtain ⟨speed, gear, throttle, brake, drs⟩ := fits.tel tel sampled
      obtain ⟨_, one⟩ := item_ok (speed.symm ▸ within : i < tel.speed.length)
      obtain ⟨_, two⟩ := item_ok (gear.symm ▸ within : i < tel.gear.length)
      obtain ⟨_, three⟩ := item_ok (throttle.symm ▸ within : i < tel.throttle.length)
      obtain ⟨_, four⟩ := item_ok (brake.symm ▸ within : i < tel.brake.length)
      obtain ⟨_, five⟩ := item_ok (drs.symm ▸ within : i < tel.drs.length)
      simp only [one, two, three, four, five, ok_bind, pure_eq_ok]
      exact ⟨_, rfl, rfl, rfl, Option.some_inj.trans pit, rfl, rfl, rfl⟩

theorem DriverFrames.curve_spec {driver : DriverFrames} (fit : tables.Fit)
    (fits : driver.Fits tables.tGridS.length) : ∃ curve, driver.curve tables.tGridS tables.lapLengthM = .ok curve ∧
      curve.Fits tables.tGridS ∧ curve.inPit = tables.tGridS.map driver.pitted := by
  obtain ⟨t0, first⟩ := item_ok (List.length_pos_iff.mpr fit.grid)
  have flags : (tables.tGridS.map driver.pitted).length = driver.sRaw.length := by
    rw [List.length_map, fits.sRaw]
  refine ⟨_, by rw [curve, first]; rfl, ⟨raceDist_curve fit.clock fits.sRaw.symm flags, ?_⟩, rfl⟩
  exact List.length_map _

/-- The driver of an entry of `curves`. -/
def driverOf (entry : Int × DriverFrames × Curve) : Int × DriverFrames := (entry.1, entry.2.1)

/-- An entry that holds its driver's curve. -/
structure Entered (tables : Tables) (entry : Int × DriverFrames × Curve) : Prop where
  listed : driverOf entry ∈ tables.drivers.entries
  curve : entry.2.1.curve tables.tGridS tables.lapLengthM = .ok entry.2.2
  fits : entry.2.2.Fits tables.tGridS
  inPit : entry.2.2.inPit = tables.tGridS.map entry.2.1.pitted

theorem Tables.curves_spec (fit : tables.Fit) : ∃ curves, tables.curves = .ok curves ∧
    curves.map driverOf = tables.drivers.entries ∧ ∀ entry ∈ curves, Entered tables entry := by
  obtain ⟨curves, mapped, each⟩ := @mapM_forall₂ Raised _ _
    (fun entry => do return (entry.1, entry.2, ← entry.2.curve tables.tGridS tables.lapLengthM))
    (fun driver entry => driverOf entry = driver ∧ Entered tables entry) tables.drivers.entries
    fun driver member => by
      obtain ⟨curve, computed, fits, inPit⟩ := DriverFrames.curve_spec fit (fit.drivers driver member)
      exact ⟨(driver.1, driver.2, curve), by rw [computed]; rfl, rfl, member, computed, fits, inPit⟩
  refine ⟨curves, mapped, ?_, fun entry member => ?_⟩
  · rw [← List.forall₂_eq_eq_eq, List.forall₂_map_left_iff]
    exact each.flip.imp fun _ _ own => own.1
  · obtain ⟨_, _, _, own⟩ := forall₂_exists each.flip member
    exact own

/-- The first car, as the others are measured against it. -/
def asLeader (i : Nat) (first : Curve × Car) : Leader :=
  ⟨first.2.lastLapMs.isSome, some first.1.dists, distAt i first⟩

/-- The gaps of a frame: each is the one to the first car, each interval the one to the car above, and
a car that has covered less is not shown closer. -/
structure FrameGaps (tables : Tables) (i : Nat) (tS : Rat) (ranked : List (Curve × Car)) (cars : List Car) :
    Prop where
  length : cars.length = ranked.length
  placed : ∀ first ∈ ranked.head?, ∀ (k : Nat) entry car, ranked[k]? = some entry → cars[k]? = some car →
    Placed tables.tGridS tables.lapLengthM i tS (asLeader i first) (aboveAt none ranked k) entry car
  leader : ∀ car ∈ cars.head?, car.gapLaps = none ∧ car.intMs = none
  ordered : ∀ (k k' : Nat) entry entry' (car car' : Car) ms ms', ranked[k]? = some entry →
    cars[k]? = some car → ranked[k']? = some entry' → cars[k']? = some car' →
    distAt i entry' ≤ distAt i entry → car.gapMs = some ms → car'.gapMs = some ms' → ms ≤ ms'

theorem leaderOf_eq {first : Curve × Car} {rest : List (Curve × Car)} (fits : first.1.Fits tables.tGridS)
    (within : i < tables.tGridS.length) : leaderOf i (first :: rest) = .ok (asLeader i first) := by
  have inside : i < first.1.dists.length := fits.dists.parallel ▸ within
  have some : first.1.dists ≠ [] := List.length_pos_iff.mp (by omega)
  rw [leaderOf, if_neg some, item_of_lt inside]
  rfl

theorem frameGaps {ranked : List (Curve × Car)} (curves : ∀ entry ∈ ranked, entry.1.Fits tables.tGridS)
    (within : i < tables.tGridS.length) (tS : Rat) :
    ∃ cars, (do gapPass tables.tGridS tables.lapLengthM i tS (← leaderOf i ranked) none ranked) = .ok cars ∧
      FrameGaps tables i tS ranked cars := by
  cases ranked with
  | nil => exact ⟨[], rfl, rfl, by simp, by simp, by simp⟩
  | cons first rest =>
      have own := curves first (List.mem_cons_self ..)
      have known : ∀ curve, (asLeader i first).curve = some curve → DistanceCurve tables.tGridS curve := by
        rintro _ ⟨⟩
        exact own.dists
      obtain ⟨cars, passed, length, each⟩ := @gapPass_spec _ tables.lapLengthM _ tS _ known within _ curves
        none (by simp)
      refine ⟨cars, by rw [leaderOf_eq own within, ok_bind, passed], length, ?_, ?_, ?_⟩
      · rintro _ ⟨⟩ k entry car found found'
        exact each k entry car found found'
      · intro car head
        rw [List.head?_eq_getElem?] at head
        have top := each 0 first car rfl head
        refine ⟨?_, ?_⟩
        · rw [top.laps, asLeader, sub_self]
          simp [lapDeficit, positive]
        · rw [Option.eq_none_iff_forall_ne_some]
          intro ms quoted
          obtain ⟨_, above, none, _⟩ := (top.int ms).mp quoted
          cases none
      · intro k k' entry entry' car car' ms ms' found found' other other' ordered quoted quoted'
        obtain ⟨_, _, curve, same, behind⟩ := ((each k entry car found found').gap ms).mp quoted
        obtain ⟨_, _, curve', same', behind'⟩ := ((each k' entry' car' other other').gap ms').mp quoted'
        cases same
        cases same'
        exact behind'.mono own.dists behind ordered

/-- A frame as it is written at its instant: its cars are the drivers', ranked, with their gaps, and a
car in the pit lane has none. -/
structure FrameWritten (tables : Tables) (i : Nat) (tS : Rat) (frame : RecordedFrame) : Prop where
  rev : frame.rev = i + 1
  timeMs : frame.timeMs = roundHalfEven (tS * 1000)
  messages : (frameMessages tables.tGridS tables.rcMsgs)[i]? = some frame.messages
  cars : ∃ raws : List (Curve × Car),
    List.Forall₂ (fun driver raw => driver.2.curve tables.tGridS tables.lapLengthM = .ok raw.1 ∧
      driver.2.car driver.1 i tS = .ok raw.2)
      (tables.drivers.entries.mergeSort fun first second => first.1 ≤ second.1) raws ∧
    FrameGaps tables i tS (reconcile raws) frame.cars
  ranks : frame.cars.map Car.pos =
    (List.range frame.cars.length).map fun (index : Nat) => some ((index : Int) + 1)
  drivers : (frame.cars.map Car.driverNum).Perm tables.drivers.keys
  pits : ∀ car ∈ frame.cars, car.status = some "Pit" → car.gapMs = none ∧ car.intMs = none

theorem ungapped_fields {car car' : Car} (same : ungapped car = ungapped car') : car.driverNum = car'.driverNum ∧
    car.pos = car'.pos ∧ car.status = car'.status := by
  simp only [ungapped, Car.mk.injEq] at same
  obtain ⟨number, _, _, pos, _, _, status, _⟩ := same
  exact ⟨number, pos, status⟩

/-- A car of the frame is the ranked one at its place, but for the gaps. -/
theorem FrameGaps.entry_of_mem {ranked : List (Curve × Car)} {cars : List Car}
    (gaps : FrameGaps tables i tS ranked cars) {car : Car} (member : car ∈ cars) :
    ∃ leader above entry, entry ∈ ranked ∧
      Placed tables.tGridS tables.lapLengthM i tS leader above entry car := by
  obtain ⟨k, found⟩ := List.mem_iff_getElem?.mp member
  obtain ⟨within, _⟩ := List.getElem?_eq_some_iff.mp found
  rw [gaps.length] at within
  obtain ⟨first, head⟩ : ∃ first, ranked.head? = some first := by
    rw [← Option.isSome_iff_exists, List.isSome_head?]
    exact List.length_pos_iff.mp (by omega)
  exact ⟨_, _, _, List.getElem_mem within,
    gaps.placed first head k _ car (List.getElem?_eq_getElem within) found⟩

theorem FrameGaps.ungapped_cars {ranked : List (Curve × Car)} {cars : List Car}
    (gaps : FrameGaps tables i tS ranked cars) : cars.map ungapped = ranked.map fun entry => ungapped entry.2 := by
  apply List.ext_getElem
  · rw [List.length_map, List.length_map, gaps.length]
  · intro k within within'
    rw [List.length_map] at within within'
    rw [List.getElem_map, List.getElem_map]
    have head : ranked.head? = some (ranked.head (List.length_pos_iff.mp (by omega))) :=
      List.head?_eq_some_head _
    exact (gaps.placed _ head k _ _ (List.getElem?_eq_getElem within')
      (List.getElem?_eq_getElem within)).ungapped

/-- What does not look at the gaps reads the ranked cars. -/
theorem FrameGaps.map_eq {ranked : List (Curve × Car)} {cars : List Car} {τ : Type} {f : Car → τ}
    (gaps : FrameGaps tables i tS ranked cars) (blind : ∀ car, f (ungapped car) = f car) :
    cars.map f = (ranked.map Prod.snd).map f := by
  have same := congrArg (List.map f) gaps.ungapped_cars
  simp only [List.map_map] at same ⊢
  calc cars.map f = cars.map (f ∘ ungapped) := List.map_congr_left fun car _ => (blind car).symm
    _ = ranked.map (f ∘ fun entry => ungapped entry.2) := same
    _ = ranked.map (f ∘ Prod.snd) := List.map_congr_left fun entry _ => blind entry.2

theorem frame_written (fit : tables.Fit) {curves : List (Int × DriverFrames × Curve)}
    (drivers : curves.map driverOf = tables.drivers.entries)
    (entered : ∀ entry ∈ curves, Entered tables entry) (here : tables.tGridS[i]? = some tS) :
    ∃ cars, tables.frameCars curves i tS = .ok cars ∧ ∀ frame : RecordedFrame, frame.rev = i + 1 →
      frame.timeMs = roundHalfEven (tS * 1000) → frame.cars = cars →
      frame.messages = ((msgsByIdx tables.tGridS tables.rcMsgs).get? i).getD [] →
      FrameWritten tables i tS frame := by
  obtain ⟨within, _⟩ := List.getElem?_eq_some_iff.mp here
  obtain ⟨raws, made, each⟩ := @mapM_forall₂ Raised _ _
    (fun (entry : Int × DriverFrames × Curve) => do return (entry.2.2, ← entry.2.1.car entry.1 i tS))
    (fun entry raw => Entered tables entry ∧ raw.1 = entry.2.2 ∧ entry.2.1.car entry.1 i tS = .ok raw.2 ∧
      Raw entry.2.1 entry.1 tS raw.2)
    (curves.mergeSort fun first second => first.1 ≤ second.1) fun entry member => by
      have own := entered entry (List.mem_mergeSort.mp member)
      obtain ⟨car, built, raw⟩ := DriverFrames.car_spec (fit.drivers _ own.listed) within entry.1 tS
      exact ⟨(entry.2.2, car), by rw [driverOf] at built; rw [built]; rfl, own, rfl, built, raw⟩
  have fits : ∀ entry ∈ reconcile raws, entry.1.Fits tables.tGridS := by
    rintro ⟨curve, car⟩ member
    obtain ⟨raw, listed, _⟩ := raw_of_mem_reconcile member
    obtain ⟨entry, _, own, same, _⟩ := forall₂_exists each.flip listed
    exact same ▸ own.fits
  obtain ⟨cars, passed, gaps⟩ := frameGaps fits within tS
  refine ⟨cars, by rw [Tables.frameCars, made]; exact passed, ?_⟩
  rintro ⟨rev, timeMs, _, messages, weather⟩ rfl rfl rfl rfl
  refine {
    rev := rfl
    timeMs := rfl
    messages := by simp [frameMessages, within]
    cars := ⟨raws, ?_, gaps⟩
    ranks := ?_
    drivers := ?_
    pits := ?_ }
  · -- The sorted drivers are the sorted curves, seen without them.
    have sorted : (tables.drivers.entries.mergeSort fun first second => first.1 ≤ second.1) =
        (curves.mergeSort fun first second => first.1 ≤ second.1).map driverOf := by
      rw [← drivers]
      symm
      apply List.map_mergeSort
      intro _ _ _ _
      rfl
    rw [sorted, List.forall₂_map_left_iff]
    exact each.imp fun entry raw own => ⟨own.2.1 ▸ own.1.curve, own.2.2.1⟩
  · rw [gaps.map_eq fun _ => rfl, reconcile_map_snd, reconcilePositions_pos, gaps.length, List.length_map]
    simp [reconcile]
  · rw [gaps.map_eq fun _ => rfl, List.map_map]
    refine (reconcile_numbers raws).trans ?_
    have numbers : raws.map (fun raw => raw.2.driverNum) =
        (curves.mergeSort fun first second => first.1 ≤ second.1).map Prod.fst := by
      symm
      rw [← List.forall₂_eq_eq_eq, List.forall₂_map_left_iff, List.forall₂_map_right_iff]
      exact each.imp fun entry raw own => own.2.2.2.number.symm
    rw [numbers, Dict.keys, ← drivers, List.map_map]
    exact (List.mergeSort_perm ..).map _
  · intro car member pit
    obtain ⟨leader, above, entry, ranked, placed⟩ := gaps.entry_of_mem member
    obtain ⟨raw, listed, pos, same⟩ := raw_of_mem_reconcile ranked
    obtain ⟨held, _, own, curve, _, known⟩ := forall₂_exists each.flip listed
    have status : entry.2.status = raw.status := by rw [same]
    have shut : held.2.1.pitted tS = true :=
      known.pit.mp (status ▸ (ungapped_fields placed.ungapped).2.2 ▸ pit)
    have never : ¬ Quotable leader i entry := by
      rintro ⟨_, _, clear⟩
      rw [curve, own.inPit, List.getElem?_map, here, Option.map_some, shut] at clear
      cases clear
    refine ⟨?_, ?_⟩ <;> rw [Option.eq_none_iff_forall_ne_some] <;> intro ms quoted
    · exact never ((placed.gap ms).mp quoted).2.1
    · obtain ⟨_, ahead, _, int⟩ := (placed.int ms).mp quoted
      exact never int.1

/-- The frames of a recording: one for each instant of the grid, each as it should be, with the race
control messages of the session in their order, and the weather as it changes. -/
structure Recorded (tables : Tables) (frames : List RecordedFrame) : Prop where
  length : frames.length = tables.tGridS.length
  written : ∀ (i : Nat) tS frame, tables.tGridS[i]? = some tS → frames[i]? = some frame →
    FrameWritten tables i tS frame
  weather : ∃ readings, List.Forall₂ (fun tS reading => tables.weatherAt tS = .ok reading)
    tables.tGridS readings ∧ frames.map RecordedFrame.weather = changes none readings

theorem weatherAt_ok (fit : tables.Fit) (tS : Rat) : ∃ reading, tables.weatherAt tS = .ok reading := by
  rw [Tables.weatherAt]
  split
  · exact ⟨none, rfl⟩
  · rename_i some
    have inside := (nearestIndex_spec fit.wxClock some tS).within
    obtain ⟨value, found⟩ := item_ok (fit.wxValues.symm ▸ inside)
    exact ⟨_, by rw [found]; rfl⟩

theorem emit_spec (fit : tables.Fit) {curves : List (Int × DriverFrames × Curve)}
    (drivers : curves.map driverOf = tables.drivers.entries)
    (entered : ∀ entry ∈ curves, Entered tables entry) {done rest : List Rat} {last : Option Weather}
    (split : tables.tGridS = done ++ rest) (opening : done = [] → last = none) :
    ∃ frames, tables.emit curves done.length last rest = .ok frames ∧ frames.length = rest.length ∧
      (∀ (k : Nat) tS frame, rest[k]? = some tS → frames[k]? = some frame →
        FrameWritten tables (done.length + k) tS frame) ∧
      ∃ readings, List.Forall₂ (fun tS reading => tables.weatherAt tS = .ok reading) rest readings ∧
        frames.map RecordedFrame.weather = changes last readings := by
  induction rest generalizing done last with
  | nil => exact ⟨[], rfl, rfl, fun k tS frame none => (by cases none), [], .nil, rfl⟩
  | cons tS rest ih =>
      have here : tables.tGridS[done.length]? = some tS := by rw [split]; simp
      obtain ⟨cars, built, written⟩ := frame_written fit drivers entered here
      obtain ⟨wx, read⟩ := weatherAt_ok fit tS
      have new : (wx.isSome && (done.length == 0 || wx != last)) = true ↔ wx.isSome ∧ wx ≠ last := by
        cases wx with
        | none => simp
        | some reading =>
            cases done with
            | nil => simp [opening rfl]
            | cons first more => simp
      obtain ⟨later, emitted, length, each, readings, along, sent⟩ := @ih (done ++ [tS])
        (if wx.isSome && (done.length == 0 || wx != last) then wx else last)
        (by rw [List.append_assoc, List.singleton_append, split]) (by simp)
      rw [List.length_append, List.length_singleton] at emitted each
      let frame : RecordedFrame := {
        rev := done.length + 1
        timeMs := roundHalfEven (tS * 1000)
        cars
        messages := ((msgsByIdx tables.tGridS tables.rcMsgs).get? done.length).getD []
        weather := if wx.isSome && (done.length == 0 || wx != last) then wx else none }
      refine ⟨frame :: later, ?_, by rw [List.length_cons, List.length_cons, length], ?_, wx :: readings,
        .cons read along, ?_⟩
      · simp only [Tables.emit, built, read, emitted, ok_bind, pure_eq_ok]
        rfl
      · intro k other frame found found'
        cases k with
        | zero =>
            cases found
            cases found'
            exact written _ rfl rfl rfl rfl
        | succ k =>
            have onward := each k other frame found found'
            rwa [Nat.add_assoc, Nat.add_comm 1 k] at onward
      · rw [List.map_cons, sent, changes]
        by_cases fresh : wx.isSome ∧ wx ≠ last
        · simp only [frame, if_pos (new.mpr fresh), if_pos fresh]
        · simp only [frame, if_neg (mt new.mp fresh), if_neg fresh]

theorem Tables.frames_spec (fit : tables.Fit) : ∃ frames, tables.frames = .ok frames ∧ Recorded tables frames := by
  obtain ⟨curves, computed, drivers, entered⟩ := Tables.curves_spec fit
  obtain ⟨frames, emitted, length, each, weather⟩ :=
    emit_spec fit drivers entered (List.nil_append tables.tGridS).symm fun _ => rfl
  refine ⟨frames, by rw [Tables.frames, computed]; exact emitted, length, fun i tS frame found found' => ?_,
    weather⟩
  have written := each i tS frame found found'
  rwa [List.length_nil, Nat.zero_add] at written

theorem Recorded.frame_at {frames : List RecordedFrame} (recorded : Recorded tables frames)
    {frame : RecordedFrame} (found : frames[i]? = some frame) :
    ∃ tS, tables.tGridS[i]? = some tS ∧ FrameWritten tables i tS frame := by
  obtain ⟨within, _⟩ := List.getElem?_eq_some_iff.mp found
  rw [recorded.length] at within
  exact ⟨_, List.getElem?_eq_getElem within,
    recorded.written i _ frame (List.getElem?_eq_getElem within) found⟩

theorem Recorded.clock {frames : List RecordedFrame} (fit : tables.Fit) (recorded : Recorded tables frames) :
    frames.Pairwise fun earlier later => earlier.timeMs ≤ later.timeMs := by
  rw [List.pairwise_iff_getElem]
  intro i k within within' ordered
  obtain ⟨tS, here, written⟩ := recorded.frame_at (List.getElem?_eq_getElem within)
  obtain ⟨tS', here', written'⟩ := recorded.frame_at (List.getElem?_eq_getElem within')
  obtain ⟨inside, rfl⟩ := List.getElem?_eq_some_iff.mp here
  obtain ⟨inside', rfl⟩ := List.getElem?_eq_some_iff.mp here'
  rw [written.timeMs, written'.timeMs]
  have later := (List.pairwise_iff_getElem.mp fit.clock i k inside inside' ordered).le
  exact roundHalfEven_mono (mul_le_mul_of_nonneg_right later (by norm_num))

theorem Recorded.messages {frames : List RecordedFrame} (recorded : Recorded tables frames) :
    frames.map RecordedFrame.messages = frameMessages tables.tGridS tables.rcMsgs := by
  apply List.ext_getElem?
  intro i
  rw [List.getElem?_map]
  cases found : frames[i]? with
  | none =>
      rw [List.getElem?_eq_none_iff, recorded.length] at found
      symm
      rw [Option.map_none, List.getElem?_eq_none_iff]
      simpa [frameMessages] using found
  | some frame =>
      obtain ⟨tS, _, written⟩ := recorded.frame_at found
      exact written.messages.symm

/-- The recorder raises on no tables that fit their grid, and what it writes is the race they hold: its
clock does not go back, and it loses no message of race control. -/
theorem tables_are_recorded (fit : tables.Fit) : ∃ frames, tables.frames = .ok frames ∧
    Recorded tables frames ∧
    (frames.Pairwise fun earlier later => earlier.timeMs ≤ later.timeMs) ∧
    (tables.rcMsgs.Pairwise (fun first second => first.timeMs ≤ second.timeMs) →
      (frames.flatMap RecordedFrame.messages).map RcEntry.toMessage = tables.rcMsgs) := by
  obtain ⟨frames, written, recorded⟩ := Tables.frames_spec fit
  refine ⟨frames, written, recorded, recorded.clock fit, fun sorted => ?_⟩
  rw [List.flatMap_def, recorded.messages,
    flatten_frameMessages fit.grid (fit.clock.imp le_of_lt) sorted, List.map_map]
  exact List.map_id _

def parked (code team : String) : DriverFrames where
  code := code
  team := team
  points := [Point.codec.zero, Point.codec.zero]
  status := ["OnTrack", "OffTrack"]
  tel := some ⟨[0, 80], [1, 2], [0, 100], [100, 0], [false, true]⟩
  sRaw := [10, 20]
  order := ([], [])
  lapNumbers := ([0], [3])
  laps := [⟨some (-90), some 80, none, none, none, some "soft", some 4⟩]
  pitWindows := [(0, 1)]

/-- Two cars and two frames, with a reading of the weather for both. -/
def twoParked : Tables where
  tGridS := [0, 2]
  lapLengthM := 5000
  drivers := .ofMembers [(44, parked "HAM" "Ferrari"), (1, parked "VER" "Red Bull")]
  rcMsgs := []
  wxTimes := [1]
  wxValues := [⟨Codec.float64.zero, Codec.float64.zero, true⟩]

theorem parked_fits (code team : String) : (parked code team).Fits 2 := by
  refine ⟨rfl, rfl, rfl, ?_⟩
  rintro _ ⟨⟩
  exact ⟨rfl, rfl, rfl, rfl, rfl⟩

theorem twoParked_fit : twoParked.Fit where
  grid := by decide
  clock := by decide +kernel
  drivers := by
    have two : twoParked.drivers.entries = [(44, parked "HAM" "Ferrari"), (1, parked "VER" "Red Bull")] := rfl
    rw [two, List.forall_mem_cons, List.forall_mem_singleton]
    exact ⟨parked_fits .., parked_fits ..⟩
  wxClock := by decide
  wxValues := rfl

theorem tables_are_recorded_twoParked : ∃ frames, twoParked.frames = .ok frames ∧ frames.length = 2 ∧
    Recorded twoParked frames := by
  obtain ⟨frames, written, recorded, _⟩ := tables_are_recorded twoParked_fit
  exact ⟨frames, written, recorded.length, recorded⟩

end RaceTracker.Bake
