import RaceTracker.Model.History
import RaceTracker.Seam.Recorder

namespace RaceTracker.Seam

open RaceTracker.Lib RaceTracker.Model RaceTracker.Ingest RaceTracker.Bake

/-! A recorded clip, played in a loop by the Go writer: what a board shows after any number of frames. -/

theorem appliedFrames_of_climb {frames : List Frame} (positive : ∀ frame ∈ frames, 0 < frame.rev)
    (climb : frames.Pairwise fun earlier later => earlier.rev < later.rev) :
    appliedFrames frames = frames := by
  induction frames using List.reverseRecOn with
  | nil => rfl
  | append_singleton frames frame ih =>
      obtain ⟨before, _, newest⟩ := List.pairwise_append.mp climb
      have last : frame ∈ [frame] := List.mem_singleton_self frame
      have applied := ih (fun other member => positive other (List.mem_append_left _ member)) before
      rw [appliedFrames_append, applied, if_pos]
      exact ⟨positive frame (List.mem_append_right _ last), fun earlier member => newest earlier member frame last⟩

/-- The pass that a wrap of the clock has opened. -/
theorem sinceRewind_append {before current : List Frame} {first last : Frame}
    (ends : last ∈ before.getLast?) (starts : first ∈ current.head?) (wraps : first.timeMs < last.timeMs)
    (forward : Model.Forward current) : sinceRewind (before ++ current) = current := by
  induction current using List.reverseRecOn with
  | nil => cases starts
  | append_singleton current frame ih =>
      obtain ⟨earlier, continues⟩ := forward_append_iff.mp forward
      rw [← List.append_assoc]
      cases current with
      | nil =>
          cases starts
          rw [List.append_nil, sinceRewind_of_rewinds ⟨last, ends, wraps⟩, List.nil_append]
      | cons head rest =>
          rw [sinceRewind_of_forward, ih starts earlier]
          rintro ⟨other, newest, behind⟩
          refine continues ⟨other, ?_, behind⟩
          rwa [List.getLast?_append_of_ne_nil _ (List.cons_ne_nil head rest)] at newest

theorem sinceRewind_forward {current : List Frame} (forward : Model.Forward current) :
    sinceRewind current = current := by
  cases current with
  | nil => rfl
  | cons first rest => exact if_pos forward

section

variable {source : Replay.Source}

theorem playFromStart_wrap (lined : source.lines ≠ []) (loop : Int64) (nows : List Int64) :
    source.playFromStart loop [] nows = source.playFromStart (loop + 1) source.lines nows := by
  cases lines : source.lines with
  | nil => exact absurd lines lined
  | cons line rest =>
      cases nows with
      | nil => rfl
      | cons now nows => simp only [Replay.Source.playFromStart, lines]

/-- The lines are numbered from one on, and the clip knows how many there are. -/
structure Numbered (source : Replay.Source) : Prop where
  lined : source.lines ≠ []
  max : source.max.toInt = source.lines.length
  revs : ∀ (k : Nat) line, source.lines[k]? = some line → line.frame.rev.toInt = k + 1

theorem Numbered.sent_rev (numbered : Numbered source) {loop : Int64} {laps k : Nat} {line : Replay.ClipLine}
    (counted : loop.toInt = laps) (found : source.lines[k]? = some line)
    (bound : laps * source.lines.length + k + 1 < 2 ^ 63) :
    (line.frame.rev + loop * source.max).toInt = laps * source.lines.length + k + 1 := by
  have whole : (loop * source.max).toInt = laps * source.lines.length := by
    rw [Int64.toInt_mul, counted, numbered.max]
    have small : laps * source.lines.length < 2 ^ 63 := by omega
    exact Int.bmod_eq_of_le (by omega) (by exact_mod_cast small)
  rw [Int64.toInt_add, whole, numbered.revs k line found, Int.bmod_eq_of_le (by norm_cast; omega)
    (by norm_cast; omega)]
  ring

theorem Numbered.played_revs (numbered : Numbered source) {played rest : List Replay.ClipLine} {loop : Int64}
    {laps : Nat} (counted : loop.toInt = laps) (whole : source.lines = played ++ rest) {nows : List Int64}
    (bound : laps * source.lines.length + played.length + nows.length < 2 ^ 63) :
    (source.playFromStart loop rest nows).map (fun frame => frame.rev.toInt) =
      (List.range' (laps * source.lines.length + played.length + 1) nows.length).map Int.ofNat := by
  induction nows generalizing played rest loop laps with
  | nil => cases rest <;> rfl
  | cons now nows ih =>
      rw [List.length_cons] at bound
      -- What a line that is due sends, and then the rest of its pass.
      have sends {played rest : List Replay.ClipLine} {line : Replay.ClipLine} {loop : Int64} {laps : Nat}
          (counted : loop.toInt = laps) (whole : source.lines = played ++ line :: rest)
          (bound : laps * source.lines.length + played.length + (nows.length + 1) < 2 ^ 63) :
          (source.playFromStart loop (line :: rest) (now :: nows)).map (fun frame => frame.rev.toInt) =
            (List.range' (laps * source.lines.length + played.length + 1) (nows.length + 1)).map Int.ofNat := by
        have found : source.lines[played.length]? = some line := by
          rw [whole]
          simp
        have later := ih counted (show source.lines = (played ++ [line]) ++ rest by
          rw [whole, List.append_assoc, List.singleton_append]) (by
            rw [List.length_append, List.length_singleton]
            omega)
        rw [List.length_append, List.length_singleton] at later
        rw [Replay.Source.playFromStart, List.map_cons, numbered.sent_rev counted found (by omega), later,
          List.range'_succ, List.map_cons, ← Nat.add_assoc]
        exact congrArg (· :: _) (by norm_cast)
      cases rest with
      | cons line rest => exact sends counted whole bound
      | nil =>
          obtain ⟨line, more, lines⟩ := List.exists_cons_of_ne_nil numbered.lined
          rw [List.append_nil] at whole
          rw [← whole] at bound ⊢
          have laps_le : laps + 1 ≤ (laps + 1) * source.lines.length :=
            Nat.le_mul_of_pos_right _ (List.length_pos_iff.mpr numbered.lined)
          rw [Nat.succ_mul] at laps_le
          have next : (loop + 1).toInt = (laps + 1 : Nat) := by
            rw [Int64.toInt_add, counted, show (1 : Int64).toInt = 1 from rfl,
              Int.bmod_eq_of_le (by norm_cast; omega) (by norm_cast; omega), Nat.cast_succ]
          have again := sends next (show source.lines = [] ++ line :: more from lines) (by
            rw [List.length_nil, Nat.succ_mul]
            omega)
          rw [← lines, List.length_nil, Nat.succ_mul, Nat.add_zero] at again
          rw [playFromStart_wrap numbered.lined, again, List.length_cons]

end

/-- A sent frame that says what the recorder wrote. -/
structure Conveys (frame : RecordedFrame) (sent : Frame) : Prop where
  timeMs : sent.timeMs.toInt = frame.timeMs
  weather : sent.weather = frame.weather
  messages : sent.messages = frame.messages.map goMessage
  cars : List.Forall₂ (fun car state => readCar car = some state) frame.cars sent.carList

theorem LineRecorded.conveys {frame : RecordedFrame} {line : Replay.ClipLine} {sent : Frame}
    (recorded : LineRecorded frame line) (stamped : Replay.Stamped line sent) : Conveys frame sent := by
  obtain ⟨_, _, rfl⟩ := stamped
  refine ⟨recorded.timeMs, recorded.weather, recorded.messages, ?_⟩
  obtain ⟨states, listed, decoded, _⟩ := recorded.cars
  change List.Forall₂ _ _ (line.frame.cars.getD [])
  rwa [listed]

variable {tables : Tables} {frames : List RecordedFrame} {sent : List Frame}

theorem played_conveys {source : Replay.Source} (lines : List.Forall₂ LineRecorded frames source.lines)
    (nows : List Int64) :
    List.Forall₂ Conveys (cycle frames nows.length) (source.playFromStart 0 source.lines nows) := by
  have whole : source.lines = [] ++ source.lines := rfl
  have stamped := Replay.playFromStart_cycle 0 whole nows
  rw [List.append_nil] at stamped
  refine (forall₂_through (forall₂_cycle lines nows.length) stamped).imp ?_
  rintro frame sent ⟨line, recorded, stamped⟩
  exact recorded.conveys stamped

theorem map_conveyed {τ : Type} {f : RecordedFrame → τ} {g : Frame → τ}
    (same : ∀ {frame sent}, Conveys frame sent → g sent = f frame)
    (conveyed : List.Forall₂ Conveys frames sent) : sent.map g = frames.map f := by
  induction conveyed with
  | nil => rfl
  | cons first _ ih => rw [List.map_cons, List.map_cons, ih, same first]

theorem forward_conveyed (conveyed : List.Forall₂ Conveys frames sent)
    (clock : frames.Pairwise fun earlier later => earlier.timeMs ≤ later.timeMs) :
    Model.Forward sent := by
  have times : sent.map (fun frame => frame.timeMs.toInt) = frames.map RecordedFrame.timeMs :=
    map_conveyed Conveys.timeMs conveyed
  have ordered : (sent.map fun frame => frame.timeMs.toInt).Pairwise (· ≤ ·) := by
    rw [times]
    exact List.pairwise_map.mpr clock
  refine ((List.pairwise_map.mp ordered).imp fun {earlier later} before => ?_).isChain
  rwa [Int64.lt_iff_toInt_lt, Int.not_lt]

/-- However often the recording has been played before, the weather that it has told by the end of a
frame is the tables' reading at that instant. -/
theorem weather_told (recorded : Recorded tables frames) {j : Nat} {tS : Rat}
    (here : tables.tGridS[j]? = some tS) (laps : Nat) :
    tables.weatherAt tS = .ok (latest none
      (((List.replicate laps frames).flatten ++ frames.take (j + 1)).map RecordedFrame.weather)) := by
  obtain ⟨readings, each, sent⟩ := recorded.weather
  obtain ⟨within, rfl⟩ := List.getElem?_eq_some_iff.mp here
  have inside : j < readings.length := each.length_eq ▸ within
  have read := List.forall₂_iff_get.mp each |>.2 j within inside
  by_cases unknown : tables.wxTimes = []
  · have silent : ∀ reading ∈ readings, reading = none := by
      intro reading member
      obtain ⟨tS, _, told⟩ := forall₂_exists each.flip member
      rw [Tables.weatherAt, if_pos unknown] at told
      exact (Except.ok.inj told).symm
    rw [changes_silent silent] at sent
    rw [latest_silent, Tables.weatherAt, if_pos unknown]
    intro value told
    obtain ⟨frame, member, rfl⟩ := List.mem_map.mp told
    refine silent _ (sent ▸ List.mem_map_of_mem ?_)
    rcases List.mem_append.mp member with earlier | current
    · obtain ⟨pass, copy, member⟩ := List.mem_flatten.mp earlier
      exact List.eq_of_mem_replicate copy ▸ member
    · exact List.mem_of_mem_take current
  · have known : ∀ reading ∈ readings, reading ≠ none := by
      rintro reading member rfl
      obtain ⟨tS, _, told⟩ := forall₂_exists each.flip member
      rw [Tables.weatherAt, if_neg unknown] at told
      obtain ⟨_, _, same⟩ := bind_eq_ok_iff.mp told
      cases same
    rw [List.map_append, latest_append, List.map_take, sent,
      latest_take_changes known (List.getElem?_eq_getElem inside)]
    exact read

theorem Conveys.numbers {frame : RecordedFrame} {sent : Frame} (conveyed : Conveys frame sent) :
    sent.carList.map (fun car => car.driverNum.toInt) = frame.cars.map Car.driverNum := by
  rw [← List.forall₂_eq_eq_eq, List.forall₂_map_left_iff, List.forall₂_map_right_iff]
  exact conveyed.cars.flip.imp fun _ _ decoded => (readCar_fields decoded).1

theorem Conveys.mem_carList_iff {frame : RecordedFrame} {sent : Frame} (conveyed : Conveys frame sent)
    (state : CarState) : state ∈ sent.carList ↔ ∃ car ∈ frame.cars, readCar car = some state := by
  constructor
  · intro member
    exact forall₂_exists conveyed.cars.flip member
  · rintro ⟨car, member, decoded⟩
    obtain ⟨other, member, same⟩ := forall₂_exists conveyed.cars member
    cases decoded.symm.trans same
    exact member

/-- Where every frame tells of the same drivers, each of them once, the last frame tells of them all. -/
theorem last_cars_stand {earlier : List RecordedFrame} {frame : RecordedFrame} {before : List Frame}
    {last : Frame} (apart : (frame.cars.map Car.driverNum).Nodup)
    (same : ∀ other ∈ earlier, ∀ car ∈ other.cars, car.driverNum ∈ frame.cars.map Car.driverNum)
    (conveyed : List.Forall₂ Conveys earlier before) (ends : Conveys frame last) (driver : Int64)
    (state : CarState) :
    (((before ++ [last]).flatMap Frame.carList).filter fun car => car.driverNum = driver).getLast? =
        some state ↔ state.driverNum = driver ∧ ∃ car ∈ frame.cars, readCar car = some state := by
  rw [← ends.numbers] at apart
  have once : ∀ one ∈ last.carList, ∀ two ∈ last.carList, one.driverNum = two.driverNum → one = two := by
    intro one member two member' numbers
    exact List.inj_on_of_nodup_map apart member member' (congrArg Int64.toInt numbers)
  rw [List.flatMap_append, List.flatMap_singleton, List.filter_append, List.getLast?_append,
    ← ends.mem_carList_iff]
  cases own : (last.carList.filter fun car => car.driverNum = driver).getLast? with
  | some shown =>
      obtain ⟨member, number⟩ := List.mem_filter.mp (List.mem_of_getLast? own)
      have number : shown.driverNum = driver := of_decide_eq_true number
      rw [Option.some_or, Option.some.injEq]
      constructor
      · rintro rfl
        exact ⟨number, member⟩
      · rintro ⟨number', member'⟩
        exact once shown member state member' (number.trans number'.symm)
  | none =>
      have absent : ∀ car ∈ last.carList, car.driverNum ≠ driver := by
        intro car member number
        have kept : car ∈ last.carList.filter fun car => car.driverNum = driver :=
          List.mem_filter.mpr ⟨member, decide_eq_true number⟩
        rw [List.getLast?_eq_none_iff.mp own] at kept
        cases kept
      rw [Option.none_or]
      constructor
      · intro told
        obtain ⟨member, number⟩ := List.mem_filter.mp (List.mem_of_getLast? told)
        obtain ⟨other, sent, member⟩ := List.mem_flatMap.mp member
        obtain ⟨recorded, listed, own⟩ := forall₂_exists conveyed.flip sent
        obtain ⟨car, raced, decoded⟩ := (own.mem_carList_iff state).mp member
        have known := same recorded listed car raced
        rw [← ends.numbers, List.mem_map] at known
        obtain ⟨here, member, equal⟩ := known
        refine absurd ?_ (absent here member)
        rw [← of_decide_eq_true number, ← Int64.toInt_inj, equal, (readCar_fields decoded).1]
      · rintro ⟨number, member⟩
        exact absurd number (absent state member)

/-- A snapshot that shows the frame `j` of a recording: the readings of that instant, nothing older, and
the race-control messages of the pass so far. -/
structure ShowsFrame (tables : Tables) (frames : List RecordedFrame) (j : Nat) (snapshot : Snapshot) :
    Prop where
  timeMs : (frames.map RecordedFrame.timeMs)[j]? = some snapshot.timeMs.toInt
  weather : ∃ tS, tables.tGridS[j]? = some tS ∧ tables.weatherAt tS = .ok snapshot.weather
  messages : snapshot.messages = keepLast maxMessages
    ((frames.take (j + 1)).flatMap fun frame => frame.messages.map goMessage)
  cars : ∃ cars frame, snapshot.cars = some cars ∧ frames[j]? = some frame ∧ ∀ driver state,
    cars.get? driver = some state ↔ state.driverNum = driver ∧ ∃ car ∈ frame.cars, readCar car = some state

/-- Of what was sent, the frames since the last wrap are those of the pass that is on. -/
theorem sinceRewind_conveyed {current : List RecordedFrame} {first last : RecordedFrame}
    (starts : first ∈ current.head?) (ends : last ∈ frames.getLast?) (wraps : first.timeMs < last.timeMs)
    (clock : current.Pairwise fun earlier later => earlier.timeMs ≤ later.timeMs) {laps : Nat}
    (conveyed : List.Forall₂ Conveys ((List.replicate laps frames).flatten ++ current) sent) :
    List.Forall₂ Conveys current (sinceRewind sent) := by
  obtain ⟨before, after, rfl, passed, due⟩ := forall₂_append conveyed
  have forward := forward_conveyed due clock
  cases laps with
  | zero =>
      cases passed
      rwa [List.nil_append, sinceRewind_forward forward]
  | succ laps =>
      rw [List.replicate_succ', List.flatten_append, List.flatten_singleton] at passed
      obtain ⟨older, pass, rfl, _, played⟩ := forall₂_append passed
      have ended := congrArg List.getLast? (map_conveyed Conveys.timeMs played)
      rw [List.getLast?_map, List.getLast?_map, ends, Option.map_some, Option.map_eq_some_iff] at ended
      obtain ⟨lastSent, newest, lastTime⟩ := ended
      have started := congrArg List.head? (map_conveyed Conveys.timeMs due)
      rw [List.head?_map, List.head?_map, starts, Option.map_some, Option.map_eq_some_iff] at started
      obtain ⟨firstSent, opens, firstTime⟩ := started
      have ends' : lastSent ∈ (older ++ pass).getLast? := by
        rw [List.getLast?_append, newest]
        rfl
      rwa [sinceRewind_append ends' opens (by rwa [Int64.lt_iff_toInt_lt, firstTime, lastTime]) forward]

theorem shows_conveyed (fit : tables.Fit) (recorded : Recorded tables frames)
    (lasts : ∀ first ∈ frames.head?, ∀ last ∈ frames.getLast?, first.timeMs < last.timeMs) {j laps : Nat}
    (within : j < frames.length)
    (conveyed : List.Forall₂ Conveys ((List.replicate laps frames).flatten ++ frames.take (j + 1)) sent)
    {snapshot : Snapshot} (summary : Summarises snapshot sent) : ShowsFrame tables frames j snapshot := by
  have found := List.getElem?_eq_getElem within
  obtain ⟨tS, here, written⟩ := recorded.frame_at found
  have some : frames ≠ [] := List.length_pos_iff.mp (by omega)
  -- The last frame sent is the one that is due.
  have split := conveyed
  rw [List.take_add_one, found, Option.toList_some, ← List.append_assoc] at split
  obtain ⟨before, ending, whole, earlier, due⟩ := forall₂_append split
  obtain ⟨last, ends, rfl⟩ : ∃ last, Conveys frames[j] last ∧ ending = [last] := by
    cases due with
    | cons first rest =>
        cases rest
        exact ⟨_, first, rfl⟩
  have members : ∀ other ∈ (List.replicate laps frames).flatten ++ frames.take j, other ∈ frames := by
    intro other member
    rcases List.mem_append.mp member with passed | current
    · obtain ⟨pass, copy, member⟩ := List.mem_flatten.mp passed
      exact List.eq_of_mem_replicate copy ▸ member
    · exact List.mem_of_mem_take current
  refine ⟨?_, ⟨tS, here, ?_⟩, ?_, ?_⟩
  · rw [summary.timeMs, whole, List.getLast?_concat, List.getElem?_map, found]
    exact congrArg Option.some ends.timeMs.symm
  · rw [summary.weather, weather_told recorded here laps, ← map_conveyed Conveys.weather conveyed,
      latest_eq_getLast?, List.filterMap_map, Option.or_none]
    rfl
  · obtain ⟨first, starts⟩ := Option.ne_none_iff_exists'.mp (mt List.head?_eq_none_iff.mp some)
    obtain ⟨final, closes⟩ := Option.ne_none_iff_exists'.mp (mt List.getLast?_eq_none_iff.mp some)
    have current := sinceRewind_conveyed (by rw [List.head?_take, if_neg (Nat.succ_ne_zero j)]; exact starts)
      closes (lasts first starts final closes) ((recorded.clock fit).sublist (List.take_sublist ..)) conveyed
    rw [summary.messages, List.flatMap_def, map_conveyed Conveys.messages current, ← List.flatMap_def]
  · obtain ⟨cars, held, stands⟩ := summary.cars
    refine ⟨cars, frames[j], held, found, fun driver state => ?_⟩
    rw [stands, whole]
    have apart : (frames[j].cars.map Car.driverNum).Nodup :=
      written.drivers.nodup_iff.mpr tables.drivers.distinct
    refine last_cars_stand apart (fun other member car raced => ?_) earlier ends driver state
    obtain ⟨i, listed⟩ := List.mem_iff_getElem?.mp (members other member)
    obtain ⟨_, _, written'⟩ := recorded.frame_at listed
    exact (written'.drivers.trans written.drivers.symm).mem_iff.mp (List.mem_map_of_mem raced)

theorem Numbered.summary {source : Replay.Source} (numbered : Numbered source) {nows : List Int64}
    (sends : nows ≠ []) (bound : nows.length < 2 ^ 63) (session mode label : String) :
    ∃ snapshot, foldFrames (newSnapshot session mode label) (source.events none nows) = .ok snapshot ∧
      snapshot.rev.toInt = nows.length ∧ Summarises snapshot (source.events none nows) := by
  have zero : (0 : Int64).toInt = (0 : Nat) := rfl
  have whole : source.lines = [] ++ source.lines := rfl
  have revs : (source.events none nows).map (fun frame => frame.rev.toInt) = _ :=
    numbered.played_revs zero whole (by rw [List.length_nil]; omega)
  rw [List.length_nil, Nat.zero_mul, Nat.zero_add] at revs
  have positive : ∀ frame ∈ source.events none nows, 0 < frame.rev := by
    intro frame member
    have listed := List.mem_map_of_mem (f := fun frame : Frame => frame.rev.toInt) member
    rw [revs, List.mem_map] at listed
    obtain ⟨rev, listed, same⟩ := listed
    rw [Int64.lt_iff_toInt_lt, ← same]
    exact Int.natCast_pos.mpr (List.mem_range'_1.mp listed).1
  have climb : (source.events none nows).Pairwise fun earlier later => earlier.rev < later.rev := by
    have ordered : ((source.events none nows).map fun frame => frame.rev.toInt).Pairwise (· < ·) := by
      rw [revs, List.pairwise_map]
      exact (List.pairwise_lt_range' 1).imp Int.ofNat_lt.mpr
    exact (List.pairwise_map.mp ordered).imp Int64.lt_iff_toInt_lt.mpr
  obtain ⟨snapshot, folded, summary, _⟩ := fold_is_history session mode label (source.events none nows)
  rw [appliedFrames_of_climb positive climb] at summary
  refine ⟨snapshot, folded, ?_, summary⟩
  have newest := congrArg List.getLast? revs
  rw [List.getLast?_map, List.getLast?_map, List.getLast?_range', if_neg (mt List.length_eq_zero_iff.mp sends),
    Option.map_some, Option.map_eq_some_iff] at newest
  obtain ⟨last, ends, rev⟩ := newest
  rw [summary.rev, ends, Option.map_some, Option.getD_some, rev]
  simp

/-- The clip that the recorder writes of its tables plays in a loop, and after any number of frames the
board shows the frame that is due, whatever was played before. -/
theorem recorded_race_plays (fit : tables.Fit) (written : tables.frames = .ok frames)
    (words : ∀ frame ∈ frames, Words frame)
    (lasts : ∀ first ∈ frames.head?, ∀ last ∈ frames.getLast?, first.timeMs < last.timeMs)
    (pieces : HeaderPieces) {header : Replay.ClipHeader}
    (read : Replay.ClipHeader.codec.unmarshal Replay.ClipHeader.codec.zero
      (headerLine pieces frames.length).text = some header) :
    ∃ source, loadRecorded pieces frames = some source ∧
      ∀ (nows : List Int64) (session mode label : String), nows ≠ [] → nows.length < 2 ^ 63 →
        ∃ snapshot, foldFrames (newSnapshot session mode label) (source.events none nows) = .ok snapshot ∧
          snapshot.rev.toInt = nows.length ∧
          ShowsFrame tables frames ((nows.length - 1) % frames.length) snapshot := by
  obtain ⟨_, computed, recorded⟩ := Tables.frames_spec fit
  cases written.symm.trans computed
  obtain ⟨source, loaded, _, max, lines, _⟩ := recorded_clip_loads fit written words pieces read
  refine ⟨source, loaded, fun nows session mode label sends bound => ?_⟩
  have length := lines.length_eq
  have some : 0 < frames.length := by
    rw [recorded.length]
    exact List.length_pos_iff.mpr fit.grid
  have numbered : Numbered source := {
    lined := List.length_pos_iff.mp (by omega)
    max := by rw [max, length]
    revs := by
      intro k line found
      obtain ⟨within, rfl⟩ := List.getElem?_eq_some_iff.mp found
      have inside : k < frames.length := by omega
      obtain ⟨_, _, written⟩ := recorded.frame_at (List.getElem?_eq_getElem inside)
      have own := (List.forall₂_iff_get.mp lines).2 k inside within
      rw [List.get_eq_getElem, List.get_eq_getElem] at own
      rw [own.rev, written.rev, Nat.cast_succ] }
  obtain ⟨snapshot, folded, rev, summary⟩ := numbered.summary sends bound session mode label
  refine ⟨snapshot, folded, rev, ?_⟩
  have within := Nat.mod_lt (nows.length - 1) some
  have conveyed := played_conveys lines nows
  have count : nows.length = (nows.length - 1) / frames.length * frames.length +
      ((nows.length - 1) % frames.length + 1) := by
    have one := List.length_pos_iff.mpr sends
    have divided := Nat.div_add_mod' (nows.length - 1) frames.length
    omega
  rw [count, cycle_laps frames _ within] at conveyed
  exact shows_conveyed fit recorded lasts within conveyed summary

/-- One of the two parked cars, by itself. -/
def oneParked : Tables := { twoParked with drivers := .ofMembers [(44, parked "HAM" "Ferrari")] }

theorem oneParked_fit : oneParked.Fit where
  grid := twoParked_fit.grid
  clock := twoParked_fit.clock
  drivers := by
    have one : oneParked.drivers.entries = [(44, parked "HAM" "Ferrari")] := rfl
    rw [one, List.forall_mem_singleton]
    exact parked_fits ..
  wxClock := twoParked_fit.wxClock
  wxValues := twoParked_fit.wxValues

theorem frameCars_one (tables : Tables) (number : Int) (driver : DriverFrames) (curve : Curve) (i : Nat)
    (tS : Rat) : tables.frameCars [(number, driver, curve)] i tS = (do
      let car ← driver.car number i tS
      let cars := [(curve, { car with pos := some 1 })]
      gapPass tables.tGridS tables.lapLengthM i tS (← leaderOf i cars) none cars) := by
  simp only [Tables.frameCars, List.mergeSort_singleton, List.mapM_cons, List.mapM_nil]
  cases driver.car number i tS with
  | error raised => rfl
  | ok car =>
      simp only [ok_bind, pure_eq_ok, reconcile, List.mergeSort_singleton, List.mapIdx_cons, List.mapIdx_nil]
      rfl

theorem oneParked_words : (oneParked.frames.toOption.all fun frames =>
    (∀ frame ∈ frames, Words frame) ∧ frames.map RecordedFrame.timeMs = [0, 2000]) = true := by
  have only : oneParked.drivers.entries = [(44, parked "HAM" "Ferrari")] := rfl
  have grid : oneParked.tGridS = [0, 2] := rfl
  have start : item ([0, 2] : List Rat) 0 = .ok 0 := rfl
  simp only [Tables.frames, Tables.curves, DriverFrames.curve, only, grid, start, List.mapM_cons,
    List.mapM_nil, ok_bind, pure_eq_ok, Tables.emit, frameCars_one]
  decide +kernel

def parkedPieces : HeaderPieces where
  track := .arr []
  corners := .arr []
  label := "Parked"
  radio := []
  lapTrace := .obj []
  totalLaps := .int 3
  stints := .obj []
  pitStops := .obj []
  pedalTraces := .obj []
  sectorDominance := .arr []

theorem parkedPieces_read : (Replay.ClipHeader.codec.unmarshal Replay.ClipHeader.codec.zero
    (headerLine parkedPieces 2).text).isSome = true := by
  decide +kernel

/-- The third frame that is sent is the first one again. -/
theorem recorded_race_plays_oneParked : ∃ frames source snapshot, oneParked.frames = .ok frames ∧
    loadRecorded parkedPieces frames = some source ∧
    foldFrames (newSnapshot "demo" "replay" "") (source.events none [7, 8, 9]) = .ok snapshot ∧
    snapshot.rev.toInt = 3 ∧ ShowsFrame oneParked frames 0 snapshot := by
  obtain ⟨frames, written, recorded⟩ := Tables.frames_spec oneParked_fit
  have words := oneParked_words
  rw [written] at words
  obtain ⟨words, times⟩ := of_decide_eq_true words
  have two : frames.length = 2 := recorded.length
  obtain ⟨header, read⟩ := Option.isSome_iff_exists.mp parkedPieces_read
  obtain ⟨source, loaded, plays⟩ := recorded_race_plays oneParked_fit written words (by
    intro first starts last ends
    have started := congrArg List.head? times
    have ended := congrArg List.getLast? times
    rw [List.head?_map, starts] at started
    rw [List.getLast?_map, ends] at ended
    rw [Option.some.inj started, Option.some.inj ended]
    decide) parkedPieces (two ▸ read)
  obtain ⟨snapshot, folded, rev, shows⟩ := plays [7, 8, 9] "demo" "replay" "" (by simp) (by simp)
  rw [two] at shows
  exact ⟨frames, source, snapshot, written, loaded, folded, rev, shows⟩

end RaceTracker.Seam
