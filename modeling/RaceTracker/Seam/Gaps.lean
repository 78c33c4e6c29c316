import RaceTracker.Ingest.Lines
import RaceTracker.Web.TimingHelpers

namespace RaceTracker.Seam

open RaceTracker.Lib RaceTracker.Ingest RaceTracker.Web

/-! The gap fields of a driver over a race, from the feed to the timing tower.

A gap in time and a gap in laps are written under different keys, and a patch that has one
leaves the other where it is.
-/

/-- What a `GapToLeader` text says. -/
inductive GapReading where
  | time (ms : Int)
  | laps (count : Int)
deriving DecidableEq

namespace GapReading

def inLaps : GapReading → Bool
  | time _ => false
  | laps _ => true

def time? : GapReading → Option Int
  | time ms => some ms
  | laps _ => none

def laps? : GapReading → Option Int
  | time _ => none
  | laps count => some count

end GapReading

/-- The last time and the last lap count: each outlives the readings of the other kind. -/
def lastOfEach (readings : List GapReading) : Option Int × Option Int :=
  ((readings.filterMap GapReading.time?).getLast?, (readings.filterMap GapReading.laps?).getLast?)

/-- The gap fields that follow the latest reading, and what the tower then shows. -/
structure Reflects (readings : List GapReading) (gapMs gapLaps : Option Int) : Prop where
  time : ∀ ms, readings.getLast? = some (.time ms) → gapMs = some ms ∧ gapLaps = none
  laps : ∀ count, readings.getLast? = some (.laps count) → gapMs = none ∧ gapLaps = some count
  nothing : readings.getLast? = none → gapMs = none ∧ gapLaps = none
  label : ∀ ms, readings.getLast? = some (.time ms) → ∀ smoothed isLeader secondsMode lastLapMs count,
    gapLabel smoothed (gapLaps.map Int.cast) isLeader secondsMode lastLapMs ≠ .laps count

theorem lastOfEach_append (readings : List GapReading) (reading : GapReading) :
    lastOfEach (readings ++ [reading]) =
      (reading.time?.or (lastOfEach readings).1, reading.laps?.or (lastOfEach readings).2) := by
  cases reading <;> simp [lastOfEach, GapReading.time?, GapReading.laps?]

theorem no_laps_iff {readings : List GapReading} :
    (lastOfEach readings).2 = none ↔ ∀ reading ∈ readings, reading.inLaps = false := by
  simp only [lastOfEach, List.getLast?_eq_none_iff, List.filterMap_eq_nil_iff]
  apply forall₂_congr
  intro reading _
  cases reading <;> simp [GapReading.laps?, GapReading.inLaps]

theorem no_time_iff {readings : List GapReading} :
    (lastOfEach readings).1 = none ↔ ∀ reading ∈ readings, reading.inLaps = true := by
  simp only [lastOfEach, List.getLast?_eq_none_iff, List.filterMap_eq_nil_iff]
  apply forall₂_congr
  intro reading _
  cases reading <;> simp [GapReading.time?, GapReading.inLaps]

theorem last_time {readings : List GapReading}
    (times : ∀ reading ∈ readings, reading.inLaps = false) (ms : Int) :
    (lastOfEach readings).1 = some ms ↔ readings.getLast? = some (.time ms) := by
  rcases List.eq_nil_or_concat' readings with rfl | ⟨init, reading, rfl⟩
  · exact iff_of_false nofun nofun
  · have time := times reading (by simp)
    cases reading with
    | time last => simp [lastOfEach_append, GapReading.time?]
    | laps count => cases time

theorem last_laps {readings : List GapReading}
    (laps : ∀ reading ∈ readings, reading.inLaps = true) (count : Int) :
    (lastOfEach readings).2 = some count ↔ readings.getLast? = some (.laps count) := by
  rcases List.eq_nil_or_concat' readings with rfl | ⟨init, reading, rfl⟩
  · exact iff_of_false nofun nofun
  · have lapped := laps reading (by simp)
    cases reading with
    | time ms => cases lapped
    | laps last => simp [lastOfEach_append, GapReading.laps?]

theorem reflects_of_fields {readings : List GapReading} {gapMs gapLaps : Option Int}
    (time : ∀ ms, readings.getLast? = some (.time ms) → gapMs = some ms ∧ gapLaps = none)
    (laps : ∀ count, readings.getLast? = some (.laps count) → gapMs = none ∧ gapLaps = some count)
    (nothing : readings.getLast? = none → gapMs = none ∧ gapLaps = none) :
    Reflects readings gapMs gapLaps := by
  refine ⟨time, laps, nothing, ?_⟩
  intro ms last smoothed isLeader secondsMode lastLapMs count
  rw [(time ms last).2]
  exact gapLabel_no_laps _ _ _ _ _

/-- Both fields follow the latest reading exactly if that was folded last, and no folded reading is
of the other kind. -/
theorem reflects_iff (folded readings : List GapReading) :
    Reflects readings (lastOfEach folded).1 (lastOfEach folded).2 ↔
      folded.getLast? = readings.getLast? ∧ ∀ reading ∈ folded, ∀ last,
        readings.getLast? = some last → reading.inLaps = last.inLaps := by
  cases latest : readings.getLast? with
  | none =>
      constructor
      · intro reflects
        obtain ⟨times, laps⟩ := reflects.nothing latest
        refine ⟨?_, nofun⟩
        rw [List.getLast?_eq_none_iff, List.eq_nil_iff_forall_not_mem]
        intro reading member
        cases (no_time_iff.mp times reading member).symm.trans (no_laps_iff.mp laps reading member)
      · rintro ⟨nothing, _⟩
        obtain rfl := List.getLast?_eq_none_iff.mp nothing
        exact reflects_of_fields (by simp [latest]) (by simp [latest]) fun _ => ⟨rfl, rfl⟩
  | some last =>
      cases last with
      | time ms =>
          constructor
          · intro reflects
            obtain ⟨time, laps⟩ := reflects.time ms latest
            have times := no_laps_iff.mp laps
            exact ⟨(last_time times ms).mp time, fun reading member _ same =>
              Option.some.inj same ▸ times reading member⟩
          · rintro ⟨same, kinds⟩
            have times : ∀ reading ∈ folded, reading.inLaps = false :=
              fun reading member => kinds reading member _ rfl
            refine reflects_of_fields ?_ (by simp [latest]) (by simp [latest])
            intro other found
            cases latest.symm.trans found
            exact ⟨(last_time times ms).mpr same, no_laps_iff.mpr times⟩
      | laps count =>
          constructor
          · intro reflects
            obtain ⟨time, lapped⟩ := reflects.laps count latest
            have laps := no_time_iff.mp time
            exact ⟨(last_laps laps count).mp lapped, fun reading member _ same =>
              Option.some.inj same ▸ laps reading member⟩
          · rintro ⟨same, kinds⟩
            have laps : ∀ reading ∈ folded, reading.inLaps = true :=
              fun reading member => kinds reading member _ rfl
            refine reflects_of_fields (by simp [latest]) ?_ (by simp [latest])
            intro other found
            cases latest.symm.trans found
            exact ⟨no_time_iff.mpr laps, (last_laps laps count).mpr same⟩

variable {γ β : Type} (builtins : Builtins γ β)

def gapReading (line : List (String × Json)) : Option GapReading :=
  match builtins.readGap line with
  | .ok (some ms, _) => some (.time ms)
  | .ok (none, some count) => some (.laps count)
  | _ => none

/-- A driver's patch in a TimingData payload. -/
def lineOf (number : String) (payload : List (String × Json)) : Option (List (String × Json)) :=
  match Json.lookup "Lines" payload with
  | some (.obj lines) => match (Dict.ofMembers lines).get? number with
      | some (.obj line) => some line
      | _ => none
  | _ => none

/-- The entries up to a driver's own, and that one, get past the parsers. -/
def reaches (number : String) (payload : List (String × Json)) : Bool :=
  match Json.lookup "Lines" payload with
  | some (.obj lines) =>
      let entries := Dict.ofMembers lines
      (entries.entries.takeWhile fun entry => entry.1 ≠ number).all builtins.quietTimingEntry &&
        (entries.get? number).all fun value => builtins.quietTimingEntry (number, value)
  | _ => false

/-- What a payload says about a driver's gap, if that can be parsed. -/
def readingOf (number : String) (payload : List (String × Json)) : Option GapReading :=
  (lineOf number payload).bind (gapReading builtins)

/-- The TimingData payloads of a session, one after the other. -/
def applyAllTimingData (positions : Dict String Int) (payloads : List (List (String × Json))) :
    Dict String Int × Dict String Timing :=
  payloads.foldl (fun state payload => (applyTimingData builtins state.1 state.2 payload).1)
    (positions, .empty)

/-- The gap fields under a racing number. -/
def gapFields (extra : Dict String Timing) (number : String) : Option Int × Option Int :=
  let timing := (extra.get? number).getD .none
  (timing.gapMs, timing.gapLaps)

theorem parseGapText_kind {text : String} {gapMs gapLaps : Option Int}
    (parsed : builtins.parseGapText text = .ok (gapMs, gapLaps)) : gapMs = none ∨ gapLaps = none := by
  rw [Builtins.parseGapText] at parsed
  simp only at parsed
  split at parsed
  · split at parsed
    · cases parsed
      exact .inl rfl
    · split at parsed <;> cases parsed
      exact .inl rfl
  · obtain ⟨gap, _, made⟩ := bind_eq_ok_iff.mp parsed
    cases made
    exact .inr rfl

theorem readGap_kind {line : List (String × Json)} {gapMs gapLaps : Option Int}
    (read : builtins.readGap line = .ok (gapMs, gapLaps)) : gapMs = none ∨ gapLaps = none := by
  rw [Builtins.readGap] at read
  split at read
  · rename_i gap _
    unfold Builtins.parseGapStr at read
    simp only at read
    split at read
    · cases read
      exact .inl rfl
    · exact parseGapText_kind builtins read
  · cases read
    exact .inl rfl

theorem readGap_eq {line : List (String × Json)} {gap : Option Int × Option Int}
    (read : builtins.readGap line = .ok gap) :
    gap.1 = (gapReading builtins line).bind GapReading.time? ∧
      gap.2 = (gapReading builtins line).bind GapReading.laps? := by
  obtain ⟨gapMs, gapLaps⟩ := gap
  have kind := readGap_kind builtins read
  rw [gapReading]
  rw [read]
  cases gapMs with
  | none => cases gapLaps <;> exact ⟨rfl, rfl⟩
  | some ms =>
      obtain rfl := kind.resolve_left nofun
      exact ⟨rfl, rfl⟩

theorem gapFields_merged (extra : Dict String Timing) (number : String) (parsed : Timing) :
    gapFields (merged extra number parsed) number =
      (parsed.gapMs.or (gapFields extra number).1, parsed.gapLaps.or (gapFields extra number).2) := by
  unfold gapFields
  rw [get?_merged]
  by_cases nothing : parsed = .none
  · subst nothing
    simp [Timing.none]
  · simp [nothing, Timing.update]

/-- One entry, whatever it is: the fields take what it says, if it gets past the parsers. -/
theorem gapFields_line (state : Dict String Int × Dict String Timing) (number : String)
    (value : Json) :
    gapFields (timingLine builtins state (number, value)).1.2 number =
      let reading := match value with
        | .obj line =>
            if builtins.quietTimingEntry (number, value) then gapReading builtins line else none
        | _ => none
      ((reading.bind GapReading.time?).or (gapFields state.2 number).1,
        (reading.bind GapReading.laps?).or (gapFields state.2 number).2) := by
  cases value with
  | obj line =>
      have calm := timingLine_tells builtins state (number, .obj line)
      rw [timingLine_obj] at calm ⊢
      cases position : builtins.readPosition line with
      | error error =>
          rw [position] at calm
          simp [← calm]
      | ok position' =>
          rw [position] at calm
          cases parsed : builtins.parseTimingLine line with
          | error error =>
              rw [parsed] at calm
              simp [← calm]
          | ok timing =>
              rw [parsed] at calm
              rw [builtins.parseTimingLine_eq] at parsed
              obtain ⟨lap, _, rest⟩ := bind_eq_ok_iff.mp parsed
              obtain ⟨gap, read, rest⟩ := bind_eq_ok_iff.mp rest
              obtain ⟨intMs, _, rest⟩ := bind_eq_ok_iff.mp rest
              obtain ⟨lastLapMs, _, made⟩ := bind_eq_ok_iff.mp rest
              cases made
              obtain ⟨time, laps⟩ := readGap_eq builtins read
              simp only [gapFields_merged, time, laps]
              simp [← calm]
  | _ => rfl

/-- Of a whole payload, only the entries up to a driver's own matter to it. -/
theorem timing_of_own (state : Dict String Int × Dict String Timing) (lines : List (String × Json))
    (number : String) :
    timingOf (foldUntil (timingLine builtins) state (Dict.ofMembers lines).entries).1 number =
      timingOf ((if ((Dict.ofMembers lines).entries.takeWhile
          fun entry => entry.1 ≠ number).all builtins.quietTimingEntry then
            ((Dict.ofMembers lines).get? number).toList.map (number, ·)
          else []).foldl (fun state entry => (timingLine builtins state entry).1) state) number := by
  rw [foldUntil_reached (timingLine_tells builtins), (timingLine_keyed builtins).view_foldl,
    reached_of_key (Dict.ofMembers lines).distinct number]
  rfl

theorem gapFields_step (positions : Dict String Int) (extra : Dict String Timing) (number : String)
    (payload : List (String × Json)) :
    gapFields (applyTimingData builtins positions extra payload).1.2 number =
      let reading :=
        if reaches builtins number payload then readingOf builtins number payload else none
      ((reading.bind GapReading.time?).or (gapFields extra number).1,
        (reading.bind GapReading.laps?).or (gapFields extra number).2) := by
  unfold applyTimingData overLines reaches readingOf lineOf
  cases Json.lookup "Lines" payload with
  | none => rfl
  | some value =>
      cases value with
      | obj lines =>
          have same := congrArg (fun view => ((view.2.getD .none).gapMs, (view.2.getD .none).gapLaps))
            (timing_of_own builtins (positions, extra) lines number)
          apply same.trans
          simp only
          by_cases before : ((Dict.ofMembers lines).entries.takeWhile
              fun entry => entry.1 ≠ number).all builtins.quietTimingEntry = true
          · rw [if_pos before, before, Bool.true_and]
            cases (Dict.ofMembers lines).get? number with
            | none => rfl
            | some value =>
                apply (gapFields_line builtins (positions, extra) number value).trans
                cases value with
                | obj line => rfl
                | _ => rfl
          · rw [if_neg before, Bool.eq_false_iff.mpr before, Bool.false_and]
            rfl
      | _ => rfl

/-- After any payloads, each field holds the last folded reading of its kind. -/
theorem gapFields_run (positions : Dict String Int) (number : String)
    (payloads : List (List (String × Json))) :
    gapFields (applyAllTimingData builtins positions payloads).2 number =
      lastOfEach ((payloads.filter (reaches builtins number)).filterMap (readingOf builtins number)) := by
  induction payloads using List.reverseRecOn with
  | nil => rfl
  | append_singleton before payload ih =>
      unfold applyAllTimingData at ih ⊢
      rw [List.foldl_append, List.foldl_cons, List.foldl_nil, gapFields_step, ih, List.filter_append,
        List.filterMap_append]
      by_cases comes : reaches builtins number payload = true
      · rw [if_pos comes, List.filter_cons_of_pos comes]
        cases said : readingOf builtins number payload with
        | none => simp [said]
        | some reading => simp [said, lastOfEach_append]
      · rw [if_neg comes, List.filter_cons_of_neg comes]
        simp

/-- The gap fields follow the latest reading exactly if that was folded last, and no reading of the
other kind was folded before it. -/
theorem gap_follows_latest_iff (positions : Dict String Int) (number : String)
    (payloads : List (List (String × Json))) :
    let readings := payloads.filterMap (readingOf builtins number)
    let folded := (payloads.filter (reaches builtins number)).filterMap (readingOf builtins number)
    let fields := gapFields (applyAllTimingData builtins positions payloads).2 number
    Reflects readings fields.1 fields.2 ↔
      folded.getLast? = readings.getLast? ∧ ∀ reading ∈ folded, ∀ last,
        readings.getLast? = some last → reading.inLaps = last.inLaps := by
  intro readings folded fields
  have held : fields = lastOfEach folded := gapFields_run builtins positions number payloads
  rw [held]
  exact reflects_iff folded readings

/-- A car that unlaps itself. -/
def unlapped : List (List (String × Json)) :=
  ["1L", "+5.0"].map fun gap => [("Lines", .obj [("44", .obj [("GapToLeader", .str gap)])])]

def secondsBuiltins : Builtins Rat Unit :=
  { plainBuiltins with
    milliseconds := fun text => if text = "+5.0" then .ok 5000 else .error .valueError }

/-- The lap deficit outlives the time that follows it, and the tower shows it. -/
theorem old_lap_deficit_stays :
    (unlapped.filterMap (readingOf secondsBuiltins "44")).getLast? = some (.time 5000) ∧
      gapFields (applyAllTimingData secondsBuiltins .empty unlapped).2 "44" = (some 5000, some 1) ∧
      gapLabel (some 5000) (some 1) false false (some 90000) = .laps 1 ∧
      ¬ Reflects (unlapped.filterMap (readingOf secondsBuiltins "44"))
        (gapFields (applyAllTimingData secondsBuiltins .empty unlapped).2 "44").1
        (gapFields (applyAllTimingData secondsBuiltins .empty unlapped).2 "44").2 := by
  have latest : (unlapped.filterMap (readingOf secondsBuiltins "44")).getLast? =
      some (.time 5000) := by
    decide
  have fields : gapFields (applyAllTimingData secondsBuiltins .empty unlapped).2 "44" =
      (some 5000, some 1) := by
    decide
  refine ⟨latest, fields, by decide, ?_⟩
  intro reflects
  have cleared := (reflects.time 5000 latest).2
  rw [fields] at cleared
  cases cleared

end RaceTracker.Seam
