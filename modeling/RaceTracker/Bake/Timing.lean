import Mathlib.Data.List.Induction
import Mathlib.Data.NNRat.Defs
import RaceTracker.Bake.Resample
import RaceTracker.Lib.StableSort

namespace RaceTracker.Bake

open RaceTracker.Lib

/-! The pit wall's numbers of one driver at an instant, looked up in the table of the laps. -/

/-- A row of the lap table; what is NaT or NaN there is `none`. -/
structure Lap where
  lapStartTime : Option Rat
  lapTime : Option ℚ≥0
  sector1Time : Option ℚ≥0
  sector2Time : Option ℚ≥0
  sector3Time : Option ℚ≥0
  compound : Option String
  tyreLife : Option Rat
deriving DecidableEq

/-- `_ms`: seconds to whole milliseconds, 0 for a time that is missing. -/
def ms (td : Option ℚ≥0) : Int :=
  match td with
  | none => 0
  | some seconds => roundHalfEven (seconds * 1000)

/-- The times that are current from `completeAt` on. -/
structure Event where
  startS : Rat
  completeAt : Rat
  lastLapMs : Int
  bestLapMs : Int
  s1Ms : Int
  s2Ms : Int
  s3Ms : Int

def bestOf (bestMs lastMs : Int) : Int :=
  if 0 < lastMs then (if bestMs = 0 then lastMs else min bestMs lastMs) else bestMs

def lapEvent (startS : Rat) (bestMs : Int) (lap : Lap) : Event where
  startS := startS
  completeAt := if 0 < ms lap.lapTime then startS + ms lap.lapTime / 1000 else startS
  lastLapMs := ms lap.lapTime
  bestLapMs := bestMs
  s1Ms := ms lap.sector1Time
  s2Ms := ms lap.sector2Time
  s3Ms := ms lap.sector3Time

/-- The laps with a start, in the order of the table, the best time running along. -/
def eventsFrom (bestMs : Int) : List Lap → List Event
  | [] => []
  | lap :: rest =>
      match lap.lapStartTime with
      | none => eventsFrom bestMs rest
      | some startS =>
          let bestMs := bestOf bestMs (ms lap.lapTime)
          lapEvent startS bestMs lap :: eventsFrom bestMs rest

def startsFirst (left right : Event) : Bool := left.startS ≤ right.startS

/-- `timing_lookup` of one driver. -/
def timingLookup (laps : List Lap) : List Event := (eventsFrom 0 laps).mergeSort startsFirst

/-- `tyre_lookup` of one driver; the names of the compounds are ASCII. -/
def tyreLookup (laps : List Lap) : List Rat × List (String × Int) :=
  (laps.filterMap fun lap => lap.lapStartTime.map fun startS =>
    (startS, ((lap.compound.getD "").toUpper,
      (lap.tyreLife.map fun life => life.num.tdiv life.den).getD 0))).unzip

structure Timing where
  tyre : String
  tyreAge : Int
  lastLapMs : Int
  bestLapMs : Int
  s1Ms : Int
  s2Ms : Int
  s3Ms : Int
deriving DecidableEq

/-- The scan over the events; the first lap that starts later ends it. -/
def scanEvents (tS : Rat) (shown : Option Event) : List Event → Option Event
  | [] => shown
  | event :: rest =>
      if event.completeAt ≤ tS then scanEvents tS (some event) rest
      else if tS < event.startS then shown
      else scanEvents tS shown rest

def getTiming (laps : List Lap) (tS : Rat) : Timing :=
  let (starts, values) := tyreLookup laps
  let (tyre, tyreAge) := stepValue starts values tS ("", 0)
  let shown := scanEvents tS none (timingLookup laps)
  { tyre, tyreAge
    lastLapMs := (shown.map Event.lastLapMs).getD 0
    bestLapMs := (shown.map Event.bestLapMs).getD 0
    s1Ms := (shown.map Event.s1Ms).getD 0
    s2Ms := (shown.map Event.s2Ms).getD 0
    s3Ms := (shown.map Event.s3Ms).getD 0 }

/-- A lap time that rounds to nothing is as good as missing. -/
def Timed (lap : Lap) : Prop := 0 < ms lap.lapTime

instance (lap : Lap) : Decidable (Timed lap) := inferInstanceAs (Decidable (0 < ms lap.lapTime))

/-- A lap without a time may be over once the next one has started. -/
def Completed (laps : List Lap) (t : Rat) (lap : Lap) : Prop :=
  ∃ startS ∈ lap.lapStartTime,
    (Timed lap ∧ startS + ms lap.lapTime / 1000 ≤ t) ∨
    (¬ Timed lap ∧ ∃ other ∈ laps, ∃ next ∈ other.lapStartTime, startS < next ∧ next ≤ t)

def sectors : List ((Timing → Int) × (Lap → Option ℚ≥0)) :=
  [(Timing.s1Ms, Lap.sector1Time), (Timing.s2Ms, Lap.sector2Time), (Timing.s3Ms, Lap.sector3Time)]

/-- Nothing is shown but the times of completed laps, and the last of them that is known. -/
structure Causal (laps : List Lap) (t : Rat) (timing : Timing) : Prop where
  last : timing.lastLapMs = 0 ∨
    ∃ lap ∈ laps, Completed laps t lap ∧ ms lap.lapTime = timing.lastLapMs
  best : timing.bestLapMs = 0 ∨
    ∃ lap ∈ laps, Completed laps t lap ∧ ms lap.lapTime = timing.bestLapMs
  sectors : ∀ sector ∈ sectors, sector.1 timing = 0 ∨
    ∃ lap ∈ laps, Completed laps t lap ∧ ms (sector.2 lap) = sector.1 timing
  latest : (∃ lap ∈ laps, Timed lap ∧ Completed laps t lap) →
    ∃ lap ∈ laps, Timed lap ∧ Completed laps t lap ∧ ms lap.lapTime = timing.lastLapMs ∧
      ∀ other ∈ laps, Timed other → Completed laps t other →
        ∀ s ∈ other.lapStartTime, ∀ startS ∈ lap.lapStartTime, s ≤ startS

/-- Completed by its time, or started and without one. -/
def Due (t : Rat) (lap : Lap) : Prop :=
  ∃ startS ∈ lap.lapStartTime,
    if Timed lap then startS + ms lap.lapTime / 1000 ≤ t else startS ≤ t

/-- The lap with the latest start among those that are due; of equal starts the last listed. -/
structure Latest (laps : List Lap) (t : Rat) (front : List Lap) (lap : Lap) (back : List Lap) :
    Prop where
  table : laps = front ++ lap :: back
  due : Due t lap
  earlier : ∀ other ∈ front, Due t other →
    ∀ s ∈ other.lapStartTime, ∀ startS ∈ lap.lapStartTime, s ≤ startS
  later : ∀ other ∈ back, Due t other →
    ∀ s ∈ other.lapStartTime, ∀ startS ∈ lap.lapStartTime, s < startS

/-- The least lap time in a table. -/
def FastestTime (laps : List Lap) (time : Int) : Prop :=
  (∃ lap ∈ laps, lap.lapStartTime.isSome ∧ Timed lap ∧ ms lap.lapTime = time) ∧
    ∀ lap ∈ laps, lap.lapStartTime.isSome → Timed lap → time ≤ ms lap.lapTime

/-- The latest lap that is due does not give away anything. -/
inductive Harmless (laps : List Lap) (t : Rat) (front : List Lap) (lap : Lap) : Prop where
  /-- It is timed, and the fastest lap listed so far is as fast as one that is completed. -/
  | timed (own : Timed lap) (fastest : ∃ other ∈ laps, Timed other ∧ Completed laps t other ∧
      FastestTime (front ++ [lap]) (ms other.lapTime))
  /-- It has no time, nor has any lap before it, and a sector time that it has is known already. -/
  | untimed (own : ¬ Timed lap) (first : ∀ other ∈ laps, Timed other → ¬ Completed laps t other)
      (quiet : ∀ other ∈ front, other.lapStartTime.isSome → ¬ Timed other)
      (known : ∀ sector ∈ sectors, ms (sector.2 lap) = 0 ∨
        ∃ other ∈ laps, Completed laps t other ∧ ms (sector.2 other) = ms (sector.2 lap))

variable {laps front back rest : List Lap} {lap : Lap} {t startS : Rat}

theorem ms_nonneg (td : Option ℚ≥0) : 0 ≤ ms td := by
  cases td with
  | none => exact le_refl 0
  | some seconds => exact roundHalfEven_nonneg (mul_nonneg seconds.coe_nonneg (by norm_num))

theorem ms_eq_zero (untimed : ¬ Timed lap) : ms lap.lapTime = 0 :=
  le_antisymm (not_lt.mp untimed) (ms_nonneg _)

/-- The best time once these laps are listed. -/
def bestsFrom (bestMs : Int) (laps : List Lap) : Int :=
  laps.foldl (fun bestMs lap =>
    if lap.lapStartTime.isSome then bestOf bestMs (ms lap.lapTime) else bestMs) bestMs

theorem bestsFrom_snoc (bestMs : Int) (laps : List Lap) (lap : Lap) :
    bestsFrom bestMs (laps ++ [lap]) =
      if lap.lapStartTime.isSome then bestOf (bestsFrom bestMs laps) (ms lap.lapTime)
      else bestsFrom bestMs laps := by
  rw [bestsFrom, List.foldl_append]
  rfl

theorem FastestTime.positive {time : Int} (fastest : FastestTime laps time) : 0 < time := by
  obtain ⟨⟨lap, -, -, timed, rfl⟩, -⟩ := fastest
  exact timed

theorem FastestTime.unique {time time' : Int} (one : FastestTime laps time)
    (two : FastestTime laps time') : time = time' := by
  obtain ⟨⟨lap, member, started, timed, rfl⟩, least⟩ := one
  obtain ⟨⟨lap', member', started', timed', rfl⟩, least'⟩ := two
  exact le_antisymm (least lap' member' started' timed') (least' lap member started timed)

theorem FastestTime.first (idle : ∀ other ∈ laps, other.lapStartTime.isSome → ¬ Timed other)
    (started : lap.lapStartTime.isSome) (timed : Timed lap) :
    FastestTime (laps ++ [lap]) (ms lap.lapTime) := by
  refine ⟨⟨lap, by simp, started, timed, rfl⟩, fun other listed own counts => ?_⟩
  rcases List.mem_append.mp listed with old | last
  · exact absurd counts (idle other old own)
  · rw [List.mem_singleton.mp last]

theorem FastestTime.snoc {time : Int} (fastest : FastestTime laps time)
    (started : lap.lapStartTime.isSome) (timed : Timed lap) :
    FastestTime (laps ++ [lap]) (min time (ms lap.lapTime)) := by
  obtain ⟨⟨fast, member, fastStarted, fastTimed, same⟩, least⟩ := fastest
  constructor
  · rcases le_total time (ms lap.lapTime) with le | le
    · rw [min_eq_left le]
      exact ⟨fast, List.mem_append_left _ member, fastStarted, fastTimed, same⟩
    · rw [min_eq_right le]
      exact ⟨lap, by simp, started, timed, rfl⟩
  · intro other listed own counts
    rcases List.mem_append.mp listed with old | last
    · exact (min_le_left _ _).trans (least other old own counts)
    · rw [List.mem_singleton.mp last]
      exact min_le_right _ _

theorem skip_uncounted (uncounted : ¬ (lap.lapStartTime.isSome ∧ Timed lap)) {P : Lap → Prop}
    (old : ∀ other ∈ laps, other.lapStartTime.isSome → Timed other → P other) :
    ∀ other ∈ laps ++ [lap], other.lapStartTime.isSome → Timed other → P other := by
  intro other listed own timed
  rcases List.mem_append.mp listed with member | last
  · exact old other member own timed
  · rw [List.mem_singleton.mp last] at own timed
    exact absurd ⟨own, timed⟩ uncounted

theorem bestOf_uncounted (uncounted : ¬ (lap.lapStartTime.isSome ∧ Timed lap)) (bestMs : Int) :
    (if lap.lapStartTime.isSome then bestOf bestMs (ms lap.lapTime) else bestMs) = bestMs := by
  by_cases started : lap.lapStartTime.isSome
  · have idle : ¬ 0 < ms lap.lapTime := fun timed => uncounted ⟨started, timed⟩
    rw [if_pos started, bestOf, if_neg idle]
  · rw [if_neg started]

/-- The running best is the least of the lap times, and 0 before there is one. -/
theorem bestsFrom_spec (laps : List Lap) :
    (bestsFrom 0 laps = 0 ∧ ∀ lap ∈ laps, lap.lapStartTime.isSome → ¬ Timed lap) ∨
      FastestTime laps (bestsFrom 0 laps) := by
  induction laps using List.reverseRecOn with
  | nil => exact .inl ⟨rfl, by simp⟩
  | append_singleton laps lap ih =>
      rw [bestsFrom_snoc]
      by_cases counts : lap.lapStartTime.isSome ∧ Timed lap
      · obtain ⟨started, timed⟩ := counts
        refine .inr ?_
        rw [if_pos started, bestOf, if_pos (show 0 < ms lap.lapTime from timed)]
        rcases ih with ⟨zero, idle⟩ | fastest
        · rw [if_pos zero]
          exact .first idle started timed
        · rw [if_neg fastest.positive.ne']
          exact fastest.snoc started timed
      · rw [bestOf_uncounted counts]
        rcases ih with ⟨zero, idle⟩ | ⟨⟨fast, member, rest⟩, least⟩
        · exact .inl ⟨zero, skip_uncounted counts idle⟩
        · exact .inr ⟨⟨fast, List.mem_append_left _ member, rest⟩, skip_uncounted counts least⟩

theorem eventsFrom_append (bestMs : Int) (front back : List Lap) :
    eventsFrom bestMs (front ++ back) =
      eventsFrom bestMs front ++ eventsFrom (bestsFrom bestMs front) back := by
  induction front generalizing bestMs with
  | nil => rfl
  | cons lap front ih =>
      cases start : lap.lapStartTime with
      | none => simp [eventsFrom, start, ih, bestsFrom]
      | some startS => simp [eventsFrom, start, ih, bestsFrom]

theorem mem_eventsFrom {bestMs : Int} {event : Event} (member : event ∈ eventsFrom bestMs laps) :
    ∃ lap ∈ laps, ∃ startS ∈ lap.lapStartTime, ∃ bestMs, event = lapEvent startS bestMs lap := by
  induction laps generalizing bestMs with
  | nil => cases member
  | cons lap rest ih =>
      cases start : lap.lapStartTime with
      | none =>
          simp only [eventsFrom, start] at member
          obtain ⟨found, listed, own⟩ := ih member
          exact ⟨found, List.mem_cons_of_mem _ listed, own⟩
      | some startS =>
          simp only [eventsFrom, start, List.mem_cons] at member
          rcases member with same | later
          · exact ⟨lap, List.mem_cons_self .., startS, start, _, same⟩
          · obtain ⟨found, listed, own⟩ := ih later
            exact ⟨found, List.mem_cons_of_mem _ listed, own⟩

theorem due_iff (start : lap.lapStartTime = some startS) (bestMs : Int) :
    (lapEvent startS bestMs lap).completeAt ≤ t ↔ Due t lap := by
  simp only [Due, start, Option.mem_def, Option.some.injEq, exists_eq_left', lapEvent]
  by_cases timed : 0 < ms lap.lapTime
  · rw [if_pos timed, if_pos (show Timed lap from timed)]
  · rw [if_neg timed, if_neg (show ¬ Timed lap from timed)]

theorem startS_le_completeAt (bestMs : Int) (lap : Lap) :
    (lapEvent startS bestMs lap).startS ≤ (lapEvent startS bestMs lap).completeAt := by
  simp only [lapEvent]
  split
  · rename_i timed
    have positive : (0 : Rat) < ms lap.lapTime := by exact_mod_cast timed
    have share : (0 : Rat) < ms lap.lapTime / 1000 := by positivity
    linarith
  · exact le_refl startS

/-- The scan stops at no event that comes before one it has to show. -/
theorem scanEvents_eq {events : List Event} (sorted : events.Pairwise fun first second =>
      first.startS ≤ second.startS) (begun : ∀ event ∈ events, event.startS ≤ event.completeAt)
    (shown : Option Event) :
    scanEvents t shown events =
      (events.filter fun event => event.completeAt ≤ t).getLast?.or shown := by
  induction events generalizing shown with
  | nil => rfl
  | cons event rest ih =>
      obtain ⟨above, sorted⟩ := List.pairwise_cons.mp sorted
      have later := ih sorted fun event member => begun event (List.mem_cons_of_mem _ member)
      rw [scanEvents]
      split
      · rename_i due
        rw [later, List.filter_cons_of_pos (by simpa using due), List.getLast?_cons]
        cases (rest.filter fun event => event.completeAt ≤ t).getLast? <;> rfl
      · rename_i open'
        rw [List.filter_cons_of_neg (by simpa using open')]
        split
        · rename_i future
          have none : rest.filter (fun event => event.completeAt ≤ t) = [] := by
            rw [List.filter_eq_nil_iff]
            intro other member due
            have starts := begun other (List.mem_cons_of_mem _ member)
            have after := above other member
            have done := of_decide_eq_true due
            linarith
          rw [none]
          rfl
        · exact later shown

theorem startsFirst_trans (one two three : Event) (first : startsFirst one two)
    (second : startsFirst two three) : startsFirst one three := by
  simp only [startsFirst, decide_eq_true_eq] at *
  exact first.trans second

theorem startsFirst_total (one two : Event) : startsFirst one two || startsFirst two one := by
  simpa [startsFirst] using le_total one.startS two.startS

theorem shown_eq (laps : List Lap) (t : Rat) :
    scanEvents t none (timingLookup laps) =
      ((timingLookup laps).filter fun event => event.completeAt ≤ t).getLast? := by
  rw [scanEvents_eq, Option.or_none]
  · apply (List.pairwise_mergeSort startsFirst_trans startsFirst_total (eventsFrom 0 laps)).imp
    intro first second ordered
    exact of_decide_eq_true ordered
  · intro event member
    obtain ⟨lap, -, startS, -, bestMs, rfl⟩ := mem_eventsFrom (List.mem_mergeSort.mp member)
    exact startS_le_completeAt bestMs lap

theorem shown_none (none : ∀ lap ∈ laps, ¬ Due t lap) :
    scanEvents t Option.none (timingLookup laps) = Option.none := by
  rw [shown_eq, List.filter_eq_nil_iff.mpr]
  · rfl
  · intro event member due
    obtain ⟨lap, listed, startS, start, bestMs, rfl⟩ := mem_eventsFrom (List.mem_mergeSort.mp member)
    exact none lap listed ((due_iff start bestMs).mp (of_decide_eq_true due))

theorem Latest.shown (latest : Latest laps t front lap back) (start : lap.lapStartTime = some startS) :
    scanEvents t none (timingLookup laps) =
      some (lapEvent startS (bestsFrom 0 (front ++ [lap])) lap) := by
  have listed : eventsFrom 0 laps = eventsFrom 0 front ++
      lapEvent startS (bestsFrom 0 (front ++ [lap])) lap ::
        eventsFrom (bestsFrom 0 (front ++ [lap])) back := by
    rw [latest.table, eventsFrom_append, bestsFrom_snoc, eventsFrom]
    simp [start]
  rw [shown_eq, timingLookup, listed]
  refine getLast_chosen startsFirst_trans startsFirst_total ?_ ?_ ?_
  · exact decide_eq_true ((due_iff start _).mpr latest.due)
  · intro event member due
    obtain ⟨other, own, s, begins, bestMs, rfl⟩ := mem_eventsFrom member
    have ready := (due_iff begins bestMs).mp (of_decide_eq_true due)
    exact decide_eq_true (latest.earlier other own ready s begins startS start)
  · intro event member due level
    obtain ⟨other, own, s, begins, bestMs, rfl⟩ := mem_eventsFrom member
    have ready := (due_iff begins bestMs).mp (of_decide_eq_true due)
    exact absurd (of_decide_eq_true level) (latest.later other own ready s begins startS start).not_ge

theorem exists_latest (due : ∃ lap ∈ laps, Due t lap) :
    ∃ front lap back, Latest laps t front lap back := by
  induction laps with
  | nil => simp at due
  | cons first rest ih =>
      by_cases later : ∃ lap ∈ rest, Due t lap
      · obtain ⟨front, lap, back, table, ready, earlier, after⟩ := ih later
        by_cases beyond : Due t first ∧
            ∀ s ∈ first.lapStartTime, ∀ startS ∈ lap.lapStartTime, startS < s
        · refine ⟨[], first, rest, rfl, beyond.1, by simp, fun other member due s begins startS start => ?_⟩
          obtain ⟨lapStart, begun, -⟩ := ready
          have above := beyond.2 startS start lapStart begun
          rw [table, List.mem_append, List.mem_cons] at member
          rcases member with old | rfl | last
          · exact (earlier other old due s begins lapStart begun).trans_lt above
          · exact beyond.2 startS start s begins
          · exact (after other last due s begins lapStart begun).trans above
        · refine ⟨first :: front, lap, back, by rw [table]; rfl, ready, ?_, after⟩
          intro other member own s begins startS start
          rcases List.mem_cons.mp member with rfl | old
          · by_contra above
            refine beyond ⟨own, fun s' begins' startS' start' => ?_⟩
            rw [Option.mem_unique begins' begins, Option.mem_unique start' start]
            exact not_le.mp above
          · exact earlier other old own s begins startS start
      · obtain ⟨lap, member, ready⟩ := due
        rcases List.mem_cons.mp member with rfl | old
        · exact ⟨[], lap, rest, rfl, ready, by simp, fun other listed due =>
            absurd ⟨other, listed, due⟩ later⟩
        · exact absurd ⟨lap, old, ready⟩ later

theorem Completed.due (completed : Completed laps t lap) : Due t lap := by
  obtain ⟨startS, start, ⟨timed, past⟩ | ⟨untimed, other, -, next, -, later, reached⟩⟩ := completed
  · exact ⟨startS, start, by rwa [if_pos timed]⟩
  · exact ⟨startS, start, by rw [if_neg untimed]; exact later.le.trans reached⟩

theorem Due.completed (due : Due t lap) (timed : Timed lap) : Completed laps t lap := by
  obtain ⟨startS, start, past⟩ := due
  rw [if_pos timed] at past
  exact ⟨startS, start, .inl ⟨timed, past⟩⟩

theorem causal_of_none (none : ∀ lap ∈ laps, ¬ Due t lap) : Causal laps t (getTiming laps t) := by
  have shown := shown_none none
  refine ⟨.inl ?_, .inl ?_, ?_, ?_⟩
  · simp [getTiming, shown]
  · simp [getTiming, shown]
  · intro sector member
    refine .inl ?_
    simp only [sectors, List.mem_cons, List.not_mem_nil, or_false] at member
    rcases member with rfl | rfl | rfl <;> simp [getTiming, shown]
  · rintro ⟨lap, member, -, completed⟩
    exact absurd completed.due (none lap member)

/-- What is shown at `t`, told from the laps. -/
structure Shows (laps front : List Lap) (lap : Lap) (timing : Timing) : Prop where
  last : timing.lastLapMs = ms lap.lapTime
  best : timing.bestLapMs = bestsFrom 0 (front ++ [lap])
  sectors : ∀ sector ∈ sectors, sector.1 timing = ms (sector.2 lap)

theorem Latest.shows (latest : Latest laps t front lap back) :
    Shows laps front lap (getTiming laps t) := by
  obtain ⟨startS, start, -⟩ := latest.due
  have shown := latest.shown start
  refine ⟨?_, ?_, fun sector member => ?_⟩
  · simp [getTiming, shown, lapEvent]
  · simp [getTiming, shown, lapEvent]
  · simp only [sectors, List.mem_cons, List.not_mem_nil, or_false] at member
    rcases member with rfl | rfl | rfl <;> simp [getTiming, shown, lapEvent]

theorem Latest.top (latest : Latest laps t front lap back) {other : Lap} (member : other ∈ laps)
    (due : Due t other) : ∀ s ∈ other.lapStartTime, ∀ startS ∈ lap.lapStartTime, s ≤ startS := by
  intro s begins startS start
  rw [latest.table, List.mem_append, List.mem_cons] at member
  rcases member with old | rfl | later
  · exact latest.earlier other old due s begins startS start
  · exact (Option.mem_unique begins start).le
  · exact (latest.later other later due s begins startS start).le

theorem Latest.mem (latest : Latest laps t front lap back) : lap ∈ laps := by
  rw [latest.table]
  simp

/-- The running best of a table with a timed lap is its fastest time. -/
theorem bestsFrom_fastest {other : Lap} (member : other ∈ laps) (started : other.lapStartTime.isSome)
    (timed : Timed other) : FastestTime laps (bestsFrom 0 laps) :=
  (bestsFrom_spec laps).resolve_left fun idle => idle.2 other member started timed

theorem Latest.harmless (latest : Latest laps t front lap back)
    (causal : Causal laps t (getTiming laps t)) : Harmless laps t front lap := by
  have shows := latest.shows
  have started : lap.lapStartTime.isSome := by
    obtain ⟨startS, start, -⟩ := latest.due
    exact Option.isSome_of_mem start
  have best {other : Lap} (member : other ∈ front ++ [lap]) (own : other.lapStartTime.isSome)
      (timed : Timed other) : ∃ other ∈ laps, Timed other ∧ Completed laps t other ∧
        FastestTime (front ++ [lap]) (ms other.lapTime) := by
    have fastest := bestsFrom_fastest member own timed
    rcases causal.best with zero | ⟨found, listed, completed, same⟩
    · exact absurd (shows.best.symm.trans zero) fastest.positive.ne'
    · rw [← shows.best, ← same] at fastest
      exact ⟨found, listed, fastest.positive, completed, fastest⟩
  by_cases timed : Timed lap
  · exact .timed timed (best (by simp) started timed)
  · have first : ∀ other ∈ laps, Timed other → ¬ Completed laps t other := by
      intro other member own completed
      obtain ⟨found, -, positive, -, same, -⟩ := causal.latest ⟨other, member, own, completed⟩
      rw [shows.last, ms_eq_zero timed] at same
      exact positive.ne' same
    refine .untimed timed first (fun other member own before => ?_) fun sector member => ?_
    · obtain ⟨found, listed, own, completed, -⟩ := best (List.mem_append_left _ member) own before
      exact first found listed own completed
    · rw [← shows.sectors sector member]
      exact causal.sectors sector member

theorem Latest.causal (latest : Latest laps t front lap back) (harmless : Harmless laps t front lap) :
    Causal laps t (getTiming laps t) := by
  have shows := latest.shows
  cases harmless with
  | timed own fastest =>
      have completed : Completed laps t lap := latest.due.completed own
      refine ⟨.inr ⟨lap, latest.mem, completed, shows.last.symm⟩, .inr ?_, fun sector member => ?_, ?_⟩
      · obtain ⟨other, member, -, past, least⟩ := fastest
        obtain ⟨found, listed, started, timed, -⟩ := least.1
        exact ⟨other, member, past,
          (least.unique (bestsFrom_fastest listed started timed)).trans shows.best.symm⟩
      · exact .inr ⟨lap, latest.mem, completed, (shows.sectors sector member).symm⟩
      · exact fun _ => ⟨lap, latest.mem, own, completed, shows.last.symm,
          fun other member _ past => latest.top member past.due⟩
  | untimed own first quiet known =>
      refine ⟨.inl ?_, .inl ?_, fun sector member => ?_, ?_⟩
      · rw [shows.last, ms_eq_zero own]
      · rw [shows.best]
        refine ((bestsFrom_spec (front ++ [lap])).resolve_right fun fastest => ?_).1
        obtain ⟨⟨other, member, started, timed, -⟩, -⟩ := fastest
        rcases List.mem_append.mp member with old | last
        · exact quiet other old started timed
        · exact own (List.mem_singleton.mp last ▸ timed)
      · rw [shows.sectors sector member]
        exact known sector member
      · rintro ⟨other, member, timed, completed⟩
        exact absurd completed (first other member timed)

/-- In a table listed by start, a lap before that is as fast was over no later. -/
theorem Latest.harmless_of_ordered (latest : Latest laps t front lap back) (own : Timed lap)
    (ordered : laps.Pairwise fun first second =>
      ∀ s ∈ first.lapStartTime, ∀ startS ∈ second.lapStartTime, s ≤ startS) :
    Harmless laps t front lap := by
  obtain ⟨startS, start, past⟩ := latest.due
  rw [if_pos own] at past
  have listed : lap ∈ front ++ [lap] := by simp
  obtain ⟨⟨found, member, started, timed, same⟩, least⟩ :=
    bestsFrom_fastest listed (Option.isSome_of_mem start) own
  obtain ⟨s, begins⟩ := Option.isSome_iff_exists.mp started
  refine .timed own ⟨found, ?_, timed, ⟨s, begins, .inl ⟨timed, ?_⟩⟩, ?_⟩
  · rw [latest.table, List.append_cons]
    exact List.mem_append_left _ member
  · have faster : (ms found.lapTime : Rat) ≤ ms lap.lapTime := by
      rw [same]
      exact_mod_cast least lap listed (Option.isSome_of_mem start) own
    have sooner : s ≤ startS := by
      rw [latest.table, List.pairwise_append] at ordered
      rcases List.mem_append.mp member with old | last
      · exact ordered.2.2 found old lap (List.mem_cons_self ..) s begins startS start
      · rw [List.mem_singleton.mp last] at begins
        exact (Option.mem_unique begins start).le
    linarith
  · rw [same]
    exact ⟨⟨found, member, started, timed, same⟩, least⟩

/-- A table in order, all of whose laps are timed, shows no lap before it is over. -/
theorem timing_causal_of_timed (timed : ∀ lap ∈ laps, Timed lap)
    (ordered : laps.Pairwise fun first second =>
      ∀ s ∈ first.lapStartTime, ∀ startS ∈ second.lapStartTime, s ≤ startS) (t : Rat) :
    Causal laps t (getTiming laps t) := by
  by_cases due : ∃ lap ∈ laps, Due t lap
  · obtain ⟨front, lap, back, latest⟩ := exists_latest due
    exact latest.causal (latest.harmless_of_ordered (timed lap latest.mem) ordered)
  · exact causal_of_none fun lap member own => due ⟨lap, member, own⟩

/-- A lap of 90 seconds, and the start of one that never gets a time. -/
def redFlagged : List Lap :=
  [⟨some 0, some 90, some 30, some 30, some 30, some "SOFT", some 3⟩,
    ⟨some 90, none, some 31, none, none, some "SOFT", some 4⟩]

end RaceTracker.Bake
