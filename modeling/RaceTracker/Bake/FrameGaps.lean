import RaceTracker.Bake.Recording

namespace RaceTracker.Bake

open RaceTracker.Lib RaceTracker.Model RaceTracker.Ingest

/-! What the gap pass writes into a frame. -/

variable {tGridS : List Rat} {lapLengthM : Rat} {i : Nat} {tS : Rat}

/-- The car of this curve was at `d` first, and that many milliseconds ago. -/
def BehindBy (times dists : List Rat) (tS d : Rat) (ms : Int) : Prop :=
  ∃ t, Earliest times dists t d ∧ t ≤ tS ∧ ms = roundHalfEven ((tS - t) * 1000)

theorem Earliest.unique {times dists : List Rat} {t t' d : Rat} (one : Earliest times dists t d)
    (two : Earliest times dists t' d) : t = t' :=
  le_antisymm (one.2 t' two.1) (two.2 t one.1)

theorem DistanceCurve.behindMs {times dists : List Rat} (curve : DistanceCurve times dists) (tS d : Rat) :
    ∃ answer, Bake.behindMs times dists tS d = .ok answer ∧
      ∀ ms, answer = some ms ↔ BehindBy times dists tS d ms := by
  obtain ⟨answer, inverted, outside, earliest⟩ := curve.answers d
  rw [Bake.behindMs, inverted, ok_bind]
  cases answer with
  | none =>
      refine ⟨none, rfl, fun ms => iff_of_false (by simp) fun ⟨t, first, _⟩ => ?_⟩
      exact outside.mp rfl (curve.range first.1)
  | some tRef =>
      have first := earliest tRef rfl
      simp only
      split
      · rename_i later
        refine ⟨none, rfl, fun ms => iff_of_false (by simp) fun ⟨t, own, before, _⟩ => ?_⟩
        rw [own.unique first] at before
        exact before.not_gt later
      · rename_i before
        refine ⟨_, rfl, fun ms => ⟨fun same => ⟨tRef, first, not_lt.mp before, (Option.some.inj same).symm⟩,
          fun ⟨t, own, _, same⟩ => ?_⟩⟩
        rw [same, own.unique first]

/-- Gaps fall behind in the order of the distances. -/
theorem BehindBy.mono {times dists : List Rat} (curve : DistanceCurve times dists) {tS d d' : Rat}
    {ms ms' : Int} (one : BehindBy times dists tS d ms) (two : BehindBy times dists tS d' ms')
    (ordered : d ≤ d') : ms' ≤ ms := by
  obtain ⟨t, first, _, rfl⟩ := one
  obtain ⟨t', first', _, rfl⟩ := two
  have earlier := curve.samples.first_mono first first' ordered
  apply roundHalfEven_mono
  linarith

/-- A curve on the grid, and a pit flag for every instant of it. -/
structure Curve.Fits (tGridS : List Rat) (curve : Curve) : Prop where
  dists : DistanceCurve tGridS curve.dists
  inPit : curve.inPit.length = tGridS.length

/-- A gap may be quoted between cars that both have a lap time, for one that is not in the pits. -/
def Quotable (leader : Leader) (i : Nat) (entry : Curve × Car) : Prop :=
  entry.2.lastLapMs.isSome ∧ leader.hasLap ∧ entry.1.inPit[i]? = some false

/-- Where the car is at the instant. -/
def distAt (i : Nat) (entry : Curve × Car) : Rat := entry.1.dists.getD i 0

def GapTo (tGridS : List Rat) (i : Nat) (tS : Rat) (leader : Leader) (entry : Curve × Car) (ms : Int) :
    Prop :=
  Quotable leader i entry ∧
    ∃ curve, leader.curve = some curve ∧ BehindBy tGridS curve tS (distAt i entry) ms

/-- The interval to the car above it, measured on that car's curve, or else as the difference of what
the two are behind the leader. -/
def IntervalTo (tGridS : List Rat) (i : Nat) (tS : Rat) (leader : Leader) (above entry : Curve × Car)
    (ms : Int) : Prop :=
  Quotable leader i entry ∧ Quotable leader i above ∧
    (BehindBy tGridS above.1.dists tS (distAt i entry) ms ∨
      (∀ other, ¬ BehindBy tGridS above.1.dists tS (distAt i entry) other) ∧
        ∃ own other, GapTo tGridS i tS leader entry own ∧ GapTo tGridS i tS leader above other ∧
          ms = own - other)

/-- The car before the pass. -/
def ungapped (car : Car) : Car := { car with gapMs := none, gapLaps := none, intMs := none }

/-- What the pass writes for a car below `above`: nothing but the three fields, and in them what is
behind, when it is more than nothing. -/
structure Placed (tGridS : List Rat) (lapLengthM : Rat) (i : Nat) (tS : Rat) (leader : Leader)
    (above : Option (Curve × Car)) (entry : Curve × Car) (car : Car) : Prop where
  ungapped : ungapped car = ungapped entry.2
  gap : ∀ ms, car.gapMs = some ms ↔ 0 < ms ∧ GapTo tGridS i tS leader entry ms
  laps : car.gapLaps = positive (lapDeficit (leader.dist - distAt i entry) lapLengthM)
  int : ∀ ms, car.intMs = some ms ↔
    0 < ms ∧ ∃ ahead, above = some ahead ∧ IntervalTo tGridS i tS leader ahead entry ms

/-- Of the car above only the curve and its having a lap time matter. -/
theorem intervalTo_congr {leader : Leader} {above entry : Curve × Car} {other : Car} {ms : Int}
    (same : other.lastLapMs = above.2.lastLapMs) :
    IntervalTo tGridS i tS leader (above.1, other) entry ms ↔
      IntervalTo tGridS i tS leader above entry ms := by
  simp only [IntervalTo, GapTo, Quotable, distAt, same]

theorem positive_eq_some {value ms : Int} : positive value = some ms ↔ 0 < ms ∧ value = ms := by
  rw [positive]
  split
  · rename_i more
    exact ⟨fun same => ⟨Option.some.inj same ▸ more, Option.some.inj same⟩, fun same => congrArg some same.2⟩
  · rename_i none
    exact ⟨fun same => (by cases same), fun same => absurd (same.2 ▸ same.1) none⟩

theorem bind_positive {answer : Option Int} {P : Int → Prop} (means : ∀ ms, answer = some ms ↔ P ms)
    (ms : Int) : answer.bind positive = some ms ↔ 0 < ms ∧ P ms := by
  rw [Option.bind_eq_some_iff, ← means ms]
  constructor
  · rintro ⟨value, rfl, kept⟩
    obtain ⟨more, rfl⟩ := positive_eq_some.mp kept
    exact ⟨more, rfl⟩
  · rintro ⟨more, rfl⟩
    exact ⟨ms, rfl, positive_eq_some.mpr ⟨more, rfl⟩⟩

section

variable {leader : Leader} (fits : ∀ curve, leader.curve = some curve → DistanceCurve tGridS curve)

include fits in
theorem leaderGap_spec {entry : Curve × Car} {quotable : Bool}
    (may : quotable = true ↔ Quotable leader i entry) :
    ∃ gap, leaderGap tGridS tS leader quotable (distAt i entry) = .ok gap ∧
      ∀ ms, gap = some ms ↔ GapTo tGridS i tS leader entry ms := by
  rw [leaderGap]
  cases known : leader.curve with
  | none =>
      refine ⟨none, rfl, fun ms => iff_of_false (by simp) ?_⟩
      rintro ⟨_, curve, found, _⟩
      rw [known] at found
      cases found
  | some curve =>
      cases quotable with
      | false =>
          refine ⟨none, rfl, fun ms => iff_of_false (by simp) fun gap => ?_⟩
          cases may.mpr gap.1
      | true =>
          obtain ⟨gap, computed, means⟩ := (fits curve known).behindMs tS (distAt i entry)
          refine ⟨gap, computed, fun ms => (means ms).trans ?_⟩
          refine ⟨fun behind => ⟨may.mp rfl, curve, known, behind⟩, ?_⟩
          rintro ⟨_, other, found, behind⟩
          cases known.symm.trans found
          exact behind

theorem interval_spec {entry : Curve × Car} {quotable : Bool} {gap : Option Int}
    (may : quotable = true ↔ Quotable leader i entry)
    (own : ∀ ms, gap = some ms ↔ GapTo tGridS i tS leader entry ms) (within : i < tGridS.length)
    {ahead : Option ((Curve × Car) × Option Int)}
    (placed : ∀ above ∈ ahead, above.1.1.Fits tGridS ∧
      ∀ ms, above.2 = some ms ↔ GapTo tGridS i tS leader above.1 ms) :
    ∃ int, interval tGridS i tS quotable (distAt i entry) gap ahead = .ok int ∧
      ∀ ms, int = some ms ↔ ∃ above, ahead.map Prod.fst = some above ∧
        IntervalTo tGridS i tS leader above entry ms := by
  cases ahead with
  | none => exact ⟨none, rfl, fun ms => iff_of_false (by simp) (by simp)⟩
  | some above =>
      obtain ⟨⟨curve, car⟩, aheadGap⟩ := above
      obtain ⟨fit, other⟩ := placed _ rfl
      obtain ⟨pit, flag⟩ : ∃ pit, curve.inPit[i]? = some pit :=
        ⟨_, List.getElem?_eq_getElem (fit.inPit ▸ within)⟩
      simp only [Option.map_some, Option.some.injEq, exists_eq_left']
      rw [interval]
      by_cases both : quotable ∧ car.lastLapMs.isSome
      · rw [if_neg (not_not.mpr both), item_eq flag]
        simp only [ok_bind]
        cases pit with
        | true =>
            refine ⟨none, rfl, fun ms => iff_of_false (by simp) fun int => ?_⟩
            have clear := int.2.1.2.2
            rw [flag] at clear
            cases clear
        | false =>
            have here := may.mp both.1
            have there : Quotable leader i (curve, car) := ⟨both.2, here.2.1, flag⟩
            obtain ⟨answer, computed, means⟩ := fit.dists.behindMs tS (distAt i entry)
            simp only [Bool.false_eq_true, if_false, computed, ok_bind]
            cases answer with
            | some int =>
                refine ⟨some int, rfl, fun ms => ?_⟩
                have seen := (means int).mp rfl
                constructor
                · rintro ⟨⟩
                  exact ⟨here, there, .inl seen⟩
                · rintro ⟨_, _, behind | ⟨never, _⟩⟩
                  · exact (means ms).mpr behind
                  · exact absurd seen (never int)
            | none =>
                refine ⟨_, rfl, fun ms => ?_⟩
                have never (other : Int) : ¬ BehindBy tGridS curve.dists tS (distAt i entry) other := by
                  intro behind
                  cases (means other).mpr behind
                simp only [Option.bind_eq_bind, Option.bind_eq_some_iff, Option.pure_def, Option.some.injEq]
                constructor
                · rintro ⟨mine, known, theirs, known', rfl⟩
                  exact ⟨here, there, .inr ⟨never, mine, theirs, (own mine).mp known, (other theirs).mp known',
                    rfl⟩⟩
                · rintro ⟨_, _, behind | ⟨_, mine, theirs, known, known', rfl⟩⟩
                  · exact absurd behind (never ms)
                  · exact ⟨mine, (own mine).mpr known, theirs, (other theirs).mpr known', rfl⟩
      · rw [if_pos both]
        refine ⟨none, rfl, fun ms => iff_of_false (by simp) fun int => both ⟨may.mpr int.1, int.2.1.1⟩⟩

/-- The car above an index. -/
def aboveAt (ahead : Option (Curve × Car)) (ranked : List (Curve × Car)) : Nat → Option (Curve × Car)
  | 0 => ahead
  | k + 1 => ranked[k]?

include fits in
theorem gapPass_spec (within : i < tGridS.length) {ranked : List (Curve × Car)}
    (curves : ∀ entry ∈ ranked, entry.1.Fits tGridS) {ahead : Option ((Curve × Car) × Option Int)}
    (placed : ∀ above ∈ ahead, above.1.1.Fits tGridS ∧
      ∀ ms, above.2 = some ms ↔ GapTo tGridS i tS leader above.1 ms) :
    ∃ cars, gapPass tGridS lapLengthM i tS leader ahead ranked = .ok cars ∧
      cars.length = ranked.length ∧ ∀ k entry car, ranked[k]? = some entry → cars[k]? = some car →
        Placed tGridS lapLengthM i tS leader (aboveAt (ahead.map Prod.fst) ranked k) entry car := by
  induction ranked generalizing ahead with
  | nil => exact ⟨[], rfl, rfl, fun k entry car none => by cases none⟩
  | cons entry rest ih =>
      obtain ⟨fit, others⟩ := List.forall_mem_cons.mp curves
      obtain ⟨pit, flag⟩ : ∃ pit, entry.1.inPit[i]? = some pit :=
        ⟨_, List.getElem?_eq_getElem (fit.inPit ▸ within)⟩
      have dist : item entry.1.dists i = .ok (distAt i entry) :=
        item_of_lt (fit.dists.parallel ▸ within)
      have may : (entry.2.lastLapMs.isSome && leader.hasLap && !pit) = true ↔ Quotable leader i entry := by
        rw [Quotable, flag]
        simp [and_assoc]
      obtain ⟨gap, quoted, own⟩ := leaderGap_spec fits may
      obtain ⟨int, measured, near⟩ := interval_spec may own within placed
      let car := withGaps entry.2 gap (lapDeficit (leader.dist - distAt i entry) lapLengthM) int
      obtain ⟨later, passed, length, each⟩ := @ih others (some ((entry.1, car), gap))
        (by rintro _ ⟨⟩; exact ⟨fit, own⟩)
      refine ⟨car :: later, ?_, by rw [List.length_cons, List.length_cons, length], ?_⟩
      · rw [gapPass, dist, ok_bind, item_eq flag, ok_bind]
        simp only [quoted, measured, ok_bind]
        rw [passed]
        rfl
      intro k entry' car found found'
      cases k with
      | zero =>
          cases found
          cases found'
          exact { ungapped := rfl, gap := bind_positive own, laps := rfl, int := bind_positive near }
      | succ k =>
          have onward := each k entry' car found found'
          cases k with
          | succ k => exact onward
          | zero =>
              refine { onward with int := fun ms => (onward.int ms).trans ?_ }
              simp only [aboveAt, Option.map_some, List.getElem?_cons_zero, Option.some.injEq,
                exists_eq_left']
              exact and_congr_right fun _ => intervalTo_congr rfl

end

end RaceTracker.Bake
