import RaceTracker.Lib.HalfEven
import RaceTracker.Lib.StableSort

namespace RaceTracker.Bake

open RaceTracker.Lib

/-! Pit windows and pit stops of one driver, from the in, out and start times of the laps. -/

structure PitLap where
  lapNumber : Option Int
  pitInS : Option Rat
  pitOutS : Option Rat
  lapStartS : Option Rat
deriving DecidableEq

structure PitStop where
  lap : Int
  durationS : Rat
deriving DecidableEq

/-- The window that waits for its PitOut. -/
structure Pending where
  pitIn : Option Rat
  pitInLap : Option Int
  pitInSynthetic : Bool

def Pending.clear : Pending := ⟨none, none, false⟩

structure PitState where
  windows : List (Rat × Rat)
  stops : List PitStop
  pending : Pending

/-- Lap numbers ascend, and laps without one come last. -/
def lapPrecedes (left right : PitLap) : Bool :=
  match left.lapNumber, right.lapNumber with
  | some left, some right => left ≤ right
  | none, some _ => false
  | _, none => true

/-- `round(value, 1)`. -/
def roundTenth (value : Rat) : Rat := roundHalfEven (value * 10) / 10

/-- A car that leaves the pits without having entered was there from the start of the lap. -/
def backdate (lap : PitLap) (pending : Pending) : Pending :=
  match pending.pitIn, lap.lapStartS with
  | none, some lapStartS => ⟨some lapStartS, lap.lapNumber, true⟩
  | _, _ => pending

def Pending.stops (pending : Pending) (pitIn pitOut : Rat) : List PitStop :=
  match pending.pitInLap, pending.pitInSynthetic with
  | some lap, false => [⟨lap, roundTenth (pitOut - pitIn)⟩]
  | _, _ => []

def leavePits (state : PitState) (lap : PitLap) : PitState :=
  match lap.pitOutS with
  | none => state
  | some pitOut =>
      let pending := backdate lap state.pending
      match pending.pitIn with
      | none => { state with pending }
      | some pitIn =>
          ⟨state.windows ++ [(pitIn, pitOut)], state.stops ++ pending.stops pitIn pitOut, .clear⟩

def enterPits (state : PitState) (lap : PitLap) : PitState :=
  match lap.pitInS with
  | none => state
  | some pitIn => { state with pending := ⟨some pitIn, lap.lapNumber, false⟩ }

/-- A PitOut is processed before a PitIn of the same lap. -/
def pitLoop (state : PitState) (lap : PitLap) : PitState := enterPits (leavePits state lap) lap

def buildPitData (laps : List PitLap) : List (Rat × Rat) × List PitStop :=
  let state := (laps.mergeSort lapPrecedes).foldl pitLoop ⟨[], [], .clear⟩
  match state.pending.pitIn with
  | some pitIn => (state.windows ++ [(pitIn, pitIn + 30)], state.stops)
  | none => (state.windows, state.stops)

section

variable (laps : List PitLap)

def Enters (n : Int) (pitIn : Rat) : Prop :=
  ∃ lap ∈ laps, lap.lapNumber = some n ∧ lap.pitInS = some pitIn

def Leaves (n : Int) (pitOut : Rat) : Prop :=
  ∃ lap ∈ laps, lap.lapNumber = some n ∧ lap.pitOutS = some pitOut

def Starts (n : Int) (lapStartS : Rat) : Prop :=
  ∃ lap ∈ laps, lap.lapNumber = some n ∧ lap.lapStartS = some lapStartS

/-- Nobody enters or leaves in the laps between. -/
def Quiet (n m : Int) : Prop :=
  ∀ lap ∈ laps, ∀ k, lap.lapNumber = some k → n < k → k < m → lap.pitInS = none ∧ lap.pitOutS = none

/-- The ways to be in the pits. -/
inductive Visit where
  /-- In on one lap, out on the first lap after it that has a PitOut. -/
  | stop (n m : Int) (pitIn pitOut : Rat) (enters : Enters laps n pitIn)
      (leaves : Leaves laps m pitOut) (ordered : n < m) (direct : Quiet laps n m)
  /-- Out without having entered. -/
  | backdated (m : Int) (lapStartS pitOut : Rat) (starts : Starts laps m lapStartS)
      (leaves : Leaves laps m pitOut)
  /-- In, and never out. -/
  | unfinished (n : Int) (pitIn : Rat) (enters : Enters laps n pitIn)
      (alone : ∀ m pitOut, n < m → ¬ Leaves laps m pitOut)

variable {laps}

def Visit.window : Visit laps → Rat × Rat
  | .stop _ _ pitIn pitOut .. => (pitIn, pitOut)
  | .backdated _ lapStartS pitOut .. => (lapStartS, pitOut)
  | .unfinished _ pitIn .. => (pitIn, pitIn + 30)

/-- The lap whose PitOut closes the window. -/
def Visit.closer : Visit laps → Option Int
  | .stop _ m .. => some m
  | .backdated m .. => some m
  | .unfinished .. => none

/-- A window without both real ends is no stop. -/
def Visit.reported : Visit laps → Option PitStop
  | .stop n _ pitIn pitOut .. => some ⟨n, roundTenth (pitOut - pitIn)⟩
  | .backdated .. => none
  | .unfinished .. => none

end

structure Paired (laps : List PitLap) (windows : List (Rat × Rat)) (stops : List PitStop) :
    Prop where
  reported : ∀ stop, stop ∈ stops ↔ ∃ m pitIn pitOut, Enters laps stop.lap pitIn ∧
    Leaves laps m pitOut ∧ stop.lap < m ∧ Quiet laps stop.lap m ∧
    stop.durationS = roundTenth (pitOut - pitIn)
  visits : ∃ visits : List (Visit laps), windows = visits.map Visit.window ∧
    stops = visits.filterMap Visit.reported ∧ (visits.filterMap Visit.closer).Pairwise (· < ·)

variable {rows done : List PitLap} {lap : PitLap} {state : PitState} {n m : Int} {pitIn pitOut : Rat}

/-- The last thing a car has done is to enter. -/
def Waiting (done : List PitLap) (n : Int) (pitIn : Rat) : Prop :=
  Enters done n pitIn ∧ ∀ lap ∈ done, ∀ k, lap.lapNumber = some k → n < k →
    lap.pitInS = none ∧ lap.pitOutS = none

/-- The lap after those that are done. -/
structure Follows (done : List PitLap) (lap : PitLap) (m : Int) : Prop where
  numbered : lap.lapNumber = some m
  later : ∀ before ∈ done, ∀ k, before.lapNumber = some k → k < m

/-- Pending is the entry that still has no PitOut. -/
structure Pends (done : List PitLap) (pending : Pending) : Prop where
  form : pending = .clear ∨ ∃ n pitIn, pending = ⟨some pitIn, some n, false⟩
  waiting : ∀ n pitIn, Waiting done n pitIn ↔ pending = ⟨some pitIn, some n, false⟩

/-- The windows and stops so far, as visits that were closed on the laps that are done. -/
def Visited (rows done : List PitLap) (windows : List (Rat × Rat)) (stops : List PitStop) : Prop :=
  ∃ visits : List (Visit rows), windows = visits.map Visit.window ∧
    stops = visits.filterMap Visit.reported ∧ (visits.filterMap Visit.closer).Pairwise (· < ·) ∧
    ∀ m ∈ visits.filterMap Visit.closer, ∃ lap ∈ done, lap.lapNumber = some m

structure Explains (rows done : List PitLap) (state : PitState) : Prop where
  pending : Pends done state.pending
  complete : ∀ n m pitIn pitOut, Enters done n pitIn → Leaves done m pitOut → n < m →
    Quiet done n m → ⟨n, roundTenth (pitOut - pitIn)⟩ ∈ state.stops
  visits : Visited rows done state.windows state.stops

theorem waiting_snoc (follows : Follows done lap m) :
    Waiting (done ++ [lap]) n pitIn ↔
      (n = m ∧ lap.pitInS = some pitIn) ∨
      (lap.pitInS = none ∧ lap.pitOutS = none ∧ Waiting done n pitIn) := by
  constructor
  · rintro ⟨⟨entry, member, number, enters⟩, quiet⟩
    rcases List.mem_append.mp member with old | last
    · have before := follows.later entry old n number
      obtain ⟨noIn, noOut⟩ := quiet lap (by simp) m follows.numbered before
      exact .inr ⟨noIn, noOut, ⟨entry, old, number, enters⟩,
        fun other listed => quiet other (List.mem_append_left _ listed)⟩
    · rw [List.mem_singleton.mp last] at number enters
      exact .inl ⟨Option.some.inj (number.symm.trans follows.numbered), enters⟩
  · rintro (⟨rfl, enters⟩ | ⟨noIn, noOut, ⟨entry, member, number, enters⟩, quiet⟩)
    · refine ⟨⟨lap, by simp, follows.numbered, enters⟩, fun other listed k number after => ?_⟩
      rcases List.mem_append.mp listed with old | last
      · exact absurd after (not_lt.mpr (follows.later other old k number).le)
      · rw [List.mem_singleton.mp last, follows.numbered] at number
        exact absurd after (Option.some.inj number).ge.not_gt
    · refine ⟨⟨entry, List.mem_append_left _ member, number, enters⟩, fun other listed k is after => ?_⟩
      rcases List.mem_append.mp listed with old | last
      · exact quiet other old k is after
      · rw [List.mem_singleton.mp last]
        exact ⟨noIn, noOut⟩

theorem Follows.done_snoc (follows : Follows done lap m) {other : PitLap} {k : Int}
    (member : other ∈ done ++ [lap]) (number : other.lapNumber = some k) :
    other ∈ done ∧ k < m ∨ other = lap ∧ k = m := by
  rcases List.mem_append.mp member with old | last
  · exact .inl ⟨old, follows.later other old k number⟩
  · rw [List.mem_singleton.mp last] at number ⊢
    exact .inr ⟨rfl, Option.some.inj (number.symm.trans follows.numbered)⟩

theorem Pends.unique {pending : Pending} (pends : Pends done pending) {n' : Int} {in' : Rat}
    (one : Waiting done n pitIn) (two : Waiting done n' in') : n = n' ∧ pitIn = in' := by
  have same := ((pends.waiting n pitIn).mp one).symm.trans ((pends.waiting n' in').mp two)
  simp only [Pending.mk.injEq, Option.some.injEq, and_true] at same
  exact ⟨same.2, same.1⟩

theorem leavePits_cases (lap : PitLap) (pends : Pends done state.pending) :
    (leavePits state lap = state ∧
      (lap.pitOutS = none ∨ state.pending = .clear)) ∨
    ∃ pitOut, lap.pitOutS = some pitOut ∧
      ((∃ lapStartS, lap.lapStartS = some lapStartS ∧ state.pending = .clear ∧
        leavePits state lap = ⟨state.windows ++ [(lapStartS, pitOut)], state.stops, .clear⟩) ∨
      ∃ n pitIn, Waiting done n pitIn ∧
        leavePits state lap = ⟨state.windows ++ [(pitIn, pitOut)],
          state.stops ++ [⟨n, roundTenth (pitOut - pitIn)⟩], .clear⟩) := by
  rw [leavePits]
  cases leaves : lap.pitOutS with
  | none => exact .inl ⟨rfl, .inl rfl⟩
  | some pitOut =>
      rcases pends.form with clear | ⟨n, pitIn, held⟩
      · cases start : lap.lapStartS with
        | none =>
            have same : backdate lap state.pending = state.pending := by
              simp [backdate, clear, start, Pending.clear]
            refine .inl ⟨?_, .inr clear⟩
            simp only [same]
            rw [show state.pending.pitIn = none by rw [clear]; rfl]
        | some lapStartS =>
            refine .inr ⟨pitOut, rfl, .inl ⟨lapStartS, rfl, clear, ?_⟩⟩
            cases number : lap.lapNumber <;>
              simp [backdate, clear, start, number, Pending.clear, Pending.stops]
      · refine .inr ⟨pitOut, rfl, .inr ⟨n, pitIn, (pends.waiting n pitIn).mpr held, ?_⟩⟩
        simp [backdate, held, Pending.stops]

theorem pitLoop_pends (follows : Follows done lap m) (pends : Pends done state.pending) :
    Pends (done ++ [lap]) (pitLoop state lap).pending := by
  have left : (lap.pitOutS = none ∧ (leavePits state lap).pending = state.pending) ∨
      lap.pitOutS ≠ none ∧ (leavePits state lap).pending = .clear := by
    rcases leavePits_cases lap pends with
      ⟨same, stays⟩ | ⟨pitOut, leaves, ⟨_, _, _, next⟩ | ⟨_, _, _, next⟩⟩
    · rw [same]
      by_cases none : lap.pitOutS = none
      · exact .inl ⟨none, rfl⟩
      · exact .inr ⟨none, stays.resolve_left none⟩
    · exact .inr ⟨by simp [leaves], by rw [next]⟩
    · exact .inr ⟨by simp [leaves], by rw [next]⟩
  unfold pitLoop enterPits
  cases enters : lap.pitInS with
  | some pitIn =>
      refine ⟨.inr ⟨m, pitIn, by simp [follows.numbered]⟩, fun n other => ?_⟩
      rw [waiting_snoc follows]
      simp [enters, follows.numbered, and_comm, eq_comm]
  | none =>
      simp only
      rcases left with ⟨none, same⟩ | ⟨some, clear⟩
      · rw [same]
        refine ⟨pends.form, fun n other => ?_⟩
        rw [waiting_snoc follows]
        simp [enters, none, pends.waiting n other]
      · rw [clear]
        refine ⟨.inl rfl, fun n other => ?_⟩
        rw [waiting_snoc follows]
        simp [enters, some, Pending.clear]

theorem enterPits_windows (lap : PitLap) (state : PitState) :
    (enterPits state lap).windows = state.windows ∧ (enterPits state lap).stops = state.stops := by
  rw [enterPits]
  split <;> exact ⟨rfl, rfl⟩

theorem Enters.snoc_of_lt (follows : Follows done lap m) {k : Int} (before : k < m)
    (enters : Enters (done ++ [lap]) k pitIn) : Enters done k pitIn := by
  obtain ⟨entry, member, number, real⟩ := enters
  rcases follows.done_snoc member number with ⟨old, -⟩ | ⟨-, rfl⟩
  · exact ⟨entry, old, number, real⟩
  · exact absurd before (lt_irrefl k)

theorem pitLoop_complete (follows : Follows done lap m) (explains : Explains rows done state) :
    ∀ n k pitIn pitOut, Enters (done ++ [lap]) n pitIn → Leaves (done ++ [lap]) k pitOut → n < k →
      Quiet (done ++ [lap]) n k → ⟨n, roundTenth (pitOut - pitIn)⟩ ∈ (pitLoop state lap).stops := by
  intro n k pitIn pitOut enters ⟨exit, member, number, leaves⟩ ordered quiet
  have quietBefore : Quiet done n k := fun other old => quiet other (List.mem_append_left _ old)
  rw [pitLoop, (enterPits_windows lap _).2]
  rcases follows.done_snoc member number with ⟨old, before⟩ | ⟨rfl, rfl⟩
  · have reported := explains.complete n k pitIn pitOut
      (enters.snoc_of_lt follows (ordered.trans before)) ⟨exit, old, number, leaves⟩ ordered quietBefore
    rcases leavePits_cases lap explains.pending with
      ⟨same, -⟩ | ⟨_, -, ⟨_, -, -, next⟩ | ⟨_, _, -, next⟩⟩
    · rwa [same]
    · rwa [next]
    · rw [next]
      exact List.mem_append_left _ reported
  · have waits : Waiting done n pitIn := by
      refine ⟨enters.snoc_of_lt follows ordered, fun other old k is after => ?_⟩
      exact quietBefore other old k is after (follows.later other old k is)
    have held := (explains.pending.waiting n pitIn).mp waits
    rcases leavePits_cases exit explains.pending with
      ⟨-, stays⟩ | ⟨out, out', ⟨_, -, clear, -⟩ | ⟨n', in', waits', next⟩⟩
    · rcases stays with none | clear
      · cases none.symm.trans leaves
      · cases clear.symm.trans held
    · cases clear.symm.trans held
    · cases out'.symm.trans leaves
      obtain ⟨rfl, rfl⟩ := explains.pending.unique waits' waits
      rw [next]
      exact List.mem_append_right _ (List.mem_singleton_self _)

namespace Visited

variable {windows : List (Rat × Rat)} {stops : List PitStop}

theorem later (visited : Visited rows done windows stops) (lap : PitLap) :
    Visited rows (done ++ [lap]) windows stops := by
  obtain ⟨visits, shown, reported, ordered, closed⟩ := visited
  refine ⟨visits, shown, reported, ordered, fun m closer => ?_⟩
  obtain ⟨lap, member, number⟩ := closed m closer
  exact ⟨lap, List.mem_append_left _ member, number⟩

theorem snoc (visited : Visited rows done windows stops) (follows : Follows done lap m)
    (visit : Visit rows) (closer : visit.closer = some m) :
    Visited rows (done ++ [lap]) (windows ++ [visit.window])
      (stops ++ visit.reported.toList) := by
  obtain ⟨visits, rfl, rfl, ordered, closed⟩ := visited
  refine ⟨visits ++ [visit], by simp, ?_, ?_, ?_⟩
  · cases reported : visit.reported <;> simp [reported]
  · simp only [List.filterMap_append, List.pairwise_append]
    refine ⟨ordered, by simp [closer], fun earlier first later second => ?_⟩
    obtain ⟨lap, member, number⟩ := closed earlier first
    obtain rfl : later = m := by simpa [closer] using second
    exact follows.later lap member earlier number
  · intro k member
    simp only [List.filterMap_append, List.mem_append] at member
    rcases member with old | last
    · obtain ⟨lap, member, number⟩ := closed k old
      exact ⟨lap, List.mem_append_left _ member, number⟩
    · obtain rfl : k = m := by simpa [closer] using last
      exact ⟨lap, by simp, follows.numbered⟩

end Visited

/-- One lap: what there is to know of the laps so far extends to it. -/
theorem pitLoop_explains (follows : Follows done lap m) (member : lap ∈ rows)
    (rest : ∀ other ∈ rows, other ∈ done ∨ ∀ k, other.lapNumber = some k → m ≤ k)
    (known : ∀ other ∈ done, other ∈ rows) (explains : Explains rows done state) :
    Explains rows (done ++ [lap]) (pitLoop state lap) := by
  refine ⟨pitLoop_pends follows explains.pending, pitLoop_complete follows explains, ?_⟩
  rw [pitLoop, (enterPits_windows lap _).1, (enterPits_windows lap _).2]
  rcases leavePits_cases lap explains.pending with
    ⟨same, -⟩ | ⟨pitOut, leaves, ⟨lapStartS, starts, -, next⟩ | ⟨n, pitIn, waits, next⟩⟩
  · rw [same]
    exact explains.visits.later lap
  · have visited := explains.visits.snoc follows (.backdated m lapStartS pitOut
      ⟨lap, member, follows.numbered, starts⟩ ⟨lap, member, follows.numbered, leaves⟩) rfl
    rw [next]
    simpa only [Visit.window, Visit.reported, Option.toList_none, List.append_nil] using visited
  · obtain ⟨⟨entry, old, number, enters⟩, quiet⟩ := waits
    have direct : Quiet rows n m := by
      intro other listed k is after before
      rcases rest other listed with done | beyond
      · exact quiet other done k is after
      · exact absurd (beyond k is) (not_le.mpr before)
    have visited := explains.visits.snoc follows (.stop n m pitIn pitOut
      ⟨entry, known entry old, number, enters⟩ ⟨lap, member, follows.numbered, leaves⟩
      (follows.later entry old n number) direct) rfl
    rw [next]
    exact visited

/-- Laps in the order of their numbers. -/
def Ascending (rows : List PitLap) : Prop :=
  (∀ lap ∈ rows, ∃ n, lap.lapNumber = some n) ∧
    rows.Pairwise fun first second =>
      ∀ n m, first.lapNumber = some n → second.lapNumber = some m → n < m

theorem foldl_pitLoop_explains {sorted rest : List PitLap} (ascending : Ascending sorted)
    (parts : done ++ rest = sorted) (perm : sorted.Perm rows) (explains : Explains rows done state) :
    Explains rows sorted (rest.foldl pitLoop state) := by
  induction rest generalizing done state with
  | nil => simpa [← parts] using explains
  | cons lap rest ih =>
      have member : lap ∈ sorted := by simp [← parts]
      obtain ⟨m, number⟩ := ascending.1 lap member
      have order := ascending.2
      rw [← parts, List.pairwise_append, List.pairwise_cons] at order
      obtain ⟨-, ⟨after, -⟩, before⟩ := order
      have follows : Follows done lap m :=
        ⟨number, fun other old k is => before other old lap (List.mem_cons_self ..) k m is number⟩
      refine ih (by rw [← parts]; simp)
        (pitLoop_explains follows (perm.mem_iff.mp member) ?_ ?_ explains)
      · intro other listed
        rw [← perm.mem_iff, ← parts, List.mem_append, List.mem_cons] at listed
        rcases listed with old | rfl | later
        · exact .inl old
        · exact .inr fun k is => (Option.some.inj (number.symm.trans is)).le
        · exact .inr fun k is => (after other later m k number is).le
      · intro other old
        rw [← perm.mem_iff, ← parts]
        exact List.mem_append_left _ old

theorem Explains.start (rows : List PitLap) : Explains rows [] ⟨[], [], .clear⟩ := by
  refine ⟨⟨.inl rfl, fun n pitIn => ?_⟩, ?_, [], rfl, rfl, .nil, nofun⟩
  · simp [Waiting, Enters, Pending.clear]
  · rintro n m pitIn pitOut ⟨_, none, _⟩
    cases none

variable {laps : List PitLap}

structure Numbered (laps : List PitLap) : Prop where
  all : ∀ lap ∈ laps, lap.lapNumber.isSome
  distinct : (laps.map PitLap.lapNumber).Nodup

theorem lapPrecedes_trans (one two three : PitLap) (first : lapPrecedes one two)
    (second : lapPrecedes two three) : lapPrecedes one three := by
  unfold lapPrecedes at *
  grind

theorem lapPrecedes_total (one two : PitLap) : lapPrecedes one two || lapPrecedes two one := by
  unfold lapPrecedes
  grind

/-- With a number for every lap, the sorted table is strictly ascending. -/
theorem Numbered.ascending (numbered : Numbered laps) : Ascending (laps.mergeSort lapPrecedes) := by
  have perm := List.mergeSort_perm laps lapPrecedes
  refine ⟨fun lap member => ?_, ?_⟩
  · exact Option.isSome_iff_exists.mp (numbered.all lap (perm.mem_iff.mp member))
  · have sorted := List.pairwise_mergeSort lapPrecedes_trans lapPrecedes_total laps
    have distinct := (perm.map PitLap.lapNumber).nodup_iff.mpr numbered.distinct
    rw [List.nodup_iff_pairwise_ne, List.pairwise_map] at distinct
    apply (sorted.and distinct).imp
    rintro first second ⟨ordered, apart⟩ n m one two
    simp only [lapPrecedes, one, two, decide_eq_true_eq] at ordered
    refine lt_of_le_of_ne ordered fun same => apart ?_
    rw [one, two, same]

theorem Numbered.sort_eq (numbered : Numbered laps) {listed : List PitLap} (perm : listed.Perm laps) :
    listed.mergeSort lapPrecedes = laps.mergeSort lapPrecedes := by
  obtain ⟨all, ordered⟩ := numbered.ascending
  refine mergeSort_eq_of_ordered (perm.trans (List.mergeSort_perm laps lapPrecedes).symm) ?_ ?_
  · intro lap member
    obtain ⟨n, number⟩ := all lap member
    simp [lapPrecedes, number]
  · apply ordered.imp_of_mem
    intro first second one two before
    obtain ⟨n, number⟩ := all first one
    obtain ⟨m, number'⟩ := all second two
    have less := before n m number number'
    simp [lapPrecedes, number, number', less, less.le]

theorem Explains.result (explains : Explains laps done state)
    (members : ∀ lap, lap ∈ done ↔ lap ∈ laps) :
    Visited laps done
      (match state.pending.pitIn with
        | some pitIn => state.windows ++ [(pitIn, pitIn + 30)]
        | none => state.windows)
      state.stops := by
  rcases explains.pending.form with clear | ⟨n, pitIn, held⟩
  · rw [clear]
    exact explains.visits
  · obtain ⟨⟨entry, member, number, enters⟩, quiet⟩ := (explains.pending.waiting n pitIn).mpr held
    have alone : ∀ m pitOut, n < m → ¬ Leaves laps m pitOut := by
      rintro m pitOut after ⟨lap, listed, is, leaves⟩
      have none := (quiet lap ((members lap).mpr listed) m is after).2
      cases none.symm.trans leaves
    obtain ⟨visits, shown, reported, ordered, closed⟩ := explains.visits
    rw [held]
    refine ⟨visits ++ [.unfinished n pitIn ⟨entry, (members entry).mp member, number, enters⟩ alone],
      by simp [shown, Visit.window], by simp [reported, Visit.reported], ?_, ?_⟩
    · simpa [List.filterMap_append, List.filterMap_cons, Visit.closer] using ordered
    · simpa [List.filterMap_append, List.filterMap_cons, Visit.closer] using closed

theorem Visit.reported_eq {visit : Visit laps} {stop : PitStop} (reports : visit.reported = some stop) :
    ∃ m pitIn pitOut, Enters laps stop.lap pitIn ∧ Leaves laps m pitOut ∧ stop.lap < m ∧
      Quiet laps stop.lap m ∧ stop.durationS = roundTenth (pitOut - pitIn) := by
  cases visit with
  | stop n m pitIn pitOut enters leaves ordered direct =>
      cases reports
      exact ⟨m, pitIn, pitOut, enters, leaves, ordered, direct, rfl⟩
  | backdated => cases reports
  | unfinished => cases reports

/-- Out of the pit lane at the start, two stops that share a lap, and a last entry from which the
car does not come back. -/
def race : List PitLap :=
  [⟨some 1, none, some 25, some 0⟩, ⟨some 10, some 905, none, some 900⟩,
    ⟨some 11, some 929, some 927, some 930⟩, ⟨some 12, none, some 951, some 960⟩,
    ⟨some 20, some 1805, none, some 1800⟩]

end RaceTracker.Bake
