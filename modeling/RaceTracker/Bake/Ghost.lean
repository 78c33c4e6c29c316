import RaceTracker.Bake.Geometry

namespace RaceTracker.Bake

open RaceTracker.Lib

/-! Lap traces: when the reference lap reached each point of the track outline. -/

/-- The search for the closest outline point, from index `i` on; only a closer one is taken. -/
def nearestFrom (sample : Rat × Rat) : Nat → Nat → Option Rat → List (Rat × Rat) → Nat
  | _, bi, _, [] => bi
  | i, bi, bd, point :: rest =>
      let d := (point.1 - sample.1) ^ 2 + (point.2 - sample.2) ^ 2
      if bd.all (d < ·) then nearestFrom sample (i + 1) i (some d) rest
      else nearestFrom sample (i + 1) bi bd rest

def nearest (trackXy : List (Rat × Rat)) (sample : Rat × Rat) : Nat :=
  nearestFrom sample 0 0 none trackXy

def elapsedMs (t0 ts : Rat) : Int := roundHalfEven ((ts - t0) * 1000)

/-- Record the first time that each index is reached; the two lists have to be of one length. -/
def reachLoop (trackXy : List (Rat × Rat)) (t0 : Rat) :
    List Rat → List (Rat × Rat) → List (Option Int) → Except Raised (List (Option Int))
  | [], [], reached => .ok reached
  | ts :: sampleTs, xy :: sampleXy, reached =>
      let bi := nearest trackXy xy
      match reached[bi]? with
      | none => .error .indexError
      | some (some _) => reachLoop trackXy t0 sampleTs sampleXy reached
      | some none =>
          reachLoop trackXy t0 sampleTs sampleXy (reached.set bi (some (elapsedMs t0 ts)))
  | _, _, _ => .error .valueError

/-- A reached value below the last one is dropped, like an index nothing reached. -/
def carried (last : Int) (value : Option Int) : Int :=
  if value.any (last ≤ ·) then value.getD last else last

def carryForward (last : Int) : List (Option Int) → List Int
  | [] => []
  | value :: reached => carried last value :: carryForward (carried last value) reached

def buildLapTrace (sampleTs : List Rat) (sampleXy trackXy : List (Rat × Rat)) :
    Except Raised (List Int) :=
  match sampleTs with
  | [] => .ok (List.replicate trackXy.length 0)
  | t0 :: _ => do
      let reached ← reachLoop trackXy t0 sampleTs sampleXy (List.replicate trackXy.length none)
      return (carryForward 0 reached).set 0 0

section

variable (sampleTs : List Rat) (sampleXy trackXy : List (Rat × Rat))

/-- When the lap was first nearest to an outline point, in milliseconds from its start. -/
def firstReach (i : Nat) : Option Int :=
  ((sampleTs.zip sampleXy).find? fun sample => nearest trackXy sample.2 = i).map fun sample =>
    elapsedMs (sampleTs.headD 0) sample.1

/-- A trace that records first arrivals wherever they are in order. -/
structure RecordsArrivals (lapTrace : List Int) : Prop where
  length : lapTrace.length = trackXy.length
  start : lapTrace[0]? = some 0
  sorted : lapTrace.Pairwise (· ≤ ·)
  arrivals : ∀ i reach, 1 ≤ i → firstReach sampleTs sampleXy trackXy i = some reach →
    (∀ j earlier, 1 ≤ j → j < i → firstReach sampleTs sampleXy trackXy j = some earlier →
      earlier ≤ reach) →
    lapTrace[i]? = some reach

/-- Where the lap is nearest to the start point at all, it is so no later than when it reaches
the lowest of the other points that it reaches. -/
def StartReachedFirst : Prop :=
  ∀ start, firstReach sampleTs sampleXy trackXy 0 = some start →
    ∀ i reach, 1 ≤ i → firstReach sampleTs sampleXy trackXy i = some reach →
      (∀ j, 1 ≤ j → j < i → firstReach sampleTs sampleXy trackXy j = none) → start ≤ reach

end

variable {sampleTs : List Rat} {sampleXy trackXy : List (Rat × Rat)} {t0 : Rat}

theorem nearestFrom_lt (sample : Rat × Rat) {i bi : Nat} {bd : Option Rat}
    {points : List (Rat × Rat)} (held : bi < i ∨ bd = none ∧ points ≠ []) :
    nearestFrom sample i bi bd points < i + points.length := by
  induction points generalizing i bi bd with
  | nil => simpa [nearestFrom] using held
  | cons point rest ih =>
      rw [List.length_cons, nearestFrom]
      split
      · exact (ih (Or.inl i.lt_succ_self)).trans_eq (by omega)
      · rename_i further
        have before : bi < i := by
          rcases held with before | ⟨rfl, -⟩
          · exact before
          · exact absurd rfl further
        exact (ih (Or.inl (before.trans i.lt_succ_self))).trans_eq (by omega)

theorem nearest_lt (some : trackXy ≠ []) (sample : Rat × Rat) :
    nearest trackXy sample < trackXy.length := by
  have inside := nearestFrom_lt sample (Or.inr ⟨rfl, some⟩ : 0 < 0 ∨ _)
  rwa [Nat.zero_add] at inside

theorem reachLoop_eq {reached : List (Option Int)} (outline : trackXy ≠ [])
    (whole : reached.length = trackXy.length) (paired : sampleTs.length = sampleXy.length) :
    ∃ after, reachLoop trackXy t0 sampleTs sampleXy reached = .ok after ∧
      after.length = trackXy.length ∧ ∀ i, i < trackXy.length → after[i]?.join =
        reached[i]?.join.or (((sampleTs.zip sampleXy).find? fun sample =>
          nearest trackXy sample.2 = i).map fun sample => elapsedMs t0 sample.1) := by
  induction sampleTs generalizing sampleXy reached with
  | nil =>
      cases sampleXy with
      | nil => exact ⟨reached, rfl, whole, fun i _ => by simp⟩
      | cons xy sampleXy => cases paired
  | cons ts sampleTs ih =>
      cases sampleXy with
      | nil => cases paired
      | cons xy sampleXy =>
          have inside := nearest_lt outline xy
          have later : sampleTs.length = sampleXy.length := Nat.succ.inj paired
          have found : reached[nearest trackXy xy]? = some reached[nearest trackXy xy] :=
            List.getElem?_eq_getElem (by omega)
          rw [reachLoop]
          cases held : reached[nearest trackXy xy] with
          | some value =>
              rw [held] at found
              obtain ⟨after, looped, count, values⟩ := ih whole later
              refine ⟨after, by simpa only [found] using looped, count, fun i within => ?_⟩
              rw [values i within, List.zip_cons_cons, List.find?_cons]
              by_cases here : nearest trackXy xy = i
              · simp [← here, found]
              · simp [here]
          | none =>
              rw [held] at found
              have kept : (reached.set (nearest trackXy xy) (some (elapsedMs t0 ts))).length =
                  trackXy.length := by rw [List.length_set, whole]
              obtain ⟨after, looped, count, values⟩ := ih kept later
              refine ⟨after, by simpa only [found] using looped, count, fun i within => ?_⟩
              rw [values i within, List.zip_cons_cons, List.find?_cons, List.getElem?_set]
              by_cases here : nearest trackXy xy = i
              · simp [← here, held, whole, inside]
              · simp [here]

theorem length_carryForward (last : Int) (reached : List (Option Int)) :
    (carryForward last reached).length = reached.length := by
  induction reached generalizing last with
  | nil => rfl
  | cons value rest ih => rw [carryForward, List.length_cons, List.length_cons, ih]

theorem carried_spec (last : Int) (value : Option Int) :
    last ≤ carried last value ∧ (∀ reach, value = some reach → reach ≤ carried last value) ∧
      (carried last value = last ∨ value = some (carried last value)) := by
  rw [carried]
  cases value with
  | none => simp
  | some reach =>
      by_cases ordered : last ≤ reach
      · simp [ordered]
      · simp [ordered, (not_le.mp ordered).le]

theorem carryForward_spec {last : Int} {reached : List (Option Int)} {i : Nat}
    (within : i < reached.length) : ∃ value, (carryForward last reached)[i]? = some value ∧
      (∀ j reach, j ≤ i → reached[j]?.join = some reach → reach ≤ value) ∧
      (value = last ∨ ∃ j, j ≤ i ∧ reached[j]?.join = some value) ∧ last ≤ value := by
  induction reached generalizing last i with
  | nil => cases within
  | cons entry rest ih =>
      obtain ⟨least, above, source⟩ := carried_spec last entry
      cases i with
      | zero =>
          refine ⟨carried last entry, rfl, fun j reach first found => ?_, ?_, least⟩
          · obtain rfl : j = 0 := Nat.le_zero.mp first
            exact above reach found
          · exact source.imp_right fun own => ⟨0, le_refl 0, own⟩
      | succ i =>
          have inside : i < rest.length := Nat.lt_of_succ_lt_succ within
          obtain ⟨value, found, highest, source', least'⟩ :
              ∃ value, (carryForward (carried last entry) rest)[i]? = some value ∧ _ := ih inside
          refine ⟨value, found, fun j reach before own => ?_, ?_, least.trans least'⟩
          · cases j with
            | zero => exact (above reach own).trans least'
            | succ j => exact highest j reach (Nat.le_of_succ_le_succ before) own
          · rcases source' with rfl | ⟨j, before, own⟩
            · exact source.imp_right fun own => ⟨0, Nat.zero_le _, own⟩
            · exact Or.inr ⟨j + 1, Nat.succ_le_succ before, own⟩

theorem carryForward_sorted (last : Int) (reached : List (Option Int)) :
    (carryForward last reached).Pairwise (· ≤ ·) ∧
      ∀ value ∈ carryForward last reached, last ≤ value := by
  induction reached generalizing last with
  | nil => exact ⟨List.Pairwise.nil, fun _ none => by cases none⟩
  | cons entry rest ih =>
      obtain ⟨sorted, above⟩ := ih (carried last entry)
      have least := (carried_spec last entry).1
      refine ⟨List.pairwise_cons.mpr ⟨above, sorted⟩, fun value member => ?_⟩
      rcases List.mem_cons.mp member with rfl | later
      · exact least
      · exact least.trans (above value later)

theorem firstReach_lt {i : Nat} {reach : Int} (outline : trackXy ≠ [])
    (found : firstReach sampleTs sampleXy trackXy i = some reach) : i < trackXy.length := by
  obtain ⟨sample, listed, -⟩ := Option.map_eq_some_iff.mp found
  have own := List.find?_some listed
  rw [decide_eq_true_eq] at own
  exact own ▸ nearest_lt outline sample.2

theorem firstReach_nonneg {i : Nat} {reach : Int} (ordered : sampleTs.Pairwise (· ≤ ·))
    (found : firstReach sampleTs sampleXy trackXy i = some reach) : 0 ≤ reach := by
  obtain ⟨sample, listed, rfl⟩ := Option.map_eq_some_iff.mp found
  have timed : sample.1 ∈ sampleTs :=
    (List.of_mem_zip (List.mem_of_find?_eq_some listed)).1
  have after : sampleTs.headD 0 ≤ sample.1 := by
    cases sampleTs with
    | nil => cases timed
    | cons t0 rest =>
        rcases List.mem_cons.mp timed with same | later
        · rw [same, List.headD_cons]
        · exact (List.pairwise_cons.mp ordered).1 sample.1 later
  have elapsed : (0 : Rat) ≤ (sample.1 - sampleTs.headD 0) * 1000 := by linarith
  exact roundHalfEven_nonneg elapsed

theorem buildLapTrace_eq (samples : sampleTs ≠ []) (paired : sampleTs.length = sampleXy.length)
    (outline : trackXy ≠ []) :
    ∃ reached : List (Option Int), reached.length = trackXy.length ∧
      buildLapTrace sampleTs sampleXy trackXy = .ok ((carryForward 0 reached).set 0 0) ∧
      ∀ i, reached[i]?.join = firstReach sampleTs sampleXy trackXy i := by
  obtain ⟨t0, rest, rfl⟩ := List.exists_cons_of_ne_nil samples
  obtain ⟨reached, looped, count, values⟩ :
      ∃ reached, reachLoop trackXy t0 (t0 :: rest) sampleXy
        (List.replicate trackXy.length none) = .ok reached ∧ _ :=
    reachLoop_eq outline List.length_replicate paired
  refine ⟨reached, count, by simp [buildLapTrace, looped], fun i => ?_⟩
  by_cases within : i < trackXy.length
  · rw [values i within]
    simp [firstReach, within]
  · have beyond : firstReach (t0 :: rest) sampleXy trackXy i = none := by
      rw [Option.eq_none_iff_forall_ne_some]
      exact fun reach found => within (firstReach_lt outline found)
    rw [beyond, List.getElem?_eq_none (by omega)]
    rfl

theorem buildLapTrace_nil (samples : sampleTs ≠ []) (paired : sampleTs.length = sampleXy.length) :
    buildLapTrace sampleTs sampleXy [] = .error .indexError := by
  obtain ⟨t0, rest, rfl⟩ := List.exists_cons_of_ne_nil samples
  cases sampleXy with
  | nil => cases paired
  | cons xy sampleXy => rfl

/-- Zero stays in order before entries that are none of them negative. -/
theorem set_zero_sorted {entries : List Int}
    (sorted : entries.Pairwise (· ≤ ·) ∧ ∀ value ∈ entries, 0 ≤ value) :
    (entries.set 0 0).Pairwise (· ≤ ·) := by
  cases entries with
  | nil => exact List.Pairwise.nil
  | cons first rest =>
      exact List.pairwise_cons.mpr ⟨fun value member => sorted.2 value (List.mem_cons_of_mem _ member),
        (List.pairwise_cons.mp sorted.1).2⟩

/-- What does not come later than the lowest point reached comes no later than any in order. -/
theorem start_le_of_inOrder (startFirst : StartReachedFirst sampleTs sampleXy trackXy)
    {start reach : Int} {i : Nat} (found : firstReach sampleTs sampleXy trackXy 0 = some start)
    (beyond : 1 ≤ i) (own : firstReach sampleTs sampleXy trackXy i = some reach)
    (inOrder : ∀ j earlier, 1 ≤ j → j < i → firstReach sampleTs sampleXy trackXy j = some earlier →
      earlier ≤ reach) : start ≤ reach := by
  have some : ∃ j, 1 ≤ j ∧ (firstReach sampleTs sampleXy trackXy j).isSome = true :=
    ⟨i, beyond, by rw [own]; rfl⟩
  obtain ⟨past, reached⟩ := Nat.find_spec some
  obtain ⟨earlier, taken⟩ := Option.isSome_iff_exists.mp reached
  have lowest := startFirst start found _ earlier past taken fun j later before => by
    have missing := Nat.find_min some before
    rw [not_and, Bool.not_eq_true, Option.isSome_eq_false_iff, Option.isNone_iff_eq_none] at missing
    exact missing later
  rcases Nat.eq_or_lt_of_le (Nat.find_min' some ⟨beyond, by rw [own]; rfl⟩) with same | before
  · rw [same] at taken
    exact lowest.trans (Option.some.inj (taken.symm.trans own)).le
  · exact lowest.trans (inOrder _ earlier past before taken)

/-- The trace records first arrivals exactly when the start point's does not come too late. -/
theorem first_arrivals_iff (samples : sampleTs ≠ []) (paired : sampleTs.length = sampleXy.length)
    (ordered : sampleTs.Pairwise (· ≤ ·)) :
    (∃ lapTrace, buildLapTrace sampleTs sampleXy trackXy = .ok lapTrace ∧
      RecordsArrivals sampleTs sampleXy trackXy lapTrace) ↔
    trackXy ≠ [] ∧ StartReachedFirst sampleTs sampleXy trackXy := by
  by_cases outline : trackXy = []
  · subst outline
    rw [buildLapTrace_nil samples paired]
    simp
  obtain ⟨reached, count, built, values⟩ := buildLapTrace_eq samples paired outline
  have spec {i : Nat} (within : i < trackXy.length) :
      ∃ value, (carryForward 0 reached)[i]? = some value ∧ _ :=
    carryForward_spec (count.symm ▸ within)
  have shown {i : Nat} (beyond : 1 ≤ i) :
      ((carryForward 0 reached).set 0 0)[i]? = (carryForward 0 reached)[i]? :=
    List.getElem?_set_ne (by omega)
  rw [built]
  constructor
  · intro both
    obtain ⟨lapTrace, same, records⟩ := both
    cases same
    refine ⟨outline, fun start found i reach beyond own lowest => ?_⟩
    have recorded := records.arrivals i reach beyond own fun j earlier first before taken => by
      rw [lowest j first before] at taken
      cases taken
    obtain ⟨value, carried, highest, -, -⟩ := spec (firstReach_lt outline own)
    rw [shown beyond, carried, Option.some.injEq] at recorded
    exact recorded ▸ highest 0 start (Nat.zero_le i) ((values 0).trans found)
  · intro both
    obtain ⟨-, startFirst⟩ := both
    refine ⟨_, rfl, ?_, ?_, ?_, ?_⟩
    · rw [List.length_set, length_carryForward, count]
    · have first : 0 < (carryForward 0 reached).length := by
        rw [length_carryForward, count]
        exact List.length_pos_iff.mpr outline
      exact List.getElem?_set_self first
    · exact set_zero_sorted (carryForward_sorted 0 reached)
    · intro i reach beyond own inOrder
      obtain ⟨value, carried, highest, source, -⟩ := spec (firstReach_lt outline own)
      have below : reach ≤ value := highest i reach (le_refl i) ((values i).trans own)
      have above : value ≤ reach := by
        rcases source with rfl | ⟨j, before, taken⟩
        · exact firstReach_nonneg ordered own
        · rw [values] at taken
          rcases Nat.eq_zero_or_pos j with rfl | later
          · exact start_le_of_inOrder startFirst taken beyond own inOrder
          · rcases Nat.eq_or_lt_of_le before with rfl | earlier
            · exact (Option.some.inj (taken.symm.trans own)).le
            · exact inOrder j value later earlier taken
      rw [shown beyond, carried, above.antisymm below]

/-- The lap starts nearest to the second point, and only its end is nearest to the first. -/
theorem late_start_hides_arrivals :
    [0, 1].Pairwise (fun earlier later : Rat => earlier ≤ later) ∧
    firstReach [0, 1] [(1, 0), (0, 0)] [(0, 0), (1, 0)] 1 = some 0 ∧
    buildLapTrace [0, 1] [(1, 0), (0, 0)] [(0, 0), (1, 0)] = .ok [0, 1000] ∧
    ¬ ∃ lapTrace, buildLapTrace [0, 1] [(1, 0), (0, 0)] [(0, 0), (1, 0)] = .ok lapTrace ∧
      RecordsArrivals [0, 1] [(1, 0), (0, 0)] [(0, 0), (1, 0)] lapTrace := by
  have arrived : firstReach [0, 1] [(1, 0), (0, 0)] [(0, 0), (1, 0)] 1 = some 0 := by
    decide +kernel
  have built : buildLapTrace [0, 1] [(1, 0), (0, 0)] [(0, 0), (1, 0)] = .ok [0, 1000] := by
    decide +kernel
  refine ⟨by decide, arrived, built, fun both => ?_⟩
  obtain ⟨lapTrace, same, records⟩ := both
  cases built.symm.trans same
  have recorded := records.arrivals 1 0 (le_refl 1) arrived fun j _ after before _ => by omega
  exact absurd recorded (by decide)

theorem first_arrivals_iff_loop :
    (∃ lapTrace, buildLapTrace [0, 1, 2] [(0, 0), (1, 0), (0, 0)] [(0, 0), (1, 0)] = .ok lapTrace ∧
      RecordsArrivals [0, 1, 2] [(0, 0), (1, 0), (0, 0)] [(0, 0), (1, 0)] lapTrace) ↔
    [((0 : Rat), (0 : Rat)), (1, 0)] ≠ [] ∧
      StartReachedFirst [0, 1, 2] [(0, 0), (1, 0), (0, 0)] [(0, 0), (1, 0)] :=
  first_arrivals_iff (by decide) rfl (by decide)

end RaceTracker.Bake
