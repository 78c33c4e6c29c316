import RaceTracker.Bake.Projection

namespace RaceTracker.Bake

open RaceTracker.Lib

/-! A car that drives along the centreline, from its positions to its race distance. -/

variable {hypot : Rat → Rat → Rat} {nodes : List (Rat × Rat)} {lapLength : Rat}

/-- The arc length of one position. -/
def arcOf (hypot : Rat → Rat → Rat) (nodes : List (Rat × Rat)) (lapLength : Rat) (p : Rat × Rat) : Rat :=
  match nearestNode nodes p with
  | .error _ => 0
  | .ok i => ((projectToArc hypot p.1 p.2 nodes i lapLength).toOption.bind id).getD 0

theorem arcOf_eq {p : Rat × Rat} {nearestI : Nat} {s : Rat} (found : nearestNode nodes p = .ok nearestI)
    (projected : projectToArc hypot p.1 p.2 nodes nearestI lapLength = .ok (some s)) :
    arcOf hypot nodes lapLength p = s := by
  rw [arcOf, found]
  simp only [projected]
  rfl

theorem raceDistOf_eq (populated : 0 < nodes.length) (positive : 0 < lapLength) (lap0 : Int)
    (xys : List (Rat × Rat)) (inPit : List Bool) :
    raceDistOf hypot nodes lapLength lap0 xys inPit =
      .ok (raceDist lap0 lapLength (xys.map (arcOf hypot nodes lapLength)) inPit) := by
  let index (p : Rat × Rat) : Nat := (nearestNode nodes p).toOption.getD 0
  have indexed (p : Rat × Rat) : nearestNode nodes p = .ok (index p) := by
    obtain ⟨i, found, -⟩ := nearestNode_spec populated p
    simp only [index, found]
    rfl
  have projected (p : Rat × Rat) : projectToArc hypot p.1 p.2 nodes (index p) lapLength =
      .ok (some (arcOf hypot nodes lapLength p)) := by
    have taken : projectToArc hypot p.1 p.2 nodes (index p) lapLength = _ :=
      projectToArc_eq populated positive p (index p) rfl
    rw [taken, arcOf_eq (indexed p) taken]
  have first : nearestNodes nodes xys = .ok (xys.map index) := by
    rw [nearestNodes, mapM_chunks _ (by decide)]
    exact mapM_eq_map fun p _ => indexed p
  have paired : xys.zip (xys.map index) = xys.map fun p => (p, index p) := by
    simpa using List.zip_map' (f := (id : Rat × Rat → Rat × Rat)) (g := index) (l := xys)
  have second : (xys.zip (xys.map index)).mapM (fun entry =>
      projectToArc hypot entry.1.1 entry.1.2 nodes entry.2 lapLength) =
        .ok ((xys.zip (xys.map index)).map fun entry => some (arcOf hypot nodes lapLength entry.1)) := by
    refine mapM_eq_map fun entry member => ?_
    rw [paired] at member
    obtain ⟨p, -, rfl⟩ := List.mem_map.mp member
    exact projected p
  rw [raceDistOf, first, ok_bind, second, ok_bind, pure_eq_ok, paired, List.map_map, List.map_map]
  rfl

/-- What more `math.hypot` promises: no way round is shorter. -/
structure Metric (hypot : Rat → Rat → Rat) : Prop extends Length hypot where
  triangle : ∀ dx dy dx' dy', hypot (dx + dx') (dy + dy') ≤ hypot dx dy + hypot dx' dy'
  scaled : ∀ f dx dy, hypot (f * dx) (f * dy) = |f| * hypot dx dy

def gapOf (hypot : Rat → Rat → Rat) (p q : Rat × Rat) : Rat := hypot (q.1 - p.1) (q.2 - p.2)

section

variable {closed : List (Rat × Rat)} {j k : Nat} {p q r : Rat × Rat} {here there : Rat}

theorem Metric.gap_triangle (metric : Metric hypot) (p q r : Rat × Rat) :
    gapOf hypot p r ≤ gapOf hypot p q + gapOf hypot q r := by
  have way := metric.triangle (q.1 - p.1) (q.2 - p.2) (r.1 - q.1) (r.2 - q.2)
  rw [sub_add_sub_cancel', sub_add_sub_cancel'] at way
  exact way

theorem Length.gap_nonneg (length : Length hypot) (p q : Rat × Rat) : 0 ≤ gapOf hypot p q := length.nonneg ..

/-- Two points of one segment are as far apart as their shares of it. -/
theorem Metric.gap_along (metric : Metric hypot) (a b : Rat × Rat) (f g : Rat) :
    gapOf hypot (along a b f) (along a b g) = |g - f| * gapOf hypot a b := by
  rw [gapOf, gapOf, ← metric.scaled]
  congr 1 <;> simp only [along] <;> ring

/-- No two points of a polyline are farther apart than the way along it. -/
theorem Metric.gap_vertices (metric : Metric hypot) (ordered : j ≤ k) (first : closed[j]? = some p)
    (last : closed[k]? = some q) :
    gapOf hypot p q ≤ (cumulativeArc hypot closed).getD k 0 - (cumulativeArc hypot closed).getD j 0 := by
  induction k, ordered using Nat.le_induction generalizing q with
  | base =>
      rw [first] at last
      cases last
      have still := metric.scaled 0 0 0
      rw [mul_zero, abs_zero, zero_mul] at still
      simp [gapOf, still]
  | succ k ordered ih =>
      have within := (List.getElem?_eq_some_iff.mp last).1
      have before : closed[k]? = some closed[k] := List.getElem?_eq_getElem (by omega)
      have onward := ih before
      have step := metric.gap_triangle p closed[k] q
      rw [cumulativeArc_step before last]
      unfold gapOf at onward step ⊢
      linarith

theorem Metric.gap_to_vertex (metric : Metric hypot) (on : AtArc closed (cumulativeArc hypot closed) here j p)
    (ordered : j + 1 ≤ k) (last : closed[k]? = some q) :
    gapOf hypot p q ≤ (cumulativeArc hypot closed).getD k 0 - here := by
  obtain ⟨f, start, finish, low, high, arc, from', to', rfl⟩ := on.share
  have rest := metric.gap_along start finish f 1
  rw [along_one, abs_of_nonneg (by linarith)] at rest
  have onward := metric.gap_vertices ordered to' last
  have way := metric.gap_triangle (along start finish f) finish q
  rw [cumulativeArc_step from' to'] at arc onward
  change gapOf hypot (along start finish f) q ≤ _
  unfold gapOf at rest onward way ⊢
  linarith

theorem Metric.gap_le (metric : Metric hypot) (on : AtArc closed (cumulativeArc hypot closed) here j p)
    (on' : AtArc closed (cumulativeArc hypot closed) there k q) (ordered : j ≤ k) (later : here ≤ there) :
    gapOf hypot p q ≤ there - here := by
  obtain ⟨g, start', finish', low', high', arc', from'', to'', placed'⟩ := on'.share
  rcases ordered.eq_or_lt with rfl | before
  · obtain ⟨f, start, finish, low, high, arc, from', to', placed⟩ := on.share
    cases from'.symm.trans from''
    cases to'.symm.trans to''
    have apart := metric.gap_along start' finish' f g
    rw [cumulativeArc_step from' to', add_sub_cancel_left] at arc arc'
    have shares : there - here = (g - f) * gapOf hypot start' finish' := by
      rw [← arc, ← arc', gapOf]
      ring
    have size : |g - f| * gapOf hypot start' finish' = |there - here| := by
      rw [shares, abs_mul, abs_of_nonneg (metric.toLength.gap_nonneg ..)]
    rw [placed, placed']
    exact (apart.trans (size.trans (abs_of_nonneg (sub_nonneg.mpr later)))).le
  · have way := metric.gap_to_vertex on before from''
    have share := metric.gap_along start' finish' 0 g
    rw [along_zero, sub_zero, abs_of_nonneg low'] at share
    have onward := metric.gap_triangle p start' q
    rw [cumulativeArc_step from'' to'', add_sub_cancel_left] at arc'
    have placed'' : q = along start' finish' g := placed'
    rw [← placed''] at share
    unfold gapOf at way share onward ⊢
    linarith

end

theorem le_advance (cum : List Rat) (target : Rat) (j : Nat) : j ≤ advance cum target j := by
  fun_induction advance cum target j with
  | case1 j passed ih => omega
  | case2 j stopped => exact le_refl j

theorem segmentIndex_le (cum : List Rat) (lapLength : Rat) (n k : Nat) :
    segmentIndex cum lapLength n k ≤ segmentIndex cum lapLength n (k + 1) := le_advance ..

theorem length_closeLoop {xy : List (Rat × Rat)} (points : 0 < xy.length) :
    (closeLoop xy).length = xy.length + 1 := by
  rw [closeLoop, List.length_append, List.length_take, min_eq_left (by omega)]

theorem closeLoop_arc {xy : List (Rat × Rat)} (points : 0 < xy.length) :
    (cumulativeArc hypot (closeLoop xy)).getD xy.length 0 = loopLength hypot xy := by
  have size : (cumulativeArc hypot (closeLoop xy)).length = xy.length + 1 := by
    rw [cumulativeArc_length, length_closeLoop points]
    rfl
  rw [loopLength, List.getLastD_eq_getLast?, List.getLast?_eq_getElem?, size, List.getD_eq_getElem?_getD]
  rfl

/-- Neighbours on the centreline are no farther apart than a step along the reference lap. -/
theorem EquallySpaced.chord_le {xy : List (Rat × Rat)} {n : Nat} (spaced : EquallySpaced hypot xy n nodes)
    (metric : Metric hypot) (populated : 0 < n) (points : 0 < xy.length) (positive : 0 < loopLength hypot xy)
    (k : Int) : gapOf hypot (nodeAt nodes k) (nodeAt nodes (k + 1)) ≤ loopLength hypot xy / n := by
  have size : (0 : Rat) < n := Nat.cast_pos.mpr populated
  have many : 0 < nodes.length := spaced.length ▸ populated
  have low : 0 ≤ k % nodes.length := Int.emod_nonneg _ (by omega)
  have high : k % nodes.length < nodes.length := Int.emod_lt_of_pos _ (by omega)
  obtain ⟨i, index⟩ := Int.eq_ofNat_of_zero_le low
  have within : i < n := by
    rw [← spaced.length]
    omega
  obtain ⟨node, found, on⟩ := spaced.each i within
  have first : nodes[i]? = some (nodeAt nodes k) := by
    rw [← nodeAt_found many k, index]
    rfl
  cases first.symm.trans found
  have second := nodeAt_next many k
  rw [index, Int.toNat_natCast, spaced.length] at second
  by_cases last : i + 1 = n
  · -- the segment that closes the loop ends where the reference lap began
    have closes : (closeLoop xy)[xy.length]? = some (nodeAt nodes (k + 1)) := by
      rw [last, Nat.mod_self, spaced.start metric.toLength] at second
      rw [closeLoop, List.getElem?_append_right (le_refl _), Nat.sub_self, List.getElem?_take_of_lt (by decide),
        second]
    have ordered : segmentIndex (cumulativeArc hypot (closeLoop xy)) (loopLength hypot xy) n i + 1 ≤ xy.length := by
      obtain ⟨f, start, finish, -, -, -, -, to', -⟩ := on.share
      have bound := (List.getElem?_eq_some_iff.mp to').1
      rw [length_closeLoop points] at bound
      omega
    have way := metric.gap_to_vertex on ordered closes
    rw [closeLoop_arc points] at way
    refine way.trans_eq ?_
    have share : (i : Rat) + 1 = n := by exact_mod_cast last
    field_simp
    linear_combination -share
  · rw [Nat.mod_eq_of_lt (by omega)] at second
    obtain ⟨node', found', on'⟩ := spaced.each (i + 1) (by omega)
    cases second.symm.trans found'
    have onward : loopLength hypot xy * i / n ≤ loopLength hypot xy * (i + 1 : Nat) / n := by
      gcongr
      omega
    refine (metric.gap_le on on' (segmentIndex_le ..) onward).trans_eq ?_
    push_cast
    ring

/-- Whatever the resampler returns is equally spaced. -/
theorem resampled_spaced {xy : List (Rat × Rat)} {n : Nat}
    (resampled : resampleClosedLoop hypot xy n = .ok (nodes, lapLength)) :
    0 < xy.length ∧ 0 < n ∧ lapLength = loopLength hypot xy ∧ 0 < lapLength ∧ EquallySpaced hypot xy n nodes := by
  rw [resampleClosedLoop] at resampled
  by_cases few : xy.length < 3
  · simp [few] at resampled
  by_cases sparse : n < 3
  · simp [few, sparse] at resampled
  obtain ⟨first, found⟩ : ∃ first, xy[0]? = some first :=
    ⟨_, List.getElem?_eq_getElem (show 0 < xy.length by omega)⟩
  have closed : xy ++ [first] = closeLoop xy := by
    rw [closeLoop, List.take_one, List.head?_eq_getElem?, found]
    rfl
  have total : _ = loopLength hypot xy := closeLoop_arc (show 0 < xy.length by omega)
  have count := length_closeLoop (show 0 < xy.length by omega)
  have size : (closeLoop xy).length = (cumulativeArc hypot (closeLoop xy)).length := by
    rw [cumulativeArc_length]
    omega
  have last : (cumulativeArc hypot (closeLoop xy)).length - 1 = xy.length := by omega
  have ends := item_of_lt (show xy.length < (cumulativeArc hypot (closeLoop xy)).length by omega)
  rw [total] at ends
  simp only [few, sparse, item_eq found, closed, last, ends, ok_bind, pure_eq_ok, if_false] at resampled
  by_cases flat : loopLength hypot xy ≤ 0
  · simp [flat] at resampled
  · have positive := not_le.mp flat
    rw [← last] at total
    have start : (cumulativeArc hypot (closeLoop xy)).getD 0 0 ≤ loopLength hypot xy * (0 : Nat) / n := by
      rw [cumulativeArc_start, Nat.cast_zero, mul_zero, zero_div]
    have pointer : advance (cumulativeArc hypot (closeLoop xy)) (loopLength hypot xy * (0 : Nat) / n) 0 =
        segmentIndex (cumulativeArc hypot (closeLoop xy)) (loopLength hypot xy) n 0 := by
      rw [segmentIndex, Nat.cast_zero, mul_zero, zero_div]
    obtain ⟨placed, reached, length, each⟩ := nodesFrom_eq size positive total (show 0 < n by omega)
      (Nat.zero_add n) (show 0 + 1 < _ by omega) start pointer
    simp only [if_neg flat, reached, ok_bind, Except.ok.injEq, Prod.mk.injEq] at resampled
    obtain ⟨rfl, rfl⟩ := resampled
    simp only [Nat.zero_add] at each
    refine ⟨by omega, by omega, rfl, positive, length, fun lengths => ?_, each⟩
    obtain ⟨node, here, on⟩ := each 0 (by omega)
    rw [Nat.cast_zero, mul_zero, zero_div] at on
    rw [here, ← on.at_start lengths, closeLoop, List.getElem?_append_left (by omega)]

/-- A track that turns by less than a right angle at each node and keeps clear of itself: to a point of a
segment only an end of the segment can be the nearest node. -/
structure Smooth (nodes : List (Rat × Rat)) : Prop where
  onward : ∀ k : Int, 0 < moveDot (nodeAt nodes (k - 1)) (nodeAt nodes k) (nodeAt nodes k) (nodeAt nodes (k + 1))
  clear : ∀ (k : Int) (t : Rat) (j : Int), 0 < t → t ≤ 1 →
    distSq (onSegment nodes k t) (nodeAt nodes j) ≤ distSq (onSegment nodes k t) (nodeAt nodes k) →
    distSq (onSegment nodes k t) (nodeAt nodes j) ≤ distSq (onSegment nodes k t) (nodeAt nodes (k + 1)) →
    j % nodes.length = k % nodes.length ∨ j % nodes.length = (k + 1) % nodes.length

/-- Places are counted in nodes from the start; at a node, the segment is the one that leads there. -/
def segmentAt (q : Rat) : Int := ⌈q⌉ - 1

def shareAt (q : Rat) : Rat := q - segmentAt q

def placeAt (nodes : List (Rat × Rat)) (q : Rat) : Rat × Rat := onSegment nodes (segmentAt q) (shareAt q)

/-- The arc length that is read off at a place, laps counted. -/
def arcAt (hypot : Rat → Rat → Rat) (nodes : List (Rat × Rat)) (lapLength q : Rat) : Rat :=
  arcOn hypot nodes lapLength (segmentAt q) (shareAt q)

theorem shareAt_bounds (q : Rat) : 0 < shareAt q ∧ shareAt q ≤ 1 := by
  have above := Int.le_ceil q
  have below := Int.ceil_lt_add_one q
  rw [shareAt, segmentAt]
  push_cast
  constructor <;> linarith

theorem segmentAt_mono {q q' : Rat} (ordered : q ≤ q') : segmentAt q ≤ segmentAt q' :=
  Int.sub_le_sub_right (Int.ceil_mono ordered) 1

theorem Smooth.apart (smooth : Smooth nodes) (k : Int) : nodeAt nodes k ≠ nodeAt nodes (k + 1) := by
  intro same
  have onward := smooth.onward k
  rw [← same] at onward
  simp [moveDot] at onward

/-- A car on the centreline is read off where it is. -/
theorem Smooth.arcOf_place (smooth : Smooth nodes) (populated : 0 < nodes.length) (positive : 0 < lapLength) (q : Rat) :
    arcOf hypot nodes lapLength (placeAt nodes q) = phase lapLength (arcAt hypot nodes lapLength q) := by
  obtain ⟨low, high⟩ := shareAt_bounds q
  obtain ⟨i, found, within, least⟩ := nearestNode_spec populated (placeAt nodes q)
  have own : footOn nodes (placeAt nodes q) (segmentAt q) = shareAt q :=
    foot_along (smooth.apart _) low.le high
  have none : distSq (placeAt nodes q) (onSegment nodes (segmentAt q)
      (footOn nodes (placeAt nodes q) (segmentAt q))) = 0 := by
    rw [own]
    exact distSq_eq_zero.mpr rfl
  have near (j : Int) : distSq (placeAt nodes q) (nodeAt nodes i) ≤ distSq (placeAt nodes q) (nodeAt nodes j) := by
    have low : 0 ≤ j % nodes.length := Int.emod_nonneg _ (by omega)
    have high : j % nodes.length < nodes.length := Int.emod_lt_of_pos _ (by omega)
    obtain ⟨k, index⟩ := Int.eq_ofNat_of_zero_le low
    have same : j % nodes.length = (k : Int) % nodes.length := by
      rw [index, Int.emod_eq_of_lt (by omega) (by omega)]
    rw [nodeAt_congr same]
    exact least k (by omega)
  have taken : projectToArc hypot (placeAt nodes q).1 (placeAt nodes q).2 nodes i lapLength =
      .ok (some (phase lapLength (arcAt hypot nodes lapLength q))) := by
    rcases smooth.clear (segmentAt q) (shareAt q) i low high (near _) (near _) with here | next
    · -- the segment before does not reach the car
      rw [projectToArc_congr here, projectToArc_eq populated positive _ (segmentAt q) (k := segmentAt q), own]
      · rfl
      · rw [none, if_pos]
        refine lt_of_le_of_ne (distSq_nonneg ..) fun meets => ?_
        have onward := smooth.onward (segmentAt q)
        have reaches := distSq_eq_zero.mp meets.symm
        have behind := apart_after onward low (foot_bounds (placeAt nodes q) (nodeAt nodes (segmentAt q - 1))
          (nodeAt nodes (segmentAt q))).2
        refine behind ?_
        rw [footOn, onSegment, sub_add_cancel] at reaches
        exact reaches.symm
    · -- the segment after is no nearer
      rw [projectToArc_congr next, projectToArc_eq populated positive _ (segmentAt q + 1) (k := segmentAt q), own]
      · rfl
      · rw [add_sub_cancel_right, none, if_neg (not_lt.mpr (distSq_nonneg ..))]
  exact arcOf_eq found taken

/-- The length of the chords, against the step along the reference lap. -/
def ChordsWithin (hypot : Rat → Rat → Rat) (nodes : List (Rat × Rat)) (step : Rat) : Prop :=
  ∀ k : Int, 0 < gapOf hypot (nodeAt nodes k) (nodeAt nodes (k + 1)) ∧
    gapOf hypot (nodeAt nodes k) (nodeAt nodes (k + 1)) ≤ step

section

variable {step q q' : Rat} (chords : ChordsWithin hypot nodes (lapLength / nodes.length))

include chords

theorem ChordsWithin.arcAt_bounds (q : Rat) : q * (lapLength / nodes.length) - lapLength / nodes.length <
      arcAt hypot nodes lapLength q ∧
    arcAt hypot nodes lapLength q ≤ q * (lapLength / nodes.length) := by
  obtain ⟨low, high⟩ := shareAt_bounds q
  obtain ⟨long, short⟩ := chords (segmentAt q)
  have whole : q * (lapLength / nodes.length) =
      segmentAt q * (lapLength / nodes.length) + shareAt q * (lapLength / nodes.length) := by
    rw [shareAt]
    ring
  have upper := mul_le_mul_of_nonneg_left short low.le
  have lower := mul_pos low long
  have share : shareAt q * (lapLength / nodes.length) ≤ 1 * (lapLength / nodes.length) :=
    mul_le_mul_of_nonneg_right high (long.le.trans short)
  rw [whole, arcAt, arcOn]
  unfold gapOf at upper lower
  constructor <;> linarith

/-- What is read off does not fall as the car goes forward. -/
theorem ChordsWithin.arcAt_mono (ordered : q ≤ q') :
    arcAt hypot nodes lapLength q ≤ arcAt hypot nodes lapLength q' := by
  obtain ⟨low, high⟩ := shareAt_bounds q
  obtain ⟨low', high'⟩ := shareAt_bounds q'
  obtain ⟨long, short⟩ := chords (segmentAt q)
  have lower := mul_pos low' (chords (segmentAt q')).1
  rcases (segmentAt_mono ordered).eq_or_lt with same | before
  · have shares : shareAt q ≤ shareAt q' := by
      rw [shareAt, shareAt, same]
      linarith
    have onward := mul_le_mul_of_nonneg_right shares long.le
    rw [arcAt, arcAt, arcOn, arcOn, ← same]
    unfold gapOf at onward
    linarith
  · have next : (segmentAt q : Rat) + 1 ≤ segmentAt q' := by exact_mod_cast before
    have steps := mul_le_mul_of_nonneg_right next (long.le.trans short)
    have upper := mul_le_mul high short long.le zero_le_one
    rw [arcAt, arcAt, arcOn, arcOn]
    unfold gapOf at lower upper
    linarith

theorem ChordsWithin.turns_first (populated : 0 < nodes.length) (positive : 0 < lapLength) (started : 0 < q)
    (within : q < nodes.length) : turns lapLength (arcAt hypot nodes lapLength q) = 0 := by
  obtain ⟨low, high⟩ := shareAt_bounds q
  have size : (0 : Rat) < nodes.length := Nat.cast_pos.mpr populated
  have first : (0 : Rat) ≤ segmentAt q := by
    have above := Int.ceil_pos.mpr started
    have whole : 0 ≤ segmentAt q := by
      rw [segmentAt]
      omega
    exact_mod_cast whole
  have ahead : 0 ≤ arcAt hypot nodes lapLength q :=
    add_nonneg (mul_nonneg first (div_nonneg positive.le size.le)) (mul_nonneg low.le (chords (segmentAt q)).1.le)
  have short : arcAt hypot nodes lapLength q < lapLength :=
    calc arcAt hypot nodes lapLength q ≤ q * (lapLength / nodes.length) := (chords.arcAt_bounds q).2
      _ < nodes.length * (lapLength / nodes.length) := mul_lt_mul_of_pos_right within (div_pos positive size)
      _ = lapLength := by field_simp
  rw [turns, Int.floor_eq_zero_iff]
  exact ⟨div_nonneg ahead positive.le, (div_lt_one positive).mpr short⟩

theorem ChordsWithin.arcAt_step (populated : 0 < nodes.length) (close : q' - q + 1 < nodes.length / 2) :
    arcAt hypot nodes lapLength q' - arcAt hypot nodes lapLength q < lapLength / 2 := by
  have size : (0 : Rat) < nodes.length := Nat.cast_pos.mpr populated
  obtain ⟨long, short⟩ := chords 0
  have apart := mul_lt_mul_of_pos_right close (long.trans_le short)
  have half : (nodes.length : Rat) / 2 * (lapLength / nodes.length) = lapLength / 2 := by field_simp
  have upper := (chords.arcAt_bounds q').2
  have lower := (chords.arcAt_bounds q).1
  linarith

end

/-- Where a car is in a frame: at a place on the centreline, or somewhere in the pit lane. -/
inductive Spot where
  | onTrack (q : Rat)
  | inPits (xy : Rat × Rat)

def Spot.position (nodes : List (Rat × Rat)) : Spot → Rat × Rat
  | .onTrack q => placeAt nodes q
  | .inPits xy => xy

def Spot.pitted : Spot → Bool
  | .onTrack _ => false
  | .inPits _ => true

def Spot.place : Spot → Option Rat
  | .onTrack q => some q
  | .inPits _ => none

/-- The distances never fall, stand still in the pit lane, and on the track fall short of the car's own,
`laps` whole laps on, by less than one step of the centreline; they are in metres, and the step is not. -/
structure Tracked (spots : List Spot) (lapLength step : Rat) (dists : List Rat) (laps : Int) : Prop where
  length : dists.length = spots.length
  rising : dists.Pairwise (· ≤ ·)
  stands : ∀ (index : Nat) (xy : Rat × Rat), spots[index + 1]? = some (.inPits xy) →
    dists[index + 1]? = dists[index]?
  close : ∀ (index : Nat) (q : Rat), spots[index]? = some (.onTrack q) →
    ∃ d, dists[index]? = some d ∧ (q * step + laps * lapLength - step) / 10 < d ∧
      d ≤ (q * step + laps * lapLength) / 10

section

variable (hypot : Rat → Rat → Rat) (nodes : List (Rat × Rat)) (lapLength : Rat)

/-- What the recorder makes of a spot: an arc length, laps counted while on the track. -/
def Spot.reading : Spot → Rat × Bool
  | .onTrack q => (arcAt hypot nodes lapLength q, false)
  | .inPits xy => (arcOf hypot nodes lapLength xy, true)

end

theorem kept_readings (q : Rat) (rest : List Spot) :
    kept ((.onTrack q :: rest).map (Spot.reading hypot nodes lapLength)) =
      (q :: rest.filterMap Spot.place).map (arcAt hypot nodes lapLength) := by
  rw [List.map_cons, List.map_cons, kept]
  refine congrArg _ ?_
  induction rest with
  | nil => rfl
  | cons spot rest ih =>
      cases spot with
      | onTrack q' => exact congrArg (arcAt hypot nodes lapLength q' :: ·) ih
      | inPits xy => exact ih

theorem Smooth.arcsOf_readings (smooth : Smooth nodes) (populated : 0 < nodes.length) (positive : 0 < lapLength)
    (spots : List Spot) : arcsOf lapLength (spots.map (Spot.reading hypot nodes lapLength)) =
      (spots.map (Spot.position nodes)).map (arcOf hypot nodes lapLength) := by
  rw [arcsOf, List.map_map, List.map_map]
  refine List.map_congr_left fun spot _ => ?_
  cases spot with
  | onTrack q => exact (smooth.arcOf_place populated positive q).symm
  | inPits xy =>
      obtain ⟨i, found, -⟩ := nearestNode_spec populated xy
      have taken : projectToArc hypot xy.1 xy.2 nodes i lapLength = _ :=
        projectToArc_eq populated positive xy i rfl
      obtain ⟨low, high⟩ := phase_bounds positive (arcOn hypot nodes lapLength _ (footOn nodes xy _))
      change phase lapLength (arcOf hypot nodes lapLength xy) = arcOf hypot nodes lapLength xy
      rw [arcOf_eq found taken]
      exact phase_of_within low high

theorem pittedOf_readings (spots : List Spot) :
    pittedOf (spots.map (Spot.reading hypot nodes lapLength)) = spots.map Spot.pitted := by
  rw [pittedOf, List.map_map]
  refine List.map_congr_left fun spot _ => ?_
  cases spot <;> rfl

/-- To come nearest to a point between two others, a point has to be near to both. -/
theorem spacing_keeps_clear {a b x : Rat × Rat} {t : Rat} (long : 0 < distSq b a) (first : distSq b a ≤ 2 * distSq x a)
    (second : distSq b a ≤ 2 * distSq x b) (both : distSq b a < distSq x a + distSq x b) (low : 0 < t) (high : t ≤ 1) :
    distSq (along a b t) a < distSq (along a b t) x ∨ distSq (along a b t) b < distSq (along a b t) x := by
  by_contra none
  push Not at none
  obtain ⟨below, below'⟩ := none
  -- by the shares `1 - t` and `t`, both sides are about the three points alone
  have ends : (1 - t) * distSq (along a b t) a + t * distSq (along a b t) b = t * (1 - t) * distSq b a := by
    simp only [distSq, along]
    ring
  have third : (1 - t) * distSq x a + t * distSq x b = distSq (along a b t) x + t * (1 - t) * distSq b a := by
    simp only [distSq, along]
    ring
  have weighed := mul_le_mul_of_nonneg_left below (by linarith : 0 ≤ 1 - t)
  have weighed' := mul_le_mul_of_nonneg_left below' low.le
  have slack := mul_nonneg (by linarith : 0 ≤ 1 - t) (by linarith : 0 ≤ 2 * distSq x a - distSq b a)
  have slack' := mul_nonneg low.le (by linarith : 0 ≤ 2 * distSq x b - distSq b a)
  have square : (1 - 2 * t) ^ 2 * distSq b a ≤ 0 := by linarith
  have half : t = 1 / 2 := by
    have root := pow_eq_zero_iff two_ne_zero |>.mp (le_antisymm (nonpos_of_mul_nonpos_left square long) (sq_nonneg _))
    linarith
  rw [half] at weighed weighed' third ends
  linarith

/-- What `spacing_keeps_clear` asks of a node against a segment. -/
def Spaced (nodes : List (Rat × Rat)) (k j : Int) : Prop :=
  distSq (nodeAt nodes (k + 1)) (nodeAt nodes k) ≤ 2 * distSq (nodeAt nodes j) (nodeAt nodes k) ∧
    distSq (nodeAt nodes (k + 1)) (nodeAt nodes k) ≤ 2 * distSq (nodeAt nodes j) (nodeAt nodes (k + 1)) ∧
    distSq (nodeAt nodes (k + 1)) (nodeAt nodes k) <
      distSq (nodeAt nodes j) (nodeAt nodes k) + distSq (nodeAt nodes j) (nodeAt nodes (k + 1))

def Onward (nodes : List (Rat × Rat)) (k : Int) : Prop :=
  0 < moveDot (nodeAt nodes (k - 1)) (nodeAt nodes k) (nodeAt nodes k) (nodeAt nodes (k + 1))

instance (nodes : List (Rat × Rat)) (k j : Int) : Decidable (Spaced nodes k j) :=
  inferInstanceAs (Decidable (_ ∧ _ ∧ _))

instance (nodes : List (Rat × Rat)) (k : Int) : Decidable (Onward nodes k) :=
  inferInstanceAs (Decidable (_ < _))

theorem round_the_lap (populated : 0 < nodes.length) (k : Int) :
    ∃ i < nodes.length, k % nodes.length = (i : Int) % nodes.length := by
  have low : 0 ≤ k % nodes.length := Int.emod_nonneg _ (by omega)
  have high : k % nodes.length < nodes.length := Int.emod_lt_of_pos _ (by omega)
  obtain ⟨i, index⟩ := Int.eq_ofNat_of_zero_le low
  exact ⟨i, by omega, by rw [index, Int.emod_eq_of_lt (by omega) (by omega)]⟩

/-- A track is smooth if each segment passes a check against each node. -/
theorem Smooth.of_spacing (populated : 0 < nodes.length)
    (each : ∀ i < nodes.length, Onward nodes i ∧
      ∀ j < nodes.length, j = i ∨ j = (i + 1) % nodes.length ∨ Spaced nodes i j) : Smooth nodes := by
  have onward (k : Int) : Onward nodes k := by
    obtain ⟨i, within, same⟩ := round_the_lap populated k
    have passes := (each i within).1
    rw [Onward, nodeAt_congr same, nodeAt_congr (Int.ModEq.sub_right 1 same), nodeAt_congr (Int.ModEq.add_right 1 same)]
    exact passes
  refine ⟨onward, fun k t j low high below below' => ?_⟩
  obtain ⟨i, within, same⟩ := round_the_lap populated k
  obtain ⟨i', within', same'⟩ := round_the_lap populated j
  have next := Int.ModEq.add_right 1 same
  rcases (each i within).2 i' within' with rfl | follows | ⟨first, second, both⟩
  · exact .inl (same'.trans same.symm)
  · refine .inr ?_
    rw [same', follows]
    refine Eq.trans ?_ next.symm
    push_cast
    exact Int.emod_emod_of_dvd _ (dvd_refl _)
  · rw [← nodeAt_congr same, ← nodeAt_congr same', ← nodeAt_congr next] at first second both
    have apart : nodeAt nodes k ≠ nodeAt nodes (k + 1) := by
      intro flat
      have turned := onward k
      rw [Onward, ← flat] at turned
      simp [moveDot] at turned
    have long : 0 < distSq (nodeAt nodes (k + 1)) (nodeAt nodes k) :=
      lt_of_le_of_ne (distSq_nonneg ..) fun none => apart (distSq_eq_zero.mp none.symm).symm
    rcases spacing_keeps_clear long first second both low high with nearer | nearer
    · exact absurd below nearer.not_ge
    · exact absurd below' nearer.not_ge

theorem longerAxis_metric : Metric longerAxis where
  nonneg dx dy := (abs_nonneg dx).trans (le_max_left ..)
  still dx dy none := by
    have first := le_max_left |dx| |dy|
    have second := le_max_right |dx| |dy|
    rw [longerAxis] at none
    rw [none] at first second
    exact ⟨abs_nonpos_iff.mp first, abs_nonpos_iff.mp second⟩
  triangle dx dy dx' dy' := max_le
    ((abs_add_le dx dx').trans (add_le_add (le_max_left ..) (le_max_left ..)))
    ((abs_add_le dy dy').trans (add_le_add (le_max_right ..) (le_max_right ..)))
  scaled f dx dy := by
    rw [longerAxis, longerAxis, abs_mul, abs_mul, mul_max_of_nonneg _ _ (abs_nonneg f)]

theorem octagon_smooth : Smooth octagon := Smooth.of_spacing (by decide) (by decide +kernel)

/-- A lap, from the other side of the track, with a stop on the way. -/
def lapWithStop : List Spot :=
  [.inPits (7, 7), .inPits (6, 9), .onTrack (13 / 2), .onTrack 9, .onTrack 11]

end RaceTracker.Bake
