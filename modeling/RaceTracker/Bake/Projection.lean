import RaceTracker.Bake.Distance
import RaceTracker.Bake.Centreline
import RaceTracker.Lib.Chunks
import RaceTracker.Lib.Segment
import Mathlib.Data.Int.ModEq
import Mathlib.Data.List.MinMax

namespace RaceTracker.Bake

open RaceTracker.Lib

/-! A car's arc length: its position, projected onto the centreline next to the nearest node. -/

def modulo (numerator denominator : Rat) : Except Raised Rat :=
  if denominator = 0 then .error .zeroDivisionError else .ok (phase denominator numerator)

section

variable (hypot : Rat → Rat → Rat)

/-- One turn of the loop over the adjacent segments; only a nearer one is taken. -/
def nearerFoot (x y : Rat) (nodes : List (Rat × Rat)) (step lapLength : Rat) (best : Option (Rat × Rat))
    (i : Nat) : Except Raised (Option (Rat × Rat)) := do
  let (ax, ay) ← item nodes i
  let (bx, bY) ← item nodes ((i + 1) % nodes.length)
  let ux := bx - ax
  let uy := bY - ay
  let seg2 := ux * ux + uy * uy
  let t := if seg2 ≤ 0 then 0 else (x - ax) * ux + (y - ay) * uy
  let t := min (max (if 0 < seg2 then t / seg2 else 0) 0) 1
  let px := ax + t * ux
  let py := ay + t * uy
  let d2 := (x - px) ^ 2 + (y - py) ^ 2
  if best.all (d2 < ·.1) then return some (d2, ← modulo (i * step + t * hypot ux uy) lapLength)
  return best

def projectToArc (x y : Rat) (nodes : List (Rat × Rat)) (nearestI : Int) (lapLength : Rat) :
    Except Raised (Option Rat) := do
  let n : Int := nodes.length
  let step ← divide lapLength n
  let best ← nearerFoot hypot x y nodes step lapLength none ((nearestI - 1) % n).toNat
  let best ← nearerFoot hypot x y nodes step lapLength best (nearestI % n).toNat
  return best.map Prod.snd

end

/-- The first of the nodes that are nearest. -/
def nearestNode (nodes : List (Rat × Rat)) (xy : Rat × Rat) : Except Raised Nat :=
  match (List.range nodes.length).argmin fun i => distSq xy (nodes.getD i (0, 0)) with
  | some i => .ok i
  | none => .error .valueError

/-- `_nearest_nodes`, in chunks of 512 frames. -/
def nearestNodes (nodes : List (Rat × Rat)) (xys : List (Rat × Rat)) : Except Raised (List Nat) :=
  List.flatten <$> (chunks 512 xys).mapM (·.mapM (nearestNode nodes))

/-- `race_dist` of one car. -/
def raceDistOf (hypot : Rat → Rat → Rat) (centreline : List (Rat × Rat)) (lapRaw : Rat) (lap0 : Int)
    (xys : List (Rat × Rat)) (inPit : List Bool) : Except Raised (List Rat) := do
  let idx ← nearestNodes centreline xys
  let sRaw ← (xys.zip idx).mapM fun entry =>
    projectToArc hypot entry.1.1 entry.1.2 centreline entry.2 lapRaw
  return raceDist lap0 lapRaw (sRaw.map (·.getD 0)) inPit

section

variable (hypot : Rat → Rat → Rat) (nodes : List (Rat × Rat)) (lapLength : Rat)

/-- The nodes are numbered round and round. -/
def nodeAt (k : Int) : Rat × Rat := nodes.getD (k % nodes.length).toNat (0, 0)

def onSegment (k : Int) (t : Rat) : Rat × Rat := along (nodeAt nodes k) (nodeAt nodes (k + 1)) t

/-- The arc length of a point of segment `k`. -/
def arcOn (k : Int) (t : Rat) : Rat :=
  k * (lapLength / nodes.length) +
    t * hypot ((nodeAt nodes (k + 1)).1 - (nodeAt nodes k).1) ((nodeAt nodes (k + 1)).2 - (nodeAt nodes k).2)

/-- The nearest point of segment `k`. -/
def footOn (p : Rat × Rat) (k : Int) : Rat := foot p (nodeAt nodes k) (nodeAt nodes (k + 1))

end

section

variable {hypot : Rat → Rat → Rat} {nodes : List (Rat × Rat)} {lapLength : Rat}

theorem nodeAt_congr {k k' : Int} (same : k % nodes.length = k' % nodes.length) :
    nodeAt nodes k = nodeAt nodes k' := by
  rw [nodeAt, nodeAt, same]

theorem nodeAt_natCast {i : Nat} (within : i < nodes.length) : nodeAt nodes i = nodes.getD i (0, 0) := by
  rw [nodeAt, Int.emod_eq_of_lt (by omega) (by omega), Int.toNat_natCast]

theorem nodeAt_found (populated : 0 < nodes.length) (k : Int) :
    nodes[(k % nodes.length).toNat]? = some (nodeAt nodes k) := by
  have low : 0 ≤ k % nodes.length := Int.emod_nonneg _ (by omega)
  have high : k % nodes.length < nodes.length := Int.emod_lt_of_pos _ (by omega)
  have within : (k % nodes.length).toNat < nodes.length := by omega
  rw [nodeAt, List.getD_eq_getElem?_getD, List.getElem?_eq_getElem within]
  rfl

theorem nodeAt_next (populated : 0 < nodes.length) (k : Int) :
    nodes[((k % nodes.length).toNat + 1) % nodes.length]? = some (nodeAt nodes (k + 1)) := by
  have low : 0 ≤ k % nodes.length := Int.emod_nonneg _ (by omega)
  have index : (((k % nodes.length).toNat + 1) % nodes.length : Nat) = ((k + 1) % nodes.length).toNat := by
    zify
    rw [Int.toNat_of_nonneg low, Int.toNat_of_nonneg (Int.emod_nonneg _ (by omega)), Int.emod_add_emod]
  rw [index, nodeAt_found populated]

/-- Seen within one lap, arc lengths are numbered round and round as well. -/
theorem phase_arcOn (populated : 0 < nodes.length) (positive : 0 < lapLength) {k k' : Int}
    (same : k % nodes.length = k' % nodes.length) (t : Rat) :
    phase lapLength (arcOn hypot nodes lapLength k t) = phase lapLength (arcOn hypot nodes lapLength k' t) := by
  obtain ⟨count, apart⟩ := (show k ≡ k' [ZMOD nodes.length] from same).dvd
  have next : (k + 1) % nodes.length = (k' + 1) % nodes.length := Int.ModEq.add_right 1 same
  have size : (nodes.length : Rat) ≠ 0 := by exact_mod_cast populated.ne'
  rw [← phase_add_periods positive (arcOn hypot nodes lapLength k t) count, arcOn, arcOn, nodeAt_congr same,
    nodeAt_congr next]
  congr 1
  have cast : (k' : Rat) - k = nodes.length * count := by exact_mod_cast apart
  field_simp
  linear_combination -lapLength * cast

/-- The share of the way as the loop clamps it. -/
theorem clamped_eq (p a b : Rat × Rat) :
    min (max (if 0 < (b.1 - a.1) * (b.1 - a.1) + (b.2 - a.2) * (b.2 - a.2) then
      (if (b.1 - a.1) * (b.1 - a.1) + (b.2 - a.2) * (b.2 - a.2) ≤ 0 then 0
        else (p.1 - a.1) * (b.1 - a.1) + (p.2 - a.2) * (b.2 - a.2)) /
          ((b.1 - a.1) * (b.1 - a.1) + (b.2 - a.2) * (b.2 - a.2)) else 0) 0) 1 = foot p a b := by
  rw [foot, moveDot, moveDot]
  by_cases long : 0 < (b.1 - a.1) * (b.1 - a.1) + (b.2 - a.2) * (b.2 - a.2)
  · rw [if_pos long, if_neg long.not_ge]
  · have flat := le_antisymm (not_lt.mp long) (add_nonneg (mul_self_nonneg _) (mul_self_nonneg _))
    rw [if_neg long, flat, div_zero]

theorem nearerFoot_eq (populated : 0 < nodes.length) (positive : 0 < lapLength) (p : Rat × Rat)
    (best : Option (Rat × Rat)) (k : Int) :
    nearerFoot hypot p.1 p.2 nodes (lapLength / nodes.length) lapLength best (k % nodes.length).toNat =
      .ok (if best.all (distSq p (onSegment nodes k (footOn nodes p k)) < ·.1) then
        some (distSq p (onSegment nodes k (footOn nodes p k)),
          phase lapLength (arcOn hypot nodes lapLength k (footOn nodes p k))) else best) := by
  have low : 0 ≤ k % nodes.length := Int.emod_nonneg _ (by omega)
  have index : (((k % nodes.length).toNat : Nat) : Rat) = ((k % nodes.length : Int) : Rat) := by
    exact_mod_cast Int.toNat_of_nonneg low
  have again : k % nodes.length % nodes.length = k % nodes.length := Int.emod_emod_of_dvd _ (dvd_refl _)
  have next : (k % nodes.length + 1) % nodes.length = (k + 1) % nodes.length := Int.emod_add_emod ..
  have arc : phase lapLength (arcOn hypot nodes lapLength _ _) = _ :=
    phase_arcOn populated positive again (footOn nodes p k)
  rw [arcOn, nodeAt_congr again, nodeAt_congr next] at arc
  simp only [nearerFoot, item_eq (nodeAt_found populated k), item_eq (nodeAt_next populated k), ok_bind, clamped_eq,
    index, modulo, if_neg positive.ne']
  change (if best.all (distSq p (onSegment nodes k (footOn nodes p k)) < ·.1) then _ else _) = _
  rw [← arc]
  split <;> rfl

/-- Of two equally near segments, the one before the nearest node is taken. -/
theorem projectToArc_eq (populated : 0 < nodes.length) (positive : 0 < lapLength) (p : Rat × Rat) (nearestI : Int)
    {k : Int} (chosen : k = if distSq p (onSegment nodes nearestI (footOn nodes p nearestI)) <
      distSq p (onSegment nodes (nearestI - 1) (footOn nodes p (nearestI - 1))) then nearestI else nearestI - 1) :
    projectToArc hypot p.1 p.2 nodes nearestI lapLength =
      .ok (some (phase lapLength (arcOn hypot nodes lapLength k (footOn nodes p k)))) := by
  have size : ((nodes.length : Int) : Rat) ≠ 0 := by exact_mod_cast populated.ne'
  have step : divide lapLength ((nodes.length : Int) : Rat) = .ok (lapLength / nodes.length) := by
    rw [divide, if_neg size, Int.cast_natCast]
  simp only [projectToArc, step, ok_bind, nearerFoot_eq populated positive, Option.all_none, if_true,
    Option.all_some, decide_eq_true_eq, pure_eq_ok]
  rw [chosen]
  split <;> rfl

/-- Only the place of the node on the lap matters. -/
theorem projectToArc_congr {x y : Rat} {i k : Int} (same : i % nodes.length = k % nodes.length) :
    projectToArc hypot x y nodes i lapLength = projectToArc hypot x y nodes k lapLength := by
  have before : (i - 1) % nodes.length = (k - 1) % nodes.length := Int.ModEq.sub_right 1 same
  rw [projectToArc, projectToArc]
  simp only [same, before]

theorem nearestNode_spec (populated : 0 < nodes.length) (p : Rat × Rat) :
    ∃ i, nearestNode nodes p = .ok i ∧ i < nodes.length ∧
      ∀ j, j < nodes.length → distSq p (nodeAt nodes i) ≤ distSq p (nodeAt nodes j) := by
  rw [nearestNode]
  cases found : (List.range nodes.length).argmin fun i => distSq p (nodes.getD i (0, 0)) with
  | none =>
      rw [List.argmin_eq_none, List.range_eq_nil] at found
      exact absurd found populated.ne'
  | some i =>
      obtain ⟨member, least, -⟩ := List.argmin_eq_some_iff.mp found
      have within := List.mem_range.mp member
      refine ⟨i, rfl, within, fun j listed => ?_⟩
      rw [nodeAt_natCast within, nodeAt_natCast listed]
      exact least j (List.mem_range.mpr listed)

/-- A point's arc length is that of a point of the centreline next to the nearest node. -/
structure Projected (hypot : Rat → Rat → Rat) (nodes : List (Rat × Rat)) (lapLength : Rat) (p : Rat × Rat)
    (nearestI : Int) (s : Rat) : Prop where
  within : 0 ≤ s ∧ s < lapLength
  nearest : ∃ k t, (k = nearestI - 1 ∨ k = nearestI) ∧ 0 ≤ t ∧ t ≤ 1 ∧
    s = phase lapLength (arcOn hypot nodes lapLength k t) ∧
    (∀ k' t', k' = nearestI - 1 ∨ k' = nearestI → 0 ≤ t' → t' ≤ 1 →
      distSq p (onSegment nodes k t) ≤ distSq p (onSegment nodes k' t')) ∧
    ∀ node ∈ nodes, distSq p (onSegment nodes k t) ≤ distSq p node

theorem onSegment_zero (nodes : List (Rat × Rat)) (k : Int) : onSegment nodes k 0 = nodeAt nodes k := along_zero ..

/-- Whatever the position is, it is projected to the nearest point of the two segments at the nearest node,
and no node is nearer. -/
theorem arc_of_the_nearest_point (hypot : Rat → Rat → Rat) (populated : 0 < nodes.length) (positive : 0 < lapLength)
    (p : Rat × Rat) : ∃ nearestI s, nearestNode nodes p = .ok nearestI ∧
      projectToArc hypot p.1 p.2 nodes nearestI lapLength = .ok (some s) ∧
      Projected hypot nodes lapLength p nearestI s := by
  obtain ⟨nearestI, found, -, least⟩ := nearestNode_spec populated p
  have foot_le (k : Int) {t : Rat} (low : 0 ≤ t) (high : t ≤ 1) :
      distSq p (onSegment nodes k (footOn nodes p k)) ≤ distSq p (onSegment nodes k t) :=
    foot_nearest p _ _ low high
  let before := distSq p (onSegment nodes (nearestI - 1) (footOn nodes p (nearestI - 1)))
  let after := distSq p (onSegment nodes nearestI (footOn nodes p nearestI))
  obtain ⟨k, chosen⟩ : ∃ k : Int, k = if after < before then (nearestI : Int) else nearestI - 1 := ⟨_, rfl⟩
  have beats (k' : Int) (t' : Rat) (adjacent : k' = nearestI - 1 ∨ k' = nearestI) (low : 0 ≤ t') (high : t' ≤ 1) :
      distSq p (onSegment nodes k (footOn nodes p k)) ≤ distSq p (onSegment nodes k' t') := by
    refine le_trans ?_ (foot_le k' low high)
    by_cases nearer : after < before
    · rw [chosen, if_pos nearer]
      rcases adjacent with rfl | rfl
      · exact nearer.le
      · exact le_refl _
    · rw [chosen, if_neg nearer]
      rcases adjacent with rfl | rfl
      · exact le_refl _
      · exact not_lt.mp nearer
  obtain ⟨low, high⟩ := foot_bounds p (nodeAt nodes k) (nodeAt nodes (k + 1))
  refine ⟨nearestI, _, found, projectToArc_eq populated positive p nearestI chosen, phase_bounds positive _, k,
    footOn nodes p k, ?_, low, high, rfl, beats, fun node listed => ?_⟩
  · rw [chosen]
    split
    · exact .inr rfl
    · exact .inl rfl
  · obtain ⟨j, within, rfl⟩ := List.getElem_of_mem listed
    refine (beats nearestI 0 (.inr rfl) le_rfl zero_le_one).trans ?_
    rw [onSegment_zero]
    refine (least j within).trans_eq ?_
    rw [nodeAt_natCast within, List.getD_eq_getElem _ _ within]

/-- Eight nodes, whose neighbours are one apart along the longer axis. -/
def octagon : List (Rat × Rat) := [(1, 0), (2, 0), (3, 1), (3, 2), (2, 3), (1, 3), (0, 2), (0, 1)]

def longerAxis (dx dy : Rat) : Rat := max |dx| |dy|

/-- Outside a corner of the track. -/
theorem arc_of_the_nearest_point_outside : ∃ nearestI s, nearestNode octagon (3, 0) = .ok nearestI ∧
    projectToArc longerAxis 3 0 octagon nearestI 8 = .ok (some s) ∧
    Projected longerAxis octagon 8 (3, 0) nearestI s ∧ nearestI = 1 ∧ s = 3 / 2 := by
  obtain ⟨nearestI, s, found, projected, means⟩ :=
    arc_of_the_nearest_point longerAxis (show 0 < octagon.length by decide) (show (0 : Rat) < 8 by decide) (3, 0)
  have corner : nearestNode octagon (3, 0) = .ok 1 := by decide +kernel
  have index : nearestI = 1 := Except.ok.inj (found.symm.trans corner)
  have place : projectToArc longerAxis 3 0 octagon 1 8 = .ok (some (3 / 2)) := by decide +kernel
  subst index
  exact ⟨1, s, found, projected, means, rfl, Option.some.inj (Except.ok.inj (projected.symm.trans place))⟩

end

end RaceTracker.Bake
