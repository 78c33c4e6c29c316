import RaceTracker.Bake.Geometry

namespace RaceTracker.Bake

open RaceTracker.Lib

/-! The centreline: a closed lap resampled to nodes at equal distances along it.

`math.hypot` is a parameter, so the lengths of the segments are given numbers.
-/

section

variable (hypot : Rat → Rat → Rat)

/-- Cumulative arc length at each point of an open polyline. -/
def cumulativeArc (xy : List (Rat × Rat)) : List Rat :=
  (xy.zip xy.tail).scanl
    (fun total pair => total + hypot (pair.2.1 - pair.1.1) (pair.2.2 - pair.1.2)) 0

/-- The pointer moves past every segment that ends at or before the target, the last one aside. -/
def advance (cum : List Rat) (target : Rat) (j : Nat) : Nat :=
  if j + 1 < cum.length - 1 ∧ cum.getD (j + 1) 0 ≤ target then advance cum target (j + 1) else j
termination_by cum.length - j

def nodeOn (closed : List (Rat × Rat)) (cum : List Rat) (target : Rat) (j : Nat) :
    Except Raised (Rat × Rat) := do
  let seg := (← item cum (j + 1)) - (← item cum j)
  let f ← if seg ≤ 0 then pure 0 else divide (target - (← item cum j)) seg
  let (x0, y0) ← item closed j
  let (x1, y1) ← item closed (j + 1)
  return (x0 + f * (x1 - x0), y0 + f * (y1 - y0))

/-- The nodes of the next `count` targets, from the `k`-th on. -/
def nodesFrom (closed : List (Rat × Rat)) (cum : List Rat) (lapLength : Rat) (n : Nat) :
    Nat → Nat → Nat → Except Raised (List (Rat × Rat))
  | 0, _, _ => .ok []
  | count + 1, k, j => do
      let target ← divide (lapLength * k) n
      let j := advance cum target j
      let node ← nodeOn closed cum target j
      return node :: (← nodesFrom closed cum lapLength n count (k + 1) j)

def resampleClosedLoop (xy : List (Rat × Rat)) (n : Nat) :
    Except Raised (List (Rat × Rat) × Rat) := do
  if xy.length < 3 then throw .valueError
  if n < 3 then throw .valueError
  let closed := xy ++ [← item xy 0]
  let cum := cumulativeArc hypot closed
  let lapLength ← item cum (cum.length - 1)
  if lapLength ≤ 0 then throw .valueError
  return (← nodesFrom closed cum lapLength n n 0 0, lapLength)

/-- The polyline with its closing segment. -/
def closeLoop (xy : List (Rat × Rat)) : List (Rat × Rat) := xy ++ xy.take 1

def loopLength (xy : List (Rat × Rat)) : Rat := (cumulativeArc hypot (closeLoop xy)).getLastD 0

end

/-- The point that lies at a distance along a polyline, on its `j`-th segment. -/
structure AtArc (closed : List (Rat × Rat)) (cum : List Rat) (target : Rat) (j : Nat)
    (node : Rat × Rat) : Prop where
  within : j + 1 < cum.length
  segment : cum.getD j 0 ≤ target ∧ target ≤ cum.getD (j + 1) 0
  share : ∃ f start finish, 0 ≤ f ∧ f ≤ 1 ∧
    cum.getD j 0 + f * (cum.getD (j + 1) 0 - cum.getD j 0) = target ∧
    closed[j]? = some start ∧ closed[j + 1]? = some finish ∧
    node = (start.1 + f * (finish.1 - start.1), start.2 + f * (finish.2 - start.2))

/-- Where the pointer stands once the `k`-th target has been looked up. -/
def segmentIndex (cum : List Rat) (lapLength : Rat) (n : Nat) : Nat → Nat
  | 0 => advance cum 0 0
  | k + 1 => advance cum (lapLength * (k + 1) / n) (segmentIndex cum lapLength n k)

variable {hypot : Rat → Rat → Rat} {xy closed : List (Rat × Rat)} {cum : List Rat}
  {target lapLength : Rat} {n j : Nat}

theorem advance_spec (within : j + 1 < cum.length) (reached : cum.getD j 0 ≤ target)
    (inside : target < cum.getD (cum.length - 1) 0) :
    j ≤ advance cum target j ∧ advance cum target j + 1 < cum.length ∧
      cum.getD (advance cum target j) 0 ≤ target ∧
      target < cum.getD (advance cum target j + 1) 0 := by
  fun_induction advance cum target j with
  | case1 j passed ih =>
      obtain ⟨later, rest⟩ := ih (by omega) passed.2
      exact ⟨by omega, rest⟩
  | case2 j stopped =>
      refine ⟨le_refl j, within, reached, ?_⟩
      by_cases last : j + 1 < cum.length - 1
      · exact not_le.mp fun past => stopped ⟨last, past⟩
      · have same : j + 1 = cum.length - 1 := by omega
        rw [same]
        exact inside

/-- Leading segments of no length leave the pointer at a point that the arc has not left. -/
theorem nodeOn_eq (points : closed.length = cum.length) (within : j + 1 < cum.length)
    (reached : cum.getD j 0 ≤ target) (inside : target < cum.getD (j + 1) 0) :
    ∃ node, nodeOn closed cum target j = .ok node ∧ AtArc closed cum target j node := by
  have span : 0 < cum.getD (j + 1) 0 - cum.getD j 0 := sub_pos.mpr (reached.trans_lt inside)
  have c0 := item_of_lt (show j < cum.length by omega)
  have c1 := item_of_lt within
  obtain ⟨start, from'⟩ : ∃ start, closed[j]? = some start :=
    ⟨_, List.getElem?_eq_getElem (show j < closed.length by omega)⟩
  obtain ⟨finish, to'⟩ : ∃ finish, closed[j + 1]? = some finish :=
    ⟨_, List.getElem?_eq_getElem (show j + 1 < closed.length by omega)⟩
  let f := (target - cum.getD j 0) / (cum.getD (j + 1) 0 - cum.getD j 0)
  refine ⟨(start.1 + f * (finish.1 - start.1), start.2 + f * (finish.2 - start.2)), ?_, within,
    ⟨reached, inside.le⟩, f, start, finish, ?_, ?_, ?_, from', to', rfl⟩
  · simp only [nodeOn, c0, c1, ok_bind, pure_eq_ok, if_neg (not_le.mpr span), divide,
      if_neg span.ne', item_eq from', item_eq to', f]
  · exact div_nonneg (sub_nonneg.mpr reached) span.le
  · rw [div_le_one span]
    linarith
  · rw [div_mul_cancel₀ _ span.ne']
    ring

theorem nodesFrom_eq (points : closed.length = cum.length) (positive : 0 < lapLength)
    (total : cum.getD (cum.length - 1) 0 = lapLength) (some : 0 < n) {count k : Nat}
    (left : k + count = n) (within : j + 1 < cum.length)
    (reached : cum.getD j 0 ≤ lapLength * k / n)
    (pointer : advance cum (lapLength * k / n) j = segmentIndex cum lapLength n k) :
    ∃ nodes, nodesFrom closed cum lapLength n count k j = .ok nodes ∧ nodes.length = count ∧
      ∀ i, i < count → ∃ node, nodes[i]? = .some node ∧
        AtArc closed cum (lapLength * (k + i : Nat) / n)
          (segmentIndex cum lapLength n (k + i)) node := by
  induction count generalizing k j with
  | zero => exact ⟨[], rfl, rfl, fun i before => absurd before (Nat.not_lt_zero i)⟩
  | succ count ih =>
      have whole : (0 : Rat) < n := Nat.cast_pos.mpr some
      have inside : lapLength * k / n < cum.getD (cum.length - 1) 0 := by
        have early : (k : Rat) < n := Nat.cast_lt.mpr (by omega)
        rw [total, div_lt_iff₀ whole]
        exact mul_lt_mul_of_pos_left early positive
      obtain ⟨-, within', reached', inside'⟩ := advance_spec within reached inside
      rw [pointer] at within' reached' inside'
      obtain ⟨node, placed, on⟩ := nodeOn_eq points within' reached' inside'
      have next : lapLength * (k : Rat) / n ≤ lapLength * (k + 1 : Nat) / n := by
        have later : (k : Rat) ≤ (k + 1 : Nat) := Nat.cast_le.mpr (Nat.le_succ k)
        exact div_le_div_of_nonneg_right (mul_le_mul_of_nonneg_left later positive.le) whole.le
      obtain ⟨nodes, rest, length, each⟩ := ih (k := k + 1) (by omega) within'
        (reached'.trans next) (by rw [segmentIndex, Nat.cast_succ])
      refine ⟨node :: nodes, ?_, by rw [List.length_cons, length], ?_⟩
      · simp only [nodesFrom, divide, if_neg whole.ne', ok_bind, pointer, placed, rest, pure_eq_ok]
      · intro i before
        cases i with
        | zero => exact ⟨node, rfl, on⟩
        | succ i =>
            have shift : k + 1 + i = k + (i + 1) := by omega
            rw [← shift]
            exact each i (by omega)

theorem cumulativeArc_length : (cumulativeArc hypot closed).length = closed.length - 1 + 1 := by
  simp [cumulativeArc]

theorem cumulativeArc_start : (cumulativeArc hypot closed).getD 0 0 = 0 := by
  simp [cumulativeArc]

theorem cumulativeArc_step {start finish : Rat × Rat} (from' : closed[j]? = some start)
    (to' : closed[j + 1]? = some finish) :
    (cumulativeArc hypot closed).getD (j + 1) 0 =
      (cumulativeArc hypot closed).getD j 0 + hypot (finish.1 - start.1) (finish.2 - start.2) := by
  have pair : (closed.zip closed.tail)[j]? = some (start, finish) := by
    rw [List.getElem?_zip_eq_some, List.getElem?_tail]
    exact ⟨from', to'⟩
  obtain ⟨within, same⟩ := List.getElem?_eq_some_iff.mp pair
  rw [cumulativeArc]
  rw [List.getD_eq_getElem _ _ (by rw [List.length_scanl]; omega),
    List.getD_eq_getElem _ _ (by rw [List.length_scanl]; omega), List.getElem_succ_scanl, same]

/-- What `math.hypot` promises: a length, and none only where nothing moves. -/
structure Length (hypot : Rat → Rat → Rat) : Prop where
  nonneg : ∀ dx dy, 0 ≤ hypot dx dy
  still : ∀ dx dy, hypot dx dy = 0 → dx = 0 ∧ dy = 0

theorem Length.cum_nonneg (length : Length hypot) (within : j < closed.length) :
    0 ≤ (cumulativeArc hypot closed).getD j 0 := by
  induction j with
  | zero => exact cumulativeArc_start.ge
  | succ j ih =>
      rw [cumulativeArc_step (List.getElem?_eq_getElem (by omega)) (List.getElem?_eq_getElem within)]
      exact add_nonneg (ih (by omega)) (length.nonneg _ _)

/-- Where the arc has no length yet, it is at the first point. -/
theorem Length.still_at_start (length : Length hypot) (within : j < closed.length)
    (none : (cumulativeArc hypot closed).getD j 0 ≤ 0) : closed[j]? = closed[0]? := by
  induction j with
  | zero => rfl
  | succ j ih =>
      have from' : closed[j]? = some closed[j] := List.getElem?_eq_getElem (by omega)
      have to' : closed[j + 1]? = some closed[j + 1] := List.getElem?_eq_getElem within
      have before := length.cum_nonneg (show j < closed.length by omega)
      have moved := length.nonneg (closed[j + 1].1 - closed[j].1) (closed[j + 1].2 - closed[j].2)
      rw [cumulativeArc_step from' to'] at none
      obtain ⟨x, y⟩ := length.still _ _ (le_antisymm (by linarith) moved)
      rw [← ih (by omega) (by linarith), from', to']
      exact congrArg some (Prod.ext (sub_eq_zero.mp x) (sub_eq_zero.mp y))

theorem AtArc.at_start {node : Rat × Rat} (length : Length hypot)
    (on : AtArc closed (cumulativeArc hypot closed) 0 j node) : closed[0]? = some node := by
  obtain ⟨f, start, finish, -, -, arc, from', to', rfl⟩ := on.share
  have within := (List.getElem?_eq_some_iff.mp from').1
  have none := le_antisymm on.segment.1 (length.cum_nonneg within)
  rw [none, zero_add, cumulativeArc_step from' to', none, zero_add, sub_zero] at arc
  rw [← length.still_at_start within on.segment.1, from']
  rcases mul_eq_zero.mp arc with still | flat
  · simp [still]
  · obtain ⟨x, y⟩ := length.still _ _ flat
    simp [x, y]

/-- The `k`-th node lies `k / n` of the way round, where the pointer has come to; the first one is
the first point, as far as only points that differ are apart. -/
structure EquallySpaced (hypot : Rat → Rat → Rat) (xy : List (Rat × Rat)) (n : Nat)
    (nodes : List (Rat × Rat)) : Prop where
  length : nodes.length = n
  start : Length hypot → nodes[0]? = xy[0]?
  each : ∀ k, k < n → ∃ node, nodes[k]? = some node ∧
    AtArc (closeLoop xy) (cumulativeArc hypot (closeLoop xy)) (loopLength hypot xy * k / n)
      (segmentIndex (cumulativeArc hypot (closeLoop xy)) (loopLength hypot xy) n k) node

/-- Of a loop of some length, the nodes are equally spaced, and nothing is divided by zero. -/
theorem nodes_equally_spaced (hypot : Rat → Rat → Rat) (points : 3 ≤ xy.length) (many : 3 ≤ n)
    (positive : 0 < loopLength hypot xy) :
    ∃ nodes, resampleClosedLoop hypot xy n = .ok (nodes, loopLength hypot xy) ∧
      EquallySpaced hypot xy n nodes := by
  obtain ⟨first, found⟩ : ∃ first, xy[0]? = some first :=
    ⟨_, List.getElem?_eq_getElem (show 0 < xy.length by omega)⟩
  have closed : closeLoop xy = xy ++ [first] := by
    rw [closeLoop, List.take_one, List.head?_eq_getElem?, found]
    rfl
  have size : (closeLoop xy).length = (cumulativeArc hypot (closeLoop xy)).length := by
    rw [cumulativeArc_length, closed, List.length_append, List.length_singleton]
    omega
  have count : (closeLoop xy).length = xy.length + 1 := by
    rw [closed, List.length_append, List.length_singleton]
  have total : (cumulativeArc hypot (closeLoop xy)).getD
      ((cumulativeArc hypot (closeLoop xy)).length - 1) 0 = loopLength hypot xy := by
    rw [loopLength, List.getLastD_eq_getLast?, List.getLast?_eq_getElem?, List.getD_eq_getElem?_getD]
  have ends := item_of_lt (show (cumulativeArc hypot (closeLoop xy)).length - 1 <
    (cumulativeArc hypot (closeLoop xy)).length by omega)
  rw [total] at ends
  have start : (cumulativeArc hypot (closeLoop xy)).getD 0 0 ≤
      loopLength hypot xy * (0 : Nat) / n := by
    rw [cumulativeArc_start, Nat.cast_zero, mul_zero, zero_div]
  have pointer : advance (cumulativeArc hypot (closeLoop xy)) (loopLength hypot xy * (0 : Nat) / n) 0 =
      segmentIndex (cumulativeArc hypot (closeLoop xy)) (loopLength hypot xy) n 0 := by
    rw [segmentIndex, Nat.cast_zero, mul_zero, zero_div]
  obtain ⟨nodes, placed, length, each⟩ := nodesFrom_eq size positive total (by omega)
    (Nat.zero_add n) (by omega) start pointer
  simp only [Nat.zero_add] at each
  refine ⟨nodes, ?_, length, ?_, each⟩
  · rw [closed] at ends placed
    simp only [resampleClosedLoop, if_neg (not_lt.mpr points), if_neg (not_lt.mpr many),
      if_neg (not_le.mpr positive), item_eq found, ends, placed, ok_bind, pure_eq_ok]
  · intro lengths
    obtain ⟨node, here, on⟩ := each 0 (by omega)
    rw [Nat.cast_zero, mul_zero, zero_div] at on
    have first' := on.at_start lengths
    rw [closed, List.getElem?_append_left (by omega)] at first'
    rw [here, first']

/-- A square of side 100 with a point recorded twice. -/
def square : List (Rat × Rat) := [(0, 0), (0, 0), (100, 0), (100, 100), (0, 100)]

/-- The length of a move along one axis. -/
def axisLength (dx dy : Rat) : Rat := |dx| + |dy|

theorem axisLength_length : Length axisLength where
  nonneg dx dy := add_nonneg (abs_nonneg dx) (abs_nonneg dy)
  still dx dy none := by
    rw [axisLength, add_eq_zero_iff_of_nonneg (abs_nonneg dx) (abs_nonneg dy)] at none
    exact ⟨abs_eq_zero.mp none.1, abs_eq_zero.mp none.2⟩

theorem nodes_equally_spaced_square : 3 ≤ square.length ∧ loopLength axisLength square = 400 ∧
    ∃ nodes, resampleClosedLoop axisLength square 5 = .ok (nodes, loopLength axisLength square) ∧
      EquallySpaced axisLength square 5 nodes ∧ nodes[0]? = square[0]? := by
  have long : loopLength axisLength square = 400 := by decide +kernel
  obtain ⟨nodes, resampled, spaced⟩ := nodes_equally_spaced axisLength
    (show 3 ≤ square.length by decide) (show 3 ≤ 5 by decide) (by rw [long]; decide)
  exact ⟨by decide, long, nodes, resampled, spaced, spaced.start axisLength_length⟩

end RaceTracker.Bake
