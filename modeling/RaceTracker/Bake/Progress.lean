import RaceTracker.Lib.Period
import RaceTracker.Bake.Geometry

namespace RaceTracker.Bake

open RaceTracker.Lib

/-! Race distance: a car's place on the lap, unwrapped over the whole window. -/

/-- A drop of more than half a lap is a crossing of the line, a rise of more than half a lap
one backwards. -/
def wrapFrom (half : Rat) (k : Int) (prev : Option Rat) : List Rat → List Int
  | [] => []
  | s :: rest =>
      let k := match prev with
        | some prev => if half < prev - s then k + 1 else if half < s - prev then k - 1 else k
        | none => k
      k :: wrapFrom half k (some s) rest

/-- The crossings of the start line before each entry. -/
def wrapCounts (sValues : List Rat) (lapLength : Rat) : List Int :=
  wrapFrom (lapLength / 2) 0 none sValues

/-- `(lap0 + c) * _LAP_RAW + s`, frame by frame. -/
def unwrapped (lap0 : Int) (lapLength : Rat) (sValues : List Rat) : List Rat :=
  List.zipWith (fun (c : Int) s => (lap0 + c) * lapLength + s) (wrapCounts sValues lapLength) sValues

variable {lapLength : Rat} {path : List Rat}

theorem wrapFrom_eq (positive : 0 < lapLength) {x : Rat} {k start : Int}
    (held : k = turns lapLength x - start)
    (near : (x :: path).IsChain fun x y => |y - x| < lapLength / 2) :
    wrapFrom (lapLength / 2) k (some (phase lapLength x)) (path.map (phase lapLength)) =
      path.map fun y => turns lapLength y - start := by
  induction path generalizing x k with
  | nil => rfl
  | cons y rest ih =>
      obtain ⟨step, later⟩ := List.isChain_cons_cons.mp near
      have jump := jump_eq positive step
      have next : (if lapLength / 2 < phase lapLength x - phase lapLength y then k + 1
          else if lapLength / 2 < phase lapLength y - phase lapLength x then k - 1 else k) =
          turns lapLength y - start := by
        split_ifs at jump ⊢ <;> omega
      rw [List.map_cons, List.map_cons, wrapFrom]
      simp only [next]
      rw [ih rfl later]

theorem wrapCounts_eq (positive : 0 < lapLength)
    (near : path.IsChain fun x y => |y - x| < lapLength / 2) :
    wrapCounts (path.map (phase lapLength)) lapLength =
      path.map fun x => turns lapLength x - turns lapLength (path.headD 0) := by
  cases path with
  | nil => rfl
  | cons x rest =>
      have own : turns lapLength x - turns lapLength x = 0 := sub_self _
      rw [List.map_cons, wrapCounts, wrapFrom, wrapFrom_eq positive own.symm near]
      simp

/-- A car that moves less than half a lap at a time is followed exactly, up to where it started. -/
theorem unwrapping_is_continuous (positive : 0 < lapLength)
    (near : path.IsChain fun x y => |y - x| < lapLength / 2) :
    ∃ offset, List.Forall₂ (fun (c : Int) x => c * lapLength + phase lapLength x - x = offset)
      (wrapCounts (path.map (phase lapLength)) lapLength) path := by
  refine ⟨-(turns lapLength (path.headD 0) * lapLength), ?_⟩
  rw [wrapCounts_eq positive near, List.forall₂_map_left_iff, List.forall₂_same]
  intro x _
  rw [phase]
  push_cast
  ring

/-- Over the line, back over it, and over it again. -/
def jitter : List Rat := [90, 120, 95, 140, 180, 205]

theorem unwrapping_is_continuous_jitter :
    (0 : Rat) < 100 ∧ (jitter.IsChain fun x y => |y - x| < 100 / 2) ∧
      wrapCounts (jitter.map (phase 100)) 100 = [0, 1, 0, 1, 1, 2] ∧
      ∃ offset : Rat, List.Forall₂ (fun (c : Int) x => c * 100 + phase 100 x - x = offset)
        (wrapCounts (jitter.map (phase 100)) 100) jitter := by
  have near : jitter.IsChain fun x y => |y - x| < 100 / 2 := by decide +kernel
  exact ⟨by decide, near, by decide +kernel, unwrapping_is_continuous (by decide) near⟩

end RaceTracker.Bake
