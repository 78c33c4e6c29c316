import RaceTracker.Bake.Progress
import RaceTracker.Lib.Held

namespace RaceTracker.Bake

open RaceTracker.Lib

/-! The distance curve of one car: its arc lengths, frozen in the pit lane, unwrapped and made to
rise.
-/

/-- Arc length is held at its pit-entry value. -/
def frozen (sRaw : List Rat) (inPit : List Bool) : List Rat := holdFrom none (sRaw.zip inPit)

/-- `race_dist` of one car, in metres. -/
def raceDist (lap0 : Int) (lapRaw : Rat) (sRaw : List Rat) (inPit : List Bool) : List Rat :=
  runningMax ((unwrapped lap0 lapRaw (frozen sRaw inPit)).map (· / 10))

variable {lap0 : Int} {lapRaw : Rat} {sRaw : List Rat} {inPit : List Bool}

theorem length_wrapFrom (half : Rat) (k : Int) (prev : Option Rat) (sValues : List Rat) :
    (wrapFrom half k prev sValues).length = sValues.length := by
  induction sValues generalizing k prev with
  | nil => rfl
  | cons s rest ih =>
      simp only [wrapFrom, List.length_cons, ih]

theorem length_raceDist (same : inPit.length = sRaw.length) :
    (raceDist lap0 lapRaw sRaw inPit).length = sRaw.length := by
  simp [raceDist, unwrapped, wrapCounts, length_wrapFrom, frozen, same]

/-- The curve is one that can be inverted, whatever the positions were. -/
theorem raceDist_curve {tGridS : List Rat} (clock : tGridS.Pairwise (· < ·))
    (parallel : tGridS.length = sRaw.length) (same : inPit.length = sRaw.length) :
    DistanceCurve tGridS (raceDist lap0 lapRaw sRaw inPit) where
  parallel := parallel.trans (length_raceDist same).symm
  clock := clock
  rising := runningMax_sorted _

/-- A value that repeats the one before it counts no crossing. -/
theorem wrapFrom_repeat {half : Rat} (positive : 0 ≤ half) {k : Int} {prev : Option Rat}
    {sValues : List Rat} {index : Nat} (again : sValues[index + 1]? = sValues[index]?) :
    (wrapFrom half k prev sValues)[index + 1]? = (wrapFrom half k prev sValues)[index]? := by
  induction sValues generalizing k prev index with
  | nil => rfl
  | cons s rest ih =>
      cases index with
      | succ index => exact ih again
      | zero =>
          cases rest with
          | nil => cases again
          | cons next later =>
              cases again
              simp [wrapFrom, positive.not_gt]

theorem raceDist_holds (positive : 0 ≤ lapRaw) (same : inPit.length = sRaw.length) {index : Nat}
    (pitted : inPit[index + 1]? = some true) :
    (raceDist lap0 lapRaw sRaw inPit)[index + 1]? = (raceDist lap0 lapRaw sRaw inPit)[index]? := by
  have within : index + 1 < sRaw.length := by
    obtain ⟨within, _⟩ := List.getElem?_eq_some_iff.mp pitted
    omega
  have reading : (sRaw.zip inPit)[index + 1]? = some (sRaw[index + 1], true) :=
    List.getElem?_zip_eq_some.mpr ⟨List.getElem?_eq_getElem within, pitted⟩
  have again : (frozen sRaw inPit)[index + 1]? = (frozen sRaw inPit)[index]? :=
    holdFrom_flagged reading rfl
  have counted := @wrapFrom_repeat _ (by linarith : 0 ≤ lapRaw / 2) 0 none _ _ again
  refine runningMax_repeat ?_
  rw [List.getElem?_map, List.getElem?_map]
  refine congrArg _ ?_
  rw [unwrapped, List.getElem?_zipWith, List.getElem?_zipWith, again, wrapCounts, counted]

-- Where the car is on the race, frame by frame, and whether it is in the pit lane.
variable {path : List (Rat × Bool)}

def arcsOf (lapRaw : Rat) (path : List (Rat × Bool)) : List Rat :=
  path.map fun place => phase lapRaw place.1

def pittedOf (path : List (Rat × Bool)) : List Bool := path.map Prod.snd

theorem frozen_path (path : List (Rat × Bool)) :
    frozen (arcsOf lapRaw path) (pittedOf path) = (holdFrom none path).map (phase lapRaw) := by
  have zipped : (arcsOf lapRaw path).zip (pittedOf path) =
      path.map fun place => (phase lapRaw place.1, place.2) := by
    rw [arcsOf, pittedOf, List.zip_map']
  rw [frozen, zipped]
  exact holdFrom_map (phase lapRaw) none path

theorem unwrapped_path (positive : 0 < lapRaw) {held : List Rat}
    (near : held.IsChain fun x y => |y - x| < lapRaw / 2) (lap0 : Int) :
    unwrapped lap0 lapRaw (held.map (phase lapRaw)) =
      held.map (· + (lap0 - turns lapRaw (held.headD 0)) * lapRaw) := by
  rw [unwrapped, wrapCounts_eq positive near, List.zipWith_map_left, List.zipWith_map_right,
    List.zipWith_self]
  apply List.map_congr_left
  intro x _
  rw [phase]
  push_cast
  ring

/-- What the curve says of a car on this path: the distances never fall, stand still through the pit
lane, and are the path's own, up to one offset, wherever the car is on the track. -/
structure Followed (path : List (Rat × Bool)) (dists : List Rat) (offset : Rat) : Prop where
  length : dists.length = path.length
  rising : dists.Pairwise (· ≤ ·)
  stands : ∀ index : Nat, (pittedOf path)[index + 1]? = some true → dists[index + 1]? = dists[index]?
  exact : ∀ (index : Nat) (place : Rat), path[index]? = some (place, false) →
    dists[index]? = some ((place + offset) / 10)

theorem followed (positive : 0 < lapRaw)
    (near : (kept path).IsChain fun x y => x ≤ y ∧ y - x < lapRaw / 2) (lap0 : Int) :
    Followed path (raceDist lap0 lapRaw (arcsOf lapRaw path) (pittedOf path))
      ((lap0 - turns lapRaw ((holdFrom none path).headD 0)) * lapRaw) := by
  have same : (pittedOf path).length = (arcsOf lapRaw path).length := by simp [pittedOf, arcsOf]
  have chain := held_chain (fun value => ⟨le_refl value, by linarith⟩) near
  have steps : (holdFrom none path).IsChain fun x y => |y - x| < lapRaw / 2 :=
    chain.imp fun x y step => abs_lt.mpr ⟨by linarith [step.1], step.2⟩
  refine ⟨?_, runningMax_sorted _, ?_, ?_⟩
  · rw [length_raceDist same]
    simp [arcsOf]
  · exact fun index pitted => raceDist_holds positive.le same pitted
  · intro index place here
    have rising : ((holdFrom none path).map fun x =>
        (x + (lap0 - turns lapRaw ((holdFrom none path).headD 0)) * lapRaw) / 10).IsChain (· ≤ ·) :=
      (List.isChain_map _).mpr (chain.imp fun x y step => by linarith [step.1])
    rw [raceDist, frozen_path, unwrapped_path positive steps, List.map_map]
    rw [show ((· / 10) ∘ fun x : Rat => x + (lap0 - turns lapRaw ((holdFrom none path).headD 0)) * lapRaw) =
      fun x => (x + (lap0 - turns lapRaw ((holdFrom none path).headD 0)) * lapRaw) / 10 from rfl,
      runningMax_eq rising, List.getElem?_map, holdFrom_unflagged here rfl]
    rfl

/-- Freezing a stop loses no lap, not even one that straddles the line: it takes the car to move less
than half a lap, and not backwards, from each frame on the track to the next one. -/
theorem distance_survives_the_pits (positive : 0 < lapRaw)
    (near : (kept path).IsChain fun x y => x ≤ y ∧ y - x < lapRaw / 2) (lap0 : Int) :
    ∃ offset : Rat, (∀ first ∈ (kept path).head?, offset = (lap0 - turns lapRaw first) * lapRaw) ∧
      Followed path (raceDist lap0 lapRaw (arcsOf lapRaw path) (pittedOf path)) offset := by
  refine ⟨_, fun first here => ?_, followed positive near lap0⟩
  rw [← head?_held] at here
  rw [List.headD_eq_head?_getD, Option.mem_def.mp here]
  rfl

/-- In at the end of a lap, and out at the start of the next one. -/
def stopOverTheLine : List (Rat × Bool) :=
  [(160, false), (190, false), (196, true), (203, true), (210, false), (240, false)]

theorem distance_survives_the_pits_over_the_line :
    raceDist 2 100 (arcsOf 100 stopOverTheLine) (pittedOf stopOverTheLine) = [26, 29, 29, 29, 31, 34] ∧
      ∃ offset : Rat, offset = 100 ∧ Followed stopOverTheLine
        (raceDist 2 100 (arcsOf 100 stopOverTheLine) (pittedOf stopOverTheLine)) offset := by
  have near : (kept stopOverTheLine).IsChain fun x y => x ≤ y ∧ y - x < (100 : Rat) / 2 := by
    decide +kernel
  obtain ⟨offset, started, followed⟩ := distance_survives_the_pits (by decide) near 2
  refine ⟨by decide +kernel, offset, ?_, followed⟩
  rw [started 160 rfl]
  decide +kernel

end RaceTracker.Bake
