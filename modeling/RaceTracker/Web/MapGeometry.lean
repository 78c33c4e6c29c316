import Mathlib.Data.PNat.Basic
import RaceTracker.Lib.Double

namespace RaceTracker.Web

open RaceTracker.Lib

/-! The track outline as SVG paths, one for each minisector.

Coordinates are exact rationals here, and written as JavaScript writes them.
-/

def SIZE : Rat := 600

structure Pt where
  x : Rat
  y : Rat
deriving DecidableEq

def pointText (p : Pt) : String :=
  numberToString (p.x * SIZE) ++ "," ++ numberToString (p.y * SIZE)

/-- An open path through the points. -/
def linePath (points : List Pt) : String := "M " ++ " L ".intercalate (points.map pointText)

section

variable (track : List Pt)

/-- `track.slice(start, stop + 1)`. -/
def stretch (start stop : Nat) : List Pt := (track.drop start).take (stop + 1 - start)

/-- The loop over the bins; a bin size of 0 would never come to the end. -/
def segmentsFrom (binSize : ℕ+) (start : Nat) : List String :=
  if start < track.length then
    let stop := min (start + binSize) (track.length - 1)
    linePath (stretch track start stop) :: segmentsFrom binSize (start + binSize)
  else []
termination_by track.length - start
decreasing_by
  have moved := binSize.pos
  omega

def trackSegmentPaths (binSize : ℕ+) : List String :=
  match track.head?, track.getLast? with
  | some first, some last =>
      segmentsFrom track binSize 0 ++ ["M " ++ pointText last ++ " L " ++ pointText first]
  | _, _ => []

end

variable {track : List Pt}

theorem stretch_points {start stop : Nat} (ordered : start ≤ stop) (within : stop < track.length) :
    (stretch track start stop).length = stop + 1 - start ∧
      ∀ k, start + k ≤ stop → (stretch track start stop)[k]? = track[start + k]? := by
  refine ⟨?_, fun k inside => ?_⟩
  · rw [stretch, List.length_take, List.length_drop]
    omega
  · rw [stretch, List.getElem?_take_of_lt (by omega), List.getElem?_drop]

theorem bins_succ {length start size : Nat} (positive : 0 < size) (within : start < length) :
    (length - start + size - 1) / size = (length - (start + size) + size - 1) / size + 1 := by
  by_cases last : length - start ≤ size
  · have one : (length - start + size - 1) / size = 1 :=
      Nat.div_eq_of_lt_le (by omega) (by omega)
    have none : (length - (start + size) + size - 1) / size = 0 :=
      Nat.div_eq_of_lt (by omega)
    rw [one, none]
  · have more : length - start + size - 1 = length - (start + size) + size - 1 + size := by omega
    rw [more, Nat.add_div_right _ positive]

theorem segmentsFrom_eq (binSize : ℕ+) (start : Nat) :
    segmentsFrom track binSize start =
      (List.range' start ((track.length - start + binSize - 1) / binSize) binSize).map
        fun start => linePath (stretch track start (min (start + binSize) (track.length - 1))) := by
  fun_induction segmentsFrom track binSize start with
  | case1 start within stop ih =>
      rw [ih, bins_succ binSize.pos within, List.range'_succ, List.map_cons]
  | case2 start beyond =>
      have done : (track.length - start + binSize - 1) / (binSize : Nat) = 0 := by
        have positive := binSize.pos
        exact Nat.div_eq_of_lt (by omega)
      rw [done]
      rfl

theorem trackSegmentPaths_eq (binSize : ℕ+) {first last : Pt} (head : track.head? = some first)
    (tail : track.getLast? = some last) :
    trackSegmentPaths track binSize =
      ((List.range' 0 ((track.length + binSize - 1) / binSize) binSize).map fun start =>
        linePath (stretch track start (min (start + binSize) (track.length - 1)))) ++
      [linePath [last, first]] := by
  rw [trackSegmentPaths, head, tail]
  simp only [segmentsFrom_eq, Nat.sub_zero, linePath]
  rfl

end RaceTracker.Web
