import RaceTracker.Bake.Dominance
import RaceTracker.Web.MapGeometry

namespace RaceTracker.Seam

open RaceTracker.Lib RaceTracker.Bake RaceTracker.Web

/-! The recorder's minisectors and the segments that the map draws are the same stretches. -/

/-- How many bins a track of `length` points has. -/
def minisectors (length binSize : Nat) : Nat := (length + binSize - 1) / binSize

/-- What the two sides agree on, bin by bin. -/
structure LinedUp (lapTraces : Dict Int (List Int)) (track : List Pt) (binSize : ℕ+)
    (out : List Int) : Prop where
  length : out.length = (trackSegmentPaths track binSize).length
  segments : ∀ i, i < minisectors track.length binSize →
    ∃ start stop, start = i * binSize ∧ stop = min (start + binSize) (track.length - 1) ∧
      start ≤ stop ∧ stop < track.length ∧
      (∃ points, (trackSegmentPaths track binSize)[i]? = some (linePath points) ∧
        points.length = stop + 1 - start ∧
        ∀ k, start + k ≤ stop → points[k]? = track[start + k]?) ∧
      ∃ driver, out[i]? = some driver ∧ Fastest lapTraces.entries start stop driver
  closing : ∃ last first bin, bin + 1 = minisectors track.length binSize ∧ out.length = bin + 2 ∧
    track.getLast? = some last ∧
    track.head? = some first ∧
    (trackSegmentPaths track binSize)[bin + 1]? = some (linePath [last, first]) ∧
    out[bin + 1]? = out[bin]?

variable {lapTraces : Dict Int (List Int)} {track : List Pt} (binSize : ℕ+)

/-- The number of a segment is that of the drivers' window. -/
theorem dominance_lines_up (points : track ≠ [])
    (parallel : ∀ entry ∈ lapTraces.entries, entry.2.length = track.length) :
    ∃ out, computeSectorDominance lapTraces track.length binSize = .ok out ∧
      LinedUp lapTraces track binSize out := by
  have nonempty : 0 < track.length := List.length_pos_iff.mpr points
  have positive := binSize.pos
  obtain ⟨out, computed, fastest⟩ := computeSectorDominance_spec nonempty positive parallel
  obtain ⟨first, head⟩ : ∃ first, track.head? = some first := ⟨_, List.head?_eq_some_head points⟩
  obtain ⟨last, tail⟩ : ∃ last, track.getLast? = some last :=
    ⟨_, List.getLast?_eq_some_getLast points⟩
  have paths := trackSegmentPaths_eq binSize head tail
  rw [← minisectors] at paths
  have count : out.length = minisectors track.length binSize := by
    rw [← fastest.length_eq, List.length_range']
    rfl
  have bins : 0 < minisectors track.length binSize := Nat.div_pos (by omega) positive
  refine ⟨_, computed, ?_, ?_, ?_⟩
  · simp [paths, count]
  · intro i within
    have inside : (i + 1) * binSize ≤ track.length + binSize - 1 :=
      (Nat.le_div_iff_mul_le positive).mp within
    rw [Nat.succ_mul] at inside
    have ordered : i * binSize ≤ min (i * binSize + binSize) (track.length - 1) := by omega
    refine ⟨_, _, rfl, rfl, ordered, by omega, ⟨stretch track (i * binSize) _, ?_,
      stretch_points ordered (by omega)⟩, out[i], ?_, ?_⟩
    · rw [paths, List.getElem?_append_left (by simpa using within)]
      simp [within, Nat.mul_comm]
    · rw [List.getElem?_append_left (by omega), List.getElem?_eq_getElem]
    · have each := (List.forall₂_iff_get.mp fastest).2 i
        (by rwa [List.length_range']) (by omega)
      simpa [Nat.mul_comm] using each
  · refine ⟨last, first, out.length - 1, by omega, ?_, tail, head, ?_, ?_⟩
    · simp
      omega
    · rw [paths, List.getElem?_append_right (by simp; omega)]
      simp [count, Nat.sub_add_cancel bins]
    · rw [List.getElem?_append_right (by omega), List.getElem?_append_left (by omega)]
      have bound : out.length - 1 + 1 - out.length = 0 := by omega
      rw [bound, List.getLastD_eq_getLast?, List.getLast?_eq_getElem?,
        List.getElem?_eq_getElem (show out.length - 1 < out.length by omega)]
      rfl

def chicane : List Pt := [⟨0, 0⟩, ⟨1, 0⟩, ⟨1, 1⟩]

def chicaneTraces : Dict Int (List Int) := .ofMembers [(44, [0, 500, 900]), (16, [0, 480, 950])]

/-- Three points in bins of two: the last bin is a single point, and nobody leads there. -/
theorem dominance_lines_up_chicane :
    (chicane ≠ [] ∧ ∀ entry ∈ chicaneTraces.entries, entry.2.length = chicane.length) ∧
      computeSectorDominance chicaneTraces 3 2 = .ok [44, 0, 0] ∧
      ∃ out, computeSectorDominance chicaneTraces 3 2 = .ok out ∧ LinedUp chicaneTraces chicane 2 out := by
  have parallel : ∀ entry ∈ chicaneTraces.entries, entry.2.length = chicane.length := by decide
  exact ⟨⟨by decide, parallel⟩, by decide +kernel, dominance_lines_up 2 (by decide) parallel⟩

end RaceTracker.Seam
