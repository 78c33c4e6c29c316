import Mathlib.Data.List.Chain
import RaceTracker.Lib.Clamp
import RaceTracker.Web.GapSmoothing

namespace RaceTracker.Web

open RaceTracker.Lib

/-! What the gap and interval columns print, row by row down the running order. -/

structure DisplayGap where
  gapMs : Option Rat
  intMs : Option Rat
deriving DecidableEq

/-- The settled reading of a driver that has samples, the car's own of any other. -/
def shownReading (sm : GapSmoothing) (column : Column) (car : Json) : Option Rat :=
  match sm.get? (carName car) with
  | some samples => samples.shown column
  | none => column.reading car

/-- The rows under the leader; `prevGap` is the gap printed in the row above. -/
def displayRows (sm : GapSmoothing) : Option Rat → List Json → List DisplayGap
  | _, [] => []
  | prevGap, car :: rest =>
      let rawInt := shownReading sm .interval car
      match shownReading sm .gap car with
      | none => ⟨none, rawInt⟩ :: displayRows sm none rest
      | some raw =>
          match prevGap with
          | none => ⟨some raw, rawInt⟩ :: displayRows sm (some raw) rest
          | some prev =>
              ⟨some (max raw prev), some (max raw prev - prev)⟩ :: displayRows sm (some (max raw prev)) rest

/-- The leader's row carries no number, and its gap counts as zero. -/
def displayGaps (order : List Json) (sm : GapSmoothing) : List DisplayGap :=
  match order with
  | [] => []
  | _ :: rest => ⟨none, none⟩ :: displayRows sm (some 0) rest

theorem displayGaps_congr {sm sm' : GapSmoothing} (same : ∀ driver, sm.get? driver = sm'.get? driver)
    (order : List Json) : displayGaps order sm = displayGaps order sm' := by
  have readings : shownReading sm = shownReading sm' := by
    funext column car
    rw [shownReading, shownReading, same]
  have rows (prevGap : Option Rat) (rows : List Json) :
      displayRows sm prevGap rows = displayRows sm' prevGap rows := by
    induction rows generalizing prevGap with
    | nil => rfl
    | cons car rest ih => simp only [displayRows, readings, ih]
  cases order with
  | nil => rfl
  | cons leader rest => rw [displayGaps, displayGaps, rows]

theorem displayRows_gaps (sm : GapSmoothing) (prevGap : Option Rat) (rows : List Json) :
    (displayRows sm prevGap rows).map DisplayGap.gapMs =
      clamp prevGap (rows.map (shownReading sm .gap)) := by
  induction rows generalizing prevGap with
  | nil => rfl
  | cons car rest ih =>
      cases reading : shownReading sm .gap car with
      | none => simp [displayRows, reading, clamp, ih]
      | some raw => cases prevGap <;> simp [displayRows, reading, clamp, raise, ih]

/-- The interval of the lower of two rows with gaps is their difference, and not negative. -/
def Spaced (upper lower : DisplayGap) : Prop :=
  ∀ ahead behind, upper.gapMs = some ahead → lower.gapMs = some behind →
    lower.intMs = some (behind - ahead) ∧ 0 ≤ behind - ahead

/-- The gaps never fall down the table, and neighbouring gaps agree with the interval. -/
structure Consistent (rows : List DisplayGap) : Prop where
  rising : (rows.filterMap DisplayGap.gapMs).Pairwise (· ≤ ·)
  spaced : rows.IsChain Spaced

theorem displayRows_spaced (sm : GapSmoothing) (above : DisplayGap) (rows : List Json) :
    (above :: displayRows sm above.gapMs rows).IsChain Spaced := by
  induction rows generalizing above with
  | nil => exact List.isChain_singleton above
  | cons car rest ih =>
      cases reading : shownReading sm .gap car with
      | none =>
          simp only [displayRows, reading]
          refine List.isChain_cons_cons.mpr ⟨?_, ih ⟨none, _⟩⟩
          rintro ahead behind - blank
          cases blank
      | some raw =>
          obtain ⟨gapMs, intMs⟩ := above
          cases gapMs with
          | none =>
              simp only [displayRows, reading]
              refine List.isChain_cons_cons.mpr ⟨?_, ih ⟨some raw, _⟩⟩
              intro ahead behind blank
              cases blank
          | some prev =>
              simp only [displayRows, reading]
              refine List.isChain_cons_cons.mpr ⟨?_, ih ⟨some (max raw prev), _⟩⟩
              rintro ahead behind ⟨⟩ ⟨⟩
              exact ⟨rfl, sub_nonneg.mpr (le_max_right raw prev)⟩

/-- Where readings set in again below a row without one, they are not under what stands further up:
the readings themselves, and the leader's zero where the second row has a reading. -/
def ResumesAbove (sm : GapSmoothing) (order : List Json) : Prop :=
  ∀ leader above blank car below raw, order = leader :: (above ++ blank :: car :: below) →
    shownReading sm .gap blank = none → shownReading sm .gap car = some raw →
      (∀ higher ∈ above, ∀ reading, shownReading sm .gap higher = some reading → reading ≤ raw) ∧
        ((above.head?.bind (shownReading sm .gap)).isSome → 0 ≤ raw)

/-- Said of the readings alone, with the leader's zero as the floor of the column. -/
theorem resumesAbove_iff {sm : GapSmoothing} {leader : Json} {rest : List Json} :
    ResumesAbove sm (leader :: rest) ↔
      ∀ above value below, rest.map (shownReading sm .gap) = above ++ none :: some value :: below →
        (∀ higher, some higher ∈ above → higher ≤ value) ∧
          ∀ least first, some 0 = some least → above.head? = some (some first) → least ≤ value := by
  constructor
  · intro kept above value below split
    obtain ⟨cars, others, rfl, own, split⟩ := List.map_eq_append_iff.mp split
    obtain ⟨blank, others, rfl, unread, split⟩ := List.map_eq_cons_iff.mp split
    obtain ⟨car, others, rfl, read, -⟩ := List.map_eq_cons_iff.mp split
    obtain ⟨higher, floor⟩ := kept leader cars blank car others value rfl unread read
    subst own
    constructor
    · intro reading member
      obtain ⟨other, listed, same⟩ := List.mem_map.mp member
      exact higher other listed reading same
    · rintro least first ⟨⟩ top
      apply floor
      rw [List.head?_map, Option.map_eq_some_iff] at top
      obtain ⟨second, head, own⟩ := top
      simp [head, own]
  · rintro kept leader above blank car below raw ⟨⟩ unread read
    obtain ⟨higher, floor⟩ := kept (above.map (shownReading sm .gap)) raw
      (below.map (shownReading sm .gap)) (by simp [unread, read])
    refine ⟨fun other member reading own => higher reading ?_, ?_⟩
    · exact List.mem_map.mpr ⟨other, member, own⟩
    · intro second
      cases above with
      | nil => cases second
      | cons top others =>
          obtain ⟨first, own⟩ := Option.isSome_iff_exists.mp second
          have topReading : shownReading sm .gap top = some first := own
          exact floor 0 first rfl (by simp [topReading])

/-- The columns are consistent exactly when no reading below a gap in them is out of order. -/
theorem displayGaps_consistent_iff (order : List Json) (sm : GapSmoothing) :
    Consistent (displayGaps order sm) ↔ ResumesAbove sm order := by
  cases order with
  | nil => exact ⟨fun _ => nofun, fun _ => ⟨List.Pairwise.nil, List.isChain_nil⟩⟩
  | cons leader rest =>
      have gaps : (displayGaps (leader :: rest) sm).filterMap DisplayGap.gapMs =
          (clamp (some 0) (rest.map (shownReading sm .gap))).reduceOption := by
        rw [← displayRows_gaps, List.reduceOption, List.filterMap_map]
        rfl
      have chained : (displayGaps (leader :: rest) sm).IsChain Spaced := by
        have below := displayRows_spaced sm ⟨some 0, none⟩ rest
        rw [List.isChain_cons] at below
        exact List.isChain_cons.mpr ⟨fun _ _ _ _ blank => (nomatch blank), below.2⟩
      have rising : Consistent (displayGaps (leader :: rest) sm) ↔
          (clamp (some 0) (rest.map (shownReading sm .gap))).reduceOption.Pairwise (· ≤ ·) :=
        ⟨fun consistent => gaps ▸ consistent.rising, fun rising => ⟨gaps.symm ▸ rising, chained⟩⟩
      rw [rising, clamp_rises_iff, resumesAbove_iff]

def brokenColumn : List Json :=
  [.obj [("driverNum", .int 1)], .obj [("driverNum", .int 16), ("gapMs", .int 7364)],
    .obj [("driverNum", .int 4)], .obj [("driverNum", .int 81), ("gapMs", .int 3965)]]

/-- The gap starts afresh under the blank row and falls. -/
theorem displayGaps_falls : ¬ Consistent (displayGaps brokenColumn .empty) := by
  intro consistent
  have rising := consistent.rising
  have column : (displayGaps brokenColumn .empty).filterMap DisplayGap.gapMs = [7364, 3965] := by
    decide +kernel
  rw [column] at rising
  exact absurd rising (by decide +kernel)

end RaceTracker.Web
