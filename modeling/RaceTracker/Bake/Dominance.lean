import RaceTracker.Bake.Geometry
import RaceTracker.Lib.Dict

namespace RaceTracker.Bake

open RaceTracker.Lib

/-! Sector dominance: the fastest driver through each minisector of the outline. -/

/-- The numbers below `stop`, from 0 in steps; a step of 0 is refused. -/
def range (stop step : Nat) : Except Raised (List Nat) :=
  if step = 0 then .error .valueError else .ok (List.range' 0 ((stop + step - 1) / step) step)

/-- The best driver of a window, with those before this one already compared. -/
def fastestFrom (start stop : Nat) (bestDriver : Int) (bestDelta : Option Int) :
    List (Int × List Int) → Except Raised Int
  | [] => .ok bestDriver
  | (dnum, trace) :: rest => do
      let delta := (← item trace stop) - (← item trace start)
      if delta ≤ 0 then fastestFrom start stop bestDriver bestDelta rest
      else if bestDelta.all (delta < ·) then fastestFrom start stop dnum (some delta) rest
      else fastestFrom start stop bestDriver bestDelta rest

def computeSectorDominance (lapTraces : Dict Int (List Int)) (nPoints binSize : Nat) :
    Except Raised (List Int) := do
  let starts ← range nPoints binSize
  let out ← starts.mapM fun start =>
    fastestFrom start (min (start + binSize) (nPoints - 1)) 0 none lapTraces.entries
  return out ++ [out.getLastD 0]

/-- The time from one outline point to another. -/
def lapse (trace : List Int) (start stop : Nat) : Int := trace.getD stop 0 - trace.getD start 0

/-- Someone with the least of the positive times, or nobody where there are none. -/
inductive Fastest (lapTraces : List (Int × List Int)) (start stop : Nat) : Int → Prop where
  | nobody (idle : ∀ entry ∈ lapTraces, lapse entry.2 start stop ≤ 0) : Fastest lapTraces start stop 0
  | driver {dnum : Int} {trace : List Int} (listed : (dnum, trace) ∈ lapTraces)
      (positive : 0 < lapse trace start stop)
      (least : ∀ entry ∈ lapTraces, 0 < lapse entry.2 start stop →
        lapse trace start stop ≤ lapse entry.2 start stop) : Fastest lapTraces start stop dnum

variable {start stop : Nat}

/-- What the comparison knows of the drivers that are done. -/
inductive Leads (start stop : Nat) (done : List (Int × List Int)) : Int → Option Int → Prop where
  | nobody (idle : ∀ entry ∈ done, lapse entry.2 start stop ≤ 0) : Leads start stop done 0 none
  | driver {dnum : Int} {trace : List Int} (listed : (dnum, trace) ∈ done)
      (positive : 0 < lapse trace start stop)
      (least : ∀ entry ∈ done, 0 < lapse entry.2 start stop →
        lapse trace start stop ≤ lapse entry.2 start stop) :
      Leads start stop done dnum (some (lapse trace start stop))

namespace Leads

variable {done : List (Int × List Int)} {bestDriver dnum : Int} {bestDelta : Option Int}
  {trace : List Int}

theorem skip (leads : Leads start stop done bestDriver bestDelta)
    (idle : lapse trace start stop ≤ 0 ∨ bestDelta.any (· ≤ lapse trace start stop)) :
    Leads start stop (done ++ [(dnum, trace)]) bestDriver bestDelta := by
  cases leads with
  | nobody others =>
      refine .nobody fun entry member => ?_
      rcases List.mem_append.mp member with old | last
      · exact others entry old
      · rw [List.mem_singleton.mp last]
        simpa using idle
  | driver listed positive least =>
      refine .driver (List.mem_append_left _ listed) positive fun entry member later => ?_
      rcases List.mem_append.mp member with old | last
      · exact least entry old later
      · rw [List.mem_singleton.mp last] at later ⊢
        simpa [not_le.mpr later] using idle

theorem take (leads : Leads start stop done bestDriver bestDelta)
    (positive : 0 < lapse trace start stop) (faster : bestDelta.all (lapse trace start stop < ·)) :
    Leads start stop (done ++ [(dnum, trace)]) dnum (some (lapse trace start stop)) := by
  refine .driver (List.mem_append_right _ (List.mem_singleton_self _)) positive ?_
  intro entry member later
  rcases List.mem_append.mp member with old | last
  · cases leads with
    | nobody others => exact absurd later (not_lt.mpr (others entry old))
    | driver listed _ least =>
        have below := of_decide_eq_true faster
        exact below.le.trans (least entry old later)
  · rw [List.mem_singleton.mp last]

end Leads

theorem fastestFrom_spec {done rest : List (Int × List Int)} {bestDriver : Int}
    {bestDelta : Option Int} (leads : Leads start stop done bestDriver bestDelta)
    (long : ∀ entry ∈ rest, start < entry.2.length ∧ stop < entry.2.length) :
    ∃ driver, fastestFrom start stop bestDriver bestDelta rest = .ok driver ∧
      Fastest (done ++ rest) start stop driver := by
  induction rest generalizing done bestDriver bestDelta with
  | nil =>
      rw [List.append_nil]
      refine ⟨bestDriver, rfl, ?_⟩
      cases leads with
      | nobody idle => exact .nobody idle
      | driver listed positive least => exact .driver listed positive least
  | cons entry rest ih =>
      obtain ⟨dnum, trace⟩ := entry
      obtain ⟨starts, stops⟩ := long (dnum, trace) (List.mem_cons_self ..)
      have later := fun entry member => long entry (List.mem_cons_of_mem _ member)
      have first : item trace stop = .ok (trace.getD stop 0) := item_eq (by simp [stops])
      have second : item trace start = .ok (trace.getD start 0) := item_eq (by simp [starts])
      rw [List.append_cons]
      simp only [fastestFrom, first, second, ok_bind]
      change ∃ driver, (if lapse trace start stop ≤ 0 then _ else _) = _ ∧ _
      by_cases idle : lapse trace start stop ≤ 0
      · rw [if_pos idle]
        exact ih (leads.skip (.inl idle)) later
      · rw [if_neg idle]
        change ∃ driver, (if bestDelta.all (lapse trace start stop < ·) then _ else _) = _ ∧ _
        by_cases faster : bestDelta.all (lapse trace start stop < ·)
        · rw [if_pos faster]
          exact ih (leads.take (not_le.mp idle) faster) later
        · rw [if_neg faster]
          refine ih (leads.skip (.inr ?_)) later
          cases leads with
          | nobody => exact absurd rfl faster
          | driver => simpa using faster

/-- The driver of every window, and that of the last once more. -/
theorem computeSectorDominance_spec {lapTraces : Dict Int (List Int)} {nPoints binSize : Nat}
    (points : 0 < nPoints) (positive : 0 < binSize)
    (parallel : ∀ entry ∈ lapTraces.entries, entry.2.length = nPoints) :
    ∃ out : List Int, computeSectorDominance lapTraces nPoints binSize =
        .ok (out ++ [out.getLastD 0]) ∧
      List.Forall₂ (fun start driver =>
        Fastest lapTraces.entries start (min (start + binSize) (nPoints - 1)) driver)
        (List.range' 0 ((nPoints + binSize - 1) / binSize) binSize) out := by
  have windows : ∀ start ∈ List.range' 0 ((nPoints + binSize - 1) / binSize) binSize,
      ∃ driver, fastestFrom start (min (start + binSize) (nPoints - 1)) 0 none lapTraces.entries =
          .ok driver ∧
        Fastest lapTraces.entries start (min (start + binSize) (nPoints - 1)) driver := by
    intro start member
    obtain ⟨i, within, rfl⟩ := List.mem_range'.mp member
    have inside : (i + 1) * binSize ≤ nPoints + binSize - 1 :=
      (Nat.le_div_iff_mul_le positive).mp within
    rw [Nat.succ_mul, Nat.mul_comm] at inside
    have begun : Leads (0 + binSize * i) (min (0 + binSize * i + binSize) (nPoints - 1)) [] 0 none :=
      .nobody nofun
    refine fastestFrom_spec begun fun entry listed => ?_
    have length := parallel entry listed
    omega
  obtain ⟨out, computed, fastest⟩ := mapM_forall₂ windows
  refine ⟨out, ?_, fastest⟩
  simp only [computeSectorDominance, range, if_neg positive.ne', ok_bind, computed, pure_eq_ok]

end RaceTracker.Bake
