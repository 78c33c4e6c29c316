import RaceTracker.Lib.Curve
import RaceTracker.Lib.HalfEven
import RaceTracker.Lib.Outcome
import RaceTracker.Lib.Search

namespace RaceTracker.Bake

open RaceTracker.Lib

/-! Gaps from race distance: when was the car ahead where this one is now?

Floats are exact rationals here.
-/

/-- What the baking code can raise. -/
inductive Raised where
  | indexError
  | zeroDivisionError
  | valueError
deriving DecidableEq, Repr

def item {τ : Type} (list : List τ) (index : Nat) : Except Raised τ :=
  match list[index]? with
  | some value => .ok value
  | none => .error .indexError

def divide (numerator denominator : Rat) : Except Raised Rat :=
  if denominator = 0 then .error .zeroDivisionError else .ok (numerator / denominator)

/-- The first index whose entry is not below `value`. -/
def bisectLeft (list : List Rat) (value : Rat) : Nat :=
  search (fun index => !decide (list.getD index 0 < value)) 0 list.length

def invertDistanceCurve (times dists : List Rat) (d : Rat) : Except Raised (Option Rat) :=
  match dists.head?, dists.getLast? with
  | some first, some last =>
      if d < first ∨ last < d then .ok none
      else do
        let i := bisectLeft dists d
        if i = 0 then return some (← item times 0)
        let d0 ← item dists (i - 1)
        let d1 ← item dists i
        if d1 ≤ d0 then return some (← item times i)
        let f ← divide (d - d0) (d1 - d0)
        let t0 ← item times (i - 1)
        let t1 ← item times i
        return some (t0 + f * (t1 - t0))
  | _, _ => .ok none

/-- `_behind_ms`: how long ago the car of this curve was at `d`. -/
def behindMs (times curve : List Rat) (tS d : Rat) : Except Raised (Option Int) := do
  match ← invertDistanceCurve times curve d with
  | none => return none
  | some tRef =>
      if tS < tRef then return none
      return some (roundHalfEven ((tS - tRef) * 1000))

/-- The `gapMs` of a car, from the leader's curve when there is one. -/
def gapMs (times : List Rat) (leaderCurve : Option (List Rat)) (tS : Rat) (quotable : Bool)
    (d : Rat) : Except Raised (Option Int) :=
  match leaderCurve with
  | some (first :: rest) =>
      if quotable then do
        let gap ← behindMs times (first :: rest) tS d
        return gap.filter (0 < ·)
      else .ok none
  | _ => .ok none

variable {times dists : List Rat} {t d d' : Rat}

/-- The curve takes the value `d` at the time `t`. -/
def OnCurve (times dists : List Rat) (t d : Rat) : Prop :=
  Passes dists.length (fun i => times.getD i 0) (fun i => dists.getD i 0) t d

def Earliest (times dists : List Rat) (t d : Rat) : Prop :=
  OnCurve times dists t d ∧ ∀ other, OnCurve times dists other d → t ≤ other

/-- Between the first distance and the last. -/
def InRange (dists : List Rat) (d : Rat) : Prop :=
  ∃ first ∈ dists.head?, ∃ last ∈ dists.getLast?, first ≤ d ∧ d ≤ last

/-- Parallel samples in time order, of a car that does not go backwards. -/
structure DistanceCurve (times dists : List Rat) : Prop where
  parallel : times.length = dists.length
  clock : times.Pairwise (· < ·)
  rising : dists.Pairwise (· ≤ ·)

theorem item_eq {τ : Type} {list : List τ} {index : Nat} {value : τ}
    (found : list[index]? = some value) : item list index = .ok value := by
  rw [item, found]

theorem item_of_lt {list : List Rat} {index : Nat} (within : index < list.length) :
    item list index = .ok (list.getD index 0) := by
  simp [item, List.getD, within]

theorem bisectLeft_spec {list : List Rat} (sorted : list.Pairwise (· ≤ ·)) (value : Rat) :
    bisectLeft list value ≤ list.length ∧
      (∀ i, i < bisectLeft list value → list.getD i 0 < value) ∧
      ∀ i, bisectLeft list value ≤ i → i < list.length → value ≤ list.getD i 0 := by
  have stays : ∀ i j, i ≤ j → j < list.length →
      (!decide (list.getD i 0 < value)) = true → (!decide (list.getD j 0 < value)) = true := by
    intro i j ordered within reached
    simp only [Bool.not_eq_true', decide_eq_false_iff_not, not_lt] at reached ⊢
    exact reached.trans (sorted_getD le_refl sorted 0 ordered within)
  obtain ⟨-, bounded, missing, present⟩ := search_spec stays (Nat.zero_le list.length)
  refine ⟨bounded, fun i before => ?_, fun i after within => ?_⟩
  · simpa using missing i (Nat.zero_le i) before
  · simpa using present i after within

theorem ends (nonempty : 0 < dists.length) :
    dists.head? = some (dists.getD 0 0) ∧ dists.getLast? = some (dists.getD (dists.length - 1) 0) := by
  have last : dists.length - 1 < dists.length := by omega
  rw [List.getD_eq_getElem _ _ nonempty, List.getD_eq_getElem _ _ last, List.head?_eq_getElem?,
    List.getLast?_eq_getElem?]
  exact ⟨List.getElem?_eq_getElem _, List.getElem?_eq_getElem _⟩

theorem invert_outside (beyond : ¬ InRange dists d) :
    invertDistanceCurve times dists d = .ok none := by
  rw [invertDistanceCurve]
  split
  · rename_i first last head tail
    apply if_pos
    by_contra inside
    rw [not_or, not_lt, not_lt] at inside
    exact beyond ⟨first, head, last, tail, inside.1, inside.2⟩
  · rfl

namespace DistanceCurve

variable (curve : DistanceCurve times dists)

include curve

theorem samples :
    Rising dists.length (fun i => times.getD i 0) (fun i => dists.getD i 0) where
  clock i j before within := by
    rw [← curve.parallel] at within
    exact pairwise_getD curve.clock 0 before within
  values _ _ ordered within := sorted_getD le_refl curve.rising 0 ordered within

theorem range (on : OnCurve times dists t d) : InRange dists d := by
  have nonempty : 0 < dists.length := by
    obtain ⟨_, _, _, _, _, within, _⟩ := on
    omega
  obtain ⟨above, below⟩ := curve.samples.range on
  exact ⟨_, (ends nonempty).1, _, (ends nonempty).2, above, below⟩

theorem inverts (inRange : InRange dists d) :
    ∃ t, invertDistanceCurve times dists d = .ok (some t) ∧
      First dists.length (fun i => times.getD i 0) (fun i => dists.getD i 0) t d := by
  obtain ⟨first, head, last, tail, above, below⟩ := inRange
  have nonempty : 0 < dists.length := List.length_pos_iff.mpr (by rintro rfl; cases head)
  obtain ⟨start, finish⟩ := ends nonempty
  obtain rfl : dists.getD 0 0 = first := Option.some.inj (start.symm.trans head)
  obtain rfl : dists.getD (dists.length - 1) 0 = last := Option.some.inj (finish.symm.trans tail)
  have inside := not_or.mpr ⟨not_lt.mpr above, not_lt.mpr below⟩
  obtain ⟨bounded, missing, present⟩ := bisectLeft_spec curve.rising d
  have within : bisectLeft dists d < dists.length := by
    by_contra beyond
    exact (missing (dists.length - 1) (by omega)).not_ge below
  simp only [invertDistanceCurve, start, finish, if_neg inside]
  have parallel := curve.parallel
  cases index : bisectLeft dists d with
  | zero =>
      rw [index] at present
      have same : dists.getD 0 0 = d := le_antisymm above (present 0 (Nat.zero_le 0) nonempty)
      refine ⟨times.getD 0 0, ?_, same ▸ curve.samples.first_start nonempty⟩
      simp [item_of_lt (show 0 < times.length by omega)]
  | succ i =>
      rw [index] at missing present within
      have climbs : ¬ dists.getD (i + 1) 0 ≤ dists.getD i 0 := by
        have low := missing i (by omega)
        have high := present (i + 1) (le_refl _) within
        exact not_le.mpr (low.trans_le high)
      have apart : ¬ dists.getD (i + 1) 0 - dists.getD i 0 = 0 := by
        intro same
        exact climbs (sub_eq_zero.mp same).le
      refine ⟨_, ?_, curve.samples.first_inside within (missing i (by omega))
        (present (i + 1) (le_refl _) within) fun k before => missing k (by omega)⟩
      have d0 := item_of_lt (show i < dists.length by omega)
      have t0 := item_of_lt (show i < times.length by omega)
      have t1 := item_of_lt (show i + 1 < times.length by omega)
      simp only [Nat.succ_ne_zero, if_false, Nat.add_sub_cancel, d0, t0, t1, item_of_lt within,
        ok_bind, pure_eq_ok, if_neg climbs, divide, if_neg apart]

theorem answers (d : Rat) : ∃ answer, invertDistanceCurve times dists d = .ok answer ∧
    (answer = none ↔ ¬ InRange dists d) ∧ ∀ t, answer = some t → Earliest times dists t d := by
  by_cases inRange : InRange dists d
  · obtain ⟨t, inverted, first⟩ := curve.inverts inRange
    refine ⟨some t, inverted, by simp [inRange], fun other same => ?_⟩
    exact Option.some.inj same ▸ first
  · exact ⟨none, invert_outside inRange, by simp [inRange], fun t none => by cases none⟩

theorem inRange_iff (d : Rat) : InRange dists d ↔ ∃ t, OnCurve times dists t d :=
  ⟨fun inRange => (curve.inverts inRange).imp fun _ found => found.2.1,
    fun ⟨_, on⟩ => curve.range on⟩

theorem monotone {t t' : Rat} (ordered : d ≤ d')
    (inverted : invertDistanceCurve times dists d = .ok (some t))
    (inverted' : invertDistanceCurve times dists d' = .ok (some t')) : t ≤ t' := by
  have earliest {t d : Rat} (inverted : invertDistanceCurve times dists d = .ok (some t)) :
      Earliest times dists t d := by
    obtain ⟨answer, same, -, first⟩ := curve.answers d
    exact first t (Except.ok.inj (same.symm.trans inverted))
  exact curve.samples.first_mono (earliest inverted) (earliest inverted') ordered

end DistanceCurve

theorem behindMs_eq {tS : Rat} {gap : Int} (quoted : behindMs times dists tS d = .ok (some gap)) :
    ∃ t, invertDistanceCurve times dists d = .ok (some t) ∧
      gap = roundHalfEven ((tS - t) * 1000) := by
  obtain ⟨answer, inverted, rest⟩ := bind_eq_ok_iff.mp quoted
  cases answer with
  | none => cases rest
  | some t =>
      simp only at rest
      split at rest
      · cases rest
      · cases rest
        exact ⟨t, inverted, rfl⟩

theorem gapMs_eq {leaderCurve : Option (List Rat)} {tS : Rat} {quotable : Bool} {gap : Int}
    (quoted : gapMs times leaderCurve tS quotable d = .ok (some gap)) :
    ∃ dists, leaderCurve = some dists ∧ behindMs times dists tS d = .ok (some gap) := by
  unfold gapMs at quoted
  split at quoted
  · split at quoted
    · obtain ⟨found, computed, kept⟩ := bind_eq_ok_iff.mp quoted
      have whole : found = some gap := (Option.filter_eq_some_iff.mp (Except.ok.inj kept)).1
      exact ⟨_, rfl, whole ▸ computed⟩
    · cases quoted
  · cases quoted

/-- What the answer at `d` says of the curve, and of a car that covered more. -/
structure Exact (times dists : List Rat) (d : Rat) (answer : Option Rat) : Prop where
  outside : answer = none ↔ ¬ InRange dists d
  missed : answer = none ↔ ∀ t, ¬ OnCurve times dists t d
  earliest : ∀ t, answer = some t → Earliest times dists t d
  monotone : ∀ d' t t', d ≤ d' → answer = some t →
    invertDistanceCurve times dists d' = .ok (some t') → t ≤ t'
  gaps : ∀ d' tS quotable quotable' gap gap', d ≤ d' →
    gapMs times (some dists) tS quotable d = .ok (some gap) →
    gapMs times (some dists) tS quotable' d' = .ok (some gap') → gap' ≤ gap

/-- The inverse of a distance curve is exact, and keeps the order of the gaps it is used for. -/
theorem inversion_is_exact (curve : DistanceCurve times dists) (d : Rat) :
    ∃ answer, invertDistanceCurve times dists d = .ok answer ∧ Exact times dists d answer := by
  obtain ⟨answer, inverted, outside, earliest⟩ := curve.answers d
  refine ⟨answer, inverted, outside, ?_, earliest, ?_, ?_⟩
  · rw [outside, curve.inRange_iff, not_exists]
  · intro d' t t' ordered same inverted'
    exact curve.monotone ordered (same ▸ inverted) inverted'
  · intro d' tS quotable quotable' gap gap' ordered quoted quoted'
    obtain ⟨_, same, behind⟩ := gapMs_eq quoted
    obtain ⟨_, same', behind'⟩ := gapMs_eq quoted'
    cases same
    cases same'
    obtain ⟨t, at', rfl⟩ := behindMs_eq behind
    obtain ⟨t', at'', rfl⟩ := behindMs_eq behind'
    have earlier := curve.monotone ordered at' at''
    apply roundHalfEven_mono
    linarith

/-- A car that stands still has been there since it stopped. -/
theorem inversion_is_exact_stopped : DistanceCurve [0, 1, 2] [0, 50, 50] ∧
    ∃ answer, invertDistanceCurve [0, 1, 2] [0, 50, 50] 50 = .ok answer ∧
      Exact [0, 1, 2] [0, 50, 50] 50 answer := by
  have curve : DistanceCurve [0, 1, 2] [0, 50, 50] := ⟨rfl, by decide, by decide⟩
  exact ⟨curve, inversion_is_exact curve 50⟩

end RaceTracker.Bake
