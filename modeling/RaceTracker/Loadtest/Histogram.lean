import Mathlib.Data.Rat.Floor
import RaceTracker.Lib.Histogram

namespace RaceTracker.Loadtest

open RaceTracker.Lib

/-! The load test's latency histograms: one for each client, merged at the end.

A histogram is compared with the list of the samples it was given, in any order.
-/

/-- Samples at or above it land in the overflow bucket. -/
def histMaxMs : Nat := 5000

structure LatencyHist where
  /-- One bucket for each millisecond. -/
  buckets : List Nat
  overflow : Nat
  count : Nat
  max : Int
  sized : buckets.length = histMaxMs

def newHist : LatencyHist where
  buckets := List.replicate histMaxMs 0
  overflow := 0
  count := 0
  max := 0
  sized := List.length_replicate

def LatencyHist.add (h : LatencyHist) (sample : Int) : LatencyHist :=
  let ms := Max.max sample 0
  let counted := { h with max := Max.max h.max ms, count := h.count + 1 }
  if histMaxMs ≤ ms then { counted with overflow := h.overflow + 1 }
  else { counted with
    buckets := h.buckets.modify ms.toNat (· + 1)
    sized := by rw [List.length_modify, h.sized] }

def LatencyHist.merge (h o : LatencyHist) : LatencyHist where
  buckets := List.zipWith (· + ·) h.buckets o.buckets
  overflow := h.overflow + o.overflow
  count := h.count + o.count
  max := Max.max h.max o.max
  sized := by rw [List.length_zipWith, h.sized, o.sized, Nat.min_self]

/-- A rank in the overflow bucket gives the upper bound of the buckets. -/
def LatencyHist.percentile (h : LatencyHist) (q : Rat) : Int :=
  if h.count = 0 then 0
  else
    let rank := min (Max.max ⌈q * h.count⌉ 1) h.count
    (crossing rank.toNat 0 0 h.buckets).getD histMaxMs

/-- What one client records. -/
def record (samples : List Int) : LatencyHist := samples.foldl LatencyHist.add newHist

def mergeAll (hists : List LatencyHist) : LatencyHist := hists.foldl LatencyHist.merge newHist

/-- A sample as far as the buckets can tell it. -/
def clamped (sample : Int) : Int := min (max sample 0) histMaxMs

def peak (samples : List Int) : Int := samples.foldr max 0

structure Records (h : LatencyHist) (samples : List Int) : Prop where
  buckets (value : Nat) (inside : value < h.buckets.length) :
    h.buckets[value] = (samples.map clamped).countP (· = (value : Int))
  overflow : h.overflow = (samples.map clamped).countP (· = (histMaxMs : Int))
  count : h.count = samples.length
  max : h.max = peak samples

/-- The element of rank `⌈q * n⌉`, counted from one, of the `n` samples in order. -/
def nearestRank (q : Rat) (samples : List Int) : Option Int :=
  (samples.mergeSort (· ≤ ·))[⌈q * samples.length⌉.toNat - 1]?

theorem peak_nonneg (samples : List Int) : 0 ≤ peak samples := by
  induction samples with
  | nil => exact le_rfl
  | cons sample rest ih => exact ih.trans (le_max_right ..)

theorem peak_append (front back : List Int) : peak (front ++ back) = max (peak front) (peak back) := by
  induction front with
  | nil => exact (max_eq_right (peak_nonneg back)).symm
  | cons sample rest ih => exact (congrArg (max sample) ih).trans (max_assoc ..).symm

theorem le_peak {samples : List Int} {sample : Int} (member : sample ∈ samples) :
    max sample 0 ≤ peak samples := by
  refine max_le ?_ (peak_nonneg samples)
  induction member with
  | head => exact le_max_left ..
  | tail _ _ ih => exact ih.trans (le_max_right ..)

theorem exists_peak {samples : List Int} (given : samples ≠ []) :
    ∃ sample ∈ samples, max sample 0 = peak samples := by
  induction samples with
  | nil => contradiction
  | cons sample rest ih =>
      have top : peak (sample :: rest) = max sample (peak rest) := rfl
      by_cases low : peak rest ≤ max sample 0
      · refine ⟨sample, List.mem_cons_self .., ?_⟩
        have nonneg := peak_nonneg rest
        omega
      · -- A peak above zero comes from a sample.
        have more : rest ≠ [] := by
          rintro rfl
          exact low (le_max_right ..)
        obtain ⟨highest, member, same⟩ := ih more
        exact ⟨highest, List.mem_cons_of_mem _ member, by omega⟩

theorem max?_eq_peak {samples : List Int} (given : samples ≠ []) :
    (samples.map fun sample => max sample 0).max? = some (peak samples) := by
  rw [List.max?_eq_some_iff]
  refine ⟨?_, fun value among => ?_⟩
  · obtain ⟨sample, member, same⟩ := exists_peak given
    exact List.mem_map.mpr ⟨sample, member, same⟩
  · obtain ⟨sample, member, rfl⟩ := List.mem_map.mp among
    exact le_peak member

theorem records_newHist : Records newHist [] where
  buckets value inside := by simp [newHist]
  overflow := rfl
  count := rfl
  max := rfl

theorem Records.add {h : LatencyHist} {samples : List Int} (records : Records h samples)
    (sample : Int) : Records (h.add sample) (samples ++ [sample]) := by
  have peaked : Max.max h.max (Max.max sample 0) = peak (samples ++ [sample]) := by
    rw [peak_append, ← records.max]
    rfl
  have counted : h.count + 1 = (samples ++ [sample]).length := by
    rw [records.count, List.length_append, List.length_singleton]
  have size := h.sized
  rw [LatencyHist.add]
  split
  · rename_i beyond
    have top : clamped sample = histMaxMs := min_eq_right beyond
    refine ⟨?_, ?_, counted, peaked⟩
    · intro value inside
      have below : value < histMaxMs := size ▸ inside
      rw [List.map_append, List.countP_append, ← records.buckets value inside]
      simp [top, below.ne']
    · rw [List.map_append, List.countP_append, ← records.overflow]
      simp [top]
  · rename_i within
    have place : clamped sample = Max.max sample 0 := min_eq_left (not_le.mp within).le
    refine ⟨?_, ?_, counted, peaked⟩
    · intro value inside
      simp only [List.length_modify] at inside
      rw [List.map_append, List.countP_append, ← records.buckets value inside]
      simp only [List.getElem_modify, List.map_cons, List.map_nil, List.countP_singleton, place]
      by_cases same : Max.max sample 0 = value
      · simp [same]
      · have other : (Max.max sample 0).toNat ≠ value := by omega
        simp [same, other]
    · rw [List.map_append, List.countP_append, ← records.overflow]
      have other : clamped sample ≠ histMaxMs := by omega
      simp [other]

theorem Records.merge {h o : LatencyHist} {front back : List Int} (left : Records h front)
    (right : Records o back) : Records (h.merge o) (front ++ back) where
  buckets value inside := by
    have inLeft : value < h.buckets.length := by
      rw [h.sized, ← (h.merge o).sized]
      exact inside
    have inRight : value < o.buckets.length := by
      rw [o.sized, ← (h.merge o).sized]
      exact inside
    rw [List.map_append, List.countP_append, ← left.buckets value inLeft, ← right.buckets value inRight]
    exact List.getElem_zipWith
  overflow := by rw [List.map_append, List.countP_append, ← left.overflow, ← right.overflow]; rfl
  count := by rw [List.length_append, ← left.count, ← right.count]; rfl
  max := by rw [peak_append, ← left.max, ← right.max]; rfl

theorem Records.perm {h : LatencyHist} {samples reordered : List Int} (records : Records h samples)
    (perm : samples.Perm reordered) : Records h reordered where
  buckets value inside := by rw [records.buckets value inside, (perm.map clamped).countP_eq]
  overflow := by rw [records.overflow, (perm.map clamped).countP_eq]
  count := by rw [records.count, perm.length_eq]
  max := by
    rw [records.max]
    exact perm.foldr_eq 0

theorem records_foldl {h : LatencyHist} {before : List Int} (records : Records h before)
    (samples : List Int) : Records (samples.foldl LatencyHist.add h) (before ++ samples) := by
  induction samples generalizing h before with
  | nil => rwa [List.append_nil]
  | cons sample rest ih =>
      rw [List.foldl_cons, ← List.singleton_append, ← List.append_assoc]
      exact ih (records.add sample)

theorem records_record (samples : List Int) : Records (record samples) samples :=
  records_foldl records_newHist samples

theorem records_mergeAll (parts : List (List Int)) :
    Records (mergeAll (parts.map record)) parts.flatten := by
  suffices run : ∀ {h : LatencyHist} {before : List Int}, Records h before →
      Records ((parts.map record).foldl LatencyHist.merge h) (before ++ parts.flatten) from
    run records_newHist
  intro h before records
  induction parts generalizing h before with
  | nil => rwa [List.flatten_nil, List.append_nil]
  | cons part rest ih =>
      rw [List.map_cons, List.foldl_cons, List.flatten_cons, ← List.append_assoc]
      exact ih (records.merge (records_record part))

theorem clamped_range (sample : Int) : 0 ≤ clamped sample ∧ clamped sample ≤ histMaxMs := by
  rw [clamped, histMaxMs]
  omega

/-- The scan finds the value of the rank it is asked for. -/
theorem Records.ranked {h : LatencyHist} {samples : List Int} (records : Records h samples)
    {rank : Nat} (positive : 0 < rank) (inside : rank ≤ samples.length) :
    ((samples.map clamped).mergeSort (· ≤ ·))[rank - 1]? =
      some (((crossing rank 0 0 h.buckets).getD histMaxMs : Nat) : Int) := by
  have range : ∀ value ∈ samples.map clamped, 0 ≤ value ∧ value ≤ histMaxMs := by
    intro value member
    obtain ⟨sample, -, rfl⟩ := List.mem_map.mp member
    exact clamped_range sample
  have sums {bound : Nat} (short : bound ≤ h.buckets.length) :=
    sum_take_counts (fun value member => (range value member).1) records.buckets short
  have sorted : ((samples.map clamped).mergeSort (· ≤ ·)).Pairwise (· ≤ ·) :=
    List.pairwise_mergeSort' (· ≤ ·) _
  cases found : crossing rank 0 0 h.buckets with
  | some value =>
      obtain ⟨offset, rfl, bucket, before, after⟩ := crossing_some positive found
      rw [Nat.zero_add, sums bucket.le] at before
      rw [Nat.zero_add, sums bucket] at after
      have upTo : (samples.map clamped).countP (· < ((offset + 1 : Nat) : Int)) =
          (samples.map clamped).countP (· ≤ (offset : Int)) := by
        refine List.countP_congr fun value _ => ?_
        simp only [decide_eq_true_eq]
        omega
      rw [Option.getD_some, Nat.zero_add]
      exact getElem?_of_counts (List.mergeSort_perm ..) sorted before (upTo ▸ after)
  | none =>
      have before := crossing_none positive found
      rw [Nat.zero_add, ← List.take_length (l := h.buckets), sums le_rfl, h.sized] at before
      have upTo : (samples.map clamped).countP (· ≤ (histMaxMs : Int)) = samples.length := by
        rw [List.countP_eq_length.mpr, List.length_map]
        intro value member
        exact decide_eq_true (range value member).2
      exact getElem?_of_counts (List.mergeSort_perm ..) sorted before (upTo ▸ inside)

theorem Records.percentile {h : LatencyHist} {samples : List Int} (records : Records h samples)
    (given : samples ≠ []) {q : Rat} (positive : 0 < q) (most : q ≤ 1) :
    nearestRank q (samples.map clamped) = some (h.percentile q) := by
  have counted : 0 < h.count := by
    rw [records.count]
    exact List.length_pos_iff.mpr given
  have low : 0 < ⌈q * h.count⌉ := Int.ceil_pos.mpr (by positivity)
  have high : ⌈q * h.count⌉ ≤ h.count := by
    rw [Int.ceil_le]
    exact_mod_cast mul_le_of_le_one_left (Nat.cast_nonneg h.count) most
  have rank : min (Max.max ⌈q * h.count⌉ 1) h.count = ⌈q * h.count⌉ := by omega
  have within : ⌈q * h.count⌉.toNat ≤ samples.length := by
    rw [← records.count]
    omega
  have positive : 0 < ⌈q * h.count⌉.toNat := by omega
  rw [nearestRank, List.length_map, ← records.count, records.ranked positive within,
    LatencyHist.percentile, if_neg counted.ne']
  simp only [rank]

/-- However the samples were divided among the clients, and whatever the order, the merged
histogram reports them all. -/
theorem mergeAll_exact {samples : List Int} (given : samples ≠ []) {parts : List (List Int)}
    (partition : parts.flatten.Perm samples) {q : Rat} (positive : 0 < q) (most : q ≤ 1) :
    nearestRank q (samples.map clamped) = some ((mergeAll (parts.map record)).percentile q) ∧
      (mergeAll (parts.map record)).count = samples.length ∧
      (samples.map fun sample => max sample 0).max? = some (mergeAll (parts.map record)).max := by
  have records := (records_mergeAll parts).perm partition
  refine ⟨records.percentile given positive most, records.count, ?_⟩
  rw [max?_eq_peak given, records.max]

theorem mergeAll_exact_two_clients :
    nearestRank (99 / 100) ([30, -4, 6000].map clamped) =
        some ((mergeAll ([[6000, 30], [-4]].map record)).percentile (99 / 100)) ∧
      (mergeAll ([[6000, 30], [-4]].map record)).count = 3 ∧
      ([30, -4, 6000].map fun sample : Int => max sample 0).max? =
        some (mergeAll ([[6000, 30], [-4]].map record)).max :=
  mergeAll_exact (by decide) (by decide) (by norm_num) (by norm_num)

end RaceTracker.Loadtest
