import RaceTracker.Lib.Search
import RaceTracker.Lib.Timetable
import RaceTracker.Replay.Source

namespace RaceTracker.Replay

open RaceTracker.Lib

/-! Playback phased to the wall clock: which frame is next, and when it is due. -/

/-- Each line's time relative to the first line's. -/
def relTimes (lines : List ClipLine) : List Int64 :=
  let base := (lines.head?.map ClipLine.timeMs).getD 0
  lines.map fun line => line.timeMs - base

def averageGap (rels : List Int64) : Int64 :=
  if 1 < rels.length then rels.getD (rels.length - 1) 0 / Int64.ofNat (rels.length - 1) else 0

def loopLength (rels : List Int64) : Int64 :=
  let loopLen := rels.getD (rels.length - 1) 0 + averageGap rels
  if loopLen ≤ 0 then 1 else loopLen

def frameAtWallclock (rels : List Int64) (loopLen nowMs : Int64) : Nat × Int64 :=
  let loopBase := nowMs / loopLen * loopLen
  let phase := nowMs - loopBase
  let i := search (fun k => phase ≤ rels.getD k 0) 0 rels.length
  if i = rels.length then (0, loopBase + loopLen + rels.getD 0 0)
  else (i, loopBase + rels.getD i 0)

/-- The loop: at each turn the line to send and the target time to send it at. -/
def emissions (rels : List Int64) (loopLen : Int64) : Nat → Nat → Int64 → List (Nat × Int64)
  | 0, _, _ => []
  | count + 1, i, loopBase =>
      (i, loopBase + rels.getD i 0) ::
        if i + 1 = rels.length then emissions rels loopLen count 0 (loopBase + loopLen)
        else emissions rels loopLen count (i + 1) loopBase

/-- The first `count` emissions of a lane that starts at `nowMs`. -/
def laneEmissions (rels : List Int64) (nowMs : Int64) (count : Nat) : List (Nat × Int64) :=
  let loopLen := loopLength rels
  let (i, target) := frameAtWallclock rels loopLen nowMs
  emissions rels loopLen count i (target - rels.getD i 0)

theorem playWallclock_emissions {source : Source} (nows : List Int64) (loopLen : Int64) {i : Nat}
    (within : i < source.lines.length) (loopBase : Int64) :
    List.Forall₂ (fun sent frame => ∃ line, source.lines[sent.1]? = some line ∧ Stamped line frame)
      (emissions (relTimes source.lines) loopLen nows.length i loopBase)
      (source.playWallclock i nows) := by
  induction nows generalizing i loopBase with
  | nil => exact List.Forall₂.nil
  | cons now nows ih =>
      have count : (relTimes source.lines).length = source.lines.length := List.length_map _
      rw [List.length_cons, emissions, Source.playWallclock, List.getElem?_eq_getElem within, count]
      refine List.Forall₂.cons ⟨_, List.getElem?_eq_getElem within, _, _, rfl⟩ ?_
      split
      · exact ih (Nat.zero_lt_of_lt within) _
      · exact ih (by omega) _

section

variable (rels : List Int64)

def offsets (i : Nat) : Int := (rels.getD i 0).toInt

/-- The loop length as an integer without bounds. -/
def period : Int :=
  if 1 < rels.length then
    offsets rels (rels.length - 1) + offsets rels (rels.length - 1) / (rels.length - 1 : Nat)
  else 1

/-- When slot `slot` of the global schedule is due. -/
def dueAt (slot : Nat) : Int := slotTime rels.length (period rels) (offsets rels) slot

/-- A clip from zero on whose frames are on average at least 1 ms apart. -/
structure Paced : Prop where
  start : rels.head? = some 0
  sorted : rels.Pairwise (· ≤ ·)
  spaced : ((rels.length - 1 : Nat) : Int) ≤ offsets rels (rels.length - 1)
  fits : period rels < 2 ^ 63

/-- `first` is where a lane of the schedule starts at `now`. -/
def StartsAt (now : Int64) (first : Nat) : Prop :=
  ∀ slot, now.toInt ≤ dueAt rels slot ↔ first ≤ slot

end

variable {rels : List Int64} {now : Int64}

theorem ofInt_offsets (rels : List Int64) (i : Nat) :
    Int64.ofInt (offsets rels i) = rels.getD i 0 := Int64.ofInt_toInt _

theorem dueAt_at (round : Nat) {i : Nat} (within : i < rels.length) :
    Int64.ofInt (dueAt rels (round * rels.length + i)) =
      Int64.ofInt (round * period rels) + rels.getD i 0 := by
  rw [dueAt, slotTime_at _ within, Int64.ofInt_add, ofInt_offsets]

namespace Paced

variable (paced : Paced rels)

include paced

theorem nonempty : 0 < rels.length := by
  have start := paced.start
  cases rels with
  | nil => cases start
  | cons first rest => exact Nat.succ_pos _

theorem offsets_zero : offsets rels 0 = 0 := by
  have start := paced.start
  cases rels with
  | nil => cases start
  | cons first rest =>
      cases start
      rfl

theorem offsets_mono {i j : Nat} (ordered : i ≤ j) (within : j < rels.length) :
    offsets rels i ≤ offsets rels j :=
  Int64.le_iff_toInt_le.mp (sorted_getD Int64.le_refl paced.sorted 0 ordered within)

theorem table : Timetable rels.length (period rels) (offsets rels) where
  nonempty := paced.nonempty
  start := paced.offsets_zero
  sorted _ _ ordered within := paced.offsets_mono ordered within
  within := by
    have spaced := paced.spaced
    rw [period]
    split
    · have gap : 1 ≤ offsets rels (rels.length - 1) / (rels.length - 1 : Nat) := by
        rw [Int.le_ediv_iff_mul_le (by omega)]
        omega
      omega
    · have single : rels.length - 1 = 0 := by omega
      rw [single, paced.offsets_zero]
      omega

theorem period_pos : 0 < period rels :=
  (paced.table.offset_bounds paced.nonempty).1.trans_lt (paced.table.offset_bounds paced.nonempty).2

theorem averageGap_toInt (many : 1 < rels.length) : (averageGap rels).toInt =
    offsets rels (rels.length - 1) / (rels.length - 1 : Nat) := by
  have spaced := paced.spaced
  have bound : offsets rels (rels.length - 1) < 2 ^ 63 := Int64.toInt_lt _
  have count : (Int64.ofNat (rels.length - 1)).toInt = (rels.length - 1 : Nat) :=
    Int64.toInt_ofNat_of_lt (by omega)
  have positive : Int64.ofNat (rels.length - 1) ≠ -1 := by
    intro same
    rw [same] at count
    have negative : (-1 : Int64).toInt = -1 := rfl
    omega
  rw [averageGap, if_pos many, Int64.toInt_div_of_ne_right _ _ positive, count]
  exact Int.tdiv_eq_ediv_of_nonneg (by unfold offsets at spaced; omega)

theorem loopLength_toInt : (loopLength rels).toInt = period rels := by
  have fits := paced.fits
  have positive := paced.period_pos
  by_cases many : 1 < rels.length
  · have gap := paced.averageGap_toInt many
    have last : (rels.getD (rels.length - 1) 0).toInt = offsets rels (rels.length - 1) := rfl
    have whole : period rels = offsets rels (rels.length - 1) +
        offsets rels (rels.length - 1) / (rels.length - 1 : Nat) := if_pos many
    have sum : (rels.getD (rels.length - 1) 0 + averageGap rels).toInt = period rels := by
      rw [Int64.toInt_add, gap, last, ← whole]
      exact Int.bmod_eq_of_le (by omega) (by omega)
    have going : ¬ rels.getD (rels.length - 1) 0 + averageGap rels ≤ 0 := by
      rw [Int64.le_iff_toInt_le, sum, Int64.toInt_zero]
      omega
    rw [loopLength, if_neg going, sum]
  · have single : rels.length - 1 = 0 := by omega
    have zero : rels.getD 0 0 = 0 := Int64.toInt_inj.mp paced.offsets_zero
    rw [loopLength, averageGap, if_neg many, single, zero, period, if_neg many]
    rfl

theorem ofInt_period : Int64.ofInt (period rels) = loopLength rels := by
  rw [← paced.loopLength_toInt, Int64.ofInt_toInt]

/-- The start of the loop that `now` is in, and how far `now` is into it. -/
theorem phase_toInt (since : 0 ≤ now) :
    now / loopLength rels * loopLength rels = Int64.ofInt (now.toInt / period rels * period rels) ∧
      (now - now / loopLength rels * loopLength rels).toInt = now.toInt % period rels := by
  have positive := paced.period_pos
  have from' : 0 ≤ now.toInt := Int64.le_iff_toInt_le.mp since
  have until' : now.toInt < 2 ^ 63 := Int64.toInt_lt now
  have length := paced.loopLength_toInt
  have forward : loopLength rels ≠ -1 := by
    intro same
    rw [same] at length
    have negative : (-1 : Int64).toInt = -1 := rfl
    omega
  have base : now / loopLength rels * loopLength rels =
      Int64.ofInt (now.toInt / period rels * period rels) := by
    have rounds : (now / loopLength rels).toInt = now.toInt / period rels := by
      rw [Int64.toInt_div_of_ne_right _ _ forward, length, Int.tdiv_eq_ediv_of_nonneg from']
    rw [Int64.ofInt_mul, paced.ofInt_period, ← rounds, Int64.ofInt_toInt]
  refine ⟨base, ?_⟩
  have whole := Int.mul_ediv_add_emod now.toInt (period rels)
  have least := Int.emod_nonneg now.toInt positive.ne'
  have most := Int.emod_lt_of_pos now.toInt positive
  have below : 0 ≤ now.toInt / period rels * period rels :=
    Int.mul_nonneg (Int.ediv_nonneg from' positive.le) positive.le
  rw [Int.mul_comm] at whole
  rw [base, Int64.toInt_sub, Int64.toInt_ofInt_of_le (by omega) (by omega)]
  rw [Int.bmod_eq_of_le (by omega) (by omega)]
  omega

theorem frame_is_next (since : 0 ≤ now) : ∃ first, StartsAt rels now first ∧
    frameAtWallclock rels (loopLength rels) now =
      (first % rels.length, Int64.ofInt (dueAt rels first)) := by
  have positive := paced.period_pos
  have from' : 0 ≤ now.toInt := Int64.le_iff_toInt_le.mp since
  have least := Int.emod_nonneg now.toInt positive.ne'
  have most := Int.emod_lt_of_pos now.toInt positive
  have whole := Int.mul_ediv_add_emod now.toInt (period rels)
  obtain ⟨base, phase⟩ := paced.phase_toInt since
  obtain ⟨round, rounds⟩ := Int.eq_ofNat_of_zero_le (Int.ediv_nonneg from' positive.le)
  rw [Int.mul_comm, rounds] at whole
  rw [rounds] at base
  have stays : ∀ i j, i ≤ j → j < rels.length →
      decide (now - now / loopLength rels * loopLength rels ≤ rels.getD i 0) = true →
      decide (now - now / loopLength rels * loopLength rels ≤ rels.getD j 0) = true := by
    intro i j ordered within reached
    rw [decide_eq_true_eq] at reached ⊢
    exact Int64.le_trans reached (sorted_getD Int64.le_refl paced.sorted 0 ordered within)
  obtain ⟨-, bounded, behind, ahead⟩ := search_spec stays (Nat.zero_le rels.length)
  generalize found : search (fun k => decide
    (now - now / loopLength rels * loopLength rels ≤ rels.getD k 0)) 0 rels.length = i
    at bounded behind ahead
  simp only [decide_eq_true_eq, Int64.le_iff_toInt_le, phase] at behind ahead
  have starts : StartsAt rels now (round * rels.length + i) := by
    intro slot
    rw [← whole]
    exact paced.table.le_slotTime_iff least most bounded
      (fun i before => not_le.mp (behind i (Nat.zero_le i) before)) ahead slot
  refine ⟨_, starts, ?_⟩
  simp only [frameAtWallclock, found]
  rw [base]
  split
  · rename_i past
    have wrapped : round * rels.length + i = (round + 1) * rels.length + 0 := by
      rw [past, Nat.add_mul, Nat.one_mul, Nat.add_zero]
    have next : Int64.ofInt (((round + 1 : Nat) : Int) * period rels) =
        Int64.ofInt (round * period rels) + loopLength rels := by
      rw [← paced.ofInt_period, ← Int64.ofInt_add]
      congr 1
      push_cast
      ring
    rw [wrapped, dueAt_at _ paced.nonempty, Nat.mul_add_mod', Nat.zero_mod, next]
  · have inside : i < rels.length := by omega
    rw [dueAt_at _ inside, Nat.mul_add_mod', Nat.mod_eq_of_lt inside]

/-- From slot to slot: the loop keeps to the schedule, whatever wraps around. -/
theorem emissions_eq (slot count : Nat) :
    emissions rels (loopLength rels) count (slot % rels.length)
        (Int64.ofInt ((slot / rels.length : Nat) * period rels)) =
      (List.range count).map fun turn =>
        ((slot + turn) % rels.length, Int64.ofInt (dueAt rels (slot + turn))) := by
  induction count generalizing slot with
  | zero => rfl
  | succ count ih =>
      have inside := Nat.mod_lt slot paced.nonempty
      have whole := Nat.div_add_mod' slot rels.length
      have here : Int64.ofInt (dueAt rels slot) =
          Int64.ofInt ((slot / rels.length : Nat) * period rels) +
            rels.getD (slot % rels.length) 0 := by
        rw [← dueAt_at _ inside, whole]
      have later : (List.range count).map (fun turn =>
          ((slot + (turn + 1)) % rels.length, Int64.ofInt (dueAt rels (slot + (turn + 1))))) =
          emissions rels (loopLength rels) count ((slot + 1) % rels.length)
            (Int64.ofInt (((slot + 1) / rels.length : Nat) * period rels)) := by
        rw [ih (slot + 1)]
        apply List.map_congr_left
        intro turn _
        rw [Nat.add_right_comm, Nat.add_assoc slot turn 1]
      rw [List.range_succ_eq_map, List.map_cons, List.map_map]
      simp only [Function.comp_def, Nat.succ_eq_add_one, later, Nat.add_zero, here]
      rw [emissions]
      congr 1
      split
      · rename_i last
        have next : slot + 1 = (slot / rels.length + 1) * rels.length + 0 := by
          rw [Nat.add_mul, Nat.one_mul]
          omega
        rw [next, Nat.mul_add_mod', Nat.zero_mod, Nat.add_zero,
          Nat.mul_div_cancel _ paced.nonempty, ← paced.ofInt_period, ← Int64.ofInt_add]
        congr 2
        push_cast
        ring
      · have more : slot % rels.length + 1 < rels.length := by omega
        have next : slot + 1 = slot / rels.length * rels.length + (slot % rels.length + 1) := by
          omega
        have round : (slot + 1) / rels.length = slot / rels.length := by
          rw [next, Nat.mul_comm, Nat.mul_add_div paced.nonempty, Nat.div_eq_of_lt more, Nat.add_zero]
        have index : (slot + 1) % rels.length = slot % rels.length + 1 := by
          rw [next, Nat.mul_add_mod', Nat.mod_eq_of_lt more]
        rw [round, index]

theorem laneEmissions_eq (since : 0 ≤ now) : ∃ first, StartsAt rels now first ∧
    frameAtWallclock rels (loopLength rels) now =
      (first % rels.length, Int64.ofInt (dueAt rels first)) ∧
    ∀ count, laneEmissions rels now count = (List.range count).map fun turn =>
      ((first + turn) % rels.length, Int64.ofInt (dueAt rels (first + turn))) := by
  obtain ⟨first, starts, frame⟩ := paced.frame_is_next since
  refine ⟨first, starts, frame, fun count => ?_⟩
  have inside := Nat.mod_lt first paced.nonempty
  have base : Int64.ofInt (dueAt rels first) - rels.getD (first % rels.length) 0 =
      Int64.ofInt ((first / rels.length : Nat) * period rels) := by
    have here := dueAt_at (first / rels.length) inside
    rw [Nat.div_add_mod' first rels.length] at here
    rw [here, Int64.add_sub_cancel]
  simp only [laneEmissions, frame, base]
  exact paced.emissions_eq first count

theorem toInt_dueAt {slot : Nat} (fits : dueAt rels slot < 2 ^ 63) :
    (Int64.ofInt (dueAt rels slot)).toInt = dueAt rels slot := by
  have forward := paced.table.mono (Nat.zero_le slot)
  have start : slotTime rels.length (period rels) (offsets rels) 0 = 0 := by
    simp [slotTime, paced.offsets_zero]
  rw [start] at forward
  unfold dueAt at fits ⊢
  exact Int64.toInt_ofInt_of_le (by omega) fits

end Paced

/-- A lane that starts at `now` does so at slot `first`, the next one due, and goes on from
slot to slot. -/
structure Lane (rels : List Int64) (now : Int64) (first : Nat) : Prop where
  due : now.toInt ≤ dueAt rels first
  least : ∀ (round : Int) (i : Nat), i < rels.length →
    now.toInt ≤ round * (loopLength rels).toInt + offsets rels i →
      dueAt rels first ≤ round * (loopLength rels).toInt + offsets rels i
  starts : StartsAt rels now first
  frame : frameAtWallclock rels (loopLength rels) now =
    (first % rels.length, Int64.ofInt (dueAt rels first))
  emissions : ∀ count, laneEmissions rels now count = (List.range count).map fun turn =>
    ((first + turn) % rels.length, Int64.ofInt (dueAt rels (first + turn)))

theorem Paced.lane (paced : Paced rels) (since : 0 ≤ now) : ∃ first, Lane rels now first := by
  obtain ⟨first, starts, frame, sent⟩ := paced.laneEmissions_eq since
  have from' : 0 ≤ now.toInt := Int64.le_iff_toInt_le.mp since
  refine ⟨first, (starts first).mpr (le_refl first), ?_, starts, frame, sent⟩
  intro round i within reached
  rw [paced.loopLength_toInt] at reached ⊢
  obtain ⟨slot, same⟩ := paced.table.slot_of_scheduled within (from'.trans reached)
  rw [← same] at reached ⊢
  exact paced.table.mono ((starts slot).mp reached)

/-- At a time that 64 bits can hold, the lanes of a clip show one frame. -/
theorem Lane.agree {now' : Int64} {first first' : Nat} (paced : Paced rels)
    (distinct : rels.Pairwise (· < ·)) (lane : Lane rels now first) (lane' : Lane rels now' first')
    {count count' turn turn' : Nat} {sent sent' : Nat × Int64}
    (found : (laneEmissions rels now count)[turn]? = some sent)
    (found' : (laneEmissions rels now' count')[turn']? = some sent')
    (fits : dueAt rels (first + turn) < 2 ^ 63) (fits' : dueAt rels (first' + turn') < 2 ^ 63)
    (shared : sent.2 = sent'.2) : sent.1 = sent'.1 := by
  have entry {now : Int64} {first count turn : Nat} {sent : Nat × Int64} (lane : Lane rels now first)
      (found : (laneEmissions rels now count)[turn]? = some sent) :
      sent = ((first + turn) % rels.length, Int64.ofInt (dueAt rels (first + turn))) := by
    rw [lane.emissions, List.getElem?_map, Option.map_eq_some_iff] at found
    obtain ⟨index, listed, rfl⟩ := found
    obtain ⟨within, same⟩ := List.getElem?_eq_some_iff.mp listed
    rw [← same, List.getElem_range]
  have injective := paced.table.slotTime_injective fun i j before within =>
    Int64.lt_iff_toInt_lt.mp (pairwise_getD distinct 0 before within)
  rw [entry lane found, entry lane' found'] at shared ⊢
  have times := congrArg Int64.toInt shared
  rw [paced.toInt_dueAt fits, paced.toInt_dueAt fits'] at times
  rw [injective times]

/-- Every lane of a clip keeps to one global schedule, as long as its times fit 64 bits. -/
theorem lanes_keep_one_schedule (paced : Paced rels) :
    (loopLength rels).toInt = period rels ∧
    (∀ slot, dueAt rels slot < 2 ^ 63 → (Int64.ofInt (dueAt rels slot)).toInt = dueAt rels slot) ∧
    (∀ now, 0 ≤ now → ∃ first, Lane rels now first) ∧
    (rels.Pairwise (· < ·) → ∀ now now' first first', Lane rels now first → Lane rels now' first' →
      ∀ count count' turn turn' sent sent', (laneEmissions rels now count)[turn]? = some sent →
        (laneEmissions rels now' count')[turn']? = some sent' →
        dueAt rels (first + turn) < 2 ^ 63 → dueAt rels (first' + turn') < 2 ^ 63 →
        sent.2 = sent'.2 → sent.1 = sent'.1) := by
  refine ⟨paced.loopLength_toInt, fun _ => paced.toInt_dueAt, fun _ => paced.lane, ?_⟩
  intro distinct now now' first first' lane lane' count count' turn turn' sent sent'
  exact lane.agree paced distinct lane'

theorem pacedPair : Paced [0, 2] := ⟨rfl, by decide, by decide, by decide⟩

/-- Past the last frame of the last loop that 64 bits can hold, the target wraps. -/
theorem last_instant_wraps : Paced [0, 2] ∧ (0 : Int64) ≤ Int64.maxValue ∧
    frameAtWallclock [0, 2] (loopLength [0, 2]) Int64.maxValue = (0, Int64.minValue) ∧
    ¬ Int64.maxValue.toInt ≤ Int64.minValue.toInt := by
  refine ⟨pacedPair, by decide, ?_, by decide⟩
  decide +kernel

/-- Two lanes, one started at the first frame and one right after it. -/
theorem lanes_keep_one_schedule_pair : ∃ first first' sent sent',
    Lane [0, 2] 0 first ∧ Lane [0, 2] 1 first' ∧ (laneEmissions [0, 2] 0 2)[1]? = some sent ∧
      (laneEmissions [0, 2] 1 1)[0]? = some sent' ∧ sent.2 = sent'.2 ∧ sent.1 = sent'.1 := by
  obtain ⟨_, _, lanes, agree⟩ := lanes_keep_one_schedule pacedPair
  obtain ⟨first, lane⟩ := lanes 0 (by decide)
  obtain ⟨first', lane'⟩ := lanes 1 (by decide)
  have begins : first ≤ 0 := (lane.starts 0).mp (by decide)
  have begins' : first' ≤ 1 := (lane'.starts 1).mp (by decide)
  refine ⟨first, first', (1, 2), (1, 2), lane, lane', by decide +kernel, by decide +kernel, rfl, ?_⟩
  refine agree (by decide) 0 1 first first' lane lane' 2 1 1 0 (1, 2) (1, 2) (by decide +kernel)
    (by decide +kernel) ?_ ?_ rfl
  · obtain rfl := Nat.le_zero.mp begins
    decide
  · rcases Nat.le_one_iff_eq_zero_or_eq_one.mp begins' with rfl | rfl <;> decide

end RaceTracker.Replay
