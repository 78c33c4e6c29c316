import RaceTracker.Bake.Resample
import RaceTracker.Ingest.Captures
import RaceTracker.Lib.Buckets

namespace RaceTracker.Bake

open RaceTracker.Lib RaceTracker.Ingest

/-! Race-control messages: extracted from the session, then baked into the frames nearest to them. -/

structure RcRow where
  epochS : Rat
  category : Option String
  message : Option String
  racingNumber : Option String
deriving DecidableEq

structure RcMessage where
  timeMs : Int
  category : String
  message : String
  driver : Option Int
deriving DecidableEq

/-- A message as its frame carries it. -/
structure RcEntry where
  rev : Nat
  t : Int
  category : String
  message : String
  driver : Option Int
deriving DecidableEq

section

-- The built-in on texts, nothing where it raises.
variable (int : String → Option Int)

/-- One row of the session, unless it is empty or outside the window. -/
def rcMessage (t0EpochS : Rat) (windowStartS windowEndS : Int) (knownDriverNums : List Int)
    (row : RcRow) : Option RcMessage :=
  match row.category, row.message with
  | some category, some message =>
      let timeMs := roundHalfEven ((row.epochS - t0EpochS) * 1000)
      if category = "" ∨ message = "" then none
      else if inWindowMs timeMs windowStartS windowEndS then
        some { timeMs, category, message
               driver := (row.racingNumber.bind int).filter (· ∈ knownDriverNums) }
      else none
  | _, _ => none

def extractRaceControl (rows : List RcRow) (t0EpochS : Rat) (windowStartS windowEndS : Int)
    (knownDriverNums : List Int) : List RcMessage :=
  (rows.filterMap (rcMessage int t0EpochS windowStartS windowEndS knownDriverNums)).mergeSort
    fun first second => first.timeMs ≤ second.timeMs

end

section

variable (tGridS : List Rat)

def frameIndex (m : RcMessage) : Nat := nearestIndex tGridS (m.timeMs / 1000)

def rcEntry (m : RcMessage) : RcEntry where
  rev := frameIndex tGridS m + 1
  t := m.timeMs
  category := m.category
  message := m.message
  driver := m.driver

def msgsByIdx (rcMsgs : List RcMessage) : Dict Nat (List RcEntry) :=
  rcMsgs.foldl (fun msgs m => msgs.collect (frameIndex tGridS m) (rcEntry tGridS m)) .empty

/-- The messages of every frame, in the order in which the frames are written. -/
def frameMessages (rcMsgs : List RcMessage) : List (List RcEntry) :=
  (List.range tGridS.length).map fun i => ((msgsByIdx tGridS rcMsgs).get? i).getD []

end

/-- What was extracted, without the frame. -/
def RcEntry.toMessage (entry : RcEntry) : RcMessage :=
  ⟨entry.t, entry.category, entry.message, entry.driver⟩

variable {tGridS : List Rat}

theorem extractRaceControl_sorted (int : String → Option Int) (rows : List RcRow) (t0EpochS : Rat)
    (windowStartS windowEndS : Int) (knownDriverNums : List Int) :
    (extractRaceControl int rows t0EpochS windowStartS windowEndS knownDriverNums).Pairwise
      fun first second => first.timeMs ≤ second.timeMs := by
  refine (List.pairwise_mergeSort (fun one two three first second => ?_) (fun one two => ?_) _).imp ?_
  · simp only [decide_eq_true_eq] at *
    exact first.trans second
  · simpa using le_total one.timeMs two.timeMs
  · intro first second ordered
    exact of_decide_eq_true ordered

/-- Frame after frame, the messages come in the order of their times. -/
theorem flatten_frameMessages (grid : tGridS ≠ []) (ascending : tGridS.Pairwise (· ≤ ·))
    {rcMsgs : List RcMessage}
    (sorted : rcMsgs.Pairwise fun first second => first.timeMs ≤ second.timeMs) :
    (frameMessages tGridS rcMsgs).flatten = rcMsgs.map (rcEntry tGridS) := by
  have placed : rcMsgs.Pairwise fun first second =>
      frameIndex tGridS first ≤ frameIndex tGridS second := by
    refine sorted.imp fun ordered => nearestIndex_mono ascending ?_
    have seconds : ((_ : Int) : Rat) ≤ _ := Int.cast_le.mpr ordered
    linarith
  have inside : rcMsgs.filter (fun m => frameIndex tGridS m < tGridS.length) = rcMsgs := by
    rw [List.filter_eq_self]
    intro m _
    exact decide_eq_true (nearestIndex_spec ascending grid _).within
  have buckets := flatMap_buckets placed tGridS.length
  rw [inside] at buckets
  rw [frameMessages, ← List.flatMap_def]
  conv_rhs => rw [← buckets, List.map_flatMap]
  refine List.flatMap_congr fun k _ => ?_
  exact (getD_collect (frameIndex tGridS) (rcEntry tGridS) rcMsgs .empty k).trans (by simp)

/-- The frames hold the messages, all of them once and in order, each in a frame nearest to it. -/
structure Conserved (tGridS : List Rat) (rcMsgs : List RcMessage) (frames : List (List RcEntry)) :
    Prop where
  length : frames.length = tGridS.length
  ordered : rcMsgs.Pairwise fun first second => first.timeMs ≤ second.timeMs
  conserved : frames.flatten.map RcEntry.toMessage = rcMsgs
  attached : ∀ i frame, frames[i]? = some frame → ∀ entry ∈ frame,
    entry.rev = i + 1 ∧ Nearest tGridS (entry.t / 1000) i

theorem race_control_conserved (int : String → Option Int) (rows : List RcRow) (t0EpochS : Rat)
    (windowStartS windowEndS : Int) (knownDriverNums : List Int) (grid : tGridS ≠ [])
    (ascending : tGridS.Pairwise (· ≤ ·)) :
    Conserved tGridS (extractRaceControl int rows t0EpochS windowStartS windowEndS knownDriverNums)
        (frameMessages tGridS
          (extractRaceControl int rows t0EpochS windowStartS windowEndS knownDriverNums)) ∧
      (∀ query, Nearest tGridS query (nearestIndex tGridS query)) ∧
      ∀ query query', query ≤ query' → nearestIndex tGridS query ≤ nearestIndex tGridS query' := by
  have sorted := extractRaceControl_sorted int rows t0EpochS windowStartS windowEndS knownDriverNums
  generalize extractRaceControl int rows t0EpochS windowStartS windowEndS knownDriverNums = rcMsgs at *
  refine ⟨⟨by simp [frameMessages], sorted, ?_, ?_⟩, fun query => nearestIndex_spec ascending grid query,
    fun query query' ordered => nearestIndex_mono ascending ordered⟩
  · rw [flatten_frameMessages grid ascending sorted, List.map_map]
    exact List.map_id _
  · intro i frame found entry member
    simp only [frameMessages, List.getElem?_map, Option.map_eq_some_iff] at found
    obtain ⟨k, at', rfl⟩ := found
    obtain ⟨within, same⟩ := List.getElem?_eq_some_iff.mp at'
    rw [List.getElem_range] at same
    subst same
    rw [msgsByIdx, getD_collect (frameIndex tGridS) (rcEntry tGridS)] at member
    simp only [Dict.get?_empty, Option.getD_none, List.nil_append, List.mem_map, List.mem_filter,
      decide_eq_true_eq] at member
    obtain ⟨m, ⟨-, own⟩, rfl⟩ := member
    exact ⟨congrArg (· + 1) own, own ▸ nearestIndex_spec ascending grid _⟩

def flags : List RcRow :=
  [⟨103, some "Flag", some "CLEAR", none⟩, ⟨101, some "Flag", some "YELLOW", some "44"⟩,
    ⟨100, some "Other", none, none⟩]

/-- The first of the two messages is as far from one frame as from the other. -/
theorem race_control_conserved_flags :
    ([0, 2, 4] : List Rat) ≠ [] ∧ ([0, 2, 4] : List Rat).Pairwise (· ≤ ·) ∧
      Conserved [0, 2, 4] (extractRaceControl parseDecimal flags 100 0 5 [44])
        (frameMessages [0, 2, 4] (extractRaceControl parseDecimal flags 100 0 5 [44])) ∧
      (∀ query, Nearest [0, 2, 4] query (nearestIndex [0, 2, 4] query)) ∧
      ∀ query query', query ≤ query' → nearestIndex [0, 2, 4] query ≤ nearestIndex [0, 2, 4] query' := by
  have grid : ([0, 2, 4] : List Rat) ≠ [] := by decide
  have ascending : ([0, 2, 4] : List Rat).Pairwise (· ≤ ·) := by decide
  exact ⟨grid, ascending, race_control_conserved parseDecimal flags 100 0 5 [44] grid ascending⟩

/-- Without frames there is nothing to attach a message to. -/
theorem race_control_no_frames :
    ¬ ∀ (tGridS : List Rat), tGridS.Pairwise (· ≤ ·) → ∀ rows,
      (frameMessages tGridS (extractRaceControl parseDecimal rows 100 0 5 [44])).flatten.map
        RcEntry.toMessage = extractRaceControl parseDecimal rows 100 0 5 [44] := by
  intro conserved
  have sorted : extractRaceControl parseDecimal [flags[1]] 100 0 5 [44] =
      [⟨1000, "Flag", "YELLOW", some 44⟩] := by
    rw [extractRaceControl, List.mergeSort_of_pairwise] <;> decide +kernel
  have lost := conserved [] .nil [flags[1]]
  rw [sorted] at lost
  cases lost

end RaceTracker.Bake
