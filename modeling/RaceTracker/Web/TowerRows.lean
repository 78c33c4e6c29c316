import RaceTracker.Web.HoldOrder
import RaceTracker.Web.RunningOrder

namespace RaceTracker.Web

open RaceTracker.Lib

/-! The gap and interval cells of the tower, live and with the order held. -/

inductive GapCell where
  | status (text : String)
  | label (label : GapLabel)
deriving DecidableEq

structure Readout where
  gap : GapCell
  int : GapLabel
deriving DecidableEq

def rowReadout (order : List Json) (gaps : List DisplayGap) (secondsMode : Bool) (idx : Nat) (c : Json) :
    Readout :=
  let g := (gaps[idx]?).getD ⟨none, none⟩
  let isLeader := decide (idx = 0)
  let ahead := if idx = 0 then none else order[idx - 1]?
  let noData := if !isLeader && hasNoData c then some "NO DATA" else none
  match (statusLabel ((c.get? "status").bind asString)).or noData with
  | some text => ⟨.status text, .dash⟩
  | none =>
      ⟨.label (gapLabel g.gapMs (numberOf "gapLaps" c) isLeader secondsMode (numberOf "lastLapMs" c)),
        intLabel (numberOf "gapLaps" c) (ahead.bind (numberOf "gapLaps")) g.intMs isLeader secondsMode
          (numberOf "lastLapMs" c) (ahead.bind (numberOf "lastLapMs"))⟩

def readouts (order : List Json) (sm : GapSmoothing) (secondsMode : Bool) : List (Option Rat × Readout) :=
  order.zipIdx.map fun (c, idx) => (driverNum c, rowReadout order (displayGaps order sm) secondsMode idx c)

/-- `heldOrder ? holdOrder(live, heldOrder) : live` -/
def towerOrder (heldOrder : Option (List (Option Rat))) (live : List Json) : List Json :=
  match heldOrder with
  | some held => holdOrder live held
  | none => live

theorem mem_readouts {order : List Json} {sm : GapSmoothing} {secondsMode : Bool}
    {row : Option Rat × Readout} : row ∈ readouts order sm secondsMode ↔
      ∃ idx c, order[idx]? = some c ∧
        row = (driverNum c, rowReadout order (displayGaps order sm) secondsMode idx c) := by
  rw [readouts, List.mem_map]
  constructor
  · rintro ⟨⟨c, idx⟩, listed, rfl⟩
    exact ⟨idx, c, List.mk_mem_zipIdx_iff_getElem?.mp listed, rfl⟩
  · rintro ⟨idx, c, found, rfl⟩
    exact ⟨(c, idx), List.mk_mem_zipIdx_iff_getElem?.mpr found, rfl⟩

/-- A car in the place `j`, a lap down from the place `k` on. -/
def lappedCar (k : Nat) (number : Int) (j : Nat) : Json :=
  .obj [("driverNum", .int number), ("pos", .int j), ("status", .str "OnTrack"),
    ("lastLapMs", .int 90000), ("gapLaps", .int (if k ≤ j then 1 else 0))]

section

variable {k j j' idx : Nat} {number number' : Int} {order : List Json}

/-- A row without smoothing, with gaps in laps. -/
def plainReadout (order : List Json) (idx : Nat) (c : Json) : Readout :=
  rowReadout order (displayGaps order .empty) false idx c

theorem driverNum_lapped : driverNum (lappedCar k number j) = some (number : Rat) := rfl

theorem gapLaps_lapped :
    numberOf "gapLaps" (lappedCar k number j) = some ((if k ≤ j then 1 else 0 : Int) : Rat) := rfl

theorem lastLap_lapped : numberOf "lastLapMs" (lappedCar k number j) = some 90000 := rfl

theorem rowReadout_lapped {above : Option Json}
    (ahead : (if idx = 0 then none else order[idx - 1]?) = above) :
    let g := ((displayGaps order .empty)[idx]?).getD ⟨none, none⟩
    plainReadout order idx (lappedCar k number j) =
      ⟨.label (gapLabel g.gapMs (numberOf "gapLaps" (lappedCar k number j)) (decide (idx = 0)) false
          (some 90000)),
        intLabel (numberOf "gapLaps" (lappedCar k number j)) (above.bind (numberOf "gapLaps")) g.intMs
          (decide (idx = 0)) false (some 90000) (above.bind (numberOf "lastLapMs"))⟩ := by
  have data : hasNoData (lappedCar k number j) = false := by
    simp [hasNoData, lastLap_lapped]
  have status : statusLabel (((lappedCar k number j).get? "status").bind asString) = none := rfl
  simp only [plainReadout, rowReadout, status, data, ahead, lastLap_lapped, Bool.and_false,
    Bool.false_eq_true, if_false, Option.none_or]

theorem gap_eq_leader_iff :
    (plainReadout order idx (lappedCar 0 number j)).gap = .label .leader ↔ idx = 0 := by
  rw [rowReadout_lapped rfl, gapLaps_lapped]
  by_cases front : idx = 0
  · simp [front, gapLabel]
  · simp [front, gapLabel]

theorem fmtGapEstimate_ne_laps (ms : Option Rat) (count : Rat) : fmtGapEstimate ms ≠ .laps count := by
  cases ms with
  | none => simp [fmtGapEstimate]
  | some ms =>
      rw [fmtGapEstimate]
      split <;> simp

/-- Behind another car of the field the interval tells whether the lap is lost between the two. -/
theorem int_eq_laps_iff (behind : idx ≠ 0) (ahead : order[idx - 1]? = some (lappedCar k number' j')) :
    (plainReadout order idx (lappedCar k number j)).int = .laps 1 ↔ j' < k ∧ k ≤ j := by
  rw [rowReadout_lapped (by rw [if_neg behind, ahead])]
  simp only [Option.bind_some, gapLaps_lapped, lastLap_lapped, intLabel, behind, decide_false]
  have level : ¬ (1 : Rat) ≤ 0 := by decide
  by_cases reached : k ≤ j
  · by_cases reached' : k ≤ j'
    · simp [reached, reached', level, fmtGapEstimate_ne_laps]
    · simp [reached, reached', not_le.mp reached']
  · by_cases reached' : k ≤ j'
    · simp [reached, reached', level, fmtGapEstimate_ne_laps]
    · simp [reached, reached', level, fmtGapEstimate_ne_laps]

theorem typed_lapped : Typed (lappedCar k number j) :=
  ⟨⟨number, driverNum_lapped⟩, ⟨j, rfl⟩, Or.inl rfl⟩

theorem carName_lapped : carName (lappedCar k number j) = numberToString (number : Rat) :=
  carName_eq driverNum_lapped

theorem lapped_ahead (before : j < j') : mayPrecede (lappedCar k number j) (lappedCar k number' j') ∧
    ¬ mayPrecede (lappedCar k number' j') (lappedCar k number j) := by
  have ahead : standing (lappedCar k number j) < standing (lappedCar k number' j') := by
    rw [standing, standing, Prod.Lex.toLex_lt_toLex]
    apply Or.inl
    change (((j : Int) : Rat)) < ((j' : Int) : Rat)
    exact Int.cast_lt.mpr (Int.ofNat_lt.mpr before)
  rw [mayPrecede_iff typed_lapped typed_lapped, mayPrecede_iff typed_lapped typed_lapped]
  exact ⟨ahead.le, not_le.mpr ahead⟩

end

section

variable {k : Nat} {drivers : List Int}

def lappedField (k : Nat) (drivers : List Int) : List Json :=
  drivers.zipIdx.map fun (number, j) => lappedCar k number j

theorem getElem?_lappedField (index : Nat) :
    (lappedField k drivers)[index]? = (drivers[index]?).map fun number => lappedCar k number index := by
  simp [lappedField, List.getElem?_zipIdx, Function.comp_def]

theorem mem_lappedField {car : Json} (member : car ∈ lappedField k drivers) :
    ∃ number j, drivers[j]? = some number ∧ car = lappedCar k number j := by
  obtain ⟨⟨number, j⟩, listed, rfl⟩ := List.mem_map.mp member
  exact ⟨number, j, List.mk_mem_zipIdx_iff_getElem?.mp listed, rfl⟩

/-- A driver number as the tower captures it. -/
def captured (number : Int) : Option Rat := some (number : Rat)

theorem captured_injective : Function.Injective captured := by
  intro left right same
  exact Int.cast_injective (Option.some.inj same)

theorem map_driverNum_lappedField : (lappedField k drivers).map driverNum = drivers.map captured := by
  rw [lappedField, List.map_map]
  conv_rhs => rw [← List.zipIdx_map_fst 0 drivers, List.map_map]
  rfl

theorem lappedField_names : (lappedField k drivers).map carName =
    drivers.map fun number : Int => numberToString (number : Rat) := by
  rw [lappedField, List.map_map]
  conv_rhs => rw [← List.zipIdx_map_fst 0 drivers, List.map_map]
  apply List.map_congr_left
  intro entry _
  exact carName_lapped

def lappedCars (k : Nat) (distinct : drivers.Nodup) : Dict String Json :=
  ⟨(lappedField k drivers).map fun car => (carName car, car), by
    rw [List.map_map]
    change ((lappedField k drivers).map carName).Nodup
    rw [lappedField_names]
    exact distinct.map numberToString_intCast_injective⟩

theorem lappedCars_wellTyped (distinct : drivers.Nodup) : WellTyped (lappedCars k distinct) := by
  have cars {entry : String × Json} (listed : entry ∈ (lappedCars k distinct).entries) :
      ∃ number j, entry = (numberToString (number : Int), lappedCar k number j) := by
    obtain ⟨car, member, rfl⟩ := List.mem_map.mp listed
    obtain ⟨number, j, -, rfl⟩ := mem_lappedField member
    exact ⟨number, j, by rw [carName_lapped]⟩
  constructor
  · intro key car found
    obtain ⟨number, j, own⟩ := cars (Dict.mem_of_get? found)
    obtain ⟨rfl, rfl⟩ := Prod.mk.inj own
    exact ⟨⟨number, true⟩, rfl, rfl⟩
  · intro entry listed
    obtain ⟨number, j, rfl⟩ := cars listed
    exact typed_lapped

theorem orderCars_lappedCars (distinct : drivers.Nodup) :
    orderCars (lappedCars k distinct) = lappedField k drivers := by
  apply orderCars_eq
  · rw [lappedCars, List.map_map]
    simp [Function.comp_def]
  · intro car member
    obtain ⟨number, j, -, rfl⟩ := mem_lappedField member
    exact (mayPrecede_iff typed_lapped typed_lapped).mpr (le_refl _)
  · rw [lappedField, List.pairwise_map]
    have increasing : drivers.zipIdx.Pairwise fun first second => first.2 < second.2 := by
      rw [← List.pairwise_map (f := Prod.snd), List.zipIdx_map_snd]
      exact List.pairwise_lt_range'
    exact increasing.imp fun before => lapped_ahead before

section

variable {live : List Json} {held : List Int}

theorem map_driverNum_holdOrder (order : live.map driverNum = drivers.map captured)
    (distinct : drivers.Nodup) (once : held.Nodup) :
    (holdOrder live (held.map captured)).map driverNum = (keysInOrder drivers held).map captured := by
  have apart : (live.map driverNum).Nodup := order ▸ distinct.map captured_injective
  rw [holdOrder_eq apart (once.map captured_injective), map_inOrder apart, order,
    keysInOrder_map captured_injective]

theorem holdOrder_unmoved (order : live.map driverNum = drivers.map captured) (distinct : drivers.Nodup)
    (once : held.Nodup) (heads : Heads held drivers) : holdOrder live (held.map captured) = live := by
  have apart : (live.map driverNum).Nodup := order ▸ distinct.map captured_injective
  rw [holdOrder_eq apart (once.map captured_injective)]
  exact inOrder_of_heads apart (once.map captured_injective) (order ▸ heads.map captured_injective)

end

/-- The tables with the order held show what the live tables show. -/
def HeldAgrees (drivers held : List Int) : Prop :=
  ∀ cars, WellTyped cars → (orderCars cars).map driverNum = drivers.map captured →
    ∀ sm secondsMode, ∀ row ∈ readouts (towerOrder (some (held.map captured)) (orderCars cars)) sm secondsMode,
      row ∈ readouts (orderCars cars) sm secondsMode

section

variable {held : List Int}

/-- A row of the held table of the field is the driver's row of its live table. -/
theorem heldAgrees_lapped (distinct : drivers.Nodup) (once : held.Nodup)
    (agrees : HeldAgrees drivers held) {index : Nat} {car : Json}
    (shown : (holdOrder (lappedField k drivers) (held.map captured))[index]? = some car) :
    ∃ number j, drivers[j]? = some number ∧ car = lappedCar k number j ∧
      plainReadout (holdOrder (lappedField k drivers) (held.map captured)) index car =
        plainReadout (lappedField k drivers) j car := by
  have order : (lappedField k drivers).map driverNum = drivers.map captured := map_driverNum_lappedField
  have apart : ((lappedField k drivers).map driverNum).Nodup := order ▸ distinct.map captured_injective
  have perm : (holdOrder (lappedField k drivers) (held.map captured)).Perm (lappedField k drivers) := by
    rw [holdOrder_eq apart (once.map captured_injective)]
    exact inOrder_perm apart (once.map captured_injective)
  have listed := orderCars_lappedCars (k := k) distinct
  have rows := agrees (lappedCars k distinct) (lappedCars_wellTyped distinct) (listed ▸ order) .empty false
  rw [listed] at rows
  obtain ⟨idx, other, live, same⟩ := mem_readouts.mp (rows _ (mem_readouts.mpr ⟨index, car, shown, rfl⟩))
  obtain ⟨number, j, placed, rfl⟩ := mem_lappedField (perm.mem_iff.mp (List.mem_of_getElem? shown))
  rw [getElem?_lappedField, Option.map_eq_some_iff] at live
  obtain ⟨number', placed', rfl⟩ := live
  have numbers : number = number' := captured_injective (congrArg Prod.fst same)
  subst numbers
  have places : j = idx := (List.getElem?_inj (List.getElem?_eq_some_iff.mp placed).1 distinct).mp
    (placed.trans placed'.symm)
  subst places
  exact ⟨number, j, placed, rfl, congrArg Prod.snd same⟩

/-- The row under another of the field that is not a lap down: live it is the first that is. -/
theorem place_of_lost (distinct : drivers.Nodup) (once : held.Nodup) (agrees : HeldAgrees drivers held)
    {index i j : Nat} {number number' : Int} (behind : index ≠ 0)
    (ahead : (holdOrder (lappedField k drivers) (held.map captured))[index - 1]? =
      some (lappedCar k number' i))
    (shown : (holdOrder (lappedField k drivers) (held.map captured))[index]? =
      some (lappedCar k number j))
    (placed : drivers[j]? = some number) (early : i < k) (later : k ≤ j) : j = k := by
  obtain ⟨own, place, placed', same, readout⟩ := heldAgrees_lapped distinct once agrees shown
  obtain rfl : number = own := captured_injective (congrArg driverNum same)
  have within := (List.getElem?_eq_some_iff.mp placed).1
  obtain rfl : j = place := (List.getElem?_inj within distinct).mp (placed.trans placed'.symm)
  have lost : (plainReadout (lappedField k drivers) j (lappedCar k number j)).int = .laps 1 := by
    rw [← readout, int_eq_laps_iff behind ahead]
    exact ⟨early, later⟩
  have before : j - 1 < drivers.length := by omega
  have leading : (lappedField k drivers)[j - 1]? =
      some (lappedCar k (drivers.get ⟨j - 1, before⟩) (j - 1)) := by
    rw [getElem?_lappedField, List.getElem?_eq_getElem before, Option.map_some, List.get_eq_getElem]
  have only := (int_eq_laps_iff (by omega) leading).mp lost
  omega

/-- Row by row the held table of the field names the drivers that are kept in order. -/
theorem row_of_keysInOrder (distinct : drivers.Nodup) (once : held.Nodup)
    (agrees : HeldAgrees drivers held) {i : Nat} {number : Int}
    (next : (keysInOrder drivers held)[i]? = some number) :
    ∃ j, (holdOrder (lappedField k drivers) (held.map captured))[i]? = some (lappedCar k number j) ∧
      drivers[j]? = some number := by
  have rows := map_driverNum_holdOrder (map_driverNum_lappedField (k := k)) distinct once
  have shown := congrArg (fun list => list[i]?) rows
  rw [List.getElem?_map, List.getElem?_map, next, Option.map_some, Option.map_eq_some_iff] at shown
  obtain ⟨car, found, named⟩ := shown
  obtain ⟨own, j, placed, rfl, -⟩ := heldAgrees_lapped distinct once agrees found
  obtain rfl : own = number := captured_injective named
  exact ⟨j, found, placed⟩

/-- If the two orders share their first `k` rows, a lap lost between these and the others tells
which driver comes next. -/
theorem next_of_heldAgrees (distinct : drivers.Nodup) (once : held.Nodup)
    (agrees : HeldAgrees drivers held) {k : Nat}
    (same : (keysInOrder drivers held).take k = drivers.take k) {number : Int}
    (next : (keysInOrder drivers held)[k]? = some number) : drivers[k]? = some number := by
  have perm := keysInOrder_perm distinct once
  have early {i : Nat} (before : i < k) : (keysInOrder drivers held)[i]? = drivers[i]? := by
    rw [← List.getElem?_take_of_lt before, same, List.getElem?_take_of_lt before]
  obtain ⟨j, shown, placed⟩ := row_of_keysInOrder (k := k) distinct once agrees next
  rcases Nat.eq_zero_or_pos k with rfl | behind
  · obtain ⟨own, place, placed', same, readout⟩ := heldAgrees_lapped distinct once agrees shown
    have front : (plainReadout (lappedField 0 drivers) place (lappedCar 0 number j)).gap =
        .label .leader := by
      rw [← readout, gap_eq_leader_iff]
    rw [gap_eq_leader_iff] at front
    obtain rfl : number = own := captured_injective (congrArg driverNum same)
    rw [← front, placed']
  · have within := (List.getElem?_eq_some_iff.mp next).1
    have later : k ≤ j := by
      by_contra before
      have repeated := (early (not_le.mp before)).trans placed
      exact (not_le.mp before).ne ((List.getElem?_inj (by omega) (perm.nodup_iff.mpr distinct)).mp
        (repeated.trans next.symm))
    have above : k - 1 < (keysInOrder drivers held).length := by omega
    obtain ⟨i, ahead, leading⟩ :=
      row_of_keysInOrder (k := k) distinct once agrees (List.getElem?_eq_getElem above)
    have there := (early (by omega : k - 1 < k)).symm.trans (List.getElem?_eq_getElem above)
    have own := (List.getElem?_inj (List.getElem?_eq_some_iff.mp leading).1 distinct).mp
      (leading.trans there.symm)
    have place := place_of_lost distinct once agrees behind.ne' ahead shown placed (by omega) later
    rw [← place, placed]

/-- Holding the order leaves every readout alone, whatever the cars show, exactly when it leaves the
order alone: the captured drivers that are there head the live order already. -/
theorem held_readouts_iff (drivers held : List Int) (distinct : drivers.Nodup) (once : held.Nodup) :
    HeldAgrees drivers held ↔ held.filter (· ∈ drivers) <+: drivers := by
  constructor
  · intro agrees
    have perm := keysInOrder_perm distinct once
    have whole (k : Nat) : (keysInOrder drivers held).take k = drivers.take k := by
      induction k with
      | zero => rfl
      | succ k ih =>
          rw [List.take_add_one, List.take_add_one, ih]
          cases next : (keysInOrder drivers held)[k]? with
          | none =>
              rw [List.getElem?_eq_none_iff, perm.length_eq] at next
              rw [List.getElem?_eq_none next]
          | some number => rw [next_of_heldAgrees distinct once agrees ih next]
    have same := whole drivers.length
    rw [List.take_length, ← perm.length_eq, List.take_length] at same
    exact heads_of_keysInOrder same
  · intro heads cars whole order sm secondsMode row listed
    rwa [towerOrder, holdOrder_unmoved order distinct once heads] at listed

end

end

theorem held_readouts_iff_front : HeldAgrees [4, 16, 63] [55, 4] :=
  (held_readouts_iff [4, 16, 63] [55, 4] (by decide) (by decide)).mpr (by decide)

/-- An overtake after the order was captured: the car that was captured first still reads LEADER. -/
theorem held_leader_stays :
    let cars := lappedCars 0 (by decide : ([4, 16] : List Int).Nodup)
    WellTyped cars ∧ ∃ row ∈ readouts (towerOrder (some [some 16, some 4]) (orderCars cars)) .empty false,
      row ∉ readouts (orderCars cars) .empty false := by
  refine ⟨lappedCars_wellTyped _, ?_⟩
  have shown : holdOrder (lappedField 0 [4, 16]) [some 16, some 4] =
      [lappedCar 0 16 1, lappedCar 0 4 0] := by
    rw [holdOrder_eq (by decide +kernel) (by decide +kernel)]
    rfl
  rw [orderCars_lappedCars, towerOrder, shown]
  decide +kernel

end RaceTracker.Web
