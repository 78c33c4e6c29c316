import RaceTracker.Ingest.Ranking
import RaceTracker.Lib.NumberText
import RaceTracker.Web.Folding
import RaceTracker.Web.TimingHelpers

namespace RaceTracker.Seam

open RaceTracker.Lib RaceTracker.Ingest RaceTracker.Web

/-! The running order at both ends: what a writer ranks and what the timing tower lists. -/

variable {car first second : Car} {cars : List Car}

theorem carName_dumps (car : Car) : carName car.dumps = numberToString (car.driverNum : Rat) := by
  have number : car.dumps.get? "driverNum" = some (.int car.driverNum) :=
    Car.get?_dumps (List.mem_cons_self ..)
  rw [carName, number]
  rfl

theorem numbered_dumps (car : Car) : Web.Numbered car.dumps :=
  ⟨_, _, Car.get?_dumps (List.mem_cons_self ..), rfl⟩

theorem byRunningOrder_dumps {pos pos' : Int} (place : first.pos = some pos)
    (place' : second.pos = some pos') :
    byRunningOrder first.dumps second.dumps =
      orElse (orElse (some ((pos : Rat) - pos'))
        (some ((second.lap.getD 0 : Int) - (first.lap.getD 0 : Int) : Rat)))
        (some ((first.driverNum : Rat) - second.driverNum)) := by
  have number (car : Car) : car.dumps.get? "driverNum" = some (.int car.driverNum) :=
    Car.get?_dumps (List.mem_cons_self ..)
  have rank (car : Car) : car.dumps.get? "pos" = car.pos.map .int :=
    Car.get?_dumps (by simp [Car.entries])
  have laps (car : Car) : nullish (car.dumps.get? "lap") (.int 0) = .int (car.lap.getD 0) := by
    have shown : car.dumps.get? "lap" = car.lap.map .int := Car.get?_dumps (by simp [Car.entries])
    rw [shown]
    cases car.lap <;> rfl
  rw [byRunningOrder, number, number, rank, rank, laps, laps, place, place']
  rfl

/-- The comparison of the tower and the key of the writers agree on who is ahead. -/
theorem mayPrecede_of_ahead {pos pos' : Int} (place : first.pos = some pos)
    (place' : second.pos = some pos') (ahead : Ahead first second) :
    mayPrecede first.dumps second.dumps ∧ ¬ mayPrecede second.dumps first.dumps := by
  simp only [Ahead, place, place', Option.getD_some] at ahead
  simp only [mayPrecede, byRunningOrder_dumps place place', byRunningOrder_dumps place' place,
    decide_eq_true_eq, not_le]
  have zero {left right : Int} : (left : Rat) - right = 0 ↔ left = right := by
    rw [sub_eq_zero, Int.cast_inj]
  have below {left right : Int} (less : left < right) :
      (left : Rat) - right < 0 ∧ 0 < (right : Rat) - left := by
    have cast : (left : Rat) < right := Int.cast_lt.mpr less
    exact ⟨sub_neg.mpr cast, sub_pos.mpr cast⟩
  rcases ahead with place | ⟨rfl, laps | ⟨laps, number⟩⟩
  · have apart := below place
    simp [orElse, zero, place.ne, place.ne', apart.1.le, apart.2]
  · have apart := below laps
    simp [orElse, zero, laps.ne, laps.ne', apart.1.le, apart.2]
  · have apart := below number
    simp [orElse, laps, apart.1.le, apart.2]

theorem mayPrecede_self {pos : Int} (place : car.pos = some pos) :
    mayPrecede car.dumps car.dumps := by
  simp [mayPrecede, byRunningOrder_dumps place place, orElse]

/-- The tower lists cars that carry positions and stand strictly one ahead of the other. -/
theorem orderCars_of_ahead {shown : Dict String Json} (placed : ∀ car ∈ cars, car.pos ≠ none)
    (values : (shown.entries.map Prod.snd).Perm (cars.map Car.dumps)) (ahead : cars.Pairwise Ahead) :
    orderCars shown = cars.map Car.dumps := by
  apply orderCars_eq values
  · intro json member
    obtain ⟨car, listed, rfl⟩ := List.mem_map.mp member
    obtain ⟨pos, place⟩ := Option.ne_none_iff_exists'.mp (placed car listed)
    exact mayPrecede_self place
  · rw [List.pairwise_map]
    apply ahead.imp_of_mem
    intro first second one two ahead
    obtain ⟨pos, place⟩ := Option.ne_none_iff_exists'.mp (placed first one)
    obtain ⟨pos', place'⟩ := Option.ne_none_iff_exists'.mp (placed second two)
    exact mayPrecede_of_ahead place place' ahead

section

variable {state : RaceState} {frames : List FrameData} {data : FrameData}

/-- A frame's drivers, as the client names them. -/
def drivers (data : FrameData) : List String := data.carList.map carName

/-- The car list is what `reconcile_positions` made of cars of different drivers. -/
def Reconciled (data : FrameData) : Prop :=
  ∃ raw : List Car, (raw.map Car.driverNum).Nodup ∧
    data.carList = (reconcilePositions raw).map Car.dumps

/-- The frames that are newer than everything before them; the reducer drops the others. -/
def appliedData (rev : Rat) : List FrameData → List FrameData
  | [] => []
  | data :: rest =>
      if data.rev ≤ rev then appliedData rev rest else data :: appliedData data.rev rest

theorem appliedData_sublist (rev : Rat) (frames : List FrameData) :
    (appliedData rev frames).Sublist frames := by
  induction frames generalizing rev with
  | nil => exact List.Sublist.slnil
  | cons data rest ih =>
      rw [appliedData]
      split
      · exact (ih rev).cons data
      · exact (ih data.rev).cons_cons data

theorem names_nodup (distinct : (cars.map Car.driverNum).Nodup) :
    ((cars.map Car.dumps).map carName).Nodup := by
  have names : (cars.map Car.dumps).map carName =
      (cars.map Car.driverNum).map fun (number : Int) => numberToString (number : Rat) := by
    simp only [List.map_map, Function.comp_def, carName_dumps]
  rw [names]
  exact distinct.map numberToString_intCast_injective

theorem Reconciled.names_nodup (reconciled : Reconciled data) : (drivers data).Nodup := by
  obtain ⟨raw, distinct, list⟩ := reconciled
  rw [drivers, list]
  apply Seam.names_nodup
  have numbers := reconcile_numbers (raw.map ((), ·))
  rw [List.map_map] at numbers
  rw [reconcilePositions, List.map_map]
  exact numbers.nodup_iff.mpr distinct

theorem Reconciled.numbered (reconciled : Reconciled data) : data.Numbered := by
  obtain ⟨raw, _, list⟩ := reconciled
  intro json member
  change json ∈ data.carList at member
  rw [list] at member
  obtain ⟨car, -, rfl⟩ := List.mem_map.mp member
  exact numbered_dumps car

/-- Written over whatever is there, a list that names all of it is what remains. -/
theorem mem_putCars_iff {shown : Dict String Json} {list : List Json}
    (distinct : (list.map carName).Nodup) (covered : ∀ name ∈ shown.keys, name ∈ list.map carName)
    {name : String} {value : Json} : (name, value) ∈ (putCars shown list).entries ↔
      value ∈ list ∧ carName value = name := by
  have last := get?_putCars shown list name
  cases found : (list.filter fun car => carName car = name).getLast? with
  | some written =>
      rw [found, Option.some_or] at last
      have own := List.mem_filter.mp (List.mem_of_getLast? found)
      have named : carName written = name := of_decide_eq_true own.2
      constructor
      · intro member
        obtain rfl : value = written :=
          Option.some.inj ((Dict.get?_of_mem member).symm.trans last)
        exact ⟨own.1, named⟩
      · intro both
        obtain rfl : written = value :=
          List.inj_on_of_nodup_map distinct own.1 both.1 (named.trans both.2.symm)
        exact Dict.mem_of_get? last
  | none =>
      rw [found, Option.none_or] at last
      rw [List.getLast?_eq_none_iff, List.filter_eq_nil_iff] at found
      constructor
      · intro member
        rw [Dict.get?_of_mem member] at last
        have key := List.mem_map_of_mem (f := Prod.fst) (Dict.mem_of_get? last.symm)
        obtain ⟨car, listed, named⟩ := List.mem_map.mp (covered name key)
        exact absurd (decide_eq_true named) (found car listed)
      · intro both
        exact absurd (decide_eq_true both.2) (found value both.1)

theorem putCars_values {shown : Dict String Json} {list : List Json}
    (distinct : (list.map carName).Nodup) (covered : ∀ name ∈ shown.keys, name ∈ list.map carName) :
    ((putCars shown list).entries.map Prod.snd).Perm list := by
  have named : (putCars shown list).entries.map Prod.fst =
      ((putCars shown list).entries.map Prod.snd).map carName := by
    rw [List.map_map]
    refine List.map_congr_left fun pair member => ?_
    exact ((mem_putCars_iff distinct covered).mp member).2.symm
  have apart : ((putCars shown list).entries.map Prod.snd).Nodup :=
    (named ▸ (putCars shown list).distinct).of_map
  refine (List.perm_ext_iff_of_nodup apart distinct.of_map).mpr fun value => ?_
  constructor
  · intro member
    obtain ⟨pair, listed, rfl⟩ := List.mem_map.mp member
    exact ((mem_putCars_iff distinct covered).mp listed).1
  · intro listed
    exact List.mem_map.mpr ⟨_, (mem_putCars_iff distinct covered).mpr ⟨listed, rfl⟩, rfl⟩

theorem keys_putCars {shown : Dict String Json} {list : List Json}
    (distinct : (list.map carName).Nodup) (covered : ∀ name ∈ shown.keys, name ∈ list.map carName) :
    ∀ name ∈ (putCars shown list).keys, name ∈ list.map carName := by
  intro name member
  obtain ⟨pair, listed, rfl⟩ := List.mem_map.mp member
  obtain ⟨car, named⟩ := (mem_putCars_iff distinct covered).mp listed
  exact List.mem_map.mpr ⟨_, car, named⟩

/-- After the fold the client holds the cars of the last frame that was applied. -/
theorem foldlM_applyMessage_values (reconciled : ∀ data ∈ frames, Reconciled data)
    (known : ∀ name ∈ state.cars.keys, ∀ data ∈ frames, name ∈ drivers data)
    (covers : frames.Pairwise fun earlier later => ∀ name ∈ drivers earlier, name ∈ drivers later) :
    ∃ after, (frames.map Msg.frame).foldlM applyMessage state = .ok after ∧
      (after.cars.entries.map Prod.snd).Perm (((appliedData state.rev frames).getLast?.map
        FrameData.carList).getD (state.cars.entries.map Prod.snd)) := by
  induction frames generalizing state with
  | nil => exact ⟨state, rfl, List.Perm.refl _⟩
  | cons data rest ih =>
      have later := fun other member => reconciled other (List.mem_cons_of_mem data member)
      obtain ⟨first, covers⟩ := List.pairwise_cons.mp covers
      rw [List.map_cons, List.foldlM_cons]
      by_cases stale : data.rev ≤ state.rev
      · have dropped : applyMessage state (.frame data) = .ok state := if_pos stale
        rw [dropped, appliedData, if_pos stale]
        exact ih later (fun name key other member => known name key other (.tail data member)) covers
      · have numbered := (reconciled data (List.mem_cons_self ..)).numbered
        have distinct := (reconciled data (List.mem_cons_self ..)).names_nodup
        have covered : ∀ name ∈ state.cars.keys, name ∈ data.carList.map carName :=
          fun name key => known name key data (List.mem_cons_self ..)
        have known : ∀ name ∈ (advanceFrame state data).cars.keys,
            ∀ other ∈ rest, name ∈ drivers other :=
          fun name key other member => first other member name (keys_putCars distinct covered name key)
        have applied : applyMessage state (.frame data) = .ok (advanceFrame state data) :=
          applyFrame_newer (not_le.mp stale) numbered
        obtain ⟨after, folded, values⟩ := ih later known covers
        rw [applied, appliedData, if_neg stale, List.getLast?_cons]
        refine ⟨after, folded, values.trans ?_⟩
        change ((appliedData data.rev rest).getLast?.map FrameData.carList |>.getD
          ((putCars state.cars data.carList).entries.map Prod.snd)).Perm _
        cases (appliedData data.rev rest).getLast? with
        | some last => exact List.Perm.refl _
        | none => exact putCars_values distinct covered

end

theorem reconciled_ahead (raw : List Car) : (reconcilePositions raw).Pairwise Ahead := by
  rw [reconcilePositions_eq, List.pairwise_iff_getElem]
  intro i j within within' earlier
  rw [List.getElem_mapIdx, List.getElem_mapIdx]
  apply Or.inl
  simp only [renumber, Option.getD_some]
  omega

theorem reconciled_placed (raw : List Car) : ∀ car ∈ reconcilePositions raw, car.pos ≠ none := by
  rw [reconcilePositions_eq]
  intro car member
  obtain ⟨index, within, rfl⟩ := List.mem_mapIdx.mp member
  exact Option.some_ne_none _

/-- The ranks arrive: the tower lists the cars of the last applied frame as they were sent.
And where nobody is retired it orders raw cars as the writers do. -/
theorem running_order_survives {state : RaceState} {frames : List FrameData} {raw : List Car}
    {shown : Dict String Json} (reconciled : ∀ data ∈ frames, Reconciled data)
    (known : ∀ name ∈ state.cars.keys, ∀ data ∈ frames, name ∈ drivers data)
    (covers : frames.Pairwise fun earlier later => ∀ name ∈ drivers earlier, name ∈ drivers later)
    (distinct : (raw.map Car.driverNum).Nodup) (placed : ∀ car ∈ raw, car.pos ≠ none)
    (running : ∀ car ∈ raw, car.status ≠ some "Out")
    (held : (shown.entries.map Prod.snd).Perm (raw.map Car.dumps)) :
    (∃ after, (frames.map Msg.frame).foldlM applyMessage state = .ok after ∧
      ∀ last, (appliedData state.rev frames).getLast? = some last →
        orderCars after.cars = last.carList) ∧
    (orderCars shown).map carName = (reconcilePositions raw).map fun car => carName car.dumps := by
  constructor
  · obtain ⟨after, folded, values⟩ := foldlM_applyMessage_values reconciled known covers
    refine ⟨after, folded, fun last newest => ?_⟩
    obtain ⟨raw, -, list⟩ :=
      reconciled last ((appliedData_sublist _ _).subset (List.mem_of_getLast? newest))
    rw [newest, Option.map_some, Option.getD_some, list] at values
    rw [list]
    exact orderCars_of_ahead (reconciled_placed raw) values (reconciled_ahead raw)
  · have sorted := List.mergeSort_perm raw byRank
    have everyone : (raw.mergeSort byRank).filter (fun car => !retired car) = raw.mergeSort byRank :=
      List.filter_eq_self.mpr fun car member => by
        simpa [retired] using running car (sorted.mem_iff.mp member)
    have ahead := running_are_ranked distinct
    rw [everyone] at ahead
    rw [orderCars_of_ahead (fun car member => placed car (sorted.mem_iff.mp member))
      (held.trans (sorted.map Car.dumps).symm) ahead, reconcilePositions_eq]
    simp only [List.map_map, Function.comp_def, carName_dumps]
    apply List.ext_getElem?
    intro index
    simp [renumber, Function.comp_def]

/-- A frame that shows a field as the writer ranked it. -/
def rankedFrame (rev : Rat) (raw : List Car) : FrameData :=
  ⟨rev, 0, some ((reconcilePositions raw).map Car.dumps), none, none, none⟩

def runningField : List Car := [{ leaderCar with driverNum := 44, pos := some 99 }, leaderCar]

def shownField : Dict String Json :=
  ⟨[("44", { leaderCar with driverNum := 44, pos := some 99 }.dumps), ("1", leaderCar.dumps)],
    by decide⟩

theorem running_order_survives_tiedField :
    (∃ after, ([rankedFrame 1 tiedField, rankedFrame 2 tiedField].map Msg.frame).foldlM
        applyMessage emptyState = .ok after ∧
      ∀ last, (appliedData 0 [rankedFrame 1 tiedField, rankedFrame 2 tiedField]).getLast? =
        some last → orderCars after.cars = last.carList) ∧
    (orderCars shownField).map carName =
      (reconcilePositions runningField).map fun car => carName car.dumps := by
  have ranked (rev : Rat) : Reconciled (rankedFrame rev tiedField) := ⟨tiedField, by decide, rfl⟩
  apply running_order_survives
  · intro data member
    rcases List.mem_pair.mp member with rfl | rfl
    · exact ranked 1
    · exact ranked 2
  · intro name key
    cases key
  · exact List.pairwise_pair.mpr fun name member => member
  · decide
  · decide
  · decide
  · exact List.Perm.refl _

end RaceTracker.Seam
