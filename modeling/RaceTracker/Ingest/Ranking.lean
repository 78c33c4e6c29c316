import RaceTracker.Ingest.Cars

namespace RaceTracker.Ingest

open RaceTracker.Lib

/-! The running order as a ranking: what `reconcile_positions` sorts by, and what it keeps. -/

def retired (car : Car) : Bool := car.status = some "Out"

/-- `first` is ahead by raw position, then by laps completed, then by the lower number. -/
def Ahead (first second : Car) : Prop :=
  first.pos.getD unknownPos < second.pos.getD unknownPos ∨
    first.pos.getD unknownPos = second.pos.getD unknownPos ∧
      (second.lap.getD 0 < first.lap.getD 0 ∨
        first.lap.getD 0 = second.lap.getD 0 ∧ first.driverNum < second.driverNum)

def byRank (left right : Car) : Bool := rankKey left ≤ rankKey right

def renumber (index : Nat) (car : Car) : Car := { car with pos := some ((index : Int) + 1) }

variable {cars : List Car} {car other : Car}

theorem reconcilePositions_eq (cars : List Car) :
    reconcilePositions cars = (cars.mergeSort byRank).mapIdx renumber := by
  rw [reconcilePositions, reconcile_cars, List.map_map]
  simp only [Function.comp_def, List.map_id']
  rfl

theorem byRank_total (first second : Car) : byRank first second || byRank second first :=
  rankKey_total id first second

theorem byRank_trans (one two three : Car) (first : byRank one two) (second : byRank two three) :
    byRank one three := by
  simp only [byRank, decide_eq_true_eq] at first second ⊢
  exact first.trans second

theorem byRank_of_retired (out : retired other) (car : Car) : byRank car other := by
  have last : other.status = some "Out" := of_decide_eq_true out
  by_cases too : car.status = some "Out"
  · simp [byRank, out_ranks_last too, last]
  · simp [byRank, in_ranks_first too last]

theorem retired_of_byRank (out : retired car) (before : byRank car other) : retired other := by
  have last : car.status = some "Out" := of_decide_eq_true out
  simp only [byRank, decide_eq_true_eq, out_ranks_last last] at before
  exact decide_eq_true before

/-- Among running cars the key compares as the three criteria do, ties on all three aside. -/
theorem ahead_of_byRank (running : ¬ retired car) (too : ¬ retired other)
    (different : car.driverNum ≠ other.driverNum) (before : byRank car other) : Ahead car other := by
  simp only [retired, decide_eq_true_eq] at running too
  simp only [byRank, rankKey, running, too, if_false, Prod.Lex.toLex_le_toLex, decide_eq_true_eq,
    lt_irrefl, false_or, true_and] at before
  rw [Ahead]
  omega

theorem sorted_byRank (cars : List Car) :
    (cars.mergeSort byRank).Pairwise fun first second => byRank first second :=
  List.pairwise_mergeSort byRank_trans byRank_total cars

theorem retired_stay_last (cars : List Car) :
    (cars.mergeSort byRank).Pairwise fun first second => retired first → retired second :=
  (sorted_byRank cars).imp fun before out => retired_of_byRank out before

theorem retired_keep_order (cars : List Car) :
    (cars.mergeSort byRank).filter retired = cars.filter retired :=
  filter_mergeSort_of_tied byRank_trans byRank_total
    (fun first _ _ out => byRank_of_retired out first) cars

theorem running_are_ranked (distinct : (cars.map Car.driverNum).Nodup) :
    ((cars.mergeSort byRank).filter fun car => !retired car).Pairwise Ahead := by
  have apart : (cars.mergeSort byRank).Pairwise fun first second =>
      first.driverNum ≠ second.driverNum :=
    List.pairwise_map.mp (((List.mergeSort_perm cars byRank).map Car.driverNum).nodup_iff.mpr distinct)
  rw [List.pairwise_filter]
  apply ((sorted_byRank cars).and apart).imp
  intro first second both running too
  rw [Bool.not_eq_true'] at running too
  exact ahead_of_byRank (by simp [running]) (by simp [too]) both.2 both.1

theorem byRank_renumber {index later : Nat} (earlier : index < later)
    (tail : retired car → retired other) : byRank (renumber index car) (renumber later other) := by
  by_cases out : retired other
  · have last : retired (renumber later other) := out
    exact byRank_of_retired last _
  · have running : ¬ retired car := fun out' => out (tail out')
    simp only [retired, decide_eq_true_eq] at out running
    have places : (index : Int) + 1 < (later : Int) + 1 := by omega
    have ordered : rankKey (renumber index car) ≤ rankKey (renumber later other) ↔
        (index : Int) + 1 < (later : Int) + 1 := by
      apply running_ranks _ _ rfl rfl places.ne
      · exact running
      · exact out
    exact decide_eq_true (ordered.mpr places)

theorem renumbered_sorted {order : List Car}
    (last : order.Pairwise fun first second => retired first → retired second) :
    (order.mapIdx renumber).Pairwise fun first second => byRank first second := by
  rw [List.pairwise_iff_getElem] at last ⊢
  intro i j within within' earlier
  rw [List.getElem_mapIdx, List.getElem_mapIdx]
  exact byRank_renumber earlier (last i j _ _ earlier)

theorem reconcilePositions_idempotent (cars : List Car) :
    reconcilePositions (reconcilePositions cars) = reconcilePositions cars := by
  have sorted := renumbered_sorted (retired_stay_last cars)
  rw [reconcilePositions_eq (reconcilePositions cars), reconcilePositions_eq cars,
    List.mergeSort_of_pairwise sorted, List.mapIdx_mapIdx]
  rfl

/-- Reconciliation ranks: it moves the records, running ones by the criteria and ahead of
the retired, writes where they stand, and has nothing left to do on its own result. -/
theorem reconcile_is_a_ranking (distinct : (cars.map Car.driverNum).Nodup) :
    (∃ order : List Car, order.Perm cars ∧
      reconcilePositions cars =
        order.mapIdx (fun index car => { car with pos := some ((index : Int) + 1) }) ∧
      order.Pairwise (fun first second => retired first → retired second) ∧
      (order.filter fun car => !retired car).Pairwise Ahead ∧
      order.filter retired = cars.filter retired) ∧
    reconcilePositions (reconcilePositions cars) = reconcilePositions cars :=
  ⟨⟨cars.mergeSort byRank, List.mergeSort_perm cars byRank, reconcilePositions_eq cars,
    retired_stay_last cars, running_are_ranked distinct, retired_keep_order cars⟩,
    reconcilePositions_idempotent cars⟩

/-- Two cars tied at an unknown position, behind a retired one and a leader. -/
def tiedField : List Car := [
  { leaderCar with driverNum := 4, pos := some 2, status := some "Out" },
  { leaderCar with driverNum := 44, pos := some 99, lap := some 3 },
  { leaderCar with driverNum := 16, pos := none, lap := some 4 },
  { leaderCar with driverNum := 63, pos := some 1, status := some "Out" },
  leaderCar]

theorem reconcile_is_a_ranking_tiedField : (tiedField.map Car.driverNum).Nodup ∧
    (∃ order : List Car, order.Perm tiedField ∧
      reconcilePositions tiedField =
        order.mapIdx (fun index car => { car with pos := some ((index : Int) + 1) }) ∧
      order.Pairwise (fun first second => retired first → retired second) ∧
      (order.filter fun car => !retired car).Pairwise Ahead ∧
      order.filter retired = tiedField.filter retired) ∧
    reconcilePositions (reconcilePositions tiedField) = reconcilePositions tiedField :=
  ⟨by decide, reconcile_is_a_ranking (by decide)⟩

end RaceTracker.Ingest
