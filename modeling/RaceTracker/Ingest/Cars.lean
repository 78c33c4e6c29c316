import Mathlib.Data.Prod.Lex
import RaceTracker.Lib.StableSort
import RaceTracker.Model.Wire

namespace RaceTracker.Ingest

open RaceTracker.Lib RaceTracker.Model

/-! A car as the Python writers hold it, and the running order of a frame. -/

/-- A car dict; `none` is a missing key.  `code` and `team` come from the feed unchecked. -/
structure Car where
  driverNum : Int
  code : Json
  team : Json
  pos : Option Int
  lap : Option Int
  p : Point
  status : Option String
  tyre : Option String
  tyreAge : Option Int
  lastLapMs : Option Int
  bestLapMs : Option Int
  s1Ms : Option Int
  s2Ms : Option Int
  s3Ms : Option Int
  gapMs : Option Int
  gapLaps : Option Int
  intMs : Option Int
  speed : Option Int
  gear : Option Int
  throttle : Option Int
  brake : Option Int
  drs : Option Bool

/-- Python writes a float with a point or an exponent. -/
def float (value : F64) : Json := .num ⟨value.value, false⟩

def Car.entries (car : Car) : List (String × Option Json) :=
  [("driverNum", some (.int car.driverNum)), ("code", some car.code), ("team", some car.team),
    ("pos", car.pos.map .int), ("lap", car.lap.map .int),
    ("p", some (.obj [("x", float car.p.x), ("y", float car.p.y)])),
    ("status", car.status.map .str), ("tyre", car.tyre.map .str), ("tyreAge", car.tyreAge.map .int),
    ("lastLapMs", car.lastLapMs.map .int), ("bestLapMs", car.bestLapMs.map .int),
    ("s1Ms", car.s1Ms.map .int), ("s2Ms", car.s2Ms.map .int), ("s3Ms", car.s3Ms.map .int),
    ("gapMs", car.gapMs.map .int), ("gapLaps", car.gapLaps.map .int),
    ("intMs", car.intMs.map .int), ("speed", car.speed.map .int), ("gear", car.gear.map .int),
    ("throttle", car.throttle.map .int), ("brake", car.brake.map .int), ("drs", car.drs.map .bool)]

def Car.dumps (car : Car) : Json := .obj (Codec.members car.entries)

theorem Car.get?_dumps {car : Car} {name : String} {json : Option Json}
    (entry : (name, json) ∈ car.entries) : car.dumps.get? name = json := by
  refine Codec.lookup_members ?_ entry
  change ["driverNum", "code", "team", "pos", "lap", "p", "status", "tyre", "tyreAge",
    "lastLapMs", "bestLapMs", "s1Ms", "s2Ms", "s3Ms", "gapMs", "gapLaps", "intMs", "speed",
    "gear", "throttle", "brake", "drs"].Nodup
  decide

/-- The leader as the live lane first knows it: a gap of zero, and no lap number yet. -/
def leaderCar : Car where
  driverNum := 1
  code := .str "VER"
  team := .str "Red Bull"
  pos := some 1
  lap := none
  p := Point.codec.zero
  status := some "OnTrack"
  tyre := none
  tyreAge := none
  lastLapMs := none
  bestLapMs := none
  s1Ms := none
  s2Ms := none
  s3Ms := none
  gapMs := some 0
  gapLaps := none
  intMs := none
  speed := none
  gear := none
  throttle := none
  brake := none
  drs := none

/-- Sorts after every real position, and never reaches the wire. -/
def unknownPos : Int := 99

/-- Retired cars are one tail block; the others go by position, laps and number. -/
def rankKey (car : Car) : Bool ×ₗ Int ×ₗ Int ×ₗ Int :=
  if car.status = some "Out" then toLex (true, toLex (0, toLex (0, 0)))
  else toLex (false, toLex (car.pos.getD unknownPos, toLex (-(car.lap.getD 0), car.driverNum)))

/-- Sort stably, then number the cars 1..N where they stand.  The dicts are written in
place, so each car comes with a tag that says which dict it is. -/
def reconcile {α : Type} (cars : List (α × Car)) : List (α × Car) :=
  (cars.mergeSort fun left right => rankKey left.2 ≤ rankKey right.2).mapIdx
    fun index car => (car.1, { car.2 with pos := some ((index : Int) + 1) })

def reconcilePositions (cars : List Car) : List Car :=
  (reconcile (cars.map ((), ·))).map Prod.snd

section

variable {α : Type} {cars : List (α × Car)}

theorem mem_reconcile_iff {tag : α} {car : Car} :
    (tag, car) ∈ reconcile cars ↔ ∃ (index : Nat) (raw : Car),
      (cars.mergeSort fun left right => rankKey left.2 ≤ rankKey right.2)[index]? = some (tag, raw) ∧
        car = { raw with pos := some ((index : Int) + 1) } := by
  rw [reconcile]
  rw [List.mem_mapIdx]
  constructor
  · intro member
    obtain ⟨index, within, same⟩ := member
    rw [Prod.mk.injEq] at same
    obtain ⟨rfl, rfl⟩ := same
    exact ⟨index, _, List.getElem?_eq_getElem within, rfl⟩
  · intro member
    obtain ⟨index, raw, found, rfl⟩ := member
    obtain ⟨within, same⟩ := List.getElem?_eq_some_iff.mp found
    exact ⟨index, within, by rw [same]⟩

theorem raw_of_mem_reconcile {tag : α} {car : Car} (member : (tag, car) ∈ reconcile cars) :
    ∃ raw, (tag, raw) ∈ cars ∧ ∃ pos, car = { raw with pos } := by
  obtain ⟨index, raw, found, rfl⟩ := mem_reconcile_iff.mp member
  exact ⟨raw, List.mem_mergeSort.mp (List.mem_of_getElem? found), _, rfl⟩

/-- Whatever a rank leaves alone the ranked cars have as the raw ones had it. -/
theorem reconcile_map_perm {τ : Type} {f : α × Car → τ}
    (kept : ∀ tag car pos, f (tag, { car with pos }) = f (tag, car)) (cars : List (α × Car)) :
    ((reconcile cars).map f).Perm (cars.map f) := by
  have same : (reconcile cars).map f =
      (cars.mergeSort fun left right => rankKey left.2 ≤ rankKey right.2).map f := by
    apply List.ext_getElem?
    intro index
    simp only [reconcile, List.getElem?_map, List.getElem?_mapIdx, Option.map_map]
    congr 1
    funext entry
    exact kept entry.1 entry.2 _
  rw [same]
  exact (List.mergeSort_perm cars _).map f

theorem reconcile_tags (cars : List (α × Car)) :
    ((reconcile cars).map Prod.fst).Perm (cars.map Prod.fst) :=
  reconcile_map_perm (fun _ _ _ => rfl) cars

theorem reconcile_numbers (cars : List (α × Car)) :
    ((reconcile cars).map fun entry => entry.2.driverNum).Perm
      (cars.map fun entry => entry.2.driverNum) :=
  reconcile_map_perm (fun _ _ _ => rfl) cars

/-- Two ranked cars of one number and one position are one car. -/
theorem eq_of_same_pos {first second : α × Car} (one : first ∈ reconcile cars)
    (two : second ∈ reconcile cars) (same : first.2.pos = second.2.pos) : first = second := by
  obtain ⟨tag, car⟩ := first
  obtain ⟨other, car'⟩ := second
  obtain ⟨index, raw, found, rfl⟩ := mem_reconcile_iff.mp one
  obtain ⟨index', raw', found', rfl⟩ := mem_reconcile_iff.mp two
  obtain rfl : index = index' := by
    simp only [Option.some.injEq] at same
    omega
  cases found.symm.trans found'
  rfl

end

theorem eq_of_tag {α : Type} {cars : List (α × Car)} (distinct : (cars.map Prod.fst).Nodup)
    {first second : α × Car} (one : first ∈ cars) (two : second ∈ cars)
    (same : first.1 = second.1) : first = second :=
  List.inj_on_of_nodup_map distinct one two same

/-- The tags have no say in the order. -/
theorem reconcile_cars {α : Type} (cars : List (α × Car)) : (reconcile cars).map Prod.snd =
    ((cars.map Prod.snd).mergeSort fun left right => rankKey left ≤ rankKey right).mapIdx
      fun index car => { car with pos := some ((index : Int) + 1) } := by
  have moved : (cars.map Prod.snd).mergeSort (fun left right => rankKey left ≤ rankKey right) =
      (cars.mergeSort fun left right => rankKey left.2 ≤ rankKey right.2).map Prod.snd := by
    symm
    apply List.map_mergeSort
    intro _ _ _ _
    rfl
  rw [moved]
  apply List.ext_getElem?
  intro index
  simp only [reconcile, List.getElem?_map, List.getElem?_mapIdx, Option.map_map]
  rfl

theorem reconcile_map_snd {α : Type} (cars : List (α × Car)) :
    (reconcile cars).map Prod.snd = reconcilePositions (cars.map Prod.snd) := by
  rw [reconcilePositions, reconcile_cars, reconcile_cars, List.map_map, List.map_map]
  rfl

theorem reconcilePositions_pos (cars : List Car) : (reconcilePositions cars).map Car.pos =
    (List.range cars.length).map fun (index : Nat) => some ((index : Int) + 1) := by
  have count : (reconcilePositions cars).length = cars.length := by
    simp [reconcilePositions, reconcile]
  apply List.ext_getElem
  · simp [count]
  · intro index within within'
    simp [reconcilePositions, reconcile]

def unranked (car : Car) : Car := { car with pos := none }

theorem rankKey_total {ι : Type} (car : ι → Car) (first second : ι) :
    (decide (rankKey (car first) ≤ rankKey (car second)) ||
      decide (rankKey (car second) ≤ rankKey (car first))) = true := by
  simpa using le_total (rankKey (car first)) (rankKey (car second))

/-- Only the comparisons of a car with a later one matter. -/
theorem reconcile_eq_of_agree {α ι : Type} {entries : List ι} {f g : ι → α × Car}
    (same : ∀ entry, (f entry).1 = (g entry).1 ∧ unranked (f entry).2 = unranked (g entry).2)
    (agree : entries.Pairwise fun first second =>
      rankKey (f first).2 ≤ rankKey (f second).2 ↔ rankKey (g first).2 ≤ rankKey (g second).2) :
    reconcile (entries.map f) = reconcile (entries.map g) := by
  have sorted (h : ι → α × Car) :
      (entries.map h).mergeSort (fun left right => rankKey left.2 ≤ rankKey right.2) =
        (entries.mergeSort fun left right => rankKey (h left).2 ≤ rankKey (h right).2).map h := by
    symm
    apply List.map_mergeSort
    intro _ _ _ _
    rfl
  have order := mergeSort_eq_of_agree (rankKey_total fun entry => (f entry).2)
    (rankKey_total fun entry => (g entry).2) (agree.imp fun iff => decide_eq_decide.mpr iff)
  have ranked (entry : ι) (pos : Option Int) :
      ((f entry).1, { (f entry).2 with pos }) = ((g entry).1, { (g entry).2 with pos }) := by
    obtain ⟨tag, car⟩ := same entry
    rw [tag]
    exact congrArg (fun car : Car => ((g entry).1, { car with pos })) car
  rw [reconcile, reconcile, sorted f, sorted g, order]
  apply List.ext_getElem?
  intro index
  simp only [List.getElem?_mapIdx, List.getElem?_map, Option.map_map]
  congr 1
  funext entry
  exact ranked entry _

theorem out_ranks_last {car other : Car} (out : car.status = some "Out") :
    rankKey car ≤ rankKey other ↔ other.status = some "Out" := by
  by_cases too : other.status = some "Out"
  · simp [rankKey, out, too]
  · simp [rankKey, out, too, Prod.Lex.toLex_le_toLex]

theorem in_ranks_first {car other : Car} (running : car.status ≠ some "Out")
    (out : other.status = some "Out") : rankKey car ≤ rankKey other := by
  simp [rankKey, running, out, Prod.Lex.toLex_le_toLex]

theorem running_ranks {car other : Car} (running : car.status ≠ some "Out")
    (too : other.status ≠ some "Out") {pos pos' : Int} (place : car.pos = some pos)
    (place' : other.pos = some pos') (different : pos ≠ pos') :
    rankKey car ≤ rankKey other ↔ pos < pos' := by
  simp [rankKey, running, too, place, place', Prod.Lex.toLex_le_toLex, different]

/-- The ranks that reconciliation wrote order a car and a later one as the raw positions did. -/
theorem ranks_keep_order {α : Type} {cars : List (α × Car)} (distinct : (cars.map Prod.fst).Nodup)
    {first second : α × Car} (before : [first, second].Sublist cars) {car car' : Car}
    (one : (first.1, car) ∈ reconcile cars) (two : (second.1, car') ∈ reconcile cars) :
    rankKey car ≤ rankKey car' ↔ rankKey first.2 ≤ rankKey second.2 := by
  have apart : first.1 ≠ second.1 := by
    have pair := (before.map Prod.fst).nodup distinct
    simpa using pair
  have members := before.subset
  have perm := List.mergeSort_perm cars fun left right => rankKey left.2 ≤ rankKey right.2
  obtain ⟨index, raw, found, made⟩ := mem_reconcile_iff.mp one
  obtain ⟨index', raw', found', made'⟩ := mem_reconcile_iff.mp two
  have own := eq_of_tag distinct (perm.mem_iff.mp (List.mem_of_getElem? found))
    (members (List.mem_cons_self ..)) (rfl : (first.1, raw).1 = first.1)
  have own' := eq_of_tag distinct (perm.mem_iff.mp (List.mem_of_getElem? found'))
    (members (by simp : second ∈ [first, second])) (rfl : (second.1, raw').1 = second.1)
  rw [own] at found
  rw [own'] at found'
  have status : car.status = first.2.status := by rw [made, ← own]
  have status' : car'.status = second.2.status := by rw [made', ← own']
  by_cases out : first.2.status = some "Out"
  · rw [out_ranks_last (status.trans out), out_ranks_last out, status']
  by_cases out' : second.2.status = some "Out"
  · exact iff_of_true (in_ranks_first (status ▸ out) (status' ▸ out')) (in_ranks_first out out')
  have earlier := le_iff_sorted_before (fun left right : α × Car => rankKey left.2 ≤ rankKey right.2)
    (fun _ _ _ one two => by simpa using (of_decide_eq_true one).trans (of_decide_eq_true two))
    (rankKey_total Prod.snd) distinct.of_map before found found'
  rw [decide_eq_true_eq] at earlier
  have different : (index : Int) + 1 ≠ (index' : Int) + 1 := by
    intro same
    obtain rfl : index = index' := by omega
    exact apart (congrArg Prod.fst (Option.some.inj (found.symm.trans found')))
  rw [earlier]
  refine (running_ranks (status ▸ out) (status' ▸ out') (congrArg Car.pos made)
    (congrArg Car.pos made') different).trans ?_
  omega

end RaceTracker.Ingest
