import Mathlib.Logic.Function.Basic
import RaceTracker.Ingest.Live

namespace RaceTracker.Ingest

open RaceTracker.Lib RaceTracker.Model

/-! The live writer's publish paths.

Car dicts persist across publishes: the snapshot and `latest_cars` share them, and
both see the positions that reconciliation writes.  So the run keeps a store of
dicts, and the other two hold identities.
-/

/-- The local variables the publish paths read and write. -/
structure LiveRun where
  session : String
  snapshot : LiveSnapshot Nat
  rev : Int
  dicts : Nat → Car
  latestCars : Dict String Nat
  runningPositions : Dict String Int

def writeDicts (dicts : Nat → Car) (cars : List (Nat × Car)) : Nat → Car :=
  cars.foldl (fun dicts entry => Function.update dicts entry.1 entry.2) dicts

theorem writeDicts_notMem {dicts : Nat → Car} {cars : List (Nat × Car)} {id : Nat}
    (absent : id ∉ cars.map Prod.fst) : writeDicts dicts cars id = dicts id := by
  rw [writeDicts]
  induction cars generalizing dicts with
  | nil => rfl
  | cons entry rest ih =>
      rw [List.map_cons, List.mem_cons, not_or] at absent
      rw [List.foldl_cons, ih absent.2, Function.update_of_ne absent.1]

theorem writeDicts_mem {dicts : Nat → Car} {cars : List (Nat × Car)}
    (distinct : (cars.map Prod.fst).Nodup) {id : Nat} {car : Car} (member : (id, car) ∈ cars) :
    writeDicts dicts cars id = car := by
  rw [writeDicts]
  induction cars generalizing dicts with
  | nil => cases member
  | cons entry rest ih =>
      rw [List.map_cons, List.nodup_cons] at distinct
      rw [List.foldl_cons]
      rcases List.mem_cons.mp member with rfl | later
      · have kept : writeDicts (Function.update dicts id car) rest id =
            Function.update dicts id car id := writeDicts_notMem distinct.1
        rw [writeDicts] at kept
        rw [kept, Function.update_self]
      · exact ih distinct.2 later

theorem unranked_writeDicts {dicts : Nat → Car} {cars : List (Nat × Car)}
    (distinct : (cars.map Prod.fst).Nodup)
    (own : ∀ entry ∈ cars, unranked entry.2 = unranked (dicts entry.1)) (id : Nat) :
    unranked (writeDicts dicts (reconcile cars) id) = unranked (dicts id) := by
  have tags := reconcile_tags cars
  by_cases listed : id ∈ (reconcile cars).map Prod.fst
  · obtain ⟨⟨id, car⟩, member, rfl⟩ := List.mem_map.mp listed
    obtain ⟨raw, known, pos, rfl⟩ := raw_of_mem_reconcile member
    rw [writeDicts_mem (tags.nodup_iff.mpr distinct) member, ← own _ known]
    rfl
  · rw [writeDicts_notMem listed]

/-- Connecting stores an empty snapshot that continues the revision. -/
def LiveRun.start (intText : String → Option Int) (session : String) (label : String)
    (stored : Option Json) (dicts : Nat → Car) : Except PyError (LiveRun × Json) := do
  let rev ← startingRev intText stored
  let snapshot := buildSnapshot session label (.arr []) [] (.obj []) (.obj []) (.int 0) rev
  return ({ session, snapshot, rev, dicts, latestCars := .empty, runningPositions := .empty },
    snapshot.dumps dicts)

namespace LiveRun

/-- Each car's raw feed position again, in place of the rank the last publish gave it. -/
def restamped (run : LiveRun) : List (Nat × Car) :=
  run.latestCars.entries.map fun entry =>
    (entry.2, { run.dicts entry.2 with
      pos := some ((run.runningPositions.get? entry.1).getD unknownPos) })

/-- `_publish_frame`: fold this frame's cars in, store the snapshot, publish the frame. -/
def publishFrame (run : LiveRun) (timeMs now : Int) (radio : List Json) : LiveRun × Json × Json :=
  let rev := run.rev + 1
  let (cars, text) := buildFrame run.session rev now timeMs run.restamped [] none radio
  let dicts := writeDicts run.dicts cars
  let folded := cars.foldl (fun folded car => folded.set (decimal car.2.driverNum) car.1)
    run.snapshot.cars
  let snapshot := { run.snapshot with
    cars := folded, timeMs, rev, radio := run.snapshot.radio ++ radio }
  ({ run with snapshot, rev, dicts }, snapshot.dumps dicts, text)

/-- `_publish_trailing_radio_frame`: the last known cars as they are, for the pending refs' sake. -/
def publishTrailingRadioFrame (run : LiveRun) (timeMs now : Int) (radio : List Json) :
    LiveRun × Json × Json :=
  let rev := run.rev + 1
  let clock := if run.snapshot.timeMs < timeMs then timeMs else run.snapshot.timeMs
  let known := run.latestCars.entries.map fun entry => (entry.2, run.dicts entry.2)
  let (cars, text) := buildFrame run.session rev now clock known [] none radio
  let dicts := writeDicts run.dicts cars
  let snapshot := { run.snapshot with
    radio := run.snapshot.radio ++ radio, rev, timeMs := clock }
  ({ run with snapshot, rev, dicts }, snapshot.dumps dicts, text)

variable (run : LiveRun)

/-- The known cars as their dicts stand. -/
def known : List (Nat × Car) := run.latestCars.entries.map fun entry => (entry.2, run.dicts entry.2)

/-- A known car with its raw feed position. -/
def rawCar (entry : String × Nat) : Car :=
  { run.dicts entry.2 with pos := some ((run.runningPositions.get? entry.1).getD unknownPos) }

/-- Each known driver has a dict of its own. -/
def Apart : Prop := (run.latestCars.entries.map Prod.snd).Nodup

/-- The dicts' positions order every two known cars as the raw positions do. -/
def OrderKept : Prop :=
  run.latestCars.entries.Pairwise fun first second =>
    rankKey (run.dicts first.2) ≤ rankKey (run.dicts second.2) ↔
      rankKey (run.rawCar first) ≤ rankKey (run.rawCar second)

variable {run}

theorem restamped_tags : run.restamped.map Prod.fst = run.latestCars.entries.map Prod.snd := by
  rw [restamped, List.map_map]
  rfl

theorem known_tags : run.known.map Prod.fst = run.latestCars.entries.map Prod.snd := by
  rw [known, List.map_map]
  rfl

/-- Then the trailing frame ranks as a regular one would have. -/
theorem reconcile_known (kept : run.OrderKept) : reconcile run.known = reconcile run.restamped :=
  reconcile_eq_of_agree (fun _ => ⟨rfl, rfl⟩) kept

theorem unranked_restamped {entry : Nat × Car} (member : entry ∈ run.restamped) :
    unranked entry.2 = unranked (run.dicts entry.1) := by
  obtain ⟨listed, _, rfl⟩ := List.mem_map.mp member
  rfl

theorem restamped_mem_ranked {entry : String × Nat} (distinct : run.Apart)
    (listed : entry ∈ run.latestCars.entries) :
    (entry.2, writeDicts run.dicts (reconcile run.restamped) entry.2) ∈ reconcile run.restamped := by
  have tags := reconcile_tags run.restamped
  rw [restamped_tags] at tags
  have ranked : entry.2 ∈ (reconcile run.restamped).map Prod.fst :=
    tags.mem_iff.mpr (List.mem_map_of_mem listed)
  obtain ⟨⟨id, car⟩, member, same⟩ := List.mem_map.mp ranked
  cases same
  rwa [writeDicts_mem (tags.nodup_iff.mpr distinct) member]

/-- The dicts that a publish ranked stand in the order it ranked them in. -/
theorem reconcile_published (distinct : run.Apart) (timeMs now : Int) (radio : List Json) :
    reconcile (run.publishFrame timeMs now radio).1.known = reconcile run.restamped := by
  have apart : (run.restamped.map Prod.fst).Nodup := by
    rw [restamped_tags]
    exact distinct
  refine reconcile_eq_of_agree (fun entry => ⟨rfl, ?_⟩) ?_
  · exact unranked_writeDicts apart (fun _ => unranked_restamped) entry.2
  · apply List.pairwise_iff_forall_sublist.mpr
    intro first second before
    have members := before.subset
    have placed := before.map fun entry : String × Nat =>
      (entry.2, { run.dicts entry.2 with
        pos := some ((run.runningPositions.get? entry.1).getD unknownPos) })
    exact ranks_keep_order apart placed
      (restamped_mem_ranked distinct (members (List.mem_cons_self ..)))
      (restamped_mem_ranked distinct (members (by simp)))

end LiveRun

end RaceTracker.Ingest
