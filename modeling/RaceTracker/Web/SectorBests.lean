import RaceTracker.Lib.Collapse
import RaceTracker.Lib.Passes
import RaceTracker.Web.RunningOrder

namespace RaceTracker.Web

open RaceTracker.Lib

/-! The sector columns of the tower: session bests, personal bests, and the marks that they earn. -/

inductive Sector where
  | s1
  | s2
  | s3
deriving DecidableEq

def Sector.field : Sector → String
  | .s1 => "s1Ms"
  | .s2 => "s2Ms"
  | .s3 => "s3Ms"

def Sector.time (sector : Sector) (car : Json) : Option Rat := numberOf sector.field car

/-- The least of the cars' times; `none` is Infinity. -/
def bestSector (sector : Sector) (cars : List Json) : Option Rat :=
  cars.foldl (fun acc car =>
    match sector.time car with
    | none => acc
    | some v => if v ≠ 0 ∧ 0 < v ∧ ∀ best ∈ acc, v < best then some v else acc) none

structure SectorPb where
  /-- `none` is Infinity. -/
  best : Option Rat
  last : Rat
  samples : Nat
deriving DecidableEq

/-- By driver, and then by sector. -/
abbrev Bests := Dict String (Sector → SectorPb)

def noPb : SectorPb := ⟨none, 0, 0⟩

def pbMinSamples : Nat := 2

def foldSector (prev : SectorPb) (v : Option Rat) : SectorPb :=
  match v with
  | none => prev
  | some v =>
      if v = 0 ∨ v ≤ 0 ∨ v = prev.last then prev
      else ⟨some (prev.best.elim v fun best => min best v), v, prev.samples + 1⟩

def updatePersonalBests (prev : Bests) (cars : List Json) : Bests :=
  cars.foldl (fun next car =>
    let cur := (next.get? (carName car)).getD fun _ => noPb
    next.set (carName car) fun sector => foldSector (cur sector) (sector.time car)) prev

def personalBestOf (pb : Bests) (driver : String) (sector : Sector) : Option Rat :=
  match pb.get? driver with
  | none => none
  | some s => if pbMinSamples ≤ (s sector).samples then (s sector).best else none

inductive SectorColour where
  | purple
  | green
deriving DecidableEq

inductive SectorMark where
  | session
  | personal
deriving DecidableEq

def sectorColour (v sessionBest personalBest : Option Rat) : Option SectorColour :=
  match v with
  | none => none
  | some v =>
      if v = 0 ∨ v ≤ 0 then none
      else if sessionBest = some v then some .purple
      else if personalBest = some v then some .green
      else none

def sectorMark (v sessionBest personalBest : Option Rat) : Option SectorMark :=
  match v with
  | none => none
  | some v =>
      if v = 0 ∨ v ≤ 0 then none
      else if sessionBest = some v then some .session
      else if personalBest = some v then some .personal
      else none

def sectorDelta (v personalBest : Option Rat) : Option Rat :=
  match v, personalBest with
  | some v, some best => if v = 0 ∨ v ≤ 0 ∨ v ≤ best then none else some (v - best)
  | _, _ => none

/-- A time that counts. -/
def Sector.counted (sector : Sector) (car : Json) : Option Rat := (sector.time car).filter (0 < ·)

theorem foldSector_counted (prev : SectorPb) (v : Option Rat) :
    foldSector prev v = foldSector prev (v.filter (0 < ·)) := by
  cases v with
  | none => rfl
  | some v =>
      by_cases positive : 0 < v
      · simp [Option.filter, positive]
      · simp [Option.filter, positive, foldSector, not_lt.mp positive]

/-- What has been seen of a sector: the least time, the last one, and how often it has changed. -/
def seen (times : List Rat) : SectorPb := ⟨times.min?, times.getLast?.getD 0, (collapse times).length⟩

theorem min?_concat (times : List Rat) (v : Rat) :
    (times ++ [v]).min? = some (times.min?.elim v fun best => min best v) := by
  rw [List.min?_eq_some_iff]
  cases least : times.min? with
  | none =>
      rw [List.min?_eq_none_iff] at least
      simp [least]
  | some best =>
      obtain ⟨member, below⟩ := List.min?_eq_some_iff.mp least
      rw [Option.elim_some]
      refine ⟨?_, fun other listed => ?_⟩
      · rcases min_choice best v with same | same <;> rw [same]
        · exact List.mem_append_left _ member
        · exact List.mem_append_right _ (List.mem_singleton_self v)
      · rcases List.mem_append.mp listed with older | newest
        · exact (min_le_left _ _).trans (below other older)
        · exact (min_le_right _ _).trans (List.mem_singleton.mp newest).ge

theorem seen_concat (times : List Rat) {v : Rat} (positive : 0 < v) :
    foldSector (seen times) (some v) = seen (times ++ [v]) := by
  have counts : ¬ (v = 0 ∨ v ≤ 0 ∨ v = (seen times).last) ↔ times.getLast? ≠ some v := by
    simp only [positive.ne', positive.not_ge, false_or, seen]
    cases times.getLast? with
    | none => simp [positive.ne']
    | some last => simp [eq_comm]
  rw [foldSector]
  by_cases same : times.getLast? = some v
  · rw [if_pos (not_not.mp (mt counts.mp (not_not.mpr same)))]
    have member := List.mem_of_getLast? same
    obtain ⟨best, least⟩ := Option.ne_none_iff_exists'.mp
      (mt List.min?_eq_none_iff.mp (List.ne_nil_of_mem member))
    have below := (List.min?_eq_some_iff.mp least).2 v member
    rw [seen, seen, min?_concat, least, Option.elim_some, min_eq_left below, List.getLast?_concat, same,
      collapse_concat, appendNew, getLast?_collapse, if_pos same]
  · rw [if_neg (counts.mpr same), seen, seen, min?_concat, List.getLast?_concat, collapse_concat, appendNew,
      getLast?_collapse, if_neg same, List.length_append]
    rfl

theorem foldl_foldSector (times : List (Option Rat)) :
    times.foldl foldSector noPb = seen (times.filterMap fun v => v.filter (0 < ·)) := by
  induction times using List.reverseRecOn with
  | nil => rfl
  | append_singleton times v ih =>
      rw [List.foldl_append, ih, List.foldl_cons, List.foldl_nil, foldSector_counted, List.filterMap_append]
      cases counted : v.filter (0 < ·) with
      | none => simp [counted, foldSector]
      | some time =>
          have positive : 0 < time := by
            obtain ⟨-, positive⟩ := Option.filter_eq_some_iff.mp counted
            exact of_decide_eq_true positive
          rw [seen_concat _ positive]
          simp [counted]

/-- What stands under a driver's name; nothing yet is infinite. -/
def pbOf (pb : Bests) (driver : String) (sector : Sector) : SectorPb :=
  ((pb.get? driver).getD fun _ => noPb) sector

/-- What a frame tells of a driver. -/
def timeIn (cars : List Json) (driver : String) (sector : Sector) : Option Rat :=
  (cars.find? fun car => carName car = driver).bind sector.time

theorem pbOf_updatePersonalBests (prev : Bests) {cars : List Json} (distinct : (cars.map carName).Nodup)
    (driver : String) (sector : Sector) :
    pbOf (updatePersonalBests prev cars) driver sector =
      foldSector (pbOf prev driver sector) (timeIn cars driver sector) := by
  induction cars generalizing prev with
  | nil => rfl
  | cons car rest ih =>
      rw [List.map_cons, List.nodup_cons] at distinct
      rw [updatePersonalBests, List.foldl_cons, ← updatePersonalBests, ih _ distinct.2]
      rw [timeIn, timeIn, List.find?_cons]
      by_cases named : carName car = driver
      · have absent : (rest.find? fun other => carName other = driver) = none := by
          rw [List.find?_eq_none]
          intro other member same
          exact distinct.1 ((named.trans (of_decide_eq_true same).symm) ▸ List.mem_map_of_mem member)
        rw [absent, pbOf, named, Dict.get?_set, if_pos rfl, decide_eq_true (rfl : driver = driver)]
        rfl
      · simp [named, pbOf, Dict.get?_set]

/-- What the tower's effect depends on: `[state.rev, state.session, state.loopSeq]`. -/
def boardKey (state : RaceState) : Rat × String × Nat := (state.rev, state.session, state.loopSeq)

/-- Another session, or another pass of the clip. -/
def NewBoard (last state : RaceState) : Prop := last.session ≠ state.session ∨ last.loopSeq ≠ state.loopSeq

instance : DecidableRel NewBoard := fun _ _ => inferInstanceAs (Decidable (_ ∨ _))

/-- What the tower holds beside the gaps: the bests of the fold, and those that are rendered. -/
structure BestsTower where
  pb : Bests
  pbRef : Bests
  sessionRef : String
  loopRef : Nat
  /-- The dependencies of the effect's last run. -/
  deps : Option (Rat × String × Nat)

namespace BestsTower

def initial (state : RaceState) : BestsTower where
  pb := .empty
  pbRef := .empty
  sessionRef := state.session
  loopRef := state.loopSeq
  deps := none

def effect (tower : BestsTower) (state : RaceState) : BestsTower :=
  let fresh := tower.sessionRef ≠ state.session ∨ tower.loopRef ≠ state.loopSeq
  let next := updatePersonalBests (if fresh then .empty else tower.pbRef) (orderCars state.cars)
  { pb := next
    pbRef := next
    sessionRef := if fresh then state.session else tower.sessionRef
    loopRef := if fresh then state.loopSeq else tower.loopRef
    deps := some (boardKey state) }

def render (tower : BestsTower) (state : RaceState) : BestsTower :=
  if tower.deps = some (boardKey state) then tower else tower.effect state

/-- The tower after it has been mounted on a state and has rendered others after it. -/
def shown (first : RaceState) (rest : List RaceState) : BestsTower :=
  (first :: rest).foldl render (initial first)

/-- The mark of a car's cell, when the cars of `state` are on the board. -/
def cellMark (tower : BestsTower) (state : RaceState) (sector : Sector) (car : Json) : Option SectorMark :=
  sectorMark (sector.time car) (bestSector sector (orderCars state.cars))
    (personalBestOf tower.pb (carName car) sector)

def cellColour (tower : BestsTower) (state : RaceState) (sector : Sector) (car : Json) :
    Option SectorColour :=
  sectorColour (sector.time car) (bestSector sector (orderCars state.cars))
    (personalBestOf tower.pb (carName car) sector)

/-- The tower as one that follows the board. -/
def follower : Follower RaceState (Rat × String × Nat) Bests BestsTower where
  step := render
  held := pb
  key := deps
  Knows tower state := tower.pbRef = tower.pb ∧ tower.sessionRef = state.session ∧
    tower.loopRef = state.loopSeq

theorem follows : follower.Follows boardKey NewBoard
    (fun bests state => updatePersonalBests bests (orderCars state.cars)) .empty where
  skips same := if_pos same
  takes := by
    intro tower last state knows new
    obtain ⟨held, session, loop⟩ := knows
    have fresh : (tower.sessionRef ≠ state.session ∨ tower.loopRef ≠ state.loopSeq) ↔
        NewBoard last state := by
      rw [NewBoard, session, loop]
    have ran : follower.step tower state = tower.effect state := if_neg new
    rw [ran, effect]
    refine ⟨?_, rfl, rfl, ?_, ?_⟩
    · change updatePersonalBests _ _ = _
      simp only [fresh, held]
      rfl
    · change (if _ then state.session else tower.sessionRef) = _
      split
      · rfl
      · rename_i kept
        exact not_not.mp (not_or.mp kept).1
    · change (if _ then state.loopSeq else tower.loopRef) = _
      split
      · rfl
      · rename_i kept
        exact not_not.mp (not_or.mp kept).2

/-- The states that count: each that the effect has run for since the board was last a new one. -/
def counted (states : List RaceState) : List RaceState := sinceBreak NewBoard (taken boardKey states)

theorem shown_pb (first : RaceState) (rest : List RaceState) : (shown first rest).pb =
    (counted (first :: rest)).foldl (fun bests state => updatePersonalBests bests (orderCars state.cars))
      .empty :=
  follows.run rfl rfl ⟨rfl, rfl, rfl⟩ (by simp [NewBoard]) rest

/-- The times of a driver in a sector, from the states that count. -/
def timesOf (states : List RaceState) (driver : String) (sector : Sector) : List Rat :=
  (counted states).filterMap fun state => (timeIn (orderCars state.cars) driver sector).filter (0 < ·)

theorem pbOf_shown {first : RaceState} {rest : List RaceState}
    (keyed : ∀ state ∈ first :: rest, WellKeyed state.cars) (driver : String) (sector : Sector) :
    pbOf (shown first rest).pb driver sector = seen (timesOf (first :: rest) driver sector) := by
  have each : ∀ state ∈ counted (first :: rest), WellKeyed state.cars := by
    intro state member
    obtain ⟨_, before, whole, _⟩ := sinceBreak_spec NewBoard (taken boardKey (first :: rest))
    refine keyed state ((taken_sublist boardKey (first :: rest)).subset ?_)
    rw [whole]
    exact List.mem_append_right _ member
  rw [shown_pb, timesOf]
  generalize counted (first :: rest) = states at each
  have folded : pbOf (states.foldl (fun bests state => updatePersonalBests bests (orderCars state.cars)) .empty)
      driver sector = (states.map fun state => timeIn (orderCars state.cars) driver sector).foldl foldSector
        noPb := by
    induction states using List.reverseRecOn with
    | nil => rfl
    | append_singleton states state ih =>
        have earlier := ih fun other member => each other (List.mem_append_left _ member)
        have own := each state (List.mem_append_right _ (List.mem_singleton_self state))
        rw [List.foldl_append, List.foldl_cons, List.foldl_nil,
          pbOf_updatePersonalBests _ (orderCars_names own), earlier, List.map_append, List.foldl_append]
        rfl
  rw [folded, foldl_foldSector, List.filterMap_map]
  rfl

end BestsTower

theorem personalBestOf_eq (pb : Bests) (driver : String) (sector : Sector) : personalBestOf pb driver sector =
    if pbMinSamples ≤ (pbOf pb driver sector).samples then (pbOf pb driver sector).best else none := by
  rw [personalBestOf, pbOf]
  cases pb.get? driver with
  | none => rfl
  | some s => rfl

theorem bestSector_eq (sector : Sector) (cars : List Json) :
    bestSector sector cars = (cars.filterMap sector.counted).min? := by
  induction cars using List.reverseRecOn with
  | nil => rfl
  | append_singleton cars car ih =>
      have folded : bestSector sector (cars ++ [car]) =
          match sector.time car with
          | none => bestSector sector cars
          | some v => if v ≠ 0 ∧ 0 < v ∧ ∀ best ∈ bestSector sector cars, v < best then some v
              else bestSector sector cars := by
        simp [bestSector]
      rw [folded, List.filterMap_append]
      cases time : sector.time car with
      | none => simp [Sector.counted, time, ih]
      | some v =>
          by_cases positive : 0 < v
          · have listed : [car].filterMap sector.counted = [v] := by
              simp [Sector.counted, time, Option.filter, positive]
            rw [listed, min?_concat, ← ih]
            cases bestSector sector cars with
            | none => simp [positive, positive.ne']
            | some best =>
                by_cases less : v < best
                · simp [positive, positive.ne', less, less.le]
                · simp [less, not_lt.mp less]
          · have silent : [car].filterMap sector.counted = [] := by
              simp [Sector.counted, time, Option.filter, positive]
            rw [silent, List.append_nil, ← ih]
            simp [positive]

/-- The least of some times, once two have been set one after the other. -/
def PersonalBest (times : List Rat) (v : Rat) : Prop :=
  2 ≤ (collapse times).length ∧ v ∈ times ∧ ∀ time ∈ times, v ≤ time

section

variable {time sessionBest personalBest : Option Rat}

theorem sectorMark_session : sectorMark time sessionBest personalBest = some .session ↔
    ∃ v, time.filter (0 < ·) = some v ∧ sessionBest = some v := by
  cases time with
  | none => simp [sectorMark]
  | some v =>
      by_cases positive : 0 < v
      · simp only [sectorMark, positive.ne', positive.not_ge, Option.filter, positive]
        split_ifs <;> simp_all
      · simp [sectorMark, Option.filter, positive, not_lt.mp positive]

theorem sectorMark_personal : sectorMark time sessionBest personalBest = some .personal ↔
    ∃ v, time.filter (0 < ·) = some v ∧ sessionBest ≠ some v ∧ personalBest = some v := by
  cases time with
  | none => simp [sectorMark]
  | some v =>
      by_cases positive : 0 < v
      · simp only [sectorMark, positive.ne', positive.not_ge, Option.filter, positive]
        split_ifs <;> simp_all
      · simp [sectorMark, Option.filter, positive, not_lt.mp positive]

def SectorMark.colour : SectorMark → SectorColour
  | .session => .purple
  | .personal => .green

theorem mark_of_colour {mark : Option SectorMark} (wanted : SectorMark) :
    mark.map SectorMark.colour = some wanted.colour ↔ mark = some wanted := by
  have injective : Function.Injective SectorMark.colour := by
    intro one two same
    cases one <;> cases two <;> trivial
  rw [← Option.map_some, (Option.map_injective injective).eq_iff]

theorem sectorColour_eq :
    sectorColour time sessionBest personalBest = (sectorMark time sessionBest personalBest).map
      SectorMark.colour := by
  cases time with
  | none => rfl
  | some v =>
      simp only [sectorColour, sectorMark]
      split_ifs <;> rfl

theorem sectorDelta_iff {ms : Rat} : sectorDelta time personalBest = some ms ↔
    0 < ms ∧ ∃ v best, time.filter (0 < ·) = some v ∧ personalBest = some best ∧ ms = v - best := by
  cases time with
  | none => simp [sectorDelta]
  | some v =>
      cases personalBest with
      | none => simp [sectorDelta]
      | some best =>
          by_cases positive : 0 < v
          · simp only [sectorDelta, positive.ne', positive.not_ge, false_or, Option.filter, positive]
            by_cases behind : v ≤ best
            · simp only [if_pos behind, reduceCtorEq, false_iff]
              rintro ⟨ahead, _, _, ⟨⟩, ⟨⟩, rfl⟩
              exact absurd (sub_pos.mp ahead) (not_lt.mpr behind)
            · rw [if_neg behind, Option.some.injEq]
              constructor
              · rintro rfl
                exact ⟨sub_pos.mpr (not_le.mp behind), v, best, rfl, rfl, rfl⟩
              · rintro ⟨_, _, _, ⟨⟩, ⟨⟩, rfl⟩
                rfl
          · simp [sectorDelta, Option.filter, positive, not_lt.mp positive]

end

/-- What a cell of the tower says of a car, of whose driver `times` have counted. -/
structure CellSays (tower : BestsTower) (state : RaceState) (times : List Rat) (sector : Sector) (car : Json) :
    Prop where
  session : tower.cellMark state sector car = some .session ↔ ∃ v, sector.counted car = some v ∧
    ∀ other ∈ orderCars state.cars, ∀ time, sector.counted other = some time → v ≤ time
  personal : tower.cellMark state sector car = some .personal ↔ ∃ v, sector.counted car = some v ∧
    (∃ other ∈ orderCars state.cars, ∃ time, sector.counted other = some time ∧ time < v) ∧
    PersonalBest times v
  purple : tower.cellColour state sector car = some .purple ↔ tower.cellMark state sector car = some .session
  green : tower.cellColour state sector car = some .green ↔ tower.cellMark state sector car = some .personal
  delta : ∀ ms, sectorDelta (sector.time car) (personalBestOf tower.pb (carName car) sector) = some ms ↔
    0 < ms ∧ ∃ v best, sector.counted car = some v ∧ PersonalBest times best ∧ ms = v - best

theorem personalBest_iff {first : RaceState} {rest : List RaceState}
    (keyed : ∀ state ∈ first :: rest, WellKeyed state.cars) (driver : String) (sector : Sector) (v : Rat) :
    personalBestOf (BestsTower.shown first rest).pb driver sector = some v ↔
      PersonalBest (BestsTower.timesOf (first :: rest) driver sector) v := by
  rw [personalBestOf_eq, BestsTower.pbOf_shown keyed, seen, PersonalBest, ← List.min?_eq_some_iff]
  split
  · rename_i enough
    exact (and_iff_right enough).symm
  · rename_i few
    simp [show ¬ 2 ≤ _ from few]

theorem bestSector_iff {sector : Sector} {cars : List Json} {car : Json} (member : car ∈ cars) {v : Rat}
    (own : sector.counted car = some v) : bestSector sector cars = some v ↔
      ∀ other ∈ cars, ∀ time, sector.counted other = some time → v ≤ time := by
  rw [bestSector_eq, List.min?_eq_some_iff]
  simp only [List.mem_filterMap, forall_exists_index, and_imp]
  exact ⟨fun ⟨_, least⟩ other listed time counted => least time other listed counted,
    fun least => ⟨⟨car, member, own⟩, fun time other listed counted => least other listed time counted⟩⟩

/-- A cell is marked for the session when no car on the board has a better time, and for the driver when
that driver has set two times one after the other, on this board and in this pass of the clip, and none
better; the colour says the same, and the delta is what is missing to the driver's best. -/
theorem sector_marks (first : RaceState) (rest : List RaceState)
    (keyed : ∀ state ∈ first :: rest, WellKeyed state.cars) (state : RaceState) {car : Json}
    (onBoard : car ∈ orderCars state.cars) (sector : Sector) :
    CellSays (BestsTower.shown first rest) state
      (BestsTower.timesOf (first :: rest) (carName car) sector) sector car := by
  have best := personalBest_iff keyed (carName car) sector
  have least {v : Rat} (own : sector.counted car = some v) := bestSector_iff onBoard own
  refine ⟨?_, ?_, ?_, ?_, fun ms => ?_⟩
  · rw [BestsTower.cellMark, sectorMark_session]
    exact exists_congr fun v => and_congr_right least
  · rw [BestsTower.cellMark, sectorMark_personal]
    refine exists_congr fun v => and_congr_right fun own => ?_
    rw [best v, ne_eq, least own]
    push Not
    rfl
  · rw [BestsTower.cellColour, sectorColour_eq, ← BestsTower.cellMark]
    exact mark_of_colour .session
  · rw [BestsTower.cellColour, sectorColour_eq, ← BestsTower.cellMark]
    exact mark_of_colour .personal
  · rw [sectorDelta_iff]
    simp only [best]
    rfl

def sectorCar (driverNum pos s1Ms : Int) : Json :=
  .obj [("driverNum", .int driverNum), ("pos", .int pos), ("s1Ms", .int s1Ms)]

/-- Two cars, and the second of them improves in the first sector. -/
def sectorBoard (rev s1Ms : Int) : RaceState :=
  { emptyState with
    session := "monza"
    rev := rev
    cars := ⟨[("1", sectorCar 1 1 29000), ("4", sectorCar 4 2 s1Ms)], by simp⟩ }

theorem sectorBoard_keyed (rev s1Ms : Int) : WellKeyed (sectorBoard rev s1Ms).cars := by
  have one : numberToString ((1 : Int) : Rat) = "1" := by decide +kernel
  have four : numberToString ((4 : Int) : Rat) = "4" := by decide +kernel
  intro key car found
  have listed : (key, car) ∈ [("1", sectorCar 1 1 29000), ("4", sectorCar 4 2 s1Ms)] := Dict.mem_of_get? found
  rcases List.mem_pair.mp listed with same | same <;> cases same
  · exact ⟨_, rfl, one⟩
  · exact ⟨_, rfl, four⟩

theorem sectorBoard_order (rev : Int) {s1Ms : Int} (listed : s1Ms ∈ [31000, 30500, 30000]) :
    orderCars (sectorBoard rev s1Ms).cars = [sectorCar 1 1 29000, sectorCar 4 2 s1Ms] := by
  simp only [List.mem_cons, List.not_mem_nil, or_false] at listed
  rcases listed with rfl | rfl | rfl <;>
    exact orderCars_eq (List.Perm.refl _) (by decide +kernel) (by decide +kernel)

theorem sectorBoard_time (rev : Int) {s1Ms : Int} (listed : s1Ms ∈ [31000, 30500, 30000]) :
    (timeIn (orderCars (sectorBoard rev s1Ms).cars) (carName (sectorCar 4 2 30000)) .s1).filter (0 < ·) =
      some (s1Ms : Rat) := by
  rw [sectorBoard_order rev listed]
  simp only [List.mem_cons, List.not_mem_nil, or_false] at listed
  rcases listed with rfl | rfl | rfl <;> decide +kernel

theorem sector_marks_improved :
    (BestsTower.shown (sectorBoard 1 31000) [sectorBoard 2 30500, sectorBoard 3 30000]).cellMark
      (sectorBoard 3 30000) .s1 (sectorCar 4 2 30000) = some .personal := by
  have keyed : ∀ state ∈ [sectorBoard 1 31000, sectorBoard 2 30500, sectorBoard 3 30000],
      WellKeyed state.cars := by
    simp [sectorBoard_keyed]
  have order := sectorBoard_order 3 (show (30000 : Int) ∈ [31000, 30500, 30000] by decide)
  have onBoard : sectorCar 4 2 30000 ∈ orderCars (sectorBoard 3 30000).cars := by
    rw [order]
    exact List.mem_cons_of_mem _ (List.mem_cons_self ..)
  have times : BestsTower.timesOf [sectorBoard 1 31000, sectorBoard 2 30500, sectorBoard 3 30000]
      (carName (sectorCar 4 2 30000)) .s1 = [31000, 30500, 30000] := by
    have all : BestsTower.counted [sectorBoard 1 31000, sectorBoard 2 30500, sectorBoard 3 30000] =
        [sectorBoard 1 31000, sectorBoard 2 30500, sectorBoard 3 30000] := by
      simp [BestsTower.counted, taken, sinceBreak, boardKey, NewBoard, sectorBoard]
    have opens := sectorBoard_time 1 (show (31000 : Int) ∈ [31000, 30500, 30000] by decide)
    have follows := sectorBoard_time 2 (show (30500 : Int) ∈ [31000, 30500, 30000] by decide)
    have ends := sectorBoard_time 3 (show (30000 : Int) ∈ [31000, 30500, 30000] by decide)
    rw [BestsTower.timesOf, all]
    simp only [List.filterMap_cons, opens, follows, ends, List.filterMap_nil]
    rfl
  refine (sector_marks _ _ keyed _ onBoard .s1).personal.mpr ⟨30000, by decide +kernel, ?_, ?_⟩
  · rw [order]
    exact ⟨sectorCar 1 1 29000, List.mem_cons_self .., 29000, by decide +kernel, by decide⟩
  · rw [times]
    exact ⟨by decide +kernel, by decide, by decide⟩

end RaceTracker.Web
