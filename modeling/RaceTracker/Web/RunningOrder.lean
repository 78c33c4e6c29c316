import Mathlib.Data.List.Perm.Subperm
import Mathlib.Data.Prod.Lex
import RaceTracker.Lib.NumberText
import RaceTracker.Web.Folding
import RaceTracker.Web.TimingHelpers

namespace RaceTracker.Web

open RaceTracker.Lib

/-! The running order without the sort: its front by one pass, and whether two car maps share it. -/

def leaderOf (cars : Dict String Json) : Option Json :=
  (objectValues cars).foldl (fun leader c =>
    match leader with
    | none => some c
    | some front => if (byRunningOrder c front).getD 0 < 0 then some c else some front) none

def leaderLapOf (cars : Dict String Json) : Option Rat := (leaderOf cars).bind (numberOf "lap")

/-- `identical` is the test `a === b`. -/
def sameRunningOrder (identical : Bool) (a b : Dict String Json) : Bool :=
  identical ||
    (a.keys.length = b.keys.length &&
      a.keys.all fun key =>
        match a.get? key, b.get? key with
        | some ca, some cb => numberOf "pos" ca = numberOf "pos" cb && numberOf "lap" ca = numberOf "lap" cb
        | _, _ => false)

/-- A car as the wire types it: a whole driver number, a position, and a lap unless it has none. -/
structure Typed (car : Json) : Prop where
  numbered : ∃ number : Int, driverNum car = some (number : Rat)
  placed : ∃ pos, numberOf "pos" car = some pos
  lapped : car.get? "lap" = none ∨ ∃ lap, numberOf "lap" car = some lap

/-- What the comparison looks at, the most telling first. -/
def standing (car : Json) : ℚ ×ₗ ℚ ×ₗ ℚ :=
  toLex ((numberOf "pos" car).getD 0, toLex (-(numberOf "lap" car).getD 0, (driverNum car).getD 0))

theorem asNumber_lap {car : Json} (typed : Typed car) :
    asNumber (nullish (car.get? "lap") (.int 0)) = some ((numberOf "lap" car).getD 0) := by
  rcases typed.lapped with absent | ⟨lap, own⟩
  · simp [numberOf, absent, nullish, asNumber, Json.int]
  · rw [own]
    rw [numberOf] at own
    cases found : car.get? "lap" with
    | none => simp [found] at own
    | some json =>
        rw [found] at own
        cases json with
        | num number => exact own
        | _ => simp [asNumber] at own

theorem byRunningOrder_eq {a b : Json} (typed : Typed a) (typed' : Typed b) :
    byRunningOrder a b =
      orElse (orElse (some ((numberOf "pos" a).getD 0 - (numberOf "pos" b).getD 0))
        (some ((numberOf "lap" b).getD 0 - (numberOf "lap" a).getD 0)))
        (some ((driverNum a).getD 0 - (driverNum b).getD 0)) := by
  obtain ⟨number, named⟩ := typed.numbered
  obtain ⟨number', named'⟩ := typed'.numbered
  obtain ⟨pos, place⟩ := typed.placed
  obtain ⟨pos', place'⟩ := typed'.placed
  have laps := asNumber_lap typed
  have laps' := asNumber_lap typed'
  rw [place, place', named, named']
  rw [driverNum, numberOf] at named named'
  rw [numberOf] at place place'
  simp only [byRunningOrder, minus, place, place', named, named', Option.bind_some, laps, laps']
  rfl

theorem standing_lt {a b : Json} (typed : Typed a) (typed' : Typed b) :
    (byRunningOrder a b).getD 0 < 0 ↔ standing a < standing b := by
  rw [byRunningOrder_eq typed typed', standing, standing, Prod.Lex.toLex_lt_toLex,
    Prod.Lex.toLex_lt_toLex]
  simp only [orElse]
  rcases lt_trichotomy ((numberOf "pos" a).getD 0) ((numberOf "pos" b).getD 0) with less | same | more
  · simp [sub_eq_zero, less.ne, less]
  · rcases lt_trichotomy ((numberOf "lap" b).getD 0) ((numberOf "lap" a).getD 0) with fewer | level | further
    · simp [sub_eq_zero, same, fewer.ne, fewer]
    · simp [same, level]
    · simp [sub_eq_zero, same, further.ne, further.ne', further.not_gt]
  · simp [sub_eq_zero, more.ne', more.not_gt]

theorem byRunningOrder_swap {a b : Json} (typed : Typed a) (typed' : Typed b) :
    (byRunningOrder b a).getD 0 = -(byRunningOrder a b).getD 0 := by
  rw [byRunningOrder_eq typed typed', byRunningOrder_eq typed' typed]
  simp only [orElse, Option.some.injEq, reduceCtorEq, false_or]
  split_ifs <;> simp_all [sub_eq_zero]

theorem mayPrecede_iff {a b : Json} (typed : Typed a) (typed' : Typed b) :
    mayPrecede a b ↔ standing a ≤ standing b := by
  rw [← not_lt, ← standing_lt typed' typed, byRunningOrder_swap typed typed']
  simp [mayPrecede]

theorem driverNum_of_standing {a b : Json} (typed : Typed a) (typed' : Typed b)
    (level : standing a = standing b) : driverNum a = driverNum b := by
  obtain ⟨number, named⟩ := typed.numbered
  obtain ⟨number', named'⟩ := typed'.numbered
  have last := congrArg (fun place => (ofLex (ofLex place).2).2) level
  simpa [standing, named, named'] using last

structure WellTyped (cars : Dict String Json) : Prop where
  keyed : WellKeyed cars
  typed : ∀ entry ∈ cars.entries, Typed entry.2

section

variable {cars a b : Dict String Json}

theorem typed_of_mem (whole : WellTyped cars) {car : Json} (member : car ∈ objectValues cars) :
    Typed car := by
  obtain ⟨entry, listed, rfl⟩ := List.mem_map.mp ((objectValues_perm cars).mem_iff.mp member)
  exact whole.typed entry listed

theorem carName_of_keyed {key : String} {car : Json} (keyed : KeyedBy key car) : carName car = key := by
  obtain ⟨number, own, rfl⟩ := keyed
  rw [carName, own]

theorem carName_eq {car : Json} {number : Rat} (own : driverNum car = some number) :
    carName car = numberToString number := by
  rw [driverNum, numberOf] at own
  cases found : car.get? "driverNum" with
  | none => simp [found] at own
  | some json =>
      rw [found] at own
      cases json with
      | num value =>
          rw [carName, found]
          exact congrArg numberToString (Option.some.inj own)
      | _ => simp [asNumber] at own

theorem objectValues_names (keyed : WellKeyed cars) :
    ((objectValues cars).map carName).Perm cars.keys := by
  have names : (cars.entries.map Prod.snd).map carName = cars.keys := by
    rw [List.map_map]
    apply List.map_congr_left
    intro entry listed
    exact carName_of_keyed (keyed entry.1 entry.2 (Dict.get?_of_mem listed))
  rw [← names]
  exact (objectValues_perm cars).map carName

theorem orderCars_perm (cars : Dict String Json) : (orderCars cars).Perm (objectValues cars) :=
  List.mergeSort_perm _ _

/-- The rows that the tower folds have distinct names. -/
theorem orderCars_names (keyed : WellKeyed cars) : ((orderCars cars).map carName).Nodup :=
  (((orderCars_perm cars).map carName).trans (objectValues_names keyed)).nodup_iff.mpr cars.distinct

theorem objectValues_distinct (whole : WellTyped cars) : ((objectValues cars).map driverNum).Nodup := by
  have names := (objectValues_names whole.keyed).nodup_iff.mpr cars.distinct
  have through : (objectValues cars).map carName =
      ((objectValues cars).map driverNum).map fun number => (number.map numberToString).getD "" := by
    rw [List.map_map]
    apply List.map_congr_left
    intro car member
    obtain ⟨number, own⟩ := (typed_of_mem whole member).numbered
    simp [own, carName_eq own]
  rw [through] at names
  exact names.of_map

theorem standing_injective (whole : WellTyped cars) {first second : Json}
    (one : first ∈ objectValues cars) (two : second ∈ objectValues cars)
    (level : standing first = standing second) : first = second :=
  List.inj_on_of_nodup_map (objectValues_distinct whole) one two
    (driverNum_of_standing (typed_of_mem whole one) (typed_of_mem whole two) level)

theorem map_standing_orderCars (whole : WellTyped cars) :
    (orderCars cars).map standing = ((objectValues cars).map standing).mergeSort (· ≤ ·) := by
  apply List.map_mergeSort
  intro first one second two
  rw [Bool.eq_iff_iff, mayPrecede_iff (typed_of_mem whole one) (typed_of_mem whole two)]
  simp

theorem orderCars_sorted (whole : WellTyped cars) :
    ((orderCars cars).map standing).Pairwise (· ≤ ·) := by
  rw [map_standing_orderCars whole]
  have chains (one two three : ℚ ×ₗ ℚ ×ₗ ℚ) (first : decide (one ≤ two) = true)
      (second : decide (two ≤ three) = true) : decide (one ≤ three) = true := by
    simp only [decide_eq_true_eq] at first second ⊢
    exact first.trans second
  have total (one two : ℚ ×ₗ ℚ ×ₗ ℚ) : (decide (one ≤ two) || decide (two ≤ one)) = true := by
    simpa using le_total one two
  have sorted := List.pairwise_mergeSort chains total ((objectValues cars).map standing)
  simpa using sorted

theorem leader_of_walk (list : List Json) (front : Json) (typed : ∀ car ∈ front :: list, Typed car) :
    ∃ leader, list.foldl (fun leader c =>
        match leader with
        | none => some c
        | some front => if (byRunningOrder c front).getD 0 < 0 then some c else some front)
        (some front) = some leader ∧
      leader ∈ front :: list ∧ ∀ car ∈ front :: list, standing leader ≤ standing car := by
  induction list generalizing front with
  | nil => exact ⟨front, rfl, List.mem_cons_self .., by simp⟩
  | cons car rest ih =>
      have own : Typed front := typed front (List.mem_cons_self ..)
      have next : Typed car := typed car (by simp)
      have others : ∀ other ∈ rest, Typed other := fun other member => typed other (by simp [member])
      rw [List.foldl_cons]
      simp only [standing_lt next own]
      by_cases ahead : standing car < standing front
      · obtain ⟨leader, walked, member, least⟩ := ih car (by simpa [next] using others)
        rw [if_pos ahead]
        refine ⟨leader, walked, List.mem_cons_of_mem _ member, ?_⟩
        intro other listed
        rcases List.mem_cons.mp listed with rfl | later
        · exact (least car (List.mem_cons_self ..)).trans ahead.le
        · exact least other later
      · obtain ⟨leader, walked, member, least⟩ := ih front (by simpa [own] using others)
        rw [if_neg ahead]
        refine ⟨leader, walked, ?_, ?_⟩
        · rcases List.mem_cons.mp member with rfl | later
          · exact List.mem_cons_self ..
          · simp [later]
        · have first := least front (List.mem_cons_self ..)
          intro other listed
          rcases List.mem_cons.mp listed with rfl | later
          · exact first
          · rcases List.mem_cons.mp later with rfl | last
            · exact first.trans (not_lt.mp ahead)
            · exact least other (List.mem_cons_of_mem _ last)

theorem leaderOf_eq_head (whole : WellTyped cars) : leaderOf cars = (orderCars cars).head? := by
  have perm := orderCars_perm cars
  cases sorted : orderCars cars with
  | nil =>
      rw [sorted] at perm
      rw [leaderOf, perm.nil_eq.symm]
      rfl
  | cons first rest =>
      rw [sorted] at perm
      cases values : objectValues cars with
      | nil => exact absurd (values ▸ perm).eq_nil (by simp)
      | cons front list =>
          obtain ⟨leader, walked, member, least⟩ := leader_of_walk list front
            fun car listed => typed_of_mem whole (values ▸ listed)
          have head : first ∈ objectValues cars := perm.mem_iff.mp (List.mem_cons_self ..)
          have led : leader ∈ objectValues cars := values ▸ member
          have below : standing first ≤ standing leader := by
            have ordered := orderCars_sorted whole
            rw [sorted, List.map_cons, List.pairwise_cons] at ordered
            rcases List.mem_cons.mp (perm.mem_iff.mpr led) with rfl | later
            · exact le_refl _
            · exact ordered.1 _ (List.mem_map_of_mem later)
          have above : standing leader ≤ standing first := least first (values ▸ head)
          rw [leaderOf, values, List.foldl_cons]
          exact walked.trans (congrArg some
            (standing_injective whole led head (le_antisymm above below)))

theorem mem_keys_iff {key : String} : key ∈ cars.keys ↔ ∃ car, cars.get? key = some car := by
  constructor
  · intro listed
    obtain ⟨entry, member, rfl⟩ := List.mem_map.mp listed
    exact ⟨entry.2, Dict.get?_of_mem member⟩
  · rintro ⟨car, found⟩
    exact List.mem_map.mpr ⟨(key, car), Dict.mem_of_get? found, rfl⟩

/-- Two maps with one set of keys, and cars under them that the comparison cannot tell apart. -/
def SameFields (a b : Dict String Json) : Prop :=
  a.keys.length = b.keys.length ∧ ∀ key ca, a.get? key = some ca → ∃ cb, b.get? key = some cb ∧
    numberOf "pos" ca = numberOf "pos" cb ∧ numberOf "lap" ca = numberOf "lap" cb

theorem sameFields_of_same {identical : Bool} (reference : identical = true → a = b)
    (same : sameRunningOrder identical a b = true) : SameFields a b := by
  rw [sameRunningOrder, Bool.or_eq_true, Bool.and_eq_true, List.all_eq_true] at same
  rcases same with identical | ⟨lengths, fields⟩
  · rw [reference identical]
    exact ⟨rfl, fun _ car found => ⟨car, found, rfl, rfl⟩⟩
  · refine ⟨of_decide_eq_true lengths, ?_⟩
    intro key ca found
    have compared := fields key (mem_keys_iff.mpr ⟨ca, found⟩)
    rw [found] at compared
    cases other : b.get? key with
    | none => simp [other] at compared
    | some cb => exact ⟨cb, rfl, by simpa [other] using compared⟩

theorem numberOf_driverNum {key : String} {ca cb : Json} (keyed : KeyedBy key ca) (typed : Typed ca)
    (keyed' : KeyedBy key cb) (typed' : Typed cb) : driverNum ca = driverNum cb := by
  obtain ⟨number, named⟩ := typed.numbered
  obtain ⟨number', named'⟩ := typed'.numbered
  have texts : numberToString (number : Rat) = numberToString (number' : Rat) := by
    rw [← carName_eq named, ← carName_eq named', carName_of_keyed keyed, carName_of_keyed keyed']
  rw [named, named', numberToString_intCast_injective texts]

theorem standing_of_fields (whole : WellTyped a) (whole' : WellTyped b) (fields : SameFields a b)
    {key : String} {ca : Json} (found : a.get? key = some ca) :
    (b.get? key).map standing = some (standing ca) := by
  obtain ⟨cb, other, places, laps⟩ := fields.2 key ca found
  have numbers := numberOf_driverNum (whole.keyed key ca found) (whole.typed _ (Dict.mem_of_get? found))
    (whole'.keyed key cb other) (whole'.typed _ (Dict.mem_of_get? other))
  rw [other, Option.map_some, standing, standing, places, laps, numbers]

theorem keys_perm_of_fields (fields : SameFields a b) : a.keys.Perm b.keys := by
  have subset : a.keys ⊆ b.keys := by
    intro key listed
    obtain ⟨ca, found⟩ := mem_keys_iff.mp listed
    obtain ⟨cb, other, -⟩ := fields.2 key ca found
    exact mem_keys_iff.mpr ⟨cb, other⟩
  exact (List.Nodup.subperm a.distinct subset).perm_of_length_le fields.1.ge

theorem map_standing_keys (cars : Dict String Json) :
    cars.keys.map (fun key => (cars.get? key).map standing) =
      (cars.entries.map Prod.snd).map fun car => some (standing car) := by
  rw [Dict.keys, List.map_map, List.map_map]
  apply List.map_congr_left
  intro entry listed
  simp [Dict.get?_of_mem listed]

theorem values_of_fields (whole : WellTyped a) (whole' : WellTyped b) (fields : SameFields a b) :
    ((objectValues a).map standing).Perm ((objectValues b).map standing) := by
  have read : a.keys.map (fun key => (a.get? key).map standing) =
      a.keys.map fun key => (b.get? key).map standing := by
    apply List.map_congr_left
    intro key listed
    obtain ⟨ca, found⟩ := mem_keys_iff.mp listed
    rw [standing_of_fields whole whole' fields found, found, Option.map_some]
  have keyed := (keys_perm_of_fields fields).map fun key => (b.get? key).map standing
  rw [← read, map_standing_keys, map_standing_keys] at keyed
  have shown (cars : Dict String Json) : (cars.entries.map Prod.snd).map standing =
      ((cars.entries.map Prod.snd).map fun car => some (standing car)).filterMap id := by
    simp [List.filterMap_map, Function.comp_def]
  apply ((objectValues_perm a).map standing).trans
  apply List.Perm.trans _ ((objectValues_perm b).map standing).symm
  rw [shown a, shown b]
  exact keyed.filterMap id

theorem standings_of_fields (whole : WellTyped a) (whole' : WellTyped b) (fields : SameFields a b) :
    (orderCars a).map standing = (orderCars b).map standing := by
  have values := values_of_fields whole whole' fields
  have rows (cars : Dict String Json) := (orderCars_perm cars).map standing
  apply ((rows a).trans (values.trans (rows b).symm)).eq_of_pairwise _ (orderCars_sorted whole)
    (orderCars_sorted whole')
  intro first second _ _ before after
  exact le_antisymm before after

theorem map_driverNum_orderCars (whole : WellTyped cars) :
    (orderCars cars).map driverNum =
      ((orderCars cars).map standing).map fun place => some (ofLex (ofLex place).2).2 := by
  rw [List.map_map]
  apply List.map_congr_left
  intro car member
  obtain ⟨number, own⟩ := (typed_of_mem whole ((orderCars_perm cars).mem_iff.mp member)).numbered
  simp [standing, own]

theorem get?_leader (whole : WellTyped cars) {leader : Json} (front : leaderOf cars = some leader) :
    cars.get? (carName leader) = some leader := by
  rw [leaderOf_eq_head whole] at front
  have member := (orderCars_perm cars).mem_iff.mp (List.mem_of_head? front)
  obtain ⟨entry, listed, rfl⟩ := List.mem_map.mp ((objectValues_perm cars).mem_iff.mp member)
  have found := Dict.get?_of_mem listed
  rwa [carName_of_keyed (whole.keyed _ _ found)]

theorem leaderLap_of_fields (whole : WellTyped a) (whole' : WellTyped b) (fields : SameFields a b) :
    leaderLapOf a = leaderLapOf b := by
  have order : (orderCars a).map driverNum = (orderCars b).map driverNum := by
    rw [map_driverNum_orderCars whole, map_driverNum_orderCars whole',
      standings_of_fields whole whole' fields]
  have numbers : (leaderOf a).map driverNum = (leaderOf b).map driverNum := by
    rw [leaderOf_eq_head whole, leaderOf_eq_head whole', ← List.head?_map, ← List.head?_map, order]
  rw [leaderLapOf, leaderLapOf]
  cases front : leaderOf a with
  | none =>
      cases front' : leaderOf b with
      | none => rfl
      | some other => simp [front, front'] at numbers
  | some leader =>
      cases front' : leaderOf b with
      | none => simp [front, front'] at numbers
      | some other =>
          rw [front, front', Option.map_some, Option.map_some, Option.some.injEq] at numbers
          have found := get?_leader whole front
          have found' := get?_leader whole' front'
          obtain ⟨cb, same, -, laps⟩ := fields.2 _ _ found
          have names : carName leader = carName other := by
            obtain ⟨number, own⟩ := (whole.typed _ (Dict.mem_of_get? found)).numbered
            rw [carName_eq own, carName_eq (numbers ▸ own)]
          rw [names, found', Option.some.injEq] at same
          rw [Option.bind_some, Option.bind_some, laps, same]

/-- The walk finds the front of the sort, and the comparison answers for the sort. -/
theorem shortcuts_agree (a b : Dict String Json) (identical : Bool) (whole : WellTyped a)
    (whole' : WellTyped b) (reference : identical = true → a = b) :
    leaderOf a = (orderCars a).head? ∧ (leaderOf a = none ↔ a.entries = []) ∧
      (sameRunningOrder identical a b = true →
        (orderCars a).map driverNum = (orderCars b).map driverNum ∧ leaderLapOf a = leaderLapOf b) := by
  refine ⟨leaderOf_eq_head whole, ?_, ?_⟩
  · have rows := ((orderCars_perm a).trans (objectValues_perm a)).length_eq
    rw [leaderOf_eq_head whole, List.head?_eq_none_iff, ← List.length_eq_zero_iff, rows,
      List.length_map, List.length_eq_zero_iff]
  · intro same
    have fields := sameFields_of_same reference same
    refine ⟨?_, leaderLap_of_fields whole whole' fields⟩
    rw [map_driverNum_orderCars whole, map_driverNum_orderCars whole',
      standings_of_fields whole whole' fields]

end

/-- Two cars on one position, the second without a lap. -/
def tiedCars (speed : Int) : Dict String Json :=
  ⟨[("4", .obj [("driverNum", .int 4), ("pos", .int 19), ("lap", .int 7), ("speed", .int speed)]),
    ("16", .obj [("driverNum", .int 16), ("pos", .int 19)])], by simp⟩

theorem tiedCars_wellTyped (speed : Int) : WellTyped (tiedCars speed) := by
  constructor
  · intro key car found
    have listed := Dict.mem_of_get? found
    simp only [tiedCars, List.mem_cons, Prod.mk.injEq, List.not_mem_nil, or_false] at listed
    rcases listed with ⟨rfl, rfl⟩ | ⟨rfl, rfl⟩
    · exact ⟨⟨4, true⟩, rfl, by decide +kernel⟩
    · exact ⟨⟨16, true⟩, rfl, by decide +kernel⟩
  · intro entry listed
    simp only [tiedCars, List.mem_cons, List.not_mem_nil, or_false] at listed
    rcases listed with rfl | rfl
    · exact ⟨⟨4, rfl⟩, ⟨19, rfl⟩, Or.inr ⟨7, rfl⟩⟩
    · exact ⟨⟨16, rfl⟩, ⟨19, rfl⟩, Or.inl rfl⟩

theorem shortcuts_agree_tied :
    leaderOf (tiedCars 80) = (orderCars (tiedCars 80)).head? ∧
      leaderLapOf (tiedCars 80) = leaderLapOf (tiedCars 95) := by
  have agree := shortcuts_agree (tiedCars 80) (tiedCars 95) false (tiedCars_wellTyped 80)
    (tiedCars_wellTyped 95) nofun
  exact ⟨agree.1, (agree.2.2 (by decide +kernel)).2⟩

end RaceTracker.Web
