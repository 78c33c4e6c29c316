import RaceTracker.Ingest.Lines

namespace RaceTracker.Ingest

open RaceTracker.Lib RaceTracker.Model

/-! The records of a `Position.z` payload, and the one bounding box they share. -/

variable {γ β : Type} (builtins : Builtins γ β)

/-- A record that the loop could read. -/
structure Reading (γ : Type) where
  number : String
  status : String
  x : γ
  y : γ

/-- A coordinate that `float` reads, or refuses with an error that the loop catches. -/
def Builtins.quietCoordinate (name : String) (coords : List (String × Json)) : Bool :=
  match Json.lookup name coords with
  | none => true
  | some value => settled [.valueError, .typeError] (builtins.float value)

def Builtins.readCoordinate (name : String) (coords : List (String × Json)) : Option γ :=
  (Json.lookup name coords).bind fun value => (builtins.float value).toOption

def Builtins.reading (entry : String × Json) : Option (Reading γ) :=
  match entry.2 with
  | .obj coords => do
      let x ← builtins.readCoordinate "X" coords
      let y ← builtins.readCoordinate "Y" coords
      let status := mapStatus ((Json.lookup "Status" coords).getD (.str "OnTrack"))
      return { number := entry.1, status, x, y }
  | _ => none

/-- The second coordinate is not looked at when the first cannot be read. -/
def Builtins.quietRecord (entry : String × Json) : Bool :=
  match entry.2 with
  | .obj coords => builtins.quietCoordinate "X" coords &&
      ((builtins.readCoordinate "X" coords).isNone || builtins.quietCoordinate "Y" coords)
  | _ => true

/-- The box after some readings. -/
def boxAfter (box : β) (readings : List (Reading γ)) : β :=
  readings.foldl (fun box reading => (builtins.place box reading.x reading.y).1) box

/-- How and where each reading is shown. -/
def shownAt (box : β) : List (Reading γ) → List (String × String × Point)
  | [] => []
  | reading :: rest =>
      let (box, p) := builtins.place box reading.x reading.y
      (reading.number, reading.status, p) :: shownAt box rest

/-- The car dict of a reading. -/
def shownCar (reports : Reports) (number : String) (spot : String × Point) : Car :=
  { recordCar builtins reports number (.str spot.1) spot.2 with status := some spot.1 }

/-- The entries of a sample. -/
def recordsOf (sample : Json) : List (String × Json) :=
  match sample.get? "Entries" with
  | some (.obj entries) => (Dict.ofMembers entries).entries
  | _ => []

def recordsIn : Json → List (String × Json)
  | .arr samples => samples.flatMap recordsOf
  | _ => []

def Builtins.quietSample : Json → Bool
  | .obj members => match (Json.lookup "Entries" members).getD (.obj []) with
      | .obj entries => (Dict.ofMembers entries).entries.all builtins.quietRecord
      | _ => false
  | _ => false

def Builtins.quietSamples (samples : Json) : Bool :=
  match iterate samples with
  | .ok samples => samples.all builtins.quietSample
  | .error _ => false

theorem coordinate_eq (name : String) (coords : List (String × Json)) :
    (coordinate builtins name coords).toOption.isSome = builtins.quietCoordinate name coords ∧
      (coordinate builtins name coords).toOption.join = builtins.readCoordinate name coords := by
  unfold coordinate Builtins.quietCoordinate Builtins.readCoordinate
  cases Json.lookup name coords with
  | none => exact ⟨rfl, rfl⟩
  | some value =>
      simp only [Option.bind_some]
      cases builtins.float value with
      | ok value => exact ⟨rfl, rfl⟩
      | error error => cases error <;> exact ⟨rfl, rfl⟩

theorem positionRecord_tells (reports : Reports) (state : β × List (String × Car))
    (entry : String × Json) :
    (positionRecord builtins reports state entry).2.isNone = builtins.quietRecord entry := by
  obtain ⟨number, value⟩ := entry
  cases value with
  | obj coords =>
      obtain ⟨quietX, readX⟩ := coordinate_eq builtins "X" coords
      obtain ⟨quietY, readY⟩ := coordinate_eq builtins "Y" coords
      simp only [positionRecord, Builtins.quietRecord]
      rw [← quietX, ← quietY, ← readX]
      cases coordinate builtins "X" coords with
      | error error => rfl
      | ok x =>
          cases x with
          | none => rfl
          | some x =>
              cases coordinate builtins "Y" coords with
              | error error => rfl
              | ok y => cases y <;> rfl
  | _ => rfl

theorem positionRecord_step (reports : Reports) (state : β × List (String × Car))
    (entry : String × Json) :
    (positionRecord builtins reports state entry).1 =
      match builtins.reading entry with
      | none => state
      | some reading =>
          let (box, p) := builtins.place state.1 reading.x reading.y
          let car := shownCar builtins reports reading.number (reading.status, p)
          (box, state.2 ++ [(reading.number, car)]) := by
  obtain ⟨number, value⟩ := entry
  cases value with
  | obj coords =>
      obtain ⟨_, readX⟩ := coordinate_eq builtins "X" coords
      obtain ⟨_, readY⟩ := coordinate_eq builtins "Y" coords
      simp only [positionRecord, Builtins.reading]
      rw [← readX, ← readY]
      cases coordinate builtins "X" coords with
      | error error => rfl
      | ok x =>
          cases x with
          | none => rfl
          | some x =>
              cases coordinate builtins "Y" coords with
              | error error => rfl
              | ok y => cases y <;> rfl
  | _ => rfl

theorem foldl_records (reports : Reports) (box : β) (cars : List (String × Car))
    (records : List (String × Json)) :
    records.foldl (fun state entry => (positionRecord builtins reports state entry).1) (box, cars) =
      (boxAfter builtins box (records.filterMap builtins.reading),
        cars ++ (shownAt builtins box (records.filterMap builtins.reading)).map
          fun spot => (spot.1, shownCar builtins reports spot.1 spot.2)) := by
  induction records generalizing box cars with
  | nil => simp [boxAfter, shownAt]
  | cons entry rest ih =>
      rw [List.foldl_cons, positionRecord_step]
      cases read : builtins.reading entry with
      | none => simp only [List.filterMap_cons_none read, ih]
      | some reading =>
          simp only [List.filterMap_cons_some read, ih, boxAfter, shownAt, List.foldl_cons,
            List.map_cons, List.append_assoc, List.singleton_append]

theorem positionSample_tells (reports : Reports) (state : β × List (String × Car)) (sample : Json) :
    (positionSample builtins reports state sample).2.isNone = builtins.quietSample sample := by
  cases sample with
  | obj members =>
      simp only [positionSample, Builtins.quietSample]
      cases (Json.lookup "Entries" members).getD (.obj []) with
      | obj entries =>
          have ends := foldUntil_ends (positionRecord_tells builtins reports) state
            (Dict.ofMembers entries).entries
          rw [Bool.eq_iff_iff, Option.isNone_iff_eq_none, List.all_eq_true]
          exact ends
      | _ => rfl
  | _ => rfl

theorem positionSample_step (reports : Reports) (state : β × List (String × Car)) {sample : Json}
    (quiet : builtins.quietSample sample = true) :
    (positionSample builtins reports state sample).1 = (recordsOf sample).foldl
      (fun state entry => (positionRecord builtins reports state entry).1) state := by
  cases sample with
  | obj members =>
      simp only [positionSample, Builtins.quietSample, recordsOf, Json.get?] at quiet ⊢
      cases found : Json.lookup "Entries" members with
      | none => rfl
      | some value =>
          rw [found] at quiet
          cases value with
          | obj entries =>
              exact congrArg Prod.fst (foldUntil_eq_foldl (positionRecord_tells builtins reports)
                (List.all_eq_true.mp quiet))
          | _ => cases quiet
  | _ => cases quiet

theorem applyPositionSamples_ends (reports : Reports) (box : β) (samples : Json) :
    (applyPositionSamples builtins reports box samples).2 = none ↔
      builtins.quietSamples samples = true := by
  unfold applyPositionSamples Builtins.quietSamples
  cases iterate samples with
  | error error => simp
  | ok samples => simp only [foldUntil_ends (positionSample_tells builtins reports), List.all_eq_true]

theorem texts_are_loud {α : Type} {items : List α} (text : α → String)
    (quiet : (items.map fun item => Json.str (text item)).all builtins.quietSample = true) :
    items = [] := by
  cases items with
  | nil => rfl
  | cons item rest => cases quiet

/-- A payload that does not raise is one pass over its records. -/
theorem applyPositionSamples_eq (reports : Reports) (box : β) {samples : Json}
    (quiet : builtins.quietSamples samples = true) :
    applyPositionSamples builtins reports box samples =
      ((boxAfter builtins box ((recordsIn samples).filterMap builtins.reading),
        (shownAt builtins box ((recordsIn samples).filterMap builtins.reading)).map
          fun spot => (spot.1, shownCar builtins reports spot.1 spot.2)), none) := by
  rw [applyPositionSamples]
  rw [Builtins.quietSamples] at quiet
  cases samples with
  | arr samples =>
      have all := List.all_eq_true.mp quiet
      have steps := foldl_records builtins reports box [] (samples.flatMap recordsOf)
      rw [List.foldl_flatMap] at steps
      simp only [iterate, recordsIn]
      rw [foldUntil_eq_foldl (positionSample_tells builtins reports) all,
        List.foldl_ext _ _ _ fun state sample member =>
          positionSample_step builtins reports state (all sample member), steps, List.nil_append]
  | obj members =>
      simp only [iterate] at quiet ⊢
      rw [texts_are_loud builtins id quiet]
      rfl
  | str text =>
      simp only [iterate] at quiet ⊢
      rw [texts_are_loud builtins (fun char => String.ofList [char]) quiet]
      rfl
  | _ => cases quiet

theorem shownAt_append (box : β) (first second : List (Reading γ)) :
    shownAt builtins box (first ++ second) =
      shownAt builtins box first ++ shownAt builtins (boxAfter builtins box first) second := by
  induction first generalizing box with
  | nil => rfl
  | cons reading rest ih => simp [shownAt, boxAfter, ih]

theorem shownAt_numbers (box : β) (readings : List (Reading γ)) :
    (shownAt builtins box readings).map Prod.fst = readings.map Reading.number := by
  induction readings generalizing box with
  | nil => rfl
  | cons reading rest ih => simp [shownAt, ih]

theorem shown_isSome (box box' : β) (readings : List (Reading γ)) (number : String) :
    (Json.lookup number (shownAt builtins box readings)).isSome =
      (Json.lookup number (shownAt builtins box' readings)).isSome := by
  rw [Bool.eq_iff_iff, Json.lookup_isSome, Json.lookup_isSome, shownAt_numbers, shownAt_numbers]

theorem or_inj {α : Type} {first second : Option α} (same : first.isSome = second.isSome)
    (rest : Option α) : first.or rest = second.or rest ↔ first = second := by
  cases first <;> cases second <;> simp_all

/-- A record shows under another number by the box that it leaves, or not at all. -/
theorem shown_without (box : β) (before after : List (Reading γ)) (reading : Reading γ)
    {other : String} (apart : other ≠ reading.number) :
    Json.lookup other (shownAt builtins box (before ++ reading :: after)) =
        Json.lookup other (shownAt builtins box (before ++ after)) ↔
      Json.lookup other (shownAt builtins
          (builtins.place (boxAfter builtins box before) reading.x reading.y).1 after) =
        Json.lookup other (shownAt builtins (boxAfter builtins box before) after) := by
  have own : Json.lookup other (shownAt builtins (boxAfter builtins box before) (reading :: after)) =
      Json.lookup other (shownAt builtins
        (builtins.place (boxAfter builtins box before) reading.x reading.y).1 after) := by
    rw [shownAt, Json.lookup, if_neg apart.symm, Option.or_none]
  rw [shownAt_append, shownAt_append, Json.lookup_append, Json.lookup_append, own,
    or_inj (shown_isSome builtins _ _ after other)]

end RaceTracker.Ingest
