import RaceTracker.Web.Race

namespace RaceTracker.Web

open RaceTracker.Lib

/-! What the wire validator lets through, against what the reducer needs.

`parseMsg` checks that `cars` is an object or an array and looks at no car.  The
reducer reads `driverNum` of each car of a frame and takes a snapshot's map as it is.
-/

/-- A car object under its own number. -/
def KeyedBy (key : String) (car : Json) : Prop :=
  ∃ number, car.get? "driverNum" = some (.num number) ∧ numberToString number.value = key

def WellKeyed (cars : Dict String Json) : Prop :=
  ∀ key car, cars.get? key = some car → KeyedBy key car

/-- The car is something with properties, and its number can become a key. -/
def Named (car : Json) (key : String) : Prop := car ≠ .null ∧ carKey car = .ok key

def Takes (list : List Json) (key : String) : Prop := ∃ car ∈ list, Named car key

/-- Every car of the list has a key, and a car that is not under its own number is gone in the
end: a later car takes its key, or its key is `__proto__`, which adds no property as long as
nothing shadows the accessor. -/
def Settles : List Json → Prop
  | [] => True
  | car :: rest =>
      (∃ key, Named car key ∧
        if key = "__proto__" then (car.get? "__proto__").isSome → ¬ Takes rest key
        else KeyedBy key car ∨ Takes rest key) ∧ Settles rest

/-- What a message has to meet, beyond what the validator checks. -/
def MsgSound (state : RaceState) : Msg → Prop
  | .snapshot data => ∀ key car, Json.lookup key data.cars = some car → KeyedBy key car
  | .frame data => data.rev ≤ state.rev ∨ Settles (data.cars.getD [])

/-- From message to message nothing is thrown, and the cars are well keyed. -/
def Sound (state : RaceState) : List Json → Prop
  | [] => WellKeyed state.cars
  | value :: rest => WellKeyed state.cars ∧ ∃ next, onMessage state value = .ok next ∧ Sound next rest

/-- Every message that the validator accepts on the way meets its condition. -/
def AllSound (state : RaceState) : List Json → Prop
  | [] => True
  | value :: rest => (∀ message, parseMsg value = some message → MsgSound state message) ∧
      ∀ next, onMessage state value = .ok next → AllSound next rest

theorem numbered_key {key : String} {car : Json} (keyed : KeyedBy key car) : key ≠ "__proto__" := by
  obtain ⟨number, _, rfl⟩ := keyed
  intro same
  have chars := underscore_notMem_numberToString number.value
  rw [same] at chars
  exact chars (by decide)

theorem writeCar_ok_iff {cars after : CarsObject} {car : Json} :
    writeCar cars car = .ok after ↔ ∃ key, Named car key ∧ after = cars.write key car := by
  unfold Named
  cases car with
  | null => simp [writeCar]
  | _ =>
      simp only [writeCar, bind_eq_ok_iff, pure_eq_ok, Except.ok.injEq, ne_eq, reduceCtorEq,
        not_false_eq_true, true_and, eq_comm (a := after)]

theorem takes_cons {car : Json} {key : String} (named : Named car key) (rest : List Json)
    (other : String) : Takes (car :: rest) other ↔ key = other ∨ Takes rest other := by
  have own : Named car other ↔ key = other := by
    constructor
    · intro again
      have same := named.2.symm.trans again.2
      cases same
      rfl
    · intro same
      exact same ▸ named
  simp only [Takes, List.exists_mem_cons_iff, own]

/-- Where an object under construction can still end up well keyed. -/
def Recovers (cars : CarsObject) (list : List Json) : Prop :=
  (∀ key car, cars.own.get? key = some car →
    KeyedBy key car ∨ (key ≠ "__proto__" ∧ Takes list key)) ∧
  (cars.shadowed = true → ¬ Takes list "__proto__") ∧ Settles list

theorem Settles.cons_iff {car : Json} {key : String} (named : Named car key) (rest : List Json) :
    Settles (car :: rest) ↔
      (if key = "__proto__" then (car.get? "__proto__").isSome → ¬ Takes rest key
        else KeyedBy key car ∨ Takes rest key) ∧ Settles rest := by
  constructor
  · intro settles
    obtain ⟨⟨other, again, settled⟩, later⟩ := settles
    have same := named.2.symm.trans again.2
    cases same
    exact ⟨settled, later⟩
  · intro settles
    exact ⟨⟨key, named, settles.1⟩, settles.2⟩

theorem not_recovers_proto {cars : CarsObject} {car : Json} {list : List Json}
    (own : cars.own.get? "__proto__" = some car) : ¬ Recovers cars list := by
  intro recovers
  rcases recovers.1 _ _ own with keyed | ⟨other, _⟩
  · exact numbered_key keyed rfl
  · exact other rfl

theorem recovers_write {cars : CarsObject} {car : Json} {key : String} (named : Named car key)
    (rest : List Json) : Recovers (cars.write key car) rest ↔ Recovers cars (car :: rest) := by
  by_cases proto : key = "__proto__"
  · subst proto
    cases own : cars.own.get? "__proto__" with
    | some held =>
        have written : (cars.write "__proto__" car).own.get? "__proto__" = some car := by
          simp [CarsObject.write, own]
        exact iff_of_false (not_recovers_proto written) (not_recovers_proto own)
    | none =>
        cases shadowed : cars.shadowed with
        | true =>
            -- The accessor is shadowed, so this write makes a property of it.
            have written : (cars.write "__proto__" car).own.get? "__proto__" = some car := by
              simp [CarsObject.write, shadowed]
            apply iff_of_false (not_recovers_proto written)
            intro recovers
            exact recovers.2.1 shadowed ((takes_cons named rest _).mpr (Or.inl rfl))
        | false =>
            have written : cars.write "__proto__" car =
                { cars with shadowed := (car.get? "__proto__").isSome } := by
              simp [CarsObject.write, own, shadowed]
            have others (other : String) : (other ≠ "__proto__" ∧ Takes (car :: rest) other) ↔
                (other ≠ "__proto__" ∧ Takes rest other) := by
              rw [takes_cons named]
              constructor
              · intro taken
                exact ⟨taken.1, taken.2.resolve_left fun same => taken.1 same.symm⟩
              · intro taken
                exact ⟨taken.1, Or.inr taken.2⟩
            rw [written, Recovers, Recovers, Settles.cons_iff named, if_pos rfl]
            simp only [others, shadowed, Bool.false_eq_true, false_implies, true_and]
  · have written : cars.write key car = { cars with own := cars.own.set key car } := by
      simp [CarsObject.write, proto]
    have shadow : Takes (car :: rest) "__proto__" ↔ Takes rest "__proto__" := by
      rw [takes_cons named]
      simp [proto]
    rw [written, Recovers, Recovers, Settles.cons_iff named, if_neg proto, shadow]
    simp only [Dict.get?_set, takes_cons named]
    constructor
    · intro recovers
      obtain ⟨entries, shadowed, settles⟩ := recovers
      refine ⟨?_, shadowed, ?_, settles⟩
      · intro other held found
        by_cases same : key = other
        · exact Or.inr ⟨same ▸ proto, Or.inl same⟩
        · exact (entries other held (by rw [if_neg same]; exact found)).imp id
            fun taken => ⟨taken.1, Or.inr taken.2⟩
      · exact (entries key car (by rw [if_pos rfl])).imp id And.right
    · intro recovers
      obtain ⟨entries, shadowed, settled, settles⟩ := recovers
      refine ⟨?_, shadowed, settles⟩
      intro other held found
      by_cases same : key = other
      · rw [if_pos same] at found
        cases found
        exact same ▸ settled.imp id fun taken => ⟨proto, taken⟩
      · rw [if_neg same] at found
        exact (entries other held found).imp id
          fun taken => ⟨taken.1, taken.2.resolve_left same⟩

theorem writeCars_wellKeyed_iff (list : List Json) (cars : CarsObject) :
    (∃ after, writeCars cars list = .ok after ∧ WellKeyed after.own) ↔ Recovers cars list := by
  induction list generalizing cars with
  | nil =>
      simp [writeCars, Recovers, Takes, Settles, WellKeyed]
  | cons car rest ih =>
      by_cases named : ∃ key, Named car key
      · obtain ⟨key, named⟩ := named
        have step : writeCar cars car = .ok (cars.write key car) :=
          writeCar_ok_iff.mpr ⟨key, named, rfl⟩
        have rewritten : writeCars cars (car :: rest) = writeCars (cars.write key car) rest := by
          rw [writeCars, List.foldlM_cons, step]
          rfl
        rw [rewritten, ih, recovers_write named]
      · refine iff_of_false ?_ ?_
        · intro written
          obtain ⟨after, ran, _⟩ := written
          rw [writeCars, List.foldlM_cons] at ran
          obtain ⟨_, step, _⟩ := bind_eq_ok_iff.mp ran
          obtain ⟨key, some, _⟩ := writeCar_ok_iff.mp step
          exact named ⟨key, some⟩
        · intro recovers
          obtain ⟨⟨key, some, _⟩, _⟩ := recovers.2.2
          exact named ⟨key, some⟩

theorem recovers_iff {cars : Dict String Json} (keyed : WellKeyed cars) (list : List Json) :
    Recovers ⟨cars, false⟩ list ↔ Settles list := by
  constructor
  · intro recovers
    exact recovers.2.2
  · intro settles
    exact ⟨fun key car found => Or.inl (keyed key car found), (fun shadowed => by cases shadowed), settles⟩

theorem applyFrame_iff {state : RaceState} (keyed : WellKeyed state.cars) (data : FrameData) :
    (∃ next, applyFrame state data = .ok next ∧ WellKeyed next.cars) ↔
      data.rev ≤ state.rev ∨ Settles (data.cars.getD []) := by
  by_cases stale : data.rev ≤ state.rev
  · exact iff_of_true ⟨state, if_pos stale, keyed⟩ (Or.inl stale)
  · rw [← recovers_iff keyed, ← writeCars_wellKeyed_iff, applyFrame, if_neg stale]
    simp only [stale, false_or]
    cases writeCars ⟨state.cars, false⟩ (data.cars.getD []) with
    | error thrown => simp
    | ok after =>
        constructor
        · intro applied
          obtain ⟨next, same, held⟩ := applied
          cases same
          exact ⟨after, rfl, held⟩
        · intro written
          obtain ⟨_, same, held⟩ := written
          cases same
          exact ⟨_, rfl, held⟩

theorem onMessage_iff {state : RaceState} (keyed : WellKeyed state.cars) (value : Json) :
    (∃ next, onMessage state value = .ok next ∧ WellKeyed next.cars) ↔
      ∀ message, parseMsg value = some message → MsgSound state message := by
  rw [onMessage]
  cases parseMsg value with
  | none => exact iff_of_true ⟨state, rfl, keyed⟩ fun _ accepted => by cases accepted
  | some message =>
      simp only [Option.some.injEq, forall_eq']
      cases message with
      | snapshot data =>
          have shown : (applySnapshot state data).cars = .ofMembers data.cars := rfl
          simp only [applyMessage, Except.ok.injEq, exists_eq_left', shown, WellKeyed, MsgSound,
            Json.get?_ofMembers]
      | frame data => exact applyFrame_iff keyed data

theorem Sound.keyed {state : RaceState} {values : List Json} (sound : Sound state values) :
    WellKeyed state.cars := by
  cases values with
  | nil => exact sound
  | cons value rest => exact sound.1

theorem sound_iff (values : List Json) {state : RaceState} (keyed : WellKeyed state.cars) :
    Sound state values ↔ AllSound state values := by
  induction values generalizing state with
  | nil => exact iff_of_true keyed trivial
  | cons value rest ih =>
      rw [Sound, AllSound, ← onMessage_iff keyed]
      constructor
      · intro sound
        obtain ⟨_, next, ran, later⟩ := sound
        refine ⟨⟨next, ran, later.keyed⟩, ?_⟩
        intro other again
        cases ran.symm.trans again
        exact (ih later.keyed).mp later
      · intro allowed
        obtain ⟨⟨next, ran, held⟩, later⟩ := allowed
        exact ⟨keyed, next, ran, (ih held).mpr (later next ran)⟩

/-- From the empty state on, nothing throws and the cars stay well keyed exactly when every
accepted message has its cars under their own numbers. -/
theorem validator_is_sound_iff (values : List Json) :
    Sound emptyState values ↔ AllSound emptyState values :=
  sound_iff values fun _ _ found => by cases found

def nullCarFrame : Json :=
  .obj [("type", .str "frame"),
    ("data", .obj [("rev", .int 1), ("timeMs", .int 0), ("cars", .arr [.null])])]

/-- The validator accepts the frame, and the reducer throws on it. -/
theorem null_car_throws : (parseMsg nullCarFrame).isSome = true ∧
    onMessage emptyState nullCarFrame = .error .propertyOfNull ∧
    ¬ Sound emptyState [nullCarFrame] := by
  have thrown : onMessage emptyState nullCarFrame = .error .propertyOfNull := rfl
  refine ⟨rfl, thrown, ?_⟩
  intro sound
  obtain ⟨_, next, ran, _⟩ := sound
  cases thrown.symm.trans ran

end RaceTracker.Web
