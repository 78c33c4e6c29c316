import RaceTracker.Lib.Outcome
import RaceTracker.Lib.Rolling
import RaceTracker.Model.Types

namespace RaceTracker.Model

open RaceTracker.Lib

/-! Folding a frame into a snapshot: idempotent on `rev`, loop-aware for replaying clips. -/

/-- The run-time panics the modelled code can raise. -/
inductive Panic where
  | assignmentToNilMap
deriving DecidableEq, Repr

def maxMessages : Nat := 30

def storeCars : Option (Dict Int64 CarState) → List CarState →
    Except Panic (Option (Dict Int64 CarState))
  | cars, [] => .ok cars
  | none, _ :: _ => .error .assignmentToNilMap
  | some cars, car :: rest => storeCars (some (cars.set car.driverNum car)) rest

/-- Append, then cut the buffer back to its cap if it has outgrown it. -/
def appendMessages (messages new : List RaceControlMessage) : List RaceControlMessage :=
  if 0 < new.length then
    let appended := messages ++ new
    if maxMessages < appended.length then appended.drop (appended.length - maxMessages)
    else appended
  else messages

def apply (snapshot : Snapshot) (frame : Frame) : Except Panic (Snapshot × Bool) :=
  if frame.rev ≤ snapshot.rev then .ok (snapshot, false)
  else do
    let cars ← storeCars snapshot.cars (frame.cars.getD [])
    -- A clip that loops rewinds its clock; the old pass's messages go with it.
    let carried := if frame.timeMs < snapshot.timeMs then [] else snapshot.messages
    return ({ snapshot with
      cars
      messages := appendMessages carried frame.messages
      radio := snapshot.radio ++ frame.radio
      weather := frame.weather.or snapshot.weather
      timeMs := frame.timeMs
      rev := frame.rev }, true)

def Frame.carList (frame : Frame) : List CarState := frame.cars.getD []

def setCars (cars : Dict Int64 CarState) (list : List CarState) : Dict Int64 CarState :=
  list.foldl (fun cars car => cars.set car.driverNum car) cars

def carriedMessages (snapshot : Snapshot) (frame : Frame) : List RaceControlMessage :=
  if frame.timeMs < snapshot.timeMs then [] else snapshot.messages

def advance (snapshot : Snapshot) (frame : Frame) : Snapshot :=
  { snapshot with
    cars := snapshot.cars.map fun cars => setCars cars frame.carList
    messages := push maxMessages (carriedMessages snapshot frame) frame.messages
    radio := snapshot.radio ++ frame.radio
    weather := frame.weather.or snapshot.weather
    timeMs := frame.timeMs
    rev := frame.rev }

/-- The fold can write its cars: there is a map, or there is nothing to write. -/
def Writable (snapshot : Snapshot) (frame : Frame) : Prop :=
  snapshot.cars ≠ none ∨ frame.carList = []

instance (snapshot : Snapshot) (frame : Frame) : Decidable (Writable snapshot frame) :=
  inferInstanceAs (Decidable (_ ∨ _))

/-- The frames that pass the staleness check, starting at revision `rev`. -/
def advancing (rev : Int64) : List Frame → List Frame
  | [] => []
  | frame :: rest =>
      if frame.rev ≤ rev then advancing rev rest else frame :: advancing frame.rev rest

theorem storeCars_some (cars : Dict Int64 CarState) (list : List CarState) :
    storeCars (some cars) list = .ok (some (setCars cars list)) := by
  induction list generalizing cars with
  | nil => rfl
  | cons car rest ih => simpa [storeCars, setCars] using ih (cars.set car.driverNum car)

theorem appendMessages_eq_push (messages new : List RaceControlMessage) :
    appendMessages messages new = push maxMessages messages new := by
  unfold appendMessages push
  by_cases empty : new = []
  · simp [empty]
  · simp only [List.length_pos_iff, ne_eq, empty, not_false_eq_true, if_true, if_false]
    split
    · rfl
    · rw [keepLast_of_short (by omega)]

theorem apply_stale {snapshot : Snapshot} {frame : Frame} (stale : frame.rev ≤ snapshot.rev) :
    apply snapshot frame = .ok (snapshot, false) := by
  simp [apply, stale]

theorem apply_advancing {snapshot : Snapshot} {frame : Frame} (newer : ¬ frame.rev ≤ snapshot.rev)
    (writable : Writable snapshot frame) :
    apply snapshot frame = .ok (advance snapshot frame, true) := by
  have stored : storeCars snapshot.cars (frame.cars.getD []) =
      .ok (snapshot.cars.map fun cars => setCars cars frame.carList) := by
    cases held : snapshot.cars with
    | some cars => exact storeCars_some cars _
    | none =>
        have nothing : frame.cars.getD [] = [] := writable.resolve_left fun present => present held
        rw [nothing]
        rfl
  simp [apply, newer, stored, appendMessages_eq_push, advance, carriedMessages]

theorem apply_panics {snapshot : Snapshot} {frame : Frame} (newer : ¬ frame.rev ≤ snapshot.rev)
    (blocked : ¬ Writable snapshot frame) :
    apply snapshot frame = .error .assignmentToNilMap := by
  obtain ⟨nilMap, cars⟩ := not_or.mp blocked
  have held : snapshot.cars = none := not_not.mp nilMap
  obtain ⟨car, rest, listed⟩ := List.exists_cons_of_ne_nil cars
  have stored : storeCars snapshot.cars (frame.cars.getD []) = .error .assignmentToNilMap := by
    change storeCars snapshot.cars frame.carList = _
    rw [held, listed]
    rfl
  simp [apply, newer, stored]

theorem apply_cases {snapshot after : Snapshot} {frame : Frame} {applied : Bool}
    (result : apply snapshot frame = .ok (after, applied)) :
    (applied = false ∧ after = snapshot ∧ frame.rev ≤ snapshot.rev) ∨
      (applied = true ∧ after = advance snapshot frame ∧ ¬ frame.rev ≤ snapshot.rev ∧
        Writable snapshot frame) := by
  by_cases stale : frame.rev ≤ snapshot.rev
  · rw [apply_stale stale] at result
    cases result
    exact Or.inl ⟨rfl, rfl, stale⟩
  · by_cases writable : Writable snapshot frame
    · rw [apply_advancing stale writable] at result
      cases result
      exact Or.inr ⟨rfl, rfl, stale, writable⟩
    · rw [apply_panics stale writable] at result
      cases result

end RaceTracker.Model
