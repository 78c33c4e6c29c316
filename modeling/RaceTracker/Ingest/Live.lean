import RaceTracker.Ingest.Cars
import RaceTracker.Lib.Outcome
import RaceTracker.Lib.Rolling

namespace RaceTracker.Ingest

open RaceTracker.Lib RaceTracker.Model

/-! The Python clip writer, and the contract helpers the live writer shares with it. -/

inductive PyError where
  | valueError
  | typeError
  | attributeError
  | overflowError
  | systemExit
deriving DecidableEq, Repr

section

-- Python's `int` of a text; `none` is a `ValueError`.
variable (intText : String → Option Int)

/-- `int` of a loaded JSON value.  A float is cut off towards zero, an infinite one is refused. -/
def pyInt : Json → Except PyError Int
  | .num number =>
      if number.plain then .ok (number.value.num.tdiv number.value.den)
      else match Codec.readFloat64 number with
        | some float => .ok (float.value.num.tdiv float.value.den)
        | none => .error .overflowError
  | .bool value => .ok (if value then 1 else 0)
  | .str text => match intText text with
      | some value => .ok value
      | none => .error .valueError
  | _ => .error .typeError

/-- Continue above whatever a previous run left; a `ValueError` counts as a corrupt snapshot. -/
def startingRev (stored : Option Json) : Except PyError Int :=
  match stored with
  | none => .ok 0
  | some (.obj members) =>
      match pyInt intText ((Json.lookup "rev" members).getD (.int 0)) with
      | .error .valueError => .ok 0
      | result => result
  | some _ => .error .attributeError

end

/-- The running snapshot dict.  Its `cars` hold car dicts, by value or by identity. -/
structure LiveSnapshot (κ : Type) where
  session : String
  label : String
  track : Json
  radio : List Json
  lapTrace : Json
  totalLaps : Json
  stints : Json
  cars : Dict String κ
  timeMs : Int
  rev : Int
  messages : Option (List Json)
  weather : Option Json

variable {κ : Type}

def buildSnapshot (session label : String) (track : Json) (radio : List Json)
    (lapTrace stints totalLaps : Json) (rev : Int) : LiveSnapshot κ where
  session := session
  label := label
  track := track
  radio := radio
  lapTrace := lapTrace
  totalLaps := totalLaps
  stints := stints
  cars := .empty
  timeMs := 0
  rev := rev
  messages := none
  weather := none

def LiveSnapshot.entries (snapshot : LiveSnapshot κ) (car : κ → Car) : List (String × Option Json) :=
  [("session", some (.str snapshot.session)), ("mode", some (.str "live")),
    ("label", some (.str snapshot.label)), ("track", some snapshot.track),
    ("radio", some (.arr snapshot.radio)), ("lapTrace", some snapshot.lapTrace),
    ("totalLaps", some snapshot.totalLaps), ("stints", some snapshot.stints),
    ("cars", some (.obj (snapshot.cars.entries.map fun entry => (entry.1, (car entry.2).dumps)))),
    ("timeMs", some (.int snapshot.timeMs)), ("rev", some (.int snapshot.rev)),
    ("messages", snapshot.messages.map .arr), ("weather", snapshot.weather)]

theorem LiveSnapshot.names_distinct (snapshot : LiveSnapshot κ) (car : κ → Car) :
    ((snapshot.entries car).map fun entry => Codec.foldName entry.1).Nodup := by
  simp only [LiveSnapshot.entries, List.map_cons, List.map_nil]
  decide

def LiveSnapshot.dumps (snapshot : LiveSnapshot κ) (car : κ → Car) : Json :=
  .obj (Codec.members (snapshot.entries car))

theorem LiveSnapshot.get?_dumps {snapshot : LiveSnapshot κ} {car : κ → Car} {name : String}
    {json : Option Json} (entry : (name, json) ∈ snapshot.entries car) :
    (snapshot.dumps car).get? name = json :=
  Codec.lookup_members (Codec.names_distinct (snapshot.names_distinct car)) entry

/-- A frame around cars that stand in running order; empty parts are left out. -/
def frameEntries (session : String) (rev now timeMs : Int) (cars messages : List Json)
    (weather : Option Json) (radio : List Json) : List (String × Option Json) :=
  [("session", some (.str session)), ("rev", some (.int rev)), ("t", some (.int now)),
    ("timeMs", some (.int timeMs)), ("cars", some (.arr cars)),
    ("messages", if messages = [] then none else some (.arr messages)), ("weather", weather),
    ("radio", if radio = [] then none else some (.arr radio))]

theorem frameEntries_distinct (session : String) (rev now timeMs : Int) (cars messages : List Json)
    (weather : Option Json) (radio : List Json) :
    ((frameEntries session rev now timeMs cars messages weather radio).map fun entry =>
      Codec.foldName entry.1).Nodup := by
  simp only [frameEntries, List.map_cons, List.map_nil]
  decide

theorem get?_frame {session name : String} {rev now timeMs : Int} {cars messages radio : List Json}
    {weather json : Option Json}
    (entry : (name, json) ∈ frameEntries session rev now timeMs cars messages weather radio) :
    (Json.obj (Codec.members
      (frameEntries session rev now timeMs cars messages weather radio))).get? name = json :=
  Codec.lookup_members (Codec.names_distinct (frameEntries_distinct ..)) entry

/-- Every publish path goes through here, so every frame's positions are reconciled. -/
def buildFrame {α : Type} (session : String) (rev now timeMs : Int) (cars : List (α × Car))
    (messages : List Json) (weather : Option Json) (radio : List Json) : List (α × Car) × Json :=
  let cars := reconcile cars
  (cars, .obj (Codec.members
    (frameEntries session rev now timeMs (cars.map fun car => car.2.dumps) messages weather radio)))

def foldMessages (existing new : List Json) : List Json := keepLast 30 (existing ++ new)

structure ClipHeader where
  label : Option String
  track : Option Json
  radio : Option (List Json)
  lapTrace : Option Json
  totalLaps : Option Json
  stints : Option Json

/-- A clip's frame; an absent or null part is empty. -/
structure ClipFrame where
  timeMs : Int
  cars : List Car
  messages : List Json
  weather : Option Json

/-- The local variables of `publish_clip`.  The frames rotate: a frame that was played
comes round again after the others. -/
structure ClipRun where
  session : String
  snapshot : LiveSnapshot Car
  rev : Int
  frames : List ClipFrame

def ClipRun.start (intText : String → Option Int) (session : String) (labelOverride : Option String)
    (header : ClipHeader) (frames : List ClipFrame) (stored : Option Json) : Except PyError ClipRun := do
  if frames = [] then throw .systemExit
  let label := (labelOverride.filter (· ≠ "")).getD (header.label.getD "Live")
  let rev ← startingRev intText stored
  let snapshot := buildSnapshot session label (header.track.getD (.arr [])) (header.radio.getD [])
    (header.lapTrace.getD (.obj [])) (header.stints.getD (.obj [])) (header.totalLaps.getD (.int 0)) rev
  return { session, snapshot, rev := snapshot.rev, frames }

/-- The dict that `tag` names, as reconciliation left it. -/
def written (reconciled : List (Nat × Car)) (tag : Nat) (car : Car) : Car :=
  ((reconciled.find? fun entry => entry.1 = tag).map Prod.snd).getD car

/-- One frame of the loop: the run after it, the snapshot to store and the frame to publish. -/
def ClipRun.turn (run : ClipRun) (now : Int) : Option (ClipRun × Json × Json) :=
  match run.frames with
  | [] => none
  | frame :: rest =>
      let rev := run.rev + 1
      let tagged := frame.cars.mapIdx fun index car => (index, car)
      let (cars, text) :=
        buildFrame run.session rev now frame.timeMs tagged frame.messages frame.weather []
      -- The cars are folded in before they are reconciled, but they are the same dicts.
      let folded := tagged.foldl (fun folded entry =>
        let car := written cars entry.1 entry.2
        folded.set (decimal car.driverNum) car) run.snapshot.cars
      let messages :=
        if frame.messages = [] then run.snapshot.messages
        else some (foldMessages (run.snapshot.messages.getD []) frame.messages)
      let snapshot := { run.snapshot with
        cars := folded, messages, weather := frame.weather.or run.snapshot.weather
        timeMs := frame.timeMs, rev }
      let played := { frame with cars := cars.map Prod.snd }
      some ({ run with snapshot, rev, frames := rest ++ [played] }, snapshot.dumps id, text)

end RaceTracker.Ingest
