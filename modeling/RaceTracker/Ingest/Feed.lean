import RaceTracker.Ingest.Radio
import RaceTracker.Ingest.Signalr

namespace RaceTracker.Ingest

open RaceTracker.Lib RaceTracker.Model

/-! The live feed's messages, folded into the state the publish paths read.

An exception ends a handler where it stands: what it had folded in stays, and the
dispatcher goes on with the next message.
-/

structure DriverInfo where
  code : Json
  team : Json

def DriverInfo.unknown : DriverInfo := ⟨.str "???", .str "Unknown"⟩

/-- `TEAM_MAP.get(raw_team, raw_team)`: a list or a dict cannot be a key. -/
def teamName : Json → Except PyError Json
  | .str raw => .ok (.str ((teamMap.lookup raw).getD raw))
  | .arr _ => .error .typeError
  | .obj _ => .error .typeError
  | raw => .ok raw

def driverPatch (info : Dict String DriverInfo) (entry : String × Json) :
    Dict String DriverInfo × Option PyError :=
  match entry.2 with
  | .obj patch =>
      let held := (info.get? entry.1).getD .unknown
      let held := { held with code := (Json.lookup "Tla" patch).getD held.code }
      match Json.lookup "TeamName" patch with
      | none => (info.set entry.1 held, none)
      | some raw => match teamName raw with
          | .ok team => (info.set entry.1 { held with team }, none)
          | .error error => (info.set entry.1 held, some error)
  | _ => (info, none)

/-- Fold one DriverList patch dict in. -/
def applyDriverList (info : Dict String DriverInfo) (payload : List (String × Json)) :
    Dict String DriverInfo × Option PyError :=
  foldUntil driverPatch info (Dict.ofMembers payload).entries

/-- The loop over a payload's `Lines`; other JSON than a dict has no `items`. -/
def overLines {σ : Type} (step : σ → String × Json → σ × Option PyError) (state : σ)
    (payload : List (String × Json)) : σ × Option PyError :=
  match (Json.lookup "Lines" payload).getD (.obj []) with
  | .obj lines => foldUntil step state (Dict.ofMembers lines).entries
  | _ => (state, some .attributeError)

/-- The loop over something; other JSON than a list, a dict or a text cannot be iterated. -/
def iterate : Json → Except PyError (List Json)
  | .arr items => .ok items
  | .obj members => .ok ((Dict.ofMembers members).keys.map .str)
  | .str text => .ok (text.toList.map fun char => .str (String.ofList [char]))
  | _ => .error .typeError

/-- What the topics other than `Position.z` have said about the drivers. -/
structure Reports where
  driverInfo : Dict String DriverInfo
  runningPositions : Dict String Int
  timingExtra : Dict String Timing
  tyreExtra : Dict String Tyre

section

variable {γ β : Type} (builtins : Builtins γ β)

/-- The running positions and the timing fields, after one more line. -/
def timingLine (state : Dict String Int × Dict String Timing) (entry : String × Json) :
    (Dict String Int × Dict String Timing) × Option PyError :=
  match entry.2 with
  | .obj line =>
      let position := match Json.lookup "Position" line with
        | some position => Builtins.caught (builtins.int position)
        | none => .ok none
      match position with
      | .error error => (state, some error)
      | .ok position =>
          let positions := match position with
            | some position => state.1.set entry.1 position
            | none => state.1
          match builtins.parseTimingLine line with
          | .error error => ((positions, state.2), some error)
          | .ok parsed =>
              if parsed = .none then ((positions, state.2), none)
              else
                let held := (state.2.get? entry.1).getD .none
                ((positions, state.2.set entry.1 (held.update parsed)), none)
  | _ => (state, none)

def tyreLine (extra : Dict String Tyre) (entry : String × Json) :
    Dict String Tyre × Option PyError :=
  match entry.2 with
  | .obj line => match builtins.parseTyreLine line with
      | .error error => (extra, some error)
      | .ok parsed =>
          if parsed = .none then (extra, none)
          else (extra.set entry.1 (((extra.get? entry.1).getD .none).update parsed), none)
  | _ => (extra, none)

def applyTimingData (positions : Dict String Int) (extra : Dict String Timing)
    (payload : List (String × Json)) : (Dict String Int × Dict String Timing) × Option PyError :=
  overLines (timingLine builtins) (positions, extra) payload

def applyTyreData (extra : Dict String Tyre) (payload : List (String × Json)) :
    Dict String Tyre × Option PyError :=
  overLines (tyreLine builtins) extra payload

/-- One coordinate; `none` is an exception that the loop passes over. -/
def coordinate (name : String) (coords : List (String × Json)) : Except PyError (Option γ) :=
  match Json.lookup name coords with
  | none => .ok none
  | some value => match builtins.float value with
      | .ok value => .ok (some value)
      | .error .valueError => .ok none
      | .error .typeError => .ok none
      | .error error => .error error

/-- The car dict of one `Position.z` record. -/
def recordCar (reports : Reports) (number : String) (status : Json) (p : Point) : Car :=
  let info := (reports.driverInfo.get? number).getD .unknown
  let timing := (reports.timingExtra.get? number).getD .none
  let tyre := (reports.tyreExtra.get? number).getD .none
  { driverNum := builtins.safeInt number
    code := info.code
    team := info.team
    pos := some ((reports.runningPositions.get? number).getD unknownPos)
    lap := timing.lap
    p
    status := some (mapStatus status)
    tyre := tyre.tyre
    tyreAge := tyre.tyreAge
    lastLapMs := timing.lastLapMs
    bestLapMs := none
    s1Ms := none
    s2Ms := none
    s3Ms := none
    gapMs := timing.gapMs
    gapLaps := timing.gapLaps
    intMs := timing.intMs
    speed := none
    gear := none
    throttle := none
    brake := none
    drs := none }

/-- The bounds, and the car dicts made so far under their racing numbers, after one more record. -/
def positionRecord (reports : Reports) (state : β × List (String × Car)) (entry : String × Json) :
    (β × List (String × Car)) × Option PyError :=
  match entry.2 with
  | .obj coords => match coordinate builtins "X" coords with
      | .error error => (state, some error)
      | .ok none => (state, none)
      | .ok (some x) => match coordinate builtins "Y" coords with
          | .error error => (state, some error)
          | .ok none => (state, none)
          | .ok (some y) =>
              let (bounds, p) := builtins.place state.1 x y
              let status := (Json.lookup "Status" coords).getD (.str "OnTrack")
              ((bounds, state.2 ++ [(entry.1, recordCar builtins reports entry.1 status p)]), none)
  | _ => (state, none)

def positionSample (reports : Reports) (state : β × List (String × Car)) (sample : Json) :
    (β × List (String × Car)) × Option PyError :=
  match sample with
  | .obj members => match (Json.lookup "Entries" members).getD (.obj []) with
      | .obj entries =>
          foldUntil (positionRecord builtins reports) state (Dict.ofMembers entries).entries
      | _ => (state, some .attributeError)
  | _ => (state, some .attributeError)

/-- The new dicts of a decoded `Position.z` payload, in the order `latest_cars` takes them. -/
def applyPositionSamples (reports : Reports) (bounds : β) (samples : Json) :
    (β × List (String × Car)) × Option PyError :=
  match iterate samples with
  | .error error => ((bounds, []), some error)
  | .ok samples => foldUntil (positionSample builtins reports) (bounds, []) samples

end

inductive Topic where
  | driverList
  | timingData
  | timingAppData
  | sessionInfo
  | teamRadio
  | position
  | other
deriving DecidableEq

/-- How the two Redis calls of a publish went. -/
inductive Bus where
  | delivered
  | setFails
  | publishFails
deriving DecidableEq

/-- A message as the dispatcher hands it over, with what the clocks and the bus do to it. -/
structure Message where
  topic : Topic
  payload : Json
  /-- The rate limiter lets a publish through. -/
  due : Bool
  timeMs : Int
  now : Int
  bus : Bus

/-- One publish: the two texts, the refs that ride it, and how it went. -/
structure Publish where
  stored : Json
  text : Json
  radio : List RadioRef
  bus : Bus

/-- Everything the handler's closure holds. -/
structure Feed (β : Type) where
  run : LiveRun
  /-- The identity that the next car dict gets. -/
  fresh : Nat
  bounds : β
  driverInfo : Dict String DriverInfo
  timingExtra : Dict String Timing
  tyreExtra : Dict String Tyre
  desk : RadioDesk

namespace Feed

variable {γ β : Type} (builtins : Builtins γ β)

/-- Connecting: nothing is known yet, and the empty snapshot is stored. -/
def start (session label : String) (stored : Option Json) (dicts : Nat → Car) (bounds : β) :
    Except PyError (Feed β × Json) := do
  let (run, text) ← LiveRun.start builtins.intText session label stored dicts
  return ({ run, fresh := 0, bounds, driverInfo := .empty, timingExtra := .empty
            tyreExtra := .empty, desk := .start }, text)

variable {builtins} in
theorem start_eq {session label : String} {stored : Option Json} {dicts : Nat → Car} {bounds : β}
    {feed : Feed β} {text : Json}
    (begun : start builtins session label stored dicts bounds = .ok (feed, text)) :
    ∃ rev, feed = {
        run := {
          session
          snapshot := buildSnapshot session label (.arr []) [] (.obj []) (.obj []) (.int 0) rev
          rev
          dicts
          latestCars := .empty
          runningPositions := .empty }
        fresh := 0, bounds, driverInfo := .empty, timingExtra := .empty, tyreExtra := .empty
        desk := .start } ∧ text = feed.run.snapshot.dumps dicts := by
  obtain ⟨⟨run, written⟩, started, built⟩ := bind_eq_ok_iff.mp begun
  obtain ⟨rev, _, made⟩ := bind_eq_ok_iff.mp started
  cases made
  cases built
  exact ⟨rev, rfl, rfl⟩

variable (feed : Feed β)

def reports : Reports where
  driverInfo := feed.driverInfo
  runningPositions := feed.run.runningPositions
  timingExtra := feed.timingExtra
  tyreExtra := feed.tyreExtra

/-- A new dict takes the place of the driver's last one. -/
def record (feed : Feed β) (entry : String × Car) : Feed β :=
  { feed with
    run := { feed.run with
      dicts := Function.update feed.run.dicts feed.fresh entry.2
      latestCars := feed.run.latestCars.set entry.1 feed.fresh }
    fresh := feed.fresh + 1 }

theorem record_fresh (entry : String × Car) : (feed.record entry).run.dicts feed.fresh = entry.2 :=
  Function.update_self ..

theorem record_other (entry : String × Car) {id : Nat} (old : id ≠ feed.fresh) :
    (feed.record entry).run.dicts id = feed.run.dicts id :=
  Function.update_of_ne old ..

theorem record_below (entry : String × Car)
    (below : ∀ listed ∈ feed.run.latestCars.entries, listed.2 < feed.fresh) :
    ∀ listed ∈ (feed.record entry).run.latestCars.entries, listed.2 < (feed.record entry).fresh := by
  intro listed member
  rcases Dict.mem_putEntry member with rfl | old
  · exact Nat.lt_succ_self feed.fresh
  · exact (below listed old).trans (Nat.lt_succ_self _)

/-- Recording dicts leaves alone what recording one does. -/
theorem records_kept {τ : Type} (view : Feed β → τ)
    (kept : ∀ (feed : Feed β) (entry : String × Car), view (feed.record entry) = view feed)
    (feed : Feed β) (entries : List (String × Car)) :
    view (entries.foldl record feed) = view feed := by
  induction entries generalizing feed with
  | nil => rfl
  | cons entry rest ih => exact (ih (feed.record entry)).trans (kept feed entry)

/-- The rate-limited publish, with every ref that is pending. -/
def publish (message : Message) : Feed β × Publish :=
  let radio := feed.desk.pendingRadio
  let (run, stored, text) :=
    feed.run.publishFrame message.timeMs message.now (radio.map RadioRef.dumps)
  ({ feed with run, desk := { feed.desk with pendingRadio := [] } },
    { stored, text, radio, bus := message.bus })

/-- A `Position.z` message: fold its records in, then publish if it is time. -/
def position (message : Message) : Feed β × Option Publish :=
  let samples := builtins.decodePositionPayload message.payload
  let ((bounds, records), raised) :=
    applyPositionSamples builtins feed.reports feed.bounds samples
  let feed := records.foldl record { feed with bounds }
  if raised.isSome ∨ message.due = false ∨ feed.run.latestCars.entries = [] then (feed, none)
  else
    let (feed, sent) := feed.publish message
    (feed, some sent)

/-- `handle_message`.  What it raises the dispatcher logs and forgets. -/
def handleMessage (message : Message) : Feed β × Option Publish :=
  match message.topic, message.payload with
  | .driverList, .obj payload =>
      ({ feed with driverInfo := (applyDriverList feed.driverInfo payload).1 }, none)
  | .timingData, .obj payload =>
      let (positions, extra) :=
        (applyTimingData builtins feed.run.runningPositions feed.timingExtra payload).1
      ({ feed with
        run := { feed.run with runningPositions := positions }
        timingExtra := extra }, none)
  | .timingAppData, .obj payload =>
      ({ feed with tyreExtra := (applyTyreData builtins feed.tyreExtra payload).1 }, none)
  | .sessionInfo, payload =>
      ({ feed with desk := (feed.desk.sessionInfo builtins payload).1 }, none)
  | .teamRadio, payload =>
      ({ feed with desk := (feed.desk.teamRadio builtins payload).1 }, none)
  | .position, _ => feed.position builtins message
  | _, _ => (feed, none)

/-- A payload that is JSON in a text is loaded; the compressed ones are not, and pass through. -/
def decodePayload : Json → Json
  | .str text => (builtins.loads text).getD (.str text)
  | payload => payload

def dispatch (message : Message) : Feed β × Option Publish :=
  feed.handleMessage builtins { message with payload := decodePayload builtins message.payload }

/-- A stream of messages, and its publishes in order. -/
def dispatchAll (feed : Feed β) : List Message → Feed β × List Publish
  | [] => (feed, [])
  | message :: rest =>
      let (next, sent) := feed.dispatch builtins message
      let (last, later) := dispatchAll next rest
      (last, sent.toList ++ later)

/-- The end of the stream: whatever is pending rides a trailing frame, best effort. -/
def shutdownFlushRadio (timeMs now : Int) (bus : Bus) : Feed β × Option Publish :=
  let radio := feed.desk.pendingRadio
  if radio = [] then (feed, none)
  else
    let (run, stored, text) :=
      feed.run.publishTrailingRadioFrame timeMs now (radio.map RadioRef.dumps)
    let pendingRadio := if bus = .delivered then [] else radio
    ({ feed with run, desk := { feed.desk with pendingRadio } },
      some { stored, text, radio, bus })

theorem shutdownFlushRadio_some {feed : Feed β} {timeMs now : Int} {bus : Bus} {sent : Publish}
    (flushed : (feed.shutdownFlushRadio timeMs now bus).2 = some sent) :
    let trailing := feed.run.publishTrailingRadioFrame timeMs now
      (feed.desk.pendingRadio.map RadioRef.dumps)
    sent = { stored := trailing.2.1, text := trailing.2.2, radio := feed.desk.pendingRadio, bus } := by
  rw [shutdownFlushRadio] at flushed
  simp only at flushed
  split at flushed
  · cases flushed
  · cases flushed
    rfl

/-- The frames of a whole stream, the trailing one included. -/
def allFrames (messages : List Message) (timeMs now : Int) (bus : Bus) : List Publish :=
  let (last, frames) := feed.dispatchAll builtins messages
  frames ++ (last.shutdownFlushRadio timeMs now bus).2.toList

end Feed

/-- Built-ins that read a small feed's texts as Python's do; every sample lies where the first
one does. -/
def plainBuiltins : Builtins Rat Unit where
  intText := parseDecimal
  float value := match value with
    | .num number => .ok number.value
    | _ => .error .valueError
  milliseconds _ := .error .valueError
  lapMilliseconds _ _ := .error .valueError
  strip text := text
  upper text := text
  isDigit := Char.isDigit
  loads _ := none
  inflate _ := .failed
  epochMs utc := if utc = "2024-09-01T13:00:00Z" then .ok 1725195600000 else .error .valueError
  place _ _ _ := ((), ⟨Codec.float64.zero, ⟨1, by decide, by decide +kernel⟩⟩)

def plainMessage (topic : Topic) (payload : Json) : Message where
  topic := topic
  payload := payload
  due := true
  timeMs := 1000
  now := 1000
  bus := .delivered

def bothCars : Json := .obj [("Position", .arr [.obj [("Entries", .obj [
  ("1", .obj [("X", .int 0), ("Y", .int 0)]), ("44", .obj [("X", .int 0), ("Y", .int 0)])])]])]

def oneCapture : Json := .obj [("Captures", .arr [.obj [
  ("Utc", .str "2024-09-01T13:00:00Z"), ("RacingNumber", .str "44"), ("Path", .str "a.mp3")]])]

def quietFeed : Feed Unit where
  run := {
    session := "live"
    snapshot := buildSnapshot "live" "Live" (.arr []) [] (.obj []) (.obj []) (.int 0) 0
    rev := 0
    dicts := fun _ => leaderCar
    latestCars := .empty
    runningPositions := .empty }
  fresh := 0
  bounds := ()
  driverInfo := .empty
  timingExtra := .empty
  tyreExtra := .empty
  desk := .start

theorem quietFeed_start :
    Feed.start plainBuiltins "live" "Live" none (fun _ => leaderCar) () =
      .ok (quietFeed, quietFeed.run.snapshot.dumps quietFeed.run.dicts) := rfl

end RaceTracker.Ingest
