import RaceTracker.Ingest.Parsers

namespace RaceTracker.Ingest

open RaceTracker.Lib RaceTracker.Model

/-! Team radio on the live lane: from a TeamRadio payload to the refs that ride a frame. -/

/-- A wire radio ref. -/
structure RadioRef where
  timeMs : Int
  driverNum : Int
  clip : String
deriving DecidableEq

def RadioRef.dumps (ref : RadioRef) : Json :=
  .obj [("timeMs", .int ref.timeMs), ("driverNum", .int ref.driverNum), ("clip", .str ref.clip)]

def staticBase : String := "https://livetiming.formula1.com"

def dropSlashes (chars : List Char) : List Char := chars.dropWhile (· = '/')

def stripLeft (text : String) : String := String.ofList (dropSlashes text.toList)

def stripRight (text : String) : String :=
  String.ofList (dropSlashes text.toList.reverse).reverse

/-- The clip's URL, whatever slashes its parts begin and end with. -/
def clipUrl (base sessionPath path : String) : String :=
  stripRight base ++ "/" ++ stripLeft (stripRight sessionPath) ++ "/" ++ stripLeft path

/-- `dict.get`, with `None` for a key that is missing. -/
def present (name : String) (members : List (String × Json)) : Option Json :=
  match Json.lookup name members with
  | some .null => none
  | value => value

variable {γ β : Type} (builtins : Builtins γ β)

/-- `_utc_to_epoch_ms`: what is no text has no `replace`. -/
def utcToEpochMs : Json → Except PyError Int
  | .str utc => builtins.epochMs utc
  | _ => .error .attributeError

/-- The `try` around the number and the instant skips an entry it cannot read. -/
def readable (number utc : Json) : Except PyError (Option (Int × Int)) :=
  let read := do
    let driverNum ← builtins.int number
    let timeMs ← utcToEpochMs builtins utc
    return (driverNum, timeMs)
  match read with
  | .ok pair => .ok (some pair)
  | .error .attributeError => .ok none
  | .error .typeError => .ok none
  | .error .valueError => .ok none
  | .error error => .error error

/-- One capture: the ref it makes, unless it is skipped. -/
def captureRef (base sessionPath : String) (capture : List (String × Json)) :
    Except PyError (Option RadioRef) :=
  match present "Utc" capture, present "RacingNumber" capture, present "Path" capture with
  | some utc, some number, some path => do
      match ← readable builtins number utc with
      | none => return none
      | some (driverNum, timeMs) =>
          -- The path is not in the `try`.
          match path with
          | .str path => return some { timeMs, driverNum, clip := clipUrl base sessionPath path }
          | _ => throw .attributeError
  | _, _, _ => return none

/-- `seen` and the refs so far, after one more capture. -/
def takeCapture (base sessionPath : String) (state : List String × List RadioRef)
    (capture : List (String × Json)) : (List String × List RadioRef) × Option PyError :=
  match captureRef builtins base sessionPath capture with
  | .error error => (state, some error)
  | .ok none => (state, none)
  | .ok (some ref) =>
      if ref.clip ∈ state.1 then (state, none)
      else ((state.1 ++ [ref.clip], state.2 ++ [ref]), none)

/-- The new refs by time.  An exception leaves `seen` as it had become, and the refs are gone. -/
def liveRadioRefs (captures : List (List (String × Json))) (base sessionPath : String)
    (seen : List String) : List String × Except PyError (List RadioRef) :=
  match foldUntil (takeCapture builtins base sessionPath) (seen, []) captures with
  | ((seen, _), some error) => (seen, .error error)
  | ((seen, out), none) =>
      (seen, .ok (out.mergeSort fun first second => first.timeMs ≤ second.timeMs))

/-- The captures of a payload: a list, or a dict in the order of its indices. -/
def capturesOf (members : List (String × Json)) : List (List (String × Json)) :=
  let captures := match Json.lookup "Captures" members with
    | some (.obj indexed) =>
        ((Dict.ofMembers indexed).entries.mergeSort fun first second =>
          builtins.safeInt first.1 ≤ builtins.safeInt second.1).map Prod.snd
    | some (.arr captures) => captures
    | _ => []
  captures.filterMap fun capture => match capture with
    | .obj members => some members
    | _ => none

def radioFromPayload (payload : Json) (sessionPath : String) (seen : List String) :
    List String × Except PyError (List RadioRef) :=
  match payload with
  | .obj members =>
      if sessionPath = "" then (seen, .ok [])
      else liveRadioRefs builtins (capturesOf builtins members) staticBase sessionPath seen
  | _ => (seen, .ok [])

/-- Where team radio stands between two messages. -/
structure RadioDesk where
  sessionPath : String
  seenClips : List String
  pendingRadio : List RadioRef
  deferredRadio : List Json

def RadioDesk.start : RadioDesk := ⟨"", [], [], []⟩

def sessionPathFromPayload : Json → String
  | .obj members => match Json.lookup "Path" members with
      | some (.str path) => "/static/" ++ path
      | _ => ""
  | _ => ""

/-- The path after a SessionInfo message; one that tells none leaves the old one. -/
def learnedPath (sessionPath : String) (payload : Json) : String :=
  let told := sessionPathFromPayload payload
  if told = "" then sessionPath else told

/-- A TeamRadio message: queue its refs, or park it until the session path is known. -/
def RadioDesk.teamRadio (desk : RadioDesk) (payload : Json) : RadioDesk × Option PyError :=
  if desk.sessionPath = "" then
    ({ desk with deferredRadio := desk.deferredRadio ++ [payload] }, none)
  else match radioFromPayload builtins payload desk.sessionPath desk.seenClips with
    | (seenClips, .error error) => ({ desk with seenClips }, some error)
    | (seenClips, .ok refs) =>
        ({ desk with seenClips, pendingRadio := desk.pendingRadio ++ refs }, none)

/-- The loop over the parked payloads. -/
def drain (sessionPath : String) (state : List String × List RadioRef) (payload : Json) :
    (List String × List RadioRef) × Option PyError :=
  match radioFromPayload builtins payload sessionPath state.1 with
  | (seen, .error error) => ((seen, state.2), some error)
  | (seen, .ok refs) => ((seen, state.2 ++ refs), none)

/-- A SessionInfo message: learn the path, then flush what was parked.  If that raises, the refs
drained so far are gone, and everything stays parked. -/
def RadioDesk.sessionInfo (desk : RadioDesk) (payload : Json) : RadioDesk × Option PyError :=
  let desk := { desk with sessionPath := learnedPath desk.sessionPath payload }
  if desk.sessionPath = "" ∨ desk.deferredRadio = [] then (desk, none)
  else match foldUntil (drain builtins desk.sessionPath) (desk.seenClips, []) desk.deferredRadio with
    | ((seenClips, _), some error) => ({ desk with seenClips }, some error)
    | ((seenClips, refs), none) =>
        ({ desk with
          seenClips, pendingRadio := desk.pendingRadio ++ refs, deferredRadio := [] }, none)

end RaceTracker.Ingest
