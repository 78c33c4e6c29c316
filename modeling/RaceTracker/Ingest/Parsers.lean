import Mathlib.Data.List.Infix
import RaceTracker.Ingest.Live

namespace RaceTracker.Ingest

open RaceTracker.Lib RaceTracker.Model

/-! Pure parsers for the live feed. -/

/-- What a compressed payload holds, once `json.loads` has read it. -/
inductive Inflated where
  | failed
  | oversized
  | loaded (value : Json)

/-- The Python built-ins the feed's code calls: `γ` are its floats, `β` the bounds so far. -/
structure Builtins (γ β : Type) where
  /-- `int` of a text; `none` is a `ValueError`. -/
  intText : String → Option Int
  /-- `float` of a loaded value. -/
  float : Json → Except PyError γ
  /-- `int(round(float(text) * 1000))`. -/
  milliseconds : String → Except PyError Int
  /-- The same of `minutes * 60 + float(text)`. -/
  lapMilliseconds : Int → String → Except PyError Int
  strip : String → String
  upper : String → String
  isDigit : Char → Bool
  /-- `json.loads`; `none` is an exception. -/
  loads : String → Option Json
  /-- Base64, then raw deflate up to the cap, then `json.loads`. -/
  inflate : String → Inflated
  /-- An ISO-8601 instant in epoch milliseconds. -/
  epochMs : String → Except PyError Int
  /-- `bounds.update` with a sample, then `bounds.normalise` of it. -/
  place : β → γ → γ → β × Point

/-- FastF1's team names, and the colour map's keys for them. -/
def teamMap : List (String × String) :=
  [("Red Bull Racing", "Red Bull"), ("Ferrari", "Ferrari"), ("Mercedes", "Mercedes"),
    ("McLaren", "McLaren"), ("Aston Martin", "Aston Martin"), ("Alpine", "Alpine"),
    ("Williams", "Williams"), ("RB", "RB"), ("Kick Sauber", "Kick Sauber"),
    ("Haas F1 Team", "Haas")]

def truthy : Json → Bool
  | .null => false
  | .bool value => value
  | .num number => number.value ≠ 0
  | .str text => text ≠ ""
  | .arr items => !items.isEmpty
  | .obj members => !members.isEmpty

/-- The fields a timing line can set on a car. -/
structure Timing where
  lap : Option Int
  gapMs : Option Int
  gapLaps : Option Int
  intMs : Option Int
  lastLapMs : Option Int
deriving DecidableEq

def Timing.none : Timing := ⟨.none, .none, .none, .none, .none⟩

/-- `dict.update`: a key that is not in the patch keeps its value. -/
def Timing.update (old patch : Timing) : Timing where
  lap := patch.lap.or old.lap
  gapMs := patch.gapMs.or old.gapMs
  gapLaps := patch.gapLaps.or old.gapLaps
  intMs := patch.intMs.or old.intMs
  lastLapMs := patch.lastLapMs.or old.lastLapMs

structure Tyre where
  tyre : Option String
  tyreAge : Option Int
deriving DecidableEq

def Tyre.none : Tyre := ⟨.none, .none⟩

def Tyre.update (old patch : Tyre) : Tyre where
  tyre := patch.tyre.or old.tyre
  tyreAge := patch.tyreAge.or old.tyreAge

def mapStatus : Json → String
  | .str raw =>
      if raw = "OnTrack" then "OnTrack"
      else if raw = "Pitlane" ∨ raw = "Pit" ∨ raw = "PitLane" then "Pit"
      else "Out"
  | _ => "Out"

namespace Builtins

variable {γ β : Type} (builtins : Builtins γ β)

/-- A conversion in a `try` that catches `ValueError` and `TypeError`. -/
def caught (result : Except PyError Int) : Except PyError (Option Int) :=
  match result with
  | .ok value => .ok (some value)
  | .error .valueError => .ok none
  | .error .typeError => .ok none
  | .error error => .error error

/-- The same for a `try` that catches `ValueError` alone. -/
def caughtValue (result : Except PyError Int) : Except PyError (Option Int) :=
  match result with
  | .ok value => .ok (some value)
  | .error .valueError => .ok none
  | .error error => .error error

def int (value : Json) : Except PyError Int := pyInt builtins.intText value

def safeInt (text : String) : Int := (builtins.intText text).getD 0

/-- `parse_gap_str` of a text that is not empty. -/
def parseGapText (text : String) : Except PyError (Option Int × Option Int) :=
  let text := builtins.strip text
  let upper := (builtins.upper text).toList
  if upper.getLast? = some 'L' ∨ ['L', 'A', 'P'] <:+: upper then
    let digits := text.toList.filter builtins.isDigit
    if digits = [] then .ok (none, none)
    else match builtins.intText (String.ofList digits) with
      | some laps => .ok (none, some laps)
      | none => .error .valueError
  else do
    let gap ← caughtValue (builtins.milliseconds text)
    return (gap.map (max 0), none)

/-- A gap or interval as milliseconds or as a lap count. -/
def parseGapStr (value : Json) : Except PyError (Option Int × Option Int) :=
  match value with
  | .str text => if text = "" then .ok (none, none) else builtins.parseGapText text
  | value => if truthy value then .error .attributeError else .ok (none, none)

def parseLaptimeText (text : String) : Except PyError (Option Int) :=
  match text.toList.splitOn ':' with
  | [minutes, seconds] =>
      match builtins.intText (String.ofList minutes) with
      | some minutes => caughtValue (builtins.lapMilliseconds minutes (String.ofList seconds))
      | none => .ok none
  | first :: _ => caughtValue (builtins.milliseconds (String.ofList first))
  | [] => .ok none

def parseLaptimeStr (value : Json) : Except PyError (Option Int) :=
  match value with
  | .str text => if text = "" then .ok none else builtins.parseLaptimeText text
  | value => if truthy value then .error .attributeError else .ok none

/-- One entry of a TimingData payload's `Lines`. -/
def parseTimingLine (members : List (String × Json)) : Except PyError Timing := do
  let lap ← match Json.lookup "NumberOfLaps" members with
    | some laps => caught (builtins.int laps)
    | none => .ok none
  let (gapMs, gapLaps) ← match Json.lookup "GapToLeader" members with
    | some (.str gap) => builtins.parseGapStr (.str gap)
    | _ => .ok (none, none)
  let intMs ← match Json.lookup "IntervalToPositionAhead" members with
    | some (.obj interval) =>
        (builtins.parseGapStr ((Json.lookup "Value" interval).getD (.str ""))).map Prod.fst
    | _ => .ok none
  let lastLapMs ← match Json.lookup "LastLapTime" members with
    | some (.obj lastLap) => builtins.parseLaptimeStr ((Json.lookup "Value" lastLap).getD (.str ""))
    | _ => .ok none
  return { lap, gapMs, gapLaps, intMs, lastLapMs }

/-- The stint of the highest index; of equal ones the first. -/
def currentStint (stints : Json) : Option Json :=
  match stints with
  | .obj members =>
      let entries := (Dict.ofMembers members).entries
      (entries.foldl (fun best entry => match best with
        | none => some entry
        | some held =>
            if builtins.safeInt held.1 < builtins.safeInt entry.1 then some entry else some held)
        none).map Prod.snd
  | .arr stints => stints.getLast?
  | _ => none

/-- One entry of a TimingAppData payload's `Lines`. -/
def parseTyreLine (members : List (String × Json)) : Except PyError Tyre :=
  match (Json.lookup "Stints" members).bind builtins.currentStint with
  | some (.obj current) => do
      let tyre := match Json.lookup "Compound" current with
        | some (.str compound) => if compound = "" then none else some (builtins.upper compound)
        | _ => none
      let tyreAge ← match Json.lookup "TotalLaps" current with
        | none => .ok none
        | some .null => .ok none
        | some age => caught (builtins.int age)
      return { tyre, tyreAge }
  | _ => .ok Tyre.none

/-- The value under `Position`, whatever it is; a payload that has none is an empty list. -/
def decodePositionPayload (payload : Json) : Json :=
  match payload with
  | .obj members => (Json.lookup "Position" members).getD (.arr [])
  | .str text =>
      match builtins.inflate text with
      | .oversized => .arr []
      | .loaded (.obj members) => (Json.lookup "Position" members).getD (.arr [])
      | _ =>
          match builtins.loads text with
          | some (.obj members) => (Json.lookup "Position" members).getD (.arr [])
          | _ => .arr []
  | _ => .arr []

end Builtins

end RaceTracker.Ingest
