import RaceTracker.Ingest.Feed
import RaceTracker.Lib.Keyed

namespace RaceTracker.Ingest

open RaceTracker.Lib RaceTracker.Model

/-! Which entries of a TimingData or TimingAppData payload get past the parsers.

The parsers catch what `int` and `float` make of a wrong text or type.  They do not catch
`int` of an infinite number, and they call text methods on whatever stands in a `Value`.
-/

/-- A conversion that ends in a value, or in an error that is caught. -/
def settled {α : Type} (caught : List PyError) : Except PyError α → Bool
  | .ok _ => true
  | .error error => error ∈ caught

/-- A float literal beyond the largest double: `json.loads` makes it an infinity. -/
def infinite : Json → Bool
  | .num number => !number.plain && (Codec.readFloat64 number).isNone
  | _ => false

/-- A value whose truth is tested before it is read as a text. -/
def quietText (quiet : String → Bool) : Json → Bool
  | .str text => text = "" || quiet text
  | value => !truthy value

namespace Builtins

variable {γ β : Type} (builtins : Builtins γ β)

/-- A gap text in laps is read with the `int` of its digits, and that is not in the `try`. -/
def quietGap (text : String) : Bool :=
  let text := builtins.strip text
  let upper := (builtins.upper text).toList
  if upper.getLast? = some 'L' ∨ ['L', 'A', 'P'] <:+: upper then
    let digits := text.toList.filter builtins.isDigit
    digits = [] || (builtins.intText (String.ofList digits)).isSome
  else settled [.valueError] (builtins.milliseconds text)

def quietLaptime (text : String) : Bool :=
  match text.toList.splitOn ':' with
  | [minutes, seconds] =>
      match builtins.intText (String.ofList minutes) with
      | some minutes =>
          settled [.valueError] (builtins.lapMilliseconds minutes (String.ofList seconds))
      | none => true
  | first :: _ => settled [.valueError] (builtins.milliseconds (String.ofList first))
  | [] => true

def quietValue (quiet : String → Bool) : Option Json → Bool
  | some (.obj members) => quietText quiet ((Json.lookup "Value" members).getD (.str ""))
  | _ => true

def quietTiming (line : List (String × Json)) : Bool :=
  !infinite ((Json.lookup "NumberOfLaps" line).getD .null) &&
    (match Json.lookup "GapToLeader" line with
      | some (.str gap) => quietText builtins.quietGap (.str gap)
      | _ => true) &&
    quietValue builtins.quietGap (Json.lookup "IntervalToPositionAhead" line) &&
    quietValue builtins.quietLaptime (Json.lookup "LastLapTime" line)

def quietTyre (line : List (String × Json)) : Bool :=
  match (Json.lookup "Stints" line).bind builtins.currentStint with
  | some (.obj current) => !infinite ((Json.lookup "TotalLaps" current).getD .null)
  | _ => true

/-- A TimingData entry that goes through; an entry that is no dict is passed over. -/
def quietTimingEntry (entry : String × Json) : Bool :=
  match entry.2 with
  | .obj line =>
      !infinite ((Json.lookup "Position" line).getD .null) && builtins.quietTiming line
  | _ => true

def quietTyreEntry (entry : String × Json) : Bool :=
  match entry.2 with
  | .obj line => builtins.quietTyre line
  | _ => true

theorem caught_isOk (value : Json) : (caught (builtins.int value)).isOk = !infinite value := by
  cases value with
  | num number =>
      simp only [Builtins.int, pyInt, infinite]
      cases number.plain with
      | true => rfl
      | false => cases Codec.readFloat64 number <;> rfl
  | str text =>
      simp only [Builtins.int, pyInt]
      cases builtins.intText text <;> rfl
  | _ => rfl

theorem caughtValue_isOk (result : Except PyError Int) :
    (caughtValue result).isOk = settled [.valueError] result := by
  cases result with
  | ok value => rfl
  | error error => cases error <;> rfl

theorem isOk_map {α α' : Type} (f : α → α') (result : Except PyError α) :
    (result.map f).isOk = result.isOk := by
  cases result <;> rfl

/-- A block goes through when its lines do, whatever values they pass on. -/
theorem isOk_bind {α α' : Type} {first : Except PyError α} {next : α → Except PyError α'}
    {quiet : Bool} (goes : ∀ value, (next value).isOk = quiet) :
    (first >>= next).isOk = (first.isOk && quiet) := by
  cases first with
  | ok value => exact (goes value).trans (Bool.true_and quiet).symm
  | error error => rfl

theorem isOk_then {α α' : Type} (first : Except PyError α) (make : α → α') :
    (first >>= fun value => pure (make value)).isOk = first.isOk := by
  cases first <;> rfl

theorem parseGapText_isOk (text : String) :
    (builtins.parseGapText text).isOk = builtins.quietGap text := by
  simp only [parseGapText, quietGap]
  split
  · split
    · rename_i nothing
      simp [nothing, Except.isOk, Except.toBool]
    · rename_i digits
      cases builtins.intText
        (String.ofList ((builtins.strip text).toList.filter builtins.isDigit)) <;>
        simp [digits, Except.isOk, Except.toBool]
  · rw [← caughtValue_isOk]
    cases caughtValue (builtins.milliseconds (builtins.strip text)) <;> rfl

theorem parseGapStr_isOk (value : Json) :
    (builtins.parseGapStr value).isOk = quietText builtins.quietGap value := by
  cases value with
  | str text =>
      unfold parseGapStr quietText
      by_cases empty : text = ""
      · simp [empty, Except.isOk, Except.toBool]
      · simp [empty, parseGapText_isOk]
  | _ =>
      simp only [parseGapStr, quietText]
      split <;> simp_all [Except.isOk, Except.toBool]

theorem parseLaptimeText_isOk (text : String) :
    (builtins.parseLaptimeText text).isOk = builtins.quietLaptime text := by
  unfold parseLaptimeText quietLaptime
  match text.toList.splitOn ':' with
  | [] => rfl
  | [first] => exact caughtValue_isOk _
  | [minutes, seconds] =>
      simp only
      cases builtins.intText (String.ofList minutes) with
      | none => rfl
      | some minutes => exact caughtValue_isOk _
  | first :: _ :: _ :: _ => exact caughtValue_isOk _

theorem parseLaptimeStr_isOk (value : Json) :
    (builtins.parseLaptimeStr value).isOk = quietText builtins.quietLaptime value := by
  cases value with
  | str text =>
      unfold parseLaptimeStr quietText
      by_cases empty : text = ""
      · simp [empty, Except.isOk, Except.toBool]
      · simp [empty, parseLaptimeText_isOk]
  | _ =>
      simp only [parseLaptimeStr, quietText]
      split <;> simp_all [Except.isOk, Except.toBool]

def readLap (line : List (String × Json)) : Except PyError (Option Int) :=
  match Json.lookup "NumberOfLaps" line with
  | some laps => caught (builtins.int laps)
  | none => .ok none

def readGap (line : List (String × Json)) : Except PyError (Option Int × Option Int) :=
  match Json.lookup "GapToLeader" line with
  | some (.str gap) => builtins.parseGapStr (.str gap)
  | _ => .ok (none, none)

def readInterval (line : List (String × Json)) : Except PyError (Option Int) :=
  match Json.lookup "IntervalToPositionAhead" line with
  | some (.obj interval) =>
      (builtins.parseGapStr ((Json.lookup "Value" interval).getD (.str ""))).map Prod.fst
  | _ => .ok none

def readLastLap (line : List (String × Json)) : Except PyError (Option Int) :=
  match Json.lookup "LastLapTime" line with
  | some (.obj lastLap) => builtins.parseLaptimeStr ((Json.lookup "Value" lastLap).getD (.str ""))
  | _ => .ok none

theorem parseTimingLine_eq (line : List (String × Json)) :
    builtins.parseTimingLine line = (do
      let lap ← builtins.readLap line
      let gap ← builtins.readGap line
      let intMs ← builtins.readInterval line
      let lastLapMs ← builtins.readLastLap line
      return { lap, gapMs := gap.1, gapLaps := gap.2, intMs, lastLapMs }) := by
  unfold parseTimingLine readLap readGap readInterval readLastLap
  split <;> split <;> split <;> split <;> simp only [*]

theorem parseTimingLine_isOk (line : List (String × Json)) :
    (builtins.parseTimingLine line).isOk = builtins.quietTiming line := by
  have laps : (builtins.readLap line).isOk =
      !infinite ((Json.lookup "NumberOfLaps" line).getD .null) := by
    rw [readLap]
    cases Json.lookup "NumberOfLaps" line with
    | none => rfl
    | some laps => exact builtins.caught_isOk laps
  have gap : (builtins.readGap line).isOk = (match Json.lookup "GapToLeader" line with
      | some (.str gap) => quietText builtins.quietGap (.str gap)
      | _ => true) := by
    rw [readGap]
    split
    · exact builtins.parseGapStr_isOk _
    · rfl
  have interval : (builtins.readInterval line).isOk =
      quietValue builtins.quietGap (Json.lookup "IntervalToPositionAhead" line) := by
    unfold readInterval quietValue
    split
    · rw [isOk_map, builtins.parseGapStr_isOk]
    · rfl
  have lastLap : (builtins.readLastLap line).isOk =
      quietValue builtins.quietLaptime (Json.lookup "LastLapTime" line) := by
    unfold readLastLap quietValue
    split
    · exact builtins.parseLaptimeStr_isOk _
    · rfl
  rw [quietTiming, ← laps, ← gap, ← interval, ← lastLap, builtins.parseTimingLine_eq, Bool.and_assoc,
    Bool.and_assoc]
  refine isOk_bind fun _ => isOk_bind fun _ => isOk_bind fun _ => ?_
  exact isOk_then _ _

theorem parseTyreLine_isOk (line : List (String × Json)) :
    (builtins.parseTyreLine line).isOk = builtins.quietTyre line := by
  unfold parseTyreLine quietTyre
  cases (Json.lookup "Stints" line).bind builtins.currentStint with
  | none => rfl
  | some stint =>
      cases stint with
      | obj current =>
          cases found : Json.lookup "TotalLaps" current with
          | none => simp [found, infinite, Except.isOk, Except.toBool]
          | some age =>
              have told := builtins.caught_isOk age
              cases age with
              | null => simp [found, infinite, Except.isOk, Except.toBool]
              | _ => simpa [found, Option.getD_some] using (isOk_then _ _).trans told
      | _ => rfl

end Builtins

variable {γ β : Type} (builtins : Builtins γ β)

def Builtins.readPosition (line : List (String × Json)) : Except PyError (Option Int) :=
  match Json.lookup "Position" line with
  | some position => Builtins.caught (builtins.int position)
  | none => .ok none

theorem readPosition_isOk (line : List (String × Json)) :
    (builtins.readPosition line).isOk = !infinite ((Json.lookup "Position" line).getD .null) := by
  rw [Builtins.readPosition]
  cases Json.lookup "Position" line with
  | none => rfl
  | some position => exact builtins.caught_isOk position

/-- The positions after a line that tells one, or does not. -/
def told (positions : Dict String Int) (number : String) : Option Int → Dict String Int
  | some position => positions.set number position
  | none => positions

theorem get?_told (positions : Dict String Int) (number other : String) (position : Option Int) :
    (told positions number position).get? other =
      if number = other then position.or (positions.get? number) else positions.get? other := by
  cases position with
  | none => by_cases same : number = other <;> simp [told, same]
  | some position => simp [told, Dict.get?_set]

/-- The timing fields after a line. -/
def merged (extra : Dict String Timing) (number : String) (parsed : Timing) : Dict String Timing :=
  if parsed = .none then extra
  else extra.set number (((extra.get? number).getD .none).update parsed)

theorem get?_merged (extra : Dict String Timing) (number other : String) (parsed : Timing) :
    (merged extra number parsed).get? other =
      if number = other ∧ parsed ≠ .none then
        some (((extra.get? number).getD .none).update parsed)
      else extra.get? other := by
  rw [merged]
  by_cases nothing : parsed = .none <;> simp [nothing, Dict.get?_set]

/-- What a line does.  A position that was read stays even if a later field raises. -/
theorem timingLine_obj (state : Dict String Int × Dict String Timing) (number : String)
    (line : List (String × Json)) :
    timingLine builtins state (number, .obj line) =
      match builtins.readPosition line with
      | .error error => (state, some error)
      | .ok position => match builtins.parseTimingLine line with
          | .error error => ((told state.1 number position, state.2), some error)
          | .ok parsed =>
              ((told state.1 number position, merged state.2 number parsed), none) := by
  simp only [timingLine, merged]
  split
  · rename_i error raised
    rw [show builtins.readPosition line = .error error from raised]
  · rename_i position read
    rw [show builtins.readPosition line = .ok position from read]
    cases builtins.parseTimingLine line with
    | error error => cases position <;> rfl
    | ok parsed => by_cases nothing : parsed = .none <;> cases position <;> simp [nothing, told]

theorem timingLine_tells (state : Dict String Int × Dict String Timing) (entry : String × Json) :
    (timingLine builtins state entry).2.isNone = builtins.quietTimingEntry entry := by
  obtain ⟨number, value⟩ := entry
  cases value with
  | obj line =>
      simp only [Builtins.quietTimingEntry]
      rw [timingLine_obj, ← readPosition_isOk, ← builtins.parseTimingLine_isOk]
      cases builtins.readPosition line <;> cases builtins.parseTimingLine line <;> rfl
  | _ => rfl

theorem tyreLine_tells (extra : Dict String Tyre) (entry : String × Json) :
    (tyreLine builtins extra entry).2.isNone = builtins.quietTyreEntry entry := by
  obtain ⟨number, value⟩ := entry
  cases value with
  | obj line =>
      have parsed := builtins.parseTyreLine_isOk line
      simp only [tyreLine, Builtins.quietTyreEntry]
      rw [← parsed]
      cases builtins.parseTyreLine line with
      | error error => rfl
      | ok parsed => by_cases nothing : parsed = .none <;> simp [nothing, Except.isOk, Except.toBool]
  | _ => rfl

/-- The running position and the timing fields under a racing number. -/
def timingOf (state : Dict String Int × Dict String Timing) (number : String) :
    Option Int × Option Timing :=
  (state.1.get? number, state.2.get? number)

theorem timingLine_keyed :
    Keyed (fun state entry => (timingLine builtins state entry).1) timingOf where
  own {state state' entry} same := by
    obtain ⟨number, value⟩ := entry
    obtain ⟨pos, fields⟩ := Prod.mk.inj same
    cases value with
    | obj line =>
        simp only [timingLine_obj]
        cases builtins.readPosition line with
        | error error => exact same
        | ok position =>
            cases builtins.parseTimingLine line <;>
              simp only [timingOf, get?_told, get?_merged] <;> simp [pos, fields]
    | _ => exact same
  other state entry key other := by
    obtain ⟨number, value⟩ := entry
    cases value with
    | obj line =>
        simp only [timingLine_obj]
        cases builtins.readPosition line with
        | error error => rfl
        | ok position =>
            cases builtins.parseTimingLine line <;>
              simp only [timingOf, get?_told, get?_merged] <;> simp [other]
    | _ => rfl

theorem tyreLine_keyed : Keyed (fun extra entry => (tyreLine builtins extra entry).1) Dict.get? where
  own {extra extra' entry} same := by
    obtain ⟨number, value⟩ := entry
    cases value with
    | obj line =>
        simp only [tyreLine] at same ⊢
        cases builtins.parseTyreLine line with
        | error error => exact same
        | ok parsed => by_cases nothing : parsed = .none <;> simp [nothing, same]
    | _ => exact same
  other extra entry key other := by
    obtain ⟨number, value⟩ := entry
    cases value with
    | obj line =>
        simp only [tyreLine]
        cases builtins.parseTyreLine line with
        | error error => rfl
        | ok parsed => by_cases nothing : parsed = .none <;> simp [nothing, Dict.get?_set, other]
    | _ => rfl

/-- A payload whose loop over `Lines` comes to its end. -/
def quietLines (quiet : String × Json → Bool) (payload : List (String × Json)) : Bool :=
  match (Json.lookup "Lines" payload).getD (.obj []) with
  | .obj lines => (Dict.ofMembers lines).entries.all quiet
  | _ => false

theorem overLines_ends {σ : Type} {step : σ → String × Json → σ × Option PyError}
    {quiet : String × Json → Bool}
    (tells : ∀ state entry, (step state entry).2.isNone = quiet entry) (state : σ)
    (payload : List (String × Json)) :
    (overLines step state payload).2 = none ↔ quietLines quiet payload = true := by
  unfold overLines quietLines
  cases (Json.lookup "Lines" payload).getD (.obj []) with
  | obj lines => simp only [foldUntil_ends tells, List.all_eq_true]
  | _ => simp

end RaceTracker.Ingest
