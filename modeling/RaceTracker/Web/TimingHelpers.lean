import RaceTracker.Lib.StableSort
import RaceTracker.Web.Race

namespace RaceTracker.Web

open RaceTracker.Lib

/-! What the timing tower computes from the race state before it draws.

A car is typed with numbers here, so a difference is `none`, JavaScript's NaN, only where a
property is missing.
-/

/-- Property names that JavaScript counts as indices. -/
def arrayIndex (key : String) : Option Int :=
  (parseDecimal key).filter fun index => 0 ≤ index ∧ index < 2 ^ 32 - 1 ∧ decimal index = key

/-- `Object.values`: indices first and ascending, the other names as they were first written. -/
def objectValues (cars : Dict String Json) : List Json :=
  let indexed := cars.entries.filter fun entry => (arrayIndex entry.1).isSome
  let named := cars.entries.filter fun entry => !(arrayIndex entry.1).isSome
  (indexed.mergeSort (fun left right =>
    (arrayIndex left.1).getD 0 ≤ (arrayIndex right.1).getD 0) ++ named).map Prod.snd

def minus (left right : Option Json) : Option Rat := do
  let left ← left.bind asNumber
  let right ← right.bind asNumber
  return left - right

/-- `difference || next`: zero and NaN give way. -/
def orElse (difference next : Option Rat) : Option Rat :=
  if difference = none ∨ difference = some 0 then next else difference

def byRunningOrder (a b : Json) : Option Rat :=
  orElse (orElse (minus (a.get? "pos") (b.get? "pos"))
    (minus (some (nullish (b.get? "lap") (.int 0))) (some (nullish (a.get? "lap") (.int 0)))))
    (minus (a.get? "driverNum") (b.get? "driverNum"))

/-- The sort keeps `a` before `b` unless their difference is positive. -/
def mayPrecede (a b : Json) : Bool := (byRunningOrder a b).getD 0 ≤ 0

def orderCars (cars : Dict String Json) : List Json := (objectValues cars).mergeSort mayPrecede

/-- What stands in the gap column; times are still in milliseconds. -/
inductive GapLabel where
  | leader
  | dash
  /-- `+N LAP`, with an S for more than one. -/
  | laps (count : Rat)
  /-- One decimal of seconds. -/
  | estimate (ms : Rat)
  /-- Minutes and seconds. -/
  | long (ms : Rat)
deriving DecidableEq

def fmtGapEstimate : Option Rat → GapLabel
  | none => .dash
  | some ms => if ms < 0 then .dash else .estimate ms

def fmtLongGap : Option Rat → GapLabel
  | none => .dash
  | some ms => if ms ≤ 0 then .dash else if ms < 60000 then fmtGapEstimate (some ms) else .long ms

/-- The gap to the leader; `none` is undefined. -/
def gapLabel (gapMs gapLaps : Option Rat) (isLeader secondsMode : Bool) (lastLapMs : Option Rat) :
    GapLabel :=
  if isLeader then .leader
  else if lastLapMs.getD 0 = 0 then .dash
  else match gapLaps with
    | some count =>
        if secondsMode = false ∧ count ≠ 0 ∧ 1 ≤ count then .laps count
        else if secondsMode then fmtLongGap gapMs else fmtGapEstimate gapMs
    | none => if secondsMode then fmtLongGap gapMs else fmtGapEstimate gapMs

def intLabel (gapLaps aheadGapLaps intMs : Option Rat) (isLeader secondsMode : Bool)
    (lastLapMs aheadLastLapMs : Option Rat) : GapLabel :=
  let deficit := gapLaps.getD 0 - aheadGapLaps.getD 0
  if isLeader then .dash
  else if lastLapMs.getD 0 = 0 ∨ aheadLastLapMs.getD 0 = 0 then .dash
  else if secondsMode = false ∧ 1 ≤ deficit then .laps deficit
  else if secondsMode then fmtLongGap intMs else fmtGapEstimate intMs

def numberOf (name : String) (car : Json) : Option Rat := (car.get? name).bind asNumber

def driverNum (car : Json) : Option Rat := numberOf "driverNum" car

def statusLabel (status : Option String) : Option String :=
  if status = some "Pit" then some "IN PIT"
  else if status = some "Out" then some "OUT"
  else none

/-- Zero and an absent time are both falsy; a gap of zero is a gap. -/
def hasNoData (car : Json) : Bool :=
  (["lastLapMs", "bestLapMs", "s1Ms", "s2Ms", "s3Ms"].all fun name => (numberOf name car).getD 0 = 0) &&
    (numberOf "gapMs" car).isNone

theorem gapLabel_no_laps (gapMs : Option Rat) (isLeader secondsMode : Bool) (lastLapMs : Option Rat)
    (count : Rat) : gapLabel gapMs none isLeader secondsMode lastLapMs ≠ .laps count := by
  cases gapMs <;> simp only [gapLabel, fmtLongGap, fmtGapEstimate] <;> split_ifs <;> nofun

theorem objectValues_perm (cars : Dict String Json) :
    (objectValues cars).Perm (cars.entries.map Prod.snd) := by
  have sorted := List.mergeSort_perm (cars.entries.filter fun entry => (arrayIndex entry.1).isSome)
    fun left right => (arrayIndex left.1).getD 0 ≤ (arrayIndex right.1).getD 0
  exact ((sorted.append_right _).trans (List.filter_append_perm _ cars.entries)).map Prod.snd

/-- There is one way to sort what the comparison puts in order strictly. -/
theorem orderCars_eq {cars : Dict String Json} {sorted : List Json}
    (values : (cars.entries.map Prod.snd).Perm sorted) (kept : ∀ car ∈ sorted, mayPrecede car car)
    (ordered : sorted.Pairwise fun a b => mayPrecede a b ∧ ¬ mayPrecede b a) :
    orderCars cars = sorted :=
  mergeSort_eq_of_ordered ((objectValues_perm cars).trans values) kept ordered

end RaceTracker.Web
