import Mathlib.Data.List.Sort
import RaceTracker.Lib.Transition
import RaceTracker.Web.Race

namespace RaceTracker.Web

open RaceTracker.Lib

/-! Team radio: which clips fire, and the one audio element that plays them. -/

/-- A radio message of a timeline.  The page tells messages apart by identity: the snapshot
that began the timeline and the place in it stand for that. -/
structure TimelineRef where
  seq : Nat
  index : Nat
  timeMs : Rat
  driverNum : Rat
  clip : String
deriving DecidableEq

structure CommsCursor where
  lastClock : Rat
deriving DecidableEq

structure CommsStep where
  cursor : CommsCursor
  fired : List TimelineRef
  history : List TimelineRef

/-- A stable sort, as JavaScript's is. -/
def byTime (refs : List TimelineRef) : List TimelineRef :=
  refs.insertionSort fun a b => a.timeMs ≤ b.timeMs

def stepComms (cursor : CommsCursor) (clock : Rat) (timeline : List TimelineRef)
    (isSnapshot : Bool) : CommsStep :=
  if isSnapshot then ⟨⟨clock⟩, [], byTime (timeline.filter fun m => m.timeMs ≤ clock)⟩
  else if clock < cursor.lastClock then ⟨⟨clock⟩, [], []⟩
  else ⟨⟨clock⟩, byTime (timeline.filter fun m => cursor.lastClock < m.timeMs ∧ m.timeMs ≤ clock), []⟩

def liveArrivals (timeline : List TimelineRef) (prevLen : Nat) (isSnapshot : Bool) :
    List TimelineRef :=
  if isSnapshot ∨ timeline.length ≤ prevLen then [] else timeline.drop prevLen

def toleranceMs : Rat := 3000

def isStale (msg : TimelineRef) (currentClock : Rat) : Bool := toleranceMs < currentClock - msg.timeMs

structure Url where
  protocol : String
  hostname : String

/-- The audio element, and `new URL`, which is `none` where it throws. -/
structure Browser where
  audio : Bool
  url : String → Option Url

def Browser.isAllowedClip (browser : Browser) (url : String) : Bool :=
  match browser.url url with
  | some u => u.protocol = "https:" ∧
      (u.hostname = "formula1.com" ∨ ".formula1.com".toList <:+ u.hostname.toList)
  | none => false

/-- The part of a race state that the comms layer reads. -/
structure View where
  rev : Rat
  snapshotSeq : Nat
  timeMs : Rat
  radio : List TimelineRef

/-- What the effect remembers of the states before; `deps` are those of its last run. -/
structure Watcher where
  cursor : CommsCursor
  lastSnapshotSeq : Int
  prevRadioLen : Nat
  deps : Option (Rat × Nat)

def Watcher.mount : Watcher := ⟨⟨-1⟩, -1, 0, none⟩

structure Sighting where
  isSnapshot : Bool
  history : List TimelineRef
  arrived : List TimelineRef
  fired : List TimelineRef

/-- One run of the effect; there is nothing to see where `rev` and `snapshotSeq` are the same as
before, nor while the page is warming up. -/
def Watcher.watch (watcher : Watcher) (state : View) : Watcher × Option Sighting :=
  let deps := some (state.rev, state.snapshotSeq)
  if watcher.deps = deps then (watcher, none)
  else if state.rev = 0 then ({ watcher with deps }, none)
  else
    let isSnapshot := watcher.lastSnapshotSeq ≠ state.snapshotSeq
    let step := stepComms watcher.cursor state.timeMs state.radio isSnapshot
    let arrived := liveArrivals state.radio watcher.prevRadioLen isSnapshot
    let fired :=
      if arrived = [] then step.fired else step.fired.filter (· ∉ arrived) ++ arrived
    (⟨step.cursor, state.snapshotSeq, state.radio.length, deps⟩,
      some ⟨isSnapshot, step.history, arrived, fired⟩)

/-- One assignment to the source of the audio element. -/
structure Start where
  ref : TimelineRef
  automatic : Bool
  clock : Rat

structure Player where
  enabled : Bool
  nowPlaying : Option TimelineRef
  /-- Newest first. -/
  history : List TimelineRef
  error : Option String
  queue : List TimelineRef
  clock : Rat
  live : List TimelineRef
  watcher : Watcher
  /-- The promises of `play()` that are not settled. -/
  plays : List TimelineRef
  /-- What was started so far, and what was fired while enabled. -/
  starts : List Start
  firings : List TimelineRef

def Player.mount : Player := ⟨false, none, [], none, [], 0, [], .mount, [], [], []⟩

def HISTORY_MAX : Nat := 6

def PLAYBACK_ERROR : String :=
  "Radio clip failed to play — the browser may have blocked audio or the stream is unavailable."

def BLOCKED_ERROR : String :=
  "This clip can’t be played — its audio source isn’t a recognised F1 domain."

inductive CommsEvent where
  | state (state : View)
  | ended
  /-- A promise of `play()` settles. -/
  | played (msg : TimelineRef)
  | rejected (msg : TimelineRef)
  | toggle
  | replay (msg : TimelineRef)

namespace Player

variable (browser : Browser)

def start (player : Player) (msg : TimelineRef) (automatic : Bool) : Player :=
  { player with
    nowPlaying := some msg, error := none, plays := msg :: player.plays
    starts := player.starts ++ [⟨msg, automatic, player.clock⟩] }

/-- Neither stale, unless it arrived live, nor of a foreign host. -/
def playable (player : Player) (msg : TimelineRef) : Bool :=
  (!isStale msg player.clock || decide (msg ∈ player.live)) && browser.isAllowedClip msg.clip

def pump (player : Player) : Player :=
  if browser.audio = false ∨ player.nowPlaying.isSome then player
  else
    match player.queue.dropWhile fun msg => !player.playable browser msg with
    | [] => { player with queue := [] }
    | next :: rest => { player with queue := rest }.start next true

def onEnded (player : Player) : Player := { player with nowPlaying := none }.pump browser

def onRejected (player : Player) (msg : TimelineRef) : Player :=
  let player := { player with plays := player.plays.erase msg }
  if player.nowPlaying = some msg then
    { player with nowPlaying := none, error := some PLAYBACK_ERROR }
  else player

/-- What the effect stores of a race state before it fires. -/
def see (player : Player) (state : View) (watcher : Watcher) (seen : Sighting) : Player :=
  { player with
    watcher, clock := state.timeMs, live := seen.arrived ++ player.live
    history :=
      if seen.isSnapshot ∧ seen.history ≠ [] then
        (seen.history.drop (seen.history.length - HISTORY_MAX)).reverse
      else player.history }

def enqueue (player : Player) (fired : List TimelineRef) : Player :=
  { player with queue := player.queue ++ fired, firings := player.firings ++ fired }

/-- The history grows whether or not the layer is enabled, the queue only when it is. -/
def fire (player : Player) (fired : List TimelineRef) : Player :=
  let player := { player with history := (fired.reverse ++ player.history).take HISTORY_MAX }
  if player.enabled then (player.enqueue fired).pump browser else player

/-- The effect on a new race state. -/
def onState (player : Player) (state : View) : Player :=
  match player.watcher.watch state with
  | (watcher, none) => { player with watcher }
  | (watcher, some seen) =>
      let player := player.see state watcher seen
      if seen.fired = [] then player else player.fire browser seen.fired

def toggle (player : Player) : Player :=
  if player.enabled then
    { player with queue := [], nowPlaying := none, enabled := false, error := none }
  else { player with enabled := true }

def replay (player : Player) (msg : TimelineRef) : Player :=
  if browser.audio = false then player
  else if browser.isAllowedClip msg.clip then { player with queue := [] }.start msg false
  else { player with error := some BLOCKED_ERROR }

/-- Only an audio element ends, and only a promise that is open settles. -/
def step (player : Player) : CommsEvent → Option Player
  | .state state => some (player.onState browser state)
  | .ended => if browser.audio then some (player.onEnded browser) else none
  | .played msg =>
      if msg ∈ player.plays then some { player with plays := player.plays.erase msg } else none
  | .rejected msg => if msg ∈ player.plays then some (player.onRejected msg) else none
  | .toggle => some player.toggle
  | .replay msg => some (player.replay browser msg)

end Player

end RaceTracker.Web
