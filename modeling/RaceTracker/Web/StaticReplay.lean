import Mathlib.Algebra.Order.Ring.Rat
import RaceTracker.Lib.Transition
import RaceTracker.Web.Race

namespace RaceTracker.Web

open RaceTracker.Lib

/-! The static demo's data source: a baked clip paced through the reducer, round and round.

`Date.now()` is an argument of every action that reads it.
-/

section

variable (messages : List Msg)

def isFrame : Msg → Bool
  | .frame _ => true
  | .snapshot _ => false

def frameBase : Rat :=
  match messages.find? isFrame with
  | some (.frame data) => data.timeMs
  | _ => 0

def offset (index : Nat) : Rat :=
  match messages[index]? with
  | some (.frame data) => data.timeMs - frameBase messages
  | _ => 0

/-- The first frame, where every later lap starts. -/
def loopRestartIndex : Nat := (messages.findIdx? isFrame).getD 0

def maxRev : Rat :=
  messages.foldl (fun highest message =>
    match message with
    | .frame data => max highest data.rev
    | .snapshot _ => highest) 0

end

/-- What the pending timer does when it fires. -/
inductive Due where
  | restart
  | play (index : Nat)
deriving DecidableEq

/-- A message that was played in its lap, or the one that a scrub landed on. -/
structure Shown where
  lap : Nat
  index : Nat
  scrubbed : Bool
deriving DecidableEq

structure Playback where
  state : RaceState
  closed : Bool
  /-- With the delay it was set to. -/
  timer : Option (Due × Rat)
  live : Bool
  paused : Bool
  lapsCompleted : Nat
  nextIndex : Nat
  lastOffset : Rat
  loopStart : Rat
  /-- For the statements only. -/
  shown : List Shown

inductive PlaybackAction where
  /-- The pending timer fires. -/
  | fire (now : Rat)
  | pause
  | resume (now : Rat)
  | scrub (ms now : Rat)
  | close

namespace Playback

variable (messages : List Msg) (playback : Playback)

def bump (laps : Nat) : Msg → Msg
  | .frame data =>
      if 0 < laps then .frame { data with rev := data.rev + laps * maxRev messages } else .frame data
  | .snapshot data => .snapshot data

def playFrom (index : Nat) (now : Rat) : Playback :=
  if playback.closed || playback.paused then playback
  else if messages.length ≤ index then
    { playback with
      lapsCompleted := playback.lapsCompleted + 1
      loopStart := now
      nextIndex := loopRestartIndex messages
      timer := some (.restart, 0) }
  else
    -- Fallen behind the frame's own offset: the missed time is dropped.
    let loopStart :=
      if offset messages index < now - playback.loopStart then now - offset messages index
      else playback.loopStart
    { playback with
      loopStart
      nextIndex := index
      timer := some (.play index, max 0 (offset messages index - (now - loopStart))) }

/-- The timer's callback.  An error in the reducer leaves nothing scheduled. -/
def fire (now : Rat) : Option Playback :=
  match playback.timer with
  | none => none
  | some (.restart, _) =>
      some ({ playback with timer := none }.playFrom messages (loopRestartIndex messages) now)
  | some (.play index, _) =>
      messages[index]?.map fun message =>
        match applyMessage playback.state (bump messages playback.lapsCompleted message) with
        | .error _ => { playback with timer := none }
        | .ok state =>
            let played : Playback := { playback with
              state
              timer := none
              live := true
              lastOffset := offset messages index
              shown := playback.shown ++ [⟨playback.lapsCompleted, index, false⟩] }
            played.playFrom messages (index + 1) now

def pause : Playback :=
  if playback.paused then playback else { playback with paused := true, timer := none }

def resume (now : Rat) : Playback :=
  if playback.paused then
    { playback with paused := false, loopStart := now - playback.lastOffset }.playFrom
      messages playback.nextIndex now
  else playback

/-- The first frame at or after `ms`, or the last message. -/
def scrubEnd (ms : Rat) : Nat :=
  ((List.range messages.length).find? fun index =>
    loopRestartIndex messages ≤ index ∧ ms ≤ offset messages index).getD (messages.length - 1)

/-- Rebuild the state from the top of the current lap, in the current lap's revisions. -/
def scrub (ms now : Rat) : Playback :=
  let stop := scrubEnd messages ms
  let replayed := ((messages.take (stop + 1)).map (bump messages playback.lapsCompleted)).foldlM
    applyMessage emptyState
  match replayed with
  | .error _ => { playback with timer := none }
  | .ok state =>
      let landed : Playback := { playback with
        state
        timer := none
        lastOffset := offset messages stop
        nextIndex := stop + 1
        loopStart := now - offset messages stop
        shown := playback.shown ++ [⟨playback.lapsCompleted, stop, true⟩] }
      if playback.paused then landed else landed.playFrom messages (stop + 1) now

def close : Playback := { playback with closed := true, timer := none }

/-- A loaded clip starts playing, unless it has no frame. -/
def start (now : Rat) : Option Playback :=
  if messages.any isFrame then
    some (playFrom messages {
      state := emptyState
      closed := false
      timer := none
      live := false
      paused := false
      lapsCompleted := 0
      nextIndex := 0
      lastOffset := 0
      loopStart := now
      shown := [] } 0 now)
  else none

def step : PlaybackAction → Option Playback
  | .fire now => playback.fire messages now
  | .pause => some playback.pause
  | .resume now => some (playback.resume messages now)
  | .scrub ms now => some (playback.scrub messages ms now)
  | .close => some playback.close

end Playback

end RaceTracker.Web
