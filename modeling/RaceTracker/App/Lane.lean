import RaceTracker.App.Roles
import RaceTracker.Lib.Transition

namespace RaceTracker.App

open RaceTracker.Lib RaceTracker.Model RaceTracker.Ws

/-! One session key: writer runs, the stored snapshot, the channel and one hub.

Every Redis command is its own action, so a schedule puts the writer's SET and
PUBLISH and the gateway's SUBSCRIBE, GET and consumption in any order.  Starting a
run abandons the one before it wherever it stood, between SET and PUBLISH too.
-/

structure Lane where
  source : ClipSource
  writer : Option Writer
  /-- Stored with its snapshot, not yet published. -/
  unsent : Option Frame
  stored : Option Json
  /-- The gateway's subscription with what it has not consumed, `none` before SUBSCRIBE.
  Each frame is tagged with the run that published it, for the statements only. -/
  channel : Option (List (Nat × Frame))
  hub : Option Snapshot
  starts : Nat
  /-- The revision the current run continues above. -/
  base : Int64
  /-- The frames the current run has stored, in order. -/
  sent : List Frame
  published : List Frame
  /-- Published before the subscription, or consumed from it. -/
  read : List Frame
  /-- What GET returned, and the current run's frames it contains. -/
  seed : Snapshot
  seedFrames : List Frame
  /-- The consumed frames that went into the hub, and those it dropped. -/
  applied : List Frame
  dropped : List Frame
  /-- The run that published the frame consumed last. -/
  lastRun : Nat

def Lane.initial (session : String) (source : ClipSource) : Lane where
  source := source
  writer := none
  unsent := none
  stored := none
  channel := none
  hub := none
  starts := 0
  base := 0
  sent := []
  published := []
  read := []
  seed := newSnapshot session "" ""
  seedFrames := []
  applied := []
  dropped := []
  lastRun := 0

inductive LaneAction where
  | start (source : ClipSource)
  | fold (frame : Frame)
  | publish
  | subscribe
  | seed
  | consume

namespace Lane

def start (session : String) (lane : Lane) (source : ClipSource) : Option Lane :=
  match Writer.start source session lane.stored with
  | .error _ => none
  | .ok writer => some { lane with
      source, writer := some writer, unsent := none, starts := lane.starts + 1
      base := writer.rev, sent := [], published := [] }

def fold (session : String) (lane : Lane) (frame : Frame) : Option Lane :=
  match lane.writer, lane.unsent with
  | some writer, none =>
      match writer.fold session frame with
      | .error _ => none
      | .ok (writer, none) => some { lane with writer := some writer }
      | .ok (writer, some stamped) => some { lane with
          writer := some writer, unsent := some stamped, stored := some writer.snap.marshal
          sent := lane.sent ++ [stamped] }
  | _, _ => none

def publish (lane : Lane) : Option Lane :=
  lane.unsent.map fun frame => { lane with
    unsent := none, published := lane.published ++ [frame]
    channel := lane.channel.map (· ++ [(lane.starts, frame)]) }

def subscribe (lane : Lane) : Option Lane :=
  match lane.channel with
  | some _ => none
  | none => some { lane with channel := some [], read := lane.published }

def seedHub (session : String) (lane : Lane) : Option Lane :=
  match lane.channel, lane.hub, seedSnapshot session lane.stored with
  | some _, none, .ok snapshot => some { lane with
      hub := some snapshot, seed := snapshot, seedFrames := lane.sent }
  | _, _, _ => none

def consumeNext (lane : Lane) : Option Lane :=
  match lane.hub, lane.channel with
  | some hub, some ((number, frame) :: rest) =>
      match App.consume hub frame.marshal with
      | .error _ => none
      | .ok (after, _) =>
          let next := { lane with
            hub := some after, channel := some rest, read := lane.read ++ [frame], lastRun := number }
          some (if frame.rev ≤ hub.rev then { next with dropped := lane.dropped ++ [frame] }
            else { next with applied := lane.applied ++ [frame] })
  | _, _ => none

def step (session : String) (lane : Lane) : LaneAction → Option Lane
  | .start source => lane.start session source
  | .fold frame => lane.fold session frame
  | .publish => lane.publish
  | .subscribe => lane.subscribe
  | .seed => lane.seedHub session
  | .consume => lane.consumeNext

variable {session : String} {lane after : Lane}

theorem start_cases {source : ClipSource} (stepped : lane.start session source = some after) :
    ∃ writer, Writer.start source session lane.stored = .ok writer ∧
      after = { lane with
        source, writer := some writer, unsent := none, starts := lane.starts + 1
        base := writer.rev, sent := [], published := [] } := by
  rw [start] at stepped
  cases started : Writer.start source session lane.stored with
  | error reason => simp [started] at stepped
  | ok writer => exact ⟨writer, rfl, by simpa [started] using stepped.symm⟩

theorem fold_cases {frame : Frame} (stepped : lane.fold session frame = some after) :
    ∃ writer next, lane.writer = some writer ∧ lane.unsent = none ∧
      ((writer.fold session frame = .ok (next, none) ∧
          after = { lane with writer := some next }) ∨
        (∃ stamped, writer.fold session frame = .ok (next, some stamped) ∧
          after = { lane with
            writer := some next, unsent := some stamped, stored := some next.snap.marshal
            sent := lane.sent ++ [stamped] })) := by
  rw [fold] at stepped
  cases running : lane.writer with
  | none => simp [running] at stepped
  | some writer =>
      cases waiting : lane.unsent with
      | some frame => simp [running, waiting] at stepped
      | none =>
          cases folded : writer.fold session frame with
          | error panic => simp [running, waiting, folded] at stepped
          | ok pair =>
              obtain ⟨next, stamped⟩ := pair
              refine ⟨writer, next, rfl, rfl, ?_⟩
              cases stamped with
              | none => exact Or.inl ⟨folded, by simpa [running, waiting, folded] using stepped.symm⟩
              | some stamped =>
                  exact Or.inr ⟨stamped, folded, by simpa [running, waiting, folded] using stepped.symm⟩

theorem publish_cases (stepped : lane.publish = some after) :
    ∃ frame, lane.unsent = some frame ∧ after = { lane with
      unsent := none, published := lane.published ++ [frame]
      channel := lane.channel.map (· ++ [(lane.starts, frame)]) } := by
  obtain ⟨frame, waiting, same⟩ := Option.map_eq_some_iff.mp stepped
  exact ⟨frame, waiting, same.symm⟩

theorem subscribe_cases (stepped : lane.subscribe = some after) :
    lane.channel = none ∧ after = { lane with channel := some [], read := lane.published } := by
  rw [subscribe] at stepped
  cases channel : lane.channel with
  | some queue => simp [channel] at stepped
  | none => exact ⟨rfl, by simpa [channel] using stepped.symm⟩

theorem seed_cases (stepped : lane.seedHub session = some after) :
    ∃ queue snapshot, lane.channel = some queue ∧ lane.hub = none ∧
      seedSnapshot session lane.stored = .ok snapshot ∧
      after = { lane with hub := some snapshot, seed := snapshot, seedFrames := lane.sent } := by
  rw [seedHub] at stepped
  split at stepped
  · rename_i queue snapshot channel hub read
    exact ⟨queue, snapshot, channel, hub, read, (Option.some.inj stepped).symm⟩
  · cases stepped

theorem consume_cases (stepped : lane.consumeNext = some after) :
    ∃ hub number frame rest, lane.hub = some hub ∧ lane.channel = some ((number, frame) :: rest) ∧
      ((frame.rev ≤ hub.rev ∧ after = { lane with
          hub := some hub, channel := some rest, read := lane.read ++ [frame], lastRun := number
          dropped := lane.dropped ++ [frame] }) ∨
        (¬ frame.rev ≤ hub.rev ∧ Writable hub frame ∧ after = { lane with
          hub := some (advance hub frame), channel := some rest, read := lane.read ++ [frame]
          lastRun := number, applied := lane.applied ++ [frame] })) := by
  rw [consumeNext] at stepped
  split at stepped
  · rename_i hub number frame rest seeded channel
    refine ⟨hub, number, frame, rest, seeded, channel, ?_⟩
    rw [consume_marshal] at stepped
    cases folded : hubApply hub frame with
    | error panic => simp [folded] at stepped
    | ok pair =>
        obtain ⟨next, broadcast⟩ := pair
        rcases hubApply_cases folded with ⟨rfl, _, stale⟩ | ⟨rfl, _, newer, writable⟩
        · exact Or.inl ⟨stale, by simpa [folded, stale] using stepped.symm⟩
        · exact Or.inr ⟨newer, writable, by simpa [folded, newer] using stepped.symm⟩
  · cases stepped

end Lane

/-- A clip of one frame, to run schedules on. -/
def demoSource : ClipSource :=
  ⟨[], [], [], .empty, 0, .empty, .empty, .empty, [], "Demo"⟩

def demoFrame : Frame := ⟨"", 0, 0, 100, some [], [], [], none⟩

end RaceTracker.App
