import RaceTracker.App.Roles
import RaceTracker.Lib.Cycle

namespace RaceTracker.Replay

open RaceTracker.Lib RaceTracker.Model RaceTracker.App

/-! Reading a clip and replaying it as a frame stream. -/

structure ClipHeader where
  track : List Point
  corners : List Corner
  label : String
  maxRev : Int64
  radio : List RadioMessage
  lapTrace : Dict Int64 (Option (List Int64))
  totalLaps : Int64
  stints : Dict Int64 (Option (List Stint))
  pitStops : Dict Int64 (Option (List PitStop))
  pedalTraces : Dict Int64 PedalTrace
  sectorDominance : List Int64

def ClipHeader.record :=
  Record.always "track" (.list Point.codec) <| .always "corners" (.list Corner.codec) <|
  .always "label" .string <| .always "maxRev" .int64 <|
  .always "radio" (.list RadioMessage.codec) <| .always "lapTrace" (.dict (.slice .int64)) <|
  .always "totalLaps" .int64 <| .always "stints" (.dict (.slice Stint.codec)) <|
  .always "pitStops" (.dict (.slice PitStop.codec)) <|
  .always "pedalTraces" (.dict PedalTrace.codec) <| .always "sectorDominance" (.list .int64) .nil

def ClipHeader.codec : Codec ClipHeader :=
  ClipHeader.record.codec (by decide)
    (fun header => (header.track, header.corners, header.label, header.maxRev, header.radio,
      header.lapTrace, header.totalLaps, header.stints, header.pitStops, header.pedalTraces,
      header.sectorDominance, ()))
    (fun (track, corners, label, maxRev, radio, lapTrace, totalLaps, stints, pitStops, pedalTraces,
        sectorDominance, ()) =>
      ⟨track, corners, label, maxRev, radio, lapTrace, totalLaps, stints, pitStops, pedalTraces,
        sectorDominance⟩)
    (fun _ => rfl) rfl

structure ClipLine where
  timeMs : Int64
  frame : Frame
deriving DecidableEq

def ClipLine.record := Record.always "timeMs" .int64 <| .always "frame" Frame.codec .nil

def ClipLine.codec : Codec ClipLine :=
  ClipLine.record.codec (by decide) (fun line => (line.timeMs, line.frame, ()))
    (fun (timeMs, frame, ()) => ⟨timeMs, frame⟩) (fun _ => rfl) rfl

structure Source extends ClipSource where
  lines : List ClipLine
  max : Int64
deriving DecidableEq

def ClipHeader.clip (header : ClipHeader) : ClipSource where
  track := header.track
  corners := header.corners
  radio := header.radio
  lapTrace := header.lapTrace
  totalLaps := header.totalLaps
  stints := header.stints
  pitStops := header.pitStops
  pedalTraces := header.pedalTraces
  sectorDominance := header.sectorDominance
  label := header.label

/-- `none` is an error: a bad header, a bad line, or no frames. -/
def load (header : Json) (lines : List Json) : Option Source := do
  let header ← ClipHeader.codec.unmarshal ClipHeader.codec.zero header
  let lines ← ClipLine.codec.unmarshalItems [] lines
  let last ← lines.getLast?
  let max := if header.maxRev = 0 then last.frame.rev else header.maxRev
  return { header.clip with lines, max }

namespace Source

/-- Every frame of the clip, in file order. -/
def frames (source : Source) : List Frame := source.lines.map ClipLine.frame

/-- The pass `loop` with `rest` of its lines to come, one frame at each emit time; each loop starts when
the previous ends. -/
def playFromStart (source : Source) (loop : Int64) : List ClipLine → List Int64 → List Frame
  | _, [] => []
  | line :: rest, now :: nows =>
      { line.frame with rev := line.frame.rev + loop * source.max, t := now } ::
        source.playFromStart loop rest nows
  | [], now :: nows =>
      match source.lines with
      | [] => []
      | line :: rest =>
          { line.frame with rev := line.frame.rev + (loop + 1) * source.max, t := now } ::
            source.playFromStart (loop + 1) rest nows

/-- From the line that the wall clock points at. -/
def playWallclock (source : Source) (i : Nat) : List Int64 → List Frame
  | [] => []
  | now :: nows =>
      match source.lines[i]? with
      | none => []
      | some line =>
          { line.frame with t := now } ::
            source.playWallclock (if i + 1 = source.lines.length then 0 else i + 1) nows

/-- `some first` phases the lane to the wall clock, at a moment when line `first` is next. -/
def events (source : Source) (phase : Option Nat) (nows : List Int64) : List Frame :=
  match phase with
  | none => source.playFromStart 0 source.lines nows
  | some first => source.playWallclock first nows

end Source

/-- The frame is the line's, but for what the clock and the loop stamp on it. -/
def Stamped (line : ClipLine) (frame : Frame) : Prop :=
  ∃ rev t, frame = { line.frame with rev, t }

theorem playFromStart_cycle {source : Source} {played rest : List ClipLine} (loop : Int64)
    (whole : source.lines = played ++ rest) (nows : List Int64) :
    List.Forall₂ Stamped (cycle (rest ++ played) nows.length)
      (source.playFromStart loop rest nows) := by
  induction nows generalizing loop played rest with
  | nil => exact List.Forall₂.nil
  | cons now nows ih =>
      cases rest with
      | cons line rest =>
          have later := ih loop (show source.lines = (played ++ [line]) ++ rest by
            rw [whole, List.append_assoc, List.singleton_append])
          rw [← List.append_assoc] at later
          exact List.Forall₂.cons ⟨_, _, rfl⟩ later
      | nil =>
          rw [List.append_nil] at whole
          rw [Source.playFromStart, ← whole]
          cases lines : source.lines with
          | nil => exact List.Forall₂.nil
          | cons line rest =>
              exact List.Forall₂.cons ⟨_, _, rfl⟩ (ih (loop + 1) lines)

theorem playWallclock_cycle {source : Source} (nows : List Int64) {i : Nat}
    (within : i < source.lines.length) :
    List.Forall₂ Stamped (cycle (source.lines.drop i ++ source.lines.take i) nows.length)
      (source.playWallclock i nows) := by
  induction nows generalizing i with
  | nil => exact List.Forall₂.nil
  | cons now nows ih =>
      have due : source.lines.drop i = source.lines[i] :: source.lines.drop (i + 1) :=
        List.drop_eq_getElem_cons within
      rw [Source.playWallclock, List.getElem?_eq_getElem within, due]
      have later : List.Forall₂ Stamped
          (cycle (source.lines.drop (i + 1) ++ source.lines.take (i + 1)) nows.length)
          (source.playWallclock (if i + 1 = source.lines.length then 0 else i + 1) nows) := by
        split
        · rename_i last
          rw [last, List.drop_length, List.take_length]
          simpa using ih (Nat.zero_lt_of_lt within)
        · exact ih (by omega)
      rw [List.take_add_one, List.getElem?_eq_getElem within, ← List.append_assoc] at later
      exact List.Forall₂.cons ⟨_, _, rfl⟩ later

/-- The lines in the order in which a phase plays them. -/
def Source.due (source : Source) (phase : Option Nat) : List ClipLine :=
  source.lines.drop (phase.getD 0) ++ source.lines.take (phase.getD 0)

theorem Source.due_length (source : Source) (phase : Option Nat) :
    (source.due phase).length = source.lines.length := by
  rw [Source.due, List.length_append, List.length_drop, List.length_take]
  omega

theorem events_cycle {source : Source} {phase : Option Nat}
    (within : ∀ first, phase = some first → first < source.lines.length) (nows : List Int64) :
    List.Forall₂ Stamped (cycle (source.due phase) nows.length) (source.events phase nows) := by
  cases phase with
  | none =>
      have whole : source.lines = [] ++ source.lines := rfl
      simpa [Source.due, Source.events] using playFromStart_cycle 0 whole nows
  | some first => exact playWallclock_cycle nows (within first rfl)

end RaceTracker.Replay
