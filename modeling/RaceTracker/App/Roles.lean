import RaceTracker.Ws.Hub

namespace RaceTracker.App

open RaceTracker.Lib RaceTracker.Model RaceTracker.Ws

/-! The functions the writer and the gateway run against the bus. -/

inductive BusError where
  | unmarshalSnapshot
deriving DecidableEq, Repr

/-- The latest snapshot, or nothing if none is stored. -/
def getSnapshot (stored : Option Json) : Except BusError (Option Snapshot) :=
  match stored with
  | none => .ok none
  | some text =>
      match Snapshot.unmarshal text with
      | none => .error .unmarshalSnapshot
      | some snapshot => .ok (some snapshot)

structure ClipSource where
  track : List Point
  corners : List Corner
  radio : List RadioMessage
  lapTrace : Dict Int64 (Option (List Int64))
  totalLaps : Int64
  stints : Dict Int64 (Option (List Stint))
  pitStops : Dict Int64 (Option (List PitStop))
  pedalTraces : Dict Int64 PedalTrace
  sectorDominance : List Int64
  label : String
deriving DecidableEq

/-- The session-constant fields, for the writer to stamp. -/
def ClipSource.baked (source : ClipSource) : Snapshot where
  sessionKey := ""
  mode := "replay"
  label := source.label
  track := source.track
  corners := source.corners
  cars := none
  messages := []
  radio := source.radio
  lapTrace := source.lapTrace
  totalLaps := source.totalLaps
  stints := source.stints
  pitStops := source.pitStops
  pedalTraces := source.pedalTraces
  sectorDominance := source.sectorDominance
  weather := none
  timeMs := 0
  rev := 0

structure Writer where
  snap : Snapshot
  rev : Int64

/-- Up to the loop: continue above the stored snapshot's revision. -/
def Writer.start (source : ClipSource) (session : String) (stored : Option Json) :
    Except BusError Writer := do
  let existing ← getSnapshot stored
  let base := (existing.map Snapshot.rev).getD 0
  return { snap := { source.baked with sessionKey := session, cars := some .empty, rev := base }
           rev := base }

def Writer.stamp (writer : Writer) (session : String) (frame : Frame) : Frame :=
  { frame with rev := writer.rev + 1, sessionKey := session }

/-- One turn of the loop up to `Publish`: the frame to publish, unless it was stale. -/
def Writer.fold (writer : Writer) (session : String) (frame : Frame) :
    Except Panic (Writer × Option Frame) := do
  let stamped := writer.stamp session frame
  let (snap, applied) ← apply writer.snap stamped
  return ({ snap, rev := writer.rev + 1 }, if applied then some stamped else none)

/-- The snapshot a hub is seeded with, once the subscription is live. -/
def seedSnapshot (session : String) (stored : Option Json) : Except BusError Snapshot := do
  let snapshot ← getSnapshot stored
  return snapshot.getD (newSnapshot session "" "")

/-- One message of the subscription: a payload that is no frame is logged and skipped. -/
def consume (snapshot : Snapshot) (payload : Json) : Except Panic (Snapshot × Option Json) :=
  match Frame.unmarshal payload with
  | none => .ok (snapshot, none)
  | some frame => hubApply snapshot frame

/-- The loop over the payloads of a subscription: the snapshot after them, and the broadcasts. -/
def broadcastAll : Snapshot → List Json → Except Panic (Snapshot × List Json)
  | hub, [] => .ok (hub, [])
  | hub, payload :: rest => do
      let (next, broadcast) ← consume hub payload
      let (last, later) ← broadcastAll next rest
      return (last, broadcast.toList ++ later)

@[simp] theorem getSnapshot_none : getSnapshot none = .ok none := rfl

@[simp] theorem getSnapshot_marshal (snapshot : Snapshot) :
    getSnapshot (some snapshot.marshal) = .ok (some snapshot) := by
  simp [getSnapshot]

theorem seedSnapshot_none (session : String) :
    seedSnapshot session none = .ok (newSnapshot session "" "") := rfl

theorem seedSnapshot_marshal (session : String) (snapshot : Snapshot) :
    seedSnapshot session (some snapshot.marshal) = .ok snapshot := by
  simp [seedSnapshot]

theorem consume_marshal (snapshot : Snapshot) (frame : Frame) :
    consume snapshot frame.marshal = hubApply snapshot frame := by
  simp [consume]

theorem broadcastAll_cons_iff {hub last : Snapshot} {payload : Json} {rest messages : List Json} :
    broadcastAll hub (payload :: rest) = .ok (last, messages) ↔
      ∃ next broadcast later, consume hub payload = .ok (next, broadcast) ∧
        broadcastAll next rest = .ok (last, later) ∧ messages = broadcast.toList ++ later := by
  rw [broadcastAll, bind_eq_ok_iff]
  constructor
  · rintro ⟨⟨next, broadcast⟩, consumed, rest⟩
    obtain ⟨⟨last, later⟩, looped, same⟩ := bind_eq_ok_iff.mp rest
    cases same
    exact ⟨next, broadcast, later, consumed, looped, rfl⟩
  · rintro ⟨next, broadcast, later, consumed, looped, rfl⟩
    exact ⟨(next, broadcast), consumed, by simp only [looped, ok_bind, pure_eq_ok]⟩

theorem broadcastAll_append_iff {hub last : Snapshot} {first second messages : List Json} :
    broadcastAll hub (first ++ second) = .ok (last, messages) ↔
      ∃ middle earlier later, broadcastAll hub first = .ok (middle, earlier) ∧
        broadcastAll middle second = .ok (last, later) ∧ messages = earlier ++ later := by
  induction first generalizing hub messages with
  | nil => simp [broadcastAll]
  | cons payload rest ih =>
      rw [List.cons_append, broadcastAll_cons_iff]
      constructor
      · rintro ⟨next, broadcast, looped, consumed, onward, rfl⟩
        obtain ⟨middle, earlier, later, start, finish, rfl⟩ := ih.mp onward
        exact ⟨middle, broadcast.toList ++ earlier, later,
          broadcastAll_cons_iff.mpr ⟨next, broadcast, earlier, consumed, start, rfl⟩, finish,
          (List.append_assoc ..).symm⟩
      · rintro ⟨middle, earlier, later, start, finish, rfl⟩
        obtain ⟨next, broadcast, looped, consumed, onward, rfl⟩ := broadcastAll_cons_iff.mp start
        exact ⟨next, broadcast, looped ++ later, consumed,
          ih.mpr ⟨middle, looped, later, onward, finish, rfl⟩, List.append_assoc ..⟩

theorem consume_sessionKey {hub next : Snapshot} {payload : Json} {broadcast : Option Json}
    (consumed : consume hub payload = .ok (next, broadcast)) : next.sessionKey = hub.sessionKey := by
  rw [consume] at consumed
  split at consumed
  · cases consumed
    rfl
  · rcases hubApply_cases consumed with ⟨rfl, _⟩ | ⟨rfl, _⟩
    · rfl
    · rfl

theorem broadcastAll_sessionKey {hub last : Snapshot} {payloads messages : List Json}
    (looped : broadcastAll hub payloads = .ok (last, messages)) : last.sessionKey = hub.sessionKey := by
  induction payloads generalizing hub messages with
  | nil =>
      cases looped
      rfl
  | cons payload rest ih =>
      obtain ⟨next, broadcast, later, consumed, onward, _⟩ := broadcastAll_cons_iff.mp looped
      exact (ih onward).trans (consume_sessionKey consumed)

/-- A writer that starts has its clip's constants, no cars, and the stored revision. -/
theorem Writer.start_cases {source : ClipSource} {session : String} {stored : Option Json}
    {writer : Writer} (started : Writer.start source session stored = .ok writer) :
    ∃ existing, getSnapshot stored = .ok existing ∧
      writer.rev = (existing.map Snapshot.rev).getD 0 ∧
      writer.snap = { source.baked with
        sessionKey := session, cars := some .empty, rev := writer.rev } := by
  obtain ⟨existing, read, begun⟩ := bind_eq_ok_iff.mp started
  cases begun
  exact ⟨existing, read, rfl, rfl⟩

theorem Writer.fold_cases {writer after : Writer} {session : String} {frame : Frame}
    {sent : Option Frame} (result : writer.fold session frame = .ok (after, sent)) :
    after.rev = writer.rev + 1 ∧
      ((sent = none ∧ after.snap = writer.snap ∧ writer.rev + 1 ≤ writer.snap.rev) ∨
        (sent = some (writer.stamp session frame) ∧
          after.snap = advance writer.snap (writer.stamp session frame) ∧
          ¬ writer.rev + 1 ≤ writer.snap.rev)) := by
  obtain ⟨⟨snap, applied⟩, folded, turned⟩ := bind_eq_ok_iff.mp result
  cases turned
  refine ⟨rfl, ?_⟩
  rcases apply_cases folded with ⟨rfl, same, stale⟩ | ⟨rfl, same, newer, _⟩
  · exact Or.inl ⟨rfl, same, stale⟩
  · exact Or.inr ⟨rfl, same, newer⟩

end RaceTracker.App
