import RaceTracker.Lib.Transition
import RaceTracker.Model.Apply
import RaceTracker.Ws.Frame

namespace RaceTracker.Ws

open RaceTracker.Lib RaceTracker.Model

/-! The fan-out hub: the authoritative snapshot, and every client's send queue,
write loop and socket.

A client object outlives its membership: after `Unregister` its write loop may go
on.  Closing runs outside the hub's lock, so the clients that overflowed during a
broadcast stay in `closing` until their sockets are closed.
-/

/-- Fold a frame into the hub's snapshot; the second part is what gets broadcast. -/
def hubApply (snapshot : Snapshot) (frame : Frame) : Except Panic (Snapshot × Option Json) := do
  let (after, applied) ← apply snapshot frame
  return (after, if applied then encodeFrame frame else none)

theorem hubApply_stale {snapshot : Snapshot} {frame : Frame} (stale : frame.rev ≤ snapshot.rev) :
    hubApply snapshot frame = .ok (snapshot, none) := by
  simp [hubApply, apply_stale stale]

theorem hubApply_advancing {snapshot : Snapshot} {frame : Frame}
    (newer : ¬ frame.rev ≤ snapshot.rev) (writable : Writable snapshot frame) :
    hubApply snapshot frame = .ok (advance snapshot frame, encodeFrame frame) := by
  simp [hubApply, apply_advancing newer writable]

theorem hubApply_cases {snapshot after : Snapshot} {frame : Frame} {broadcast : Option Json}
    (result : hubApply snapshot frame = .ok (after, broadcast)) :
    (after = snapshot ∧ broadcast = none ∧ frame.rev ≤ snapshot.rev) ∨
      (after = advance snapshot frame ∧ broadcast = encodeFrame frame ∧
        ¬ frame.rev ≤ snapshot.rev ∧ Writable snapshot frame) := by
  obtain ⟨⟨next, applied⟩, folded, sent⟩ := bind_eq_ok_iff.mp result
  cases sent
  rcases apply_cases folded with ⟨rfl, same, stale⟩ | ⟨rfl, same, newer, writable⟩
  · exact Or.inl ⟨same, rfl, stale⟩
  · exact Or.inr ⟨same, rfl, newer, writable⟩

def sendBuffer : Nat := 64

/-- `close` first wakes the write loop, then closes the socket; once only. -/
inductive Socket where
  | opened
  | closing
  | closed
deriving DecidableEq, Repr

structure Client where
  out : List Json
  /-- Taken from the queue, its write not yet finished. -/
  inFlight : Option Json
  written : List Json
  socket : Socket
  looping : Bool
  /-- The snapshot queued at registration, and how many broadcasts came before it. -/
  greeting : Json
  joined : Nat
  /-- The client's sequence up to the first message it had no room for. -/
  cut : Option (List Json)

inductive ClientAction where
  | beginClose
  | endClose
  | take
  | wrote
  | failed
  | stop

namespace Client

def create (greeting : Json) (joined : Nat) : Client where
  out := [greeting]
  inFlight := none
  written := []
  socket := .opened
  looping := true
  greeting := greeting
  joined := joined
  cut := none

/-- Queue a message; a full buffer refuses it. -/
def send (client : Client) (message : Json) (sequence : List Json) : Client :=
  if client.out.length < sendBuffer then { client with out := client.out ++ [message] }
  else { client with cut := some (client.cut.getD sequence) }

def full (client : Client) : Bool := sendBuffer ≤ client.out.length

/-- The read loop and the broadcaster may close at any time; the write loop picks any
ready case, so it may still take a message after the client was closed. -/
def step (client : Client) : ClientAction → Option Client
  | .beginClose => if client.socket = .opened then some { client with socket := .closing } else none
  | .endClose => if client.socket = .closing then some { client with socket := .closed } else none
  | .take =>
      match client.looping, client.inFlight, client.out with
      | true, none, message :: rest => some { client with inFlight := some message, out := rest }
      | _, _, _ => none
  -- A write succeeds only as long as the socket has not been closed.
  | .wrote =>
      match client.inFlight with
      | some message =>
          if client.socket = .closed then none
          else some { client with inFlight := none, written := client.written ++ [message] }
      | none => none
  | .failed =>
      match client.inFlight with
      | some _ => some { client with
          inFlight := none, looping := false
          socket := if client.socket = .opened then .closing else client.socket }
      | none => none
  | .stop =>
      if client.looping ∧ client.inFlight.isNone then some { client with looping := false } else none

end Client

structure Hub where
  snapshot : Snapshot
  members : List Nat
  clients : Nat → Option Client
  /-- Overflowed in the last broadcast and not yet closed by it. -/
  closing : List Nat
  broadcasts : List Json

inductive HubAction where
  | applyFrame (frame : Frame)
  | reset (snapshot : Snapshot)
  | register (id : Nat)
  | unregister (id : Nat)
  | closed (id : Nat)
  | client (id : Nat) (action : ClientAction)

namespace Hub

def create (snapshot : Snapshot) : Hub where
  snapshot := snapshot
  members := []
  clients _ := none
  closing := []
  broadcasts := []

/-- The snapshot at the client's registration, then every broadcast since. -/
def sequence (hub : Hub) (client : Client) : List Json :=
  client.greeting :: hub.broadcasts.drop client.joined

def setClient (hub : Hub) (id : Nat) (client : Client) : Hub :=
  { hub with clients := Function.update hub.clients id (some client) }

/-- Offer a message to every member; those without room are left for closing. -/
def broadcast (hub : Hub) (message : Json) : Hub :=
  { hub with
    clients := fun id => (hub.clients id).map fun client =>
      if id ∈ hub.members then client.send message (hub.sequence client) else client
    closing := hub.members.filter fun id => (hub.clients id).any Client.full
    broadcasts := hub.broadcasts ++ [message] }

/-- Applying and resetting are serialised: neither starts while clients are closing. -/
def step (hub : Hub) : HubAction → Option Hub
  | .applyFrame frame =>
      if hub.closing.isEmpty then
        match hubApply hub.snapshot frame with
        | .error _ => none
        | .ok (snapshot, none) => some { hub with snapshot }
        | .ok (snapshot, some message) => some ({ hub with snapshot }.broadcast message)
      else none
  | .reset snapshot =>
      if hub.closing.isEmpty then some ({ hub with snapshot }.broadcast (encodeSnapshot snapshot))
      else none
  | .register id =>
      match hub.clients id with
      | some _ => none
      | none => some { hub.setClient id (.create (encodeSnapshot hub.snapshot) hub.broadcasts.length)
          with members := id :: hub.members }
  | .unregister id => some { hub with members := hub.members.filter (· ≠ id) }
  | .closed id =>
      match hub.clients id with
      | some client =>
          if client.socket = .closed then some { hub with closing := hub.closing.filter (· ≠ id) }
          else none
      | none => none
  | .client id action =>
      match hub.clients id with
      | some client => (client.step action).map (hub.setClient id)
      | none => none

end Hub

end RaceTracker.Ws
