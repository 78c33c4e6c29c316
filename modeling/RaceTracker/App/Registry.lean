import RaceTracker.App.Switching
import RaceTracker.Lib.Dict
import RaceTracker.Ws.Streams

namespace RaceTracker.App

open RaceTracker.Lib RaceTracker.Model RaceTracker.Ws

/-! The compare lanes: a hub for each session, made by the first request that names it.

The lock on the registry is held from the lookup to the new entry.  A hub in it is never switched
and only its own loop applies frames to it, so taking a payload and applying it is one step.
-/

def defaultAllowedSessions : List String := ["compare-monza-2023", "compare-monza-2024"]

/-- An empty list leaves the sessions as they are. -/
def setAllowedSessions (allowedSessions sessions : List String) : List String :=
  if sessions = [] then allowedSessions else sessions

inductive WsAnswer where
  | forbidden
  | badRequest
  | badGateway
deriving DecidableEq

/-- The session whose hub a request is for; without one it is for the toggle's. -/
def checkWs (allowed : String → Bool) (sessions : List String) (host session : String) :
    Except WsAnswer (Option String) :=
  if allowed host = false then .error .forbidden
  else if session = "" then .ok none
  else if session ∈ sessions then .ok (some session)
  else .error .badRequest

structure ReadHub where
  hub : Hub
  /-- Delivered to its subscription and not received. -/
  queue : List Json
  /-- The snapshot that seeded it, what its session had published before it subscribed, and
  the payloads it has received. -/
  seed : Snapshot
  since : Nat
  consumed : List Json

/-- The request that holds the lock of the registry. -/
structure Creation where
  id : Nat
  session : String
  since : Nat
  stage : Stage

structure Registry where
  stored : String → Option Json
  published : String → List Json
  /-- The hub of the toggle. -/
  active : Hub
  hubs : Dict String ReadHub
  call : Option Creation
  /-- The hub that each request was served by, with nothing for the toggle's. -/
  routes : Nat → Option (Option String)

/-- What a connection does at its hub. -/
inductive Visit where
  | register
  | unregister
  | closed
  | client (action : ClientAction)

def Visit.action (id : Nat) : Visit → HubAction
  | .register => .register id
  | .unregister => .unregister id
  | .closed => .closed id
  | .client action => .client id action

inductive RegistryAction where
  | request (id : Nat) (host session : String)
  | subscribe
  | subscribeFails
  | getSnapshot
  | getSnapshotFails
  | create
  | visit (id : Nat) (visit : Visit)
  /-- A broken connection to the bus, or a full channel, loses the payload. -/
  | publish (session : String) (payload : Json) (delivered : Bool)
  | store (session : String) (text : Json)
  | consume (session : String)
  | applyActive (frame : Frame)
  | resetActive (snapshot : Snapshot)

/-- One turn of the loop of a hub that is never switched. -/
def ReadHub.consume (entry : ReadHub) : Option ReadHub :=
  match entry.queue with
  | [] => none
  | payload :: rest =>
      let received := { entry with queue := rest, consumed := entry.consumed ++ [payload] }
      match Frame.unmarshal payload with
      | none => some received
      | some frame => (entry.hub.step (.applyFrame frame)).map fun hub => { received with hub }

def ReadHub.deliver (entry : ReadHub) (payload : Json) : ReadHub :=
  { entry with queue := entry.queue ++ [payload] }

def Stage.deliver (payload : Json) : Stage → Stage
  | .subscribing => .subscribing
  | .subscribed queue => .subscribed (queue ++ [payload])
  | .seeded queue snapshot => .seeded (queue ++ [payload]) snapshot

def Creation.deliver (session : String) (payload : Json) (call : Creation) : Creation :=
  if call.session = session then { call with stage := call.stage.deliver payload } else call

namespace Registry

def initial (stored : String → Option Json) (active : Snapshot) : Registry where
  stored := stored
  published _ := []
  active := Hub.create active
  hubs := .empty
  call := none
  routes _ := none

def fresh (registry : Registry) (id : Nat) : Bool :=
  (registry.routes id).isNone ∧ ∀ call ∈ registry.call, call.id ≠ id

def serve (registry : Registry) (id : Nat) (lane : Option String) : Registry :=
  { registry with routes := Function.update registry.routes id (some lane) }

def put (registry : Registry) (session : String) (entry : ReadHub) : Registry :=
  { registry with hubs := registry.hubs.set session entry }

def publish (registry : Registry) (session : String) (payload : Json) : Registry :=
  { registry with
    published := Function.update registry.published session
      (registry.published session ++ [payload]) }

/-- A payload reaches the one subscription that its session has here, if there is one. -/
def deliver (registry : Registry) (session : String) (payload : Json) : Registry :=
  match registry.hubs.get? session with
  | some entry => registry.put session (entry.deliver payload)
  | none => { registry with call := registry.call.map (Creation.deliver session payload) }

def visit (registry : Registry) (id : Nat) (visit : Visit) : Option Registry :=
  match registry.routes id with
  | none => none
  | some none => (registry.active.step (visit.action id)).map fun active => { registry with active }
  | some (some session) =>
      match registry.hubs.get? session with
      | none => none
      | some entry => (entry.hub.step (visit.action id)).map fun hub =>
          registry.put session { entry with hub }

variable (allowed : String → Bool) (sessions : List String)

/-- The state after an action, and the answer to a request that it refuses. -/
def step (registry : Registry) : RegistryAction → Option (Registry × Option WsAnswer)
  | .request id host session =>
      if registry.fresh id then
        match checkWs allowed sessions host session with
        | .error answer => some (registry, some answer)
        | .ok none => some (registry.serve id none, none)
        | .ok (some session) =>
            if registry.call.isNone then
              if (registry.hubs.get? session).isSome then some (registry.serve id (some session), none)
              else some ({ registry with call := some ⟨id, session, 0, .subscribing⟩ }, none)
            else none
      else none
  | .subscribe =>
      match registry.call with
      | some ⟨id, session, _, .subscribing⟩ => some ({ registry with
          call := some ⟨id, session, (registry.published session).length, .subscribed []⟩ }, none)
      | _ => none
  | .subscribeFails =>
      match registry.call with
      | some ⟨_, _, _, .subscribing⟩ => some ({ registry with call := none }, some .badGateway)
      | _ => none
  | .getSnapshot =>
      match registry.call with
      | some ⟨id, session, since, .subscribed queue⟩ =>
          match seedSnapshot session (registry.stored session) with
          | .error _ => none
          | .ok snapshot => some ({ registry with
              call := some ⟨id, session, since, .seeded queue snapshot⟩ }, none)
      | _ => none
  | .getSnapshotFails =>
      match registry.call with
      | some ⟨_, _, _, .subscribed _⟩ => some ({ registry with call := none }, some .badGateway)
      | _ => none
  | .create =>
      match registry.call with
      | some ⟨id, session, since, .seeded queue snapshot⟩ =>
          some ({ (registry.put session ⟨.create snapshot, queue, snapshot, since, []⟩).serve id
            (some session) with call := none }, none)
      | _ => none
  | .visit id action => (registry.visit id action).map fun after => (after, none)
  | .publish session payload delivered =>
      some ((if delivered then registry.deliver session payload else registry).publish session payload,
        none)
  | .store session text =>
      if KeyedBy session text then some ({ registry with
        stored := Function.update registry.stored session (some text) }, none)
      else none
  | .consume session =>
      match registry.hubs.get? session with
      | none => none
      | some entry => entry.consume.map fun entry => (registry.put session entry, none)
  | .applyActive frame =>
      (registry.active.step (.applyFrame frame)).map fun active => ({ registry with active }, none)
  | .resetActive snapshot =>
      (registry.active.step (.reset snapshot)).map fun active => ({ registry with active }, none)

def next (registry : Registry) (action : RegistryAction) : Option Registry :=
  (registry.step allowed sessions action).map Prod.fst

end Registry

end RaceTracker.App
