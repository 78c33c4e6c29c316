import RaceTracker.App.Roles
import RaceTracker.Lib.GatedLog
import RaceTracker.Lib.Transition

namespace RaceTracker.App

open RaceTracker.Lib RaceTracker.Model RaceTracker.Ws

/-! The operator toggle: `SwitchTo` against consumers of earlier subscriptions.

A call holds the gateway's lock from its first line to its return, and a consumer
needs the lock for every frame.  Cancelling is only a request: an old consumer may
have taken a frame already, and may take more, before it sees the cancellation.
-/

structure Consumer where
  session : String
  gen : Nat
  /-- Delivered to this subscription and not received. -/
  queue : List Json
  /-- Received and decoded, waiting for the lock. -/
  held : Option Frame
  cancelled : Bool
  running : Bool

/-- How far a `SwitchTo` call has come. -/
inductive Stage where
  | subscribing
  | subscribed (queue : List Json)
  | seeded (queue : List Json) (snapshot : Snapshot)

structure Gateway where
  stored : String → Option Json
  hub : Snapshot
  session : String
  gen : Nat
  consumers : List Consumer
  /-- The consumer whose context `g.cancel` cancels. -/
  cancel : Nat
  /-- The revision of the last reset, and the frames applied since, each with the
  session whose subscription it came from. -/
  resetRev : Int64
  applied : List (String × Frame)

/-- The call that holds the lock, and the gateway as it found it. -/
structure Call where
  session : String
  stage : Stage
  found : Gateway

structure Toggle where
  gateway : Gateway
  call : Option Call

inductive ToggleAction where
  | publish (session : String) (payload : Json)
  | store (session : String) (text : Json)
  | switchTo (session : String)
  | subscribe
  | subscribeFails
  | getSnapshot
  | getSnapshotFails
  | commit
  | receive (index : Nat)
  | applyHeld (index : Nat)
  | stop (index : Nat)

/-- A stored text that decodes carries the key it is stored under. -/
def KeyedBy (session : String) (text : Json) : Prop :=
  ∀ snapshot, Snapshot.unmarshal text = some snapshot → snapshot.sessionKey = session

instance (session : String) (text : Json) : Decidable (KeyedBy session text) :=
  match decoded : Snapshot.unmarshal text with
  | none => isTrue fun _ found => by rw [decoded] at found; cases found
  | some snapshot =>
      if same : snapshot.sessionKey = session then
        isTrue fun _ found => by rw [decoded] at found; cases found; exact same
      else isFalse fun keyed => same (keyed snapshot decoded)

namespace Toggle

def initial (stored : String → Option Json) (session : String) (snapshot : Snapshot) : Toggle where
  gateway := {
    stored, hub := snapshot, session, gen := 0
    consumers := [⟨session, 0, [], none, false, true⟩], cancel := 0
    resetRev := snapshot.rev, applied := [] }
  call := none

def deliver (session : String) (payload : Json) (consumer : Consumer) : Consumer :=
  if consumer.session = session then { consumer with queue := consumer.queue ++ [payload] }
  else consumer

def Call.deliver (session : String) (payload : Json) (call : Call) : Call :=
  match call.stage with
  | .subscribing => call
  | .subscribed queue =>
      if call.session = session then { call with stage := .subscribed (queue ++ [payload]) } else call
  | .seeded queue snapshot =>
      if call.session = session then { call with stage := .seeded (queue ++ [payload]) snapshot }
      else call

/-- The old consumer is cancelled, the hub reset, and a consumer of the next
generation takes over the new subscription. -/
def commit (gateway : Gateway) (session : String) (queue : List Json) (snapshot : Snapshot) : Gateway :=
  { gateway with
    hub := snapshot, session, gen := gateway.gen + 1
    consumers := gateway.consumers.modify gateway.cancel (fun old => { old with cancelled := true }) ++
      [⟨session, gateway.gen + 1, queue, none, false, true⟩]
    cancel := gateway.consumers.length
    resetRev := snapshot.rev, applied := [] }

/-- The part of `consume` under the lock: a consumer of an older generation exits. -/
def applyHeld (gateway : Gateway) (index : Nat) (consumer : Consumer) (frame : Frame) :
    Option Gateway :=
  if gateway.gen = consumer.gen then
    match hubApply gateway.hub frame with
    | .error _ => none
    | .ok (after, _) => some { gateway with
        hub := after, consumers := gateway.consumers.set index { consumer with held := none }
        applied := if frame.rev ≤ gateway.hub.rev then gateway.applied
          else gateway.applied ++ [(consumer.session, frame)] }
  else some { gateway with
    consumers := gateway.consumers.set index { consumer with held := none, running := false } }

def step (toggle : Toggle) : ToggleAction → Option Toggle
  | .publish session payload => some {
      gateway := { toggle.gateway with
        consumers := toggle.gateway.consumers.map (deliver session payload) }
      call := toggle.call.map (Call.deliver session payload) }
  | .store session text =>
      if KeyedBy session text then some { toggle with
        gateway := { toggle.gateway with
          stored := Function.update toggle.gateway.stored session (some text) } }
      else none
  | .switchTo session =>
      if toggle.call.isNone then
        if session = toggle.gateway.session then some toggle
        else some { toggle with call := some ⟨session, .subscribing, toggle.gateway⟩ }
      else none
  | .subscribe =>
      match toggle.call with
      | some ⟨session, .subscribing, found⟩ =>
          some { toggle with call := some ⟨session, .subscribed [], found⟩ }
      | _ => none
  | .subscribeFails =>
      match toggle.call with
      | some ⟨_, .subscribing, _⟩ => some { toggle with call := none }
      | _ => none
  | .getSnapshot =>
      match toggle.call with
      | some ⟨session, .subscribed queue, found⟩ =>
          match seedSnapshot session (toggle.gateway.stored session) with
          | .error _ => none
          | .ok snapshot => some { toggle with call := some ⟨session, .seeded queue snapshot, found⟩ }
      | _ => none
  -- Redis fails, or the stored text does not decode.
  | .getSnapshotFails =>
      match toggle.call with
      | some ⟨_, .subscribed _, _⟩ => some { toggle with call := none }
      | _ => none
  | .commit =>
      match toggle.call with
      | some ⟨session, .seeded queue snapshot, _⟩ =>
          some ⟨commit toggle.gateway session queue snapshot, none⟩
      | _ => none
  | .receive index =>
      match toggle.gateway.consumers[index]? with
      | some consumer =>
          match consumer.running, consumer.held, consumer.queue with
          | true, none, payload :: rest => some { toggle with
              gateway := { toggle.gateway with
                consumers := toggle.gateway.consumers.set index
                  { consumer with queue := rest, held := Frame.unmarshal payload } } }
          | _, _, _ => none
      | none => none
  | .applyHeld index =>
      match toggle.call, toggle.gateway.consumers[index]? with
      | none, some consumer =>
          match consumer.held with
          | some frame =>
              (applyHeld toggle.gateway index consumer frame).map fun gateway =>
                { toggle with gateway }
          | none => none
      | _, _ => none
  -- The cancellation is seen, or the connection to Redis is gone.
  | .stop index =>
      match toggle.gateway.consumers[index]? with
      | some consumer =>
          if consumer.held.isNone then some { toggle with
            gateway := { toggle.gateway with
              consumers := toggle.gateway.consumers.set index { consumer with running := false } } }
          else none
      | none => none

section

variable {toggle after : Toggle} {session : String} {index : Nat}

theorem step_switchTo (stepped : toggle.step (.switchTo session) = some after) :
    toggle.call = none ∧ after = if session = toggle.gateway.session then toggle
      else { toggle with call := some ⟨session, .subscribing, toggle.gateway⟩ } := by
  simp only [step] at stepped
  split at stepped
  · rename_i free
    refine ⟨Option.isNone_iff_eq_none.mp free, ?_⟩
    split at stepped
    · rename_i current
      cases stepped
      rw [if_pos current]
    · rename_i other
      cases stepped
      rw [if_neg other]
  · cases stepped

theorem step_subscribe (stepped : toggle.step .subscribe = some after) :
    ∃ session found, toggle.call = some ⟨session, .subscribing, found⟩ ∧
      after = { toggle with call := some ⟨session, .subscribed [], found⟩ } := by
  simp only [step] at stepped
  split at stepped
  · rename_i session found holding
    cases stepped
    exact ⟨session, found, holding, rfl⟩
  · cases stepped

theorem step_fails {action : ToggleAction}
    (failure : action = .subscribeFails ∨ action = .getSnapshotFails)
    (stepped : toggle.step action = some after) :
    ∃ call, toggle.call = some call ∧ after = { toggle with call := none } := by
  rcases failure with rfl | rfl
  · simp only [step] at stepped
    split at stepped
    · rename_i session found holding
      cases stepped
      exact ⟨_, holding, rfl⟩
    · cases stepped
  · simp only [step] at stepped
    split at stepped
    · rename_i session queue found holding
      cases stepped
      exact ⟨_, holding, rfl⟩
    · cases stepped

theorem step_getSnapshot (stepped : toggle.step .getSnapshot = some after) :
    ∃ session queue found snapshot, toggle.call = some ⟨session, .subscribed queue, found⟩ ∧
      seedSnapshot session (toggle.gateway.stored session) = .ok snapshot ∧
      after = { toggle with call := some ⟨session, .seeded queue snapshot, found⟩ } := by
  simp only [step] at stepped
  split at stepped
  · rename_i session queue found holding
    split at stepped
    · cases stepped
    · rename_i snapshot read
      cases stepped
      exact ⟨session, queue, found, snapshot, holding, read, rfl⟩
  · cases stepped

theorem step_commit (stepped : toggle.step .commit = some after) :
    ∃ session queue snapshot found, toggle.call = some ⟨session, .seeded queue snapshot, found⟩ ∧
      after = ⟨commit toggle.gateway session queue snapshot, none⟩ := by
  simp only [step] at stepped
  split at stepped
  · rename_i session queue snapshot found holding
    cases stepped
    exact ⟨session, queue, snapshot, found, holding, rfl⟩
  · cases stepped

theorem step_receive (stepped : toggle.step (.receive index) = some after) :
    ∃ consumer payload rest, toggle.gateway.consumers[index]? = some consumer ∧
      after = { toggle with gateway := { toggle.gateway with
        consumers := toggle.gateway.consumers.set index
          { consumer with queue := rest, held := Frame.unmarshal payload } } } := by
  simp only [step] at stepped
  split at stepped
  · rename_i consumer found
    split at stepped
    · rename_i payload rest _ _ _
      cases stepped
      exact ⟨consumer, payload, rest, found, rfl⟩
    · cases stepped
  · cases stepped

theorem step_applyHeld (stepped : toggle.step (.applyHeld index) = some after) :
    ∃ consumer frame gateway, toggle.call = none ∧
      toggle.gateway.consumers[index]? = some consumer ∧
      applyHeld toggle.gateway index consumer frame = some gateway ∧
      after = { toggle with gateway } := by
  simp only [step] at stepped
  split at stepped
  · rename_i consumer free found
    split at stepped
    · rename_i frame _
      obtain ⟨gateway, moved, rfl⟩ := Option.map_eq_some_iff.mp stepped
      exact ⟨consumer, frame, gateway, free, found, moved, rfl⟩
    · cases stepped
  · cases stepped

theorem step_stop (stepped : toggle.step (.stop index) = some after) :
    ∃ consumer, toggle.gateway.consumers[index]? = some consumer ∧
      after = { toggle with gateway := { toggle.gateway with
        consumers := toggle.gateway.consumers.set index { consumer with running := false } } } := by
  simp only [step] at stepped
  split at stepped
  · rename_i consumer found
    split at stepped
    · cases stepped
      exact ⟨consumer, found, rfl⟩
    · cases stepped
  · cases stepped

end

end Toggle

end RaceTracker.App
