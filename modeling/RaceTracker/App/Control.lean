import RaceTracker.App.Sessions

namespace RaceTracker.App

open RaceTracker.Lib RaceTracker.Model RaceTracker.Ws

/-! The control endpoint over the toggle, on a bus that drops connections.

A dropped connection closes the channel of a subscription.  Its consumer drains what the
channel still holds and exits; nothing tells the gateway.
-/

inductive Method where
  | get
  | post
  | other
deriving DecidableEq

structure Request where
  method : Method
  /-- Empty if the header is missing. -/
  secFetchSite : String
  host : String
  /-- The first JSON value of the body, if there is one. -/
  body : Option Json

inductive Answer where
  | current (source : String)
  | switched (source : String)
  | forbidden
  | badRequest
  | badGateway
  | methodNotAllowed
deriving DecidableEq

def allowedSources : List String := ["replay", "live"]

/-- Loopback always qualifies, with or without a port. -/
def hostAllowed (splitHostPort : String → Option String) (toLower : String → String)
    (extra : List String) (reqHost : String) : Bool :=
  let host := toLower ((splitHostPort reqHost).getD reqHost)
  host = "localhost" ∨ host = "127.0.0.1" ∨ host = "::1" ∨ host ∈ extra

/-- The `source` of a body that decodes. -/
def requestedSource : Json → Option String
  | .null => some ""
  | .obj members => Codec.string.field "source" members ""
  | _ => none

/-- The checks before a switch. -/
def checkSwitch (allowed : String → Bool) (request : Request) : Except Answer String :=
  if request.secFetchSite ≠ "" ∧ request.secFetchSite ≠ "same-origin" ∧
      request.secFetchSite ≠ "none" then .error .forbidden
  else if allowed request.host = false then .error .forbidden
  else match request.body.bind requestedSource with
    | none => .error .badRequest
    | some source => if source ∈ allowedSources then .ok source else .error .badRequest

structure Control where
  toggle : Toggle
  /-- The consumers whose channel has closed. -/
  closed : List Nat
  /-- So has the channel that the call in progress has subscribed to. -/
  callClosed : Bool

inductive ControlAction where
  /-- A request that gets the lock, or needs none. -/
  | request (request : Request)
  | publish (session : String) (payload : Json)
  | store (session : String) (text : Json)
  | subscribe
  | subscribeFails
  | getSnapshot
  | getSnapshotFails
  | commit
  | receive (index : Nat)
  | applyHeld (index : Nat)
  | stop (index : Nat)
  | close (index : Nat)
  | closeCall

namespace Control

def initial (stored : String → Option Json) (session : String) (snapshot : Snapshot) : Control where
  toggle := Toggle.initial stored session snapshot
  closed := []
  callClosed := false

def gateway (control : Control) : Gateway := control.toggle.gateway

/-- A closed channel gets nothing more. -/
def publish (control : Control) (session : String) (payload : Json) : Control :=
  { control with
    toggle := {
      gateway := { control.gateway with
        consumers := control.gateway.consumers.mapIdx fun index consumer =>
          if index ∈ control.closed then consumer else Toggle.deliver session payload consumer }
      call := if control.callClosed then control.toggle.call
        else control.toggle.call.map (Toggle.Call.deliver session payload) } }

/-- A step of the toggle, and what it answers to the request that waits for it. -/
def lift (control : Control) (action : ToggleAction) (answer : Option Answer) :
    Option (Control × Option Answer) :=
  (control.toggle.step action).map fun toggle => ({ control with toggle }, answer)

variable (allowed : String → Bool)

/-- The state after an action, and the answer that it gives. -/
def step (control : Control) : ControlAction → Option (Control × Option Answer)
  | .request request =>
      match request.method with
      | .get =>
          if control.toggle.call.isNone then some (control, some (.current control.gateway.session))
          else none
      | .other => some (control, some .methodNotAllowed)
      | .post =>
          match checkSwitch allowed request with
          | .error answer => some (control, some answer)
          -- `SwitchTo` returns at once if the source is the current one.
          | .ok source => control.lift (.switchTo source)
              (if source = control.gateway.session then some (.switched source) else none)
  | .publish session payload => some (control.publish session payload, none)
  | .store session text => some ({ control with
      toggle := { control.toggle with
        gateway := { control.gateway with
          stored := Function.update control.gateway.stored session (some text) } } }, none)
  | .subscribe => { control with callClosed := false }.lift .subscribe none
  | .subscribeFails => control.lift .subscribeFails (some .badGateway)
  | .getSnapshot => control.lift .getSnapshot none
  | .getSnapshotFails => control.lift .getSnapshotFails (some .badGateway)
  | .commit =>
      match control.toggle.call with
      | some ⟨session, .seeded _ _, _⟩ =>
          { control with
            closed := if control.callClosed then control.gateway.consumers.length :: control.closed
              else control.closed }.lift .commit (some (.switched session))
      | _ => none
  | .receive index => control.lift (.receive index) none
  | .applyHeld index => control.lift (.applyHeld index) none
  -- A consumer exits when it is cancelled, or when its channel is closed and empty.
  | .stop index =>
      match control.gateway.consumers[index]? with
      | some consumer =>
          if consumer.cancelled ∨ (index ∈ control.closed ∧ consumer.queue = []) then
            control.lift (.stop index) none
          else none
      | none => none
  | .close index =>
      if index < control.gateway.consumers.length then
        some ({ control with closed := index :: control.closed }, none)
      else none
  | .closeCall =>
      match control.toggle.call with
      | some ⟨_, .subscribing, _⟩ => none
      | some _ => some ({ control with callClosed := true }, none)
      | none => none

def next (control : Control) (action : ControlAction) : Option Control :=
  (control.step allowed action).map Prod.fst

end Control

/-- A running consumer of the source, of the gateway's generation, with an open channel. -/
structure Live (control : Control) (source : String) : Prop where
  session : control.gateway.session = source
  consumer : ∃ consumer, control.gateway.consumers[control.gateway.cancel]? = some consumer ∧
    consumer.session = source ∧ consumer.gen = control.gateway.gen ∧ consumer.running = true ∧
      consumer.cancelled = false
  opened : control.gateway.cancel ∉ control.closed

/-- What is true of the gateway at all times: `g.cancel` belongs to a consumer of the current session
and generation that is not cancelled, and that runs as long as its channel is open. -/
structure Tended (gateway : Gateway) (closed : List Nat) : Prop where
  consumer : ∃ consumer, gateway.consumers[gateway.cancel]? = some consumer ∧
    consumer.session = gateway.session ∧ consumer.gen = gateway.gen ∧
      consumer.cancelled = false ∧ (gateway.cancel ∉ closed → consumer.running = true)
  known : ∀ index ∈ closed, index < gateway.consumers.length

section

variable {control : Control} {gateway : Gateway} {closed : List Nat}

theorem Tended.live_iff (tended : Tended control.gateway control.closed) {source : String} :
    Live control source ↔
      control.gateway.session = source ∧ control.gateway.cancel ∉ control.closed := by
  constructor
  · exact fun live => ⟨live.session, live.opened⟩
  · rintro ⟨session, opened⟩
    obtain ⟨consumer, found, own, gen, running, runs⟩ := tended.consumer
    exact ⟨session, ⟨consumer, found, own.trans session, gen, runs opened, running⟩, opened⟩

theorem tended_initial (stored : String → Option Json) (session : String) (snapshot : Snapshot) :
    Tended (Control.initial stored session snapshot).gateway [] where
  consumer := ⟨_, rfl, rfl, rfl, rfl, fun _ => rfl⟩
  known := nofun

/-- One consumer makes progress; the one that `g.cancel` belongs to goes on while it is open. -/
theorem Tended.set (tended : Tended gateway closed) {index : Nat} {old next : Consumer}
    (found : gateway.consumers[index]? = some old) (same : next.identity = old.identity)
    (runs : index = gateway.cancel → gateway.cancel ∉ closed → old.running = true →
      next.running = true) :
    Tended { gateway with consumers := gateway.consumers.set index next } closed where
  consumer := by
    obtain ⟨consumer, held, session, gen, cancelled, running⟩ := tended.consumer
    simp only [Consumer.identity, Prod.mk.injEq] at same
    by_cases here : index = gateway.cancel
    · subst here
      cases held.symm.trans found
      refine ⟨next, ?_, same.1.trans session, same.2.1.trans gen, same.2.2.trans cancelled, ?_⟩
      · exact List.getElem?_set_self (List.getElem?_eq_some_iff.mp found).1
      · exact fun opened => runs rfl opened (running opened)
    · exact ⟨consumer, (List.getElem?_set_ne here).trans held, session, gen, cancelled, running⟩
  known index member := by
    rw [List.length_set]
    exact tended.known index member

theorem Tended.commit (tended : Tended gateway closed) (session : String) (queue : List Json)
    (snapshot : Snapshot) (callClosed : Bool) :
    Tended (Toggle.commit gateway session queue snapshot)
      (if callClosed then gateway.consumers.length :: closed else closed) where
  consumer := by
    refine ⟨⟨session, gateway.gen + 1, queue, none, false, true⟩, ?_, rfl, rfl, rfl, fun _ => rfl⟩
    simp [Toggle.commit]
  known index member := by
    have length : (Toggle.commit gateway session queue snapshot).consumers.length =
        gateway.consumers.length + 1 := by
      simp [Toggle.commit]
    rw [length]
    cases callClosed with
    | false => exact Nat.lt_succ_of_lt (tended.known index member)
    | true =>
        rcases List.mem_cons.mp member with rfl | old
        · exact Nat.lt_succ_self _
        · exact Nat.lt_succ_of_lt (tended.known index old)

theorem Tended.applyHeld (tended : Tended gateway closed) {index : Nat} {consumer : Consumer}
    {frame : Frame} {next : Gateway} (found : gateway.consumers[index]? = some consumer)
    (stepped : Toggle.applyHeld gateway index consumer frame = some next) : Tended next closed := by
  rw [Toggle.applyHeld] at stepped
  split at stepped
  · cases folded : hubApply gateway.hub frame with
    | error panic => simp [folded] at stepped
    | ok pair =>
        have released : Tended { gateway with
            consumers := gateway.consumers.set index { consumer with held := none } } closed :=
          tended.set found rfl fun _ _ running => running
        simp only [folded, Option.some.injEq] at stepped
        subst stepped
        exact ⟨released.consumer, released.known⟩
  · rename_i stale
    cases stepped
    refine tended.set found rfl ?_
    -- The consumer of the current generation does not take this branch.
    rintro rfl
    obtain ⟨own, held, _, gen, _⟩ := tended.consumer
    cases held.symm.trans found
    exact absurd gen.symm stale

theorem Tended.publish (tended : Tended control.gateway control.closed) (session : String)
    (payload : Json) : Tended (control.publish session payload).gateway control.closed where
  consumer := by
    obtain ⟨consumer, found, own, gen, cancelled, running⟩ := tended.consumer
    have delivered : (control.publish session payload).gateway.consumers[control.gateway.cancel]? =
        some (if control.gateway.cancel ∈ control.closed then consumer
          else Toggle.deliver session payload consumer) := by
      simp only [Control.publish, List.getElem?_mapIdx, Control.gateway] at found ⊢
      rw [found]
      rfl
    refine ⟨_, delivered, ?_⟩
    by_cases shut : control.gateway.cancel ∈ control.closed
    · rw [if_pos shut]
      exact ⟨own, gen, cancelled, running⟩
    · rw [if_neg shut]
      rw [Toggle.deliver]
      split
      · exact ⟨own, gen, cancelled, running⟩
      · exact ⟨own, gen, cancelled, running⟩
  known index member := by
    have length : (control.publish session payload).gateway.consumers.length =
        control.gateway.consumers.length := by
      simp [Control.publish, Control.gateway]
    rw [length]
    exact tended.known index member

/-- The steps of a call before it commits leave the gateway as it is. -/
theorem uncommitted_step {toggle after : Toggle} {action : ToggleAction}
    (early : action ∈ [.subscribe, .subscribeFails, .getSnapshot, .getSnapshotFails] ∨
      ∃ session, action = .switchTo session)
    (stepped : toggle.step action = some after) : after.gateway = toggle.gateway := by
  cases action with
  | subscribe =>
      obtain ⟨_, _, _, rfl⟩ := Toggle.step_subscribe stepped
      rfl
  | subscribeFails =>
      obtain ⟨_, _, rfl⟩ := Toggle.step_fails (.inl rfl) stepped
      rfl
  | getSnapshot =>
      obtain ⟨_, _, _, _, _, _, rfl⟩ := Toggle.step_getSnapshot stepped
      rfl
  | getSnapshotFails =>
      obtain ⟨_, _, rfl⟩ := Toggle.step_fails (.inr rfl) stepped
      rfl
  | switchTo session =>
      obtain ⟨_, rfl⟩ := Toggle.step_switchTo stepped
      split
      · rfl
      · rfl
  | _ => simp at early

theorem Tended.lift (tended : Tended control.gateway control.closed) {after : Control}
    {action : ToggleAction} {answer answer' : Option Answer}
    (early : action ∈ [.subscribe, .subscribeFails, .getSnapshot, .getSnapshotFails] ∨
      ∃ session, action = .switchTo session)
    (stepped : control.lift action answer = some (after, answer')) :
    Tended after.gateway after.closed := by
  obtain ⟨toggle, moved, same⟩ := Option.map_eq_some_iff.mp stepped
  cases same
  have kept : toggle.gateway = control.gateway := uncommitted_step early moved
  simpa only [Control.gateway, kept] using tended

theorem Tended.close (tended : Tended gateway closed) {index : Nat}
    (within : index < gateway.consumers.length) : Tended gateway (index :: closed) where
  consumer := by
    obtain ⟨consumer, found, session, gen, cancelled, running⟩ := tended.consumer
    refine ⟨consumer, found, session, gen, cancelled, ?_⟩
    exact fun opened => running fun shut => opened (List.mem_cons_of_mem _ shut)
  known := by
    intro other member
    rcases List.mem_cons.mp member with rfl | old
    · exact within
    · exact tended.known other old

/-- The current consumer ends only once its channel is closed. -/
theorem Tended.closed_of_ends (tended : Tended gateway closed) {index : Nat} {consumer : Consumer}
    (found : gateway.consumers[index]? = some consumer)
    (ends : consumer.cancelled = true ∨ index ∈ closed) (current : index = gateway.cancel) :
    index ∈ closed := by
  subst current
  obtain ⟨own, held, _, _, cancelled, _⟩ := tended.consumer
  cases held.symm.trans found
  rcases ends with asked | shut
  · cases cancelled.symm.trans asked
  · exact shut

theorem tended_step {allowed : String → Bool} {after : Control} {action : ControlAction}
    {answer : Option Answer} (tended : Tended control.gateway control.closed)
    (stepped : control.step allowed action = some (after, answer)) :
    Tended after.gateway after.closed := by
  cases action with
  | request request =>
      simp only [Control.step] at stepped
      split at stepped
      · split at stepped
        · cases stepped
          exact tended
        · cases stepped
      · cases stepped
        exact tended
      · split at stepped
        · cases stepped
          exact tended
        · exact tended.lift (.inr ⟨_, rfl⟩) stepped
  | publish session payload =>
      cases stepped
      exact tended.publish session payload
  | store session text =>
      cases stepped
      exact ⟨tended.consumer, tended.known⟩
  | subscribe =>
      have reset : Tended { control with callClosed := false }.gateway control.closed := tended
      exact Tended.lift reset (.inl (by simp)) stepped
  | subscribeFails => exact tended.lift (.inl (by simp)) stepped
  | getSnapshot => exact tended.lift (.inl (by simp)) stepped
  | getSnapshotFails => exact tended.lift (.inl (by simp)) stepped
  | commit =>
      simp only [Control.step] at stepped
      split at stepped
      · rename_i session queue snapshot found held
        obtain ⟨toggle, moved, same⟩ := Option.map_eq_some_iff.mp stepped
        cases same
        obtain ⟨_, _, _, _, holding, rfl⟩ := Toggle.step_commit moved
        cases held.symm.trans holding
        exact tended.commit session queue snapshot control.callClosed
      · cases stepped
  | receive index =>
      obtain ⟨toggle, moved, same⟩ := Option.map_eq_some_iff.mp stepped
      cases same
      obtain ⟨consumer, payload, rest, found, rfl⟩ := Toggle.step_receive moved
      exact tended.set found rfl fun _ _ running => running
  | applyHeld index =>
      obtain ⟨toggle, moved, same⟩ := Option.map_eq_some_iff.mp stepped
      cases same
      obtain ⟨consumer, frame, gateway, _, found, applied, rfl⟩ := Toggle.step_applyHeld moved
      exact tended.applyHeld found applied
  | stop index =>
      simp only [Control.step] at stepped
      split at stepped
      · rename_i consumer found
        split at stepped
        · rename_i ends
          obtain ⟨toggle, moved, same⟩ := Option.map_eq_some_iff.mp stepped
          cases same
          obtain ⟨_, again, rfl⟩ := Toggle.step_stop moved
          cases found.symm.trans again
          refine tended.set found rfl ?_
          intro current opened _
          have shut := tended.closed_of_ends found (ends.imp_right And.left) current
          exact absurd (current ▸ shut) opened
        · cases stepped
      · cases stepped
  | close index =>
      simp only [Control.step] at stepped
      split at stepped
      · rename_i within
        cases stepped
        exact tended.close within
      · cases stepped
  | closeCall =>
      simp only [Control.step] at stepped
      split at stepped
      · cases stepped
      · cases stepped
        exact tended
      · cases stepped

theorem checkSwitch_error {allowed : String → Bool} {request : Request} {answer : Answer}
    (refused : checkSwitch allowed request = .error answer) :
    answer = .forbidden ∨ answer = .badRequest := by
  rw [checkSwitch] at refused
  split at refused
  · cases refused
    exact .inl rfl
  split at refused
  · cases refused
    exact .inl rfl
  split at refused
  · cases refused
    exact .inr rfl
  · split at refused <;> cases refused
    exact .inr rfl

/-- The channel that the answered source is to come from is open: the one the gateway has, or the one
the call has just subscribed to. -/
def Control.Subscribed (control : Control) : ControlAction → Prop
  | .commit => control.callClosed = false
  | _ => control.gateway.cancel ∉ control.closed

/-- A switch is answered with the lock free, the source current, and its channel as it was found. -/
theorem switched_step {allowed : String → Bool} {after : Control} {action : ControlAction}
    {source : String} (tended : Tended control.gateway control.closed)
    (stepped : control.step allowed action = some (after, some (.switched source))) :
    after.toggle.call = none ∧ after.gateway.session = source ∧
      (after.gateway.cancel ∉ after.closed ↔ control.Subscribed action) := by
  cases action with
  | request request =>
      simp only [Control.step] at stepped
      split at stepped
      · split at stepped <;> cases stepped
      · cases stepped
      · split at stepped
        · rename_i answer refused
          cases stepped
          rcases checkSwitch_error refused with same | same <;> cases same
        · rename_i wanted _
          obtain ⟨toggle, moved, same⟩ := Option.map_eq_some_iff.mp stepped
          obtain ⟨rfl, answered⟩ := Prod.mk.inj same
          split at answered
          · rename_i current
            cases answered
            obtain ⟨free, rfl⟩ := Toggle.step_switchTo moved
            rw [if_pos (show source = control.toggle.gateway.session from current)]
            exact ⟨free, current.symm, Iff.rfl⟩
          · cases answered
  | commit =>
      simp only [Control.step] at stepped
      split at stepped
      · rename_i session queue snapshot found held
        obtain ⟨toggle, moved, same⟩ := Option.map_eq_some_iff.mp stepped
        obtain ⟨_, _, _, _, holding, rfl⟩ := Toggle.step_commit moved
        cases held.symm.trans holding
        cases same
        refine ⟨rfl, rfl, ?_⟩
        have fresh : control.gateway.consumers.length ∉ control.closed :=
          fun member => absurd (tended.known _ member) (Nat.lt_irrefl _)
        simp only [Control.Subscribed, Control.gateway, Toggle.commit] at fresh ⊢
        cases control.callClosed <;> simp [fresh]
      · cases stepped
  | publish session payload => cases stepped
  | store session text => cases stepped
  | subscribe | subscribeFails | getSnapshot | getSnapshotFails | receive | applyHeld =>
      obtain ⟨toggle, _, same⟩ := Option.map_eq_some_iff.mp stepped
      cases same
  | stop index =>
      simp only [Control.step] at stepped
      split at stepped
      · split at stepped
        · obtain ⟨toggle, _, same⟩ := Option.map_eq_some_iff.mp stepped
          cases same
        · cases stepped
      · cases stepped
  | close index =>
      simp only [Control.step] at stepped
      split at stepped <;> cases stepped
  | closeCall =>
      simp only [Control.step] at stepped
      split at stepped <;> cases stepped

/-- The hub's snapshot once a consumer has applied what it holds and what its channel holds. -/
def settledHub (hub : Snapshot) (consumer : Consumer) : Except Panic Snapshot := do
  let hub ← match consumer.held with
    | some frame => (hubApply hub frame).map Prod.fst
    | none => .ok hub
  consumer.queue.foldlM (fun hub payload => (consume hub payload).map Prod.fst) hub

/-- The gateway's own consumer runs, and the lock is free. -/
structure Feeding (control : Control) (consumer : Consumer) : Prop where
  free : control.toggle.call = none
  found : control.gateway.consumers[control.gateway.cancel]? = some consumer
  gen : consumer.gen = control.gateway.gen
  running : consumer.running = true

variable (allowed : String → Bool) {consumer : Consumer}

theorem Feeding.applies (feeding : Feeding control consumer) {frame : Frame} {hub : Snapshot}
    (held : consumer.held = some frame)
    (applied : (hubApply control.gateway.hub frame).map Prod.fst = .ok hub) :
    ∃ later, control.next allowed (.applyHeld control.gateway.cancel) = some later ∧
      later.gateway.hub = hub ∧ Feeding later { consumer with held := none } := by
  cases folded : hubApply control.gateway.hub frame with
  | error panic => simp [folded, Except.map] at applied
  | ok pair =>
      obtain ⟨after, sent⟩ := pair
      obtain rfl : after = hub := by simpa [folded, Except.map] using applied
      have found := feeding.found
      have gen := feeding.gen
      simp only [Control.gateway] at found gen folded
      let later : Control := { control with toggle := { control.toggle with
        gateway := { control.toggle.gateway with
          hub := after
          consumers := control.toggle.gateway.consumers.set control.toggle.gateway.cancel
            { consumer with held := none }
          applied := if frame.rev ≤ control.toggle.gateway.hub.rev then control.toggle.gateway.applied
            else control.toggle.gateway.applied ++ [(consumer.session, frame)] } } }
      have here : later.gateway.consumers[later.gateway.cancel]? =
          some { consumer with held := none } :=
        List.getElem?_set_self (List.getElem?_eq_some_iff.mp found).1
      refine ⟨later, ?_, rfl, feeding.free, here, feeding.gen, feeding.running⟩
      simp only [Control.next, Control.step, Control.lift, Toggle.step, Control.gateway, feeding.free,
        found, held, Toggle.applyHeld, gen, if_true, folded, Option.map_some, later]

theorem Feeding.receives (feeding : Feeding control consumer) {payload : Json} {rest : List Json}
    (idle : consumer.held = none) (queue : consumer.queue = payload :: rest) :
    ∃ later, control.next allowed (.receive control.gateway.cancel) = some later ∧
      later.gateway.hub = control.gateway.hub ∧
      Feeding later { consumer with queue := rest, held := Frame.unmarshal payload } := by
  have found := feeding.found
  simp only [Control.gateway] at found
  let later : Control := { control with toggle := { control.toggle with
    gateway := { control.toggle.gateway with
      consumers := control.toggle.gateway.consumers.set control.toggle.gateway.cancel
        { consumer with queue := rest, held := Frame.unmarshal payload } } } }
  have here : later.gateway.consumers[later.gateway.cancel]? =
      some { consumer with queue := rest, held := Frame.unmarshal payload } :=
    List.getElem?_set_self (List.getElem?_eq_some_iff.mp found).1
  refine ⟨later, ?_, rfl, feeding.free, here, feeding.gen, feeding.running⟩
  simp only [Control.next, Control.step, Control.lift, Toggle.step, Control.gateway, found,
    feeding.running, idle, queue, Option.map_some, later]

theorem Feeding.hands_over (feeding : Feeding control consumer) {hub : Snapshot}
    (settled : settledHub control.gateway.hub consumer = .ok hub) :
    ∃ schedule later, run (Control.next allowed) control schedule = some later ∧
      Feeding later { consumer with held := none } ∧
        settledHub later.gateway.hub { consumer with held := none } = .ok hub := by
  cases held : consumer.held with
  | none =>
      have same : { consumer with held := none } = consumer := by rw [← held]
      exact ⟨[], control, rfl, same ▸ feeding, same ▸ settled⟩
  | some frame =>
      rw [settledHub] at settled
      rw [held] at settled
      obtain ⟨before, applied, rest⟩ := bind_eq_ok_iff.mp settled
      obtain ⟨later, stepped, rfl, fed⟩ := feeding.applies allowed held applied
      refine ⟨[.applyHeld control.gateway.cancel], later, ?_, fed, rest⟩
      rw [run_cons, stepped]
      rfl

/-- A payload received is a payload settled, whether it decodes or not. -/
theorem settledHub_receive (hub : Snapshot) (payload : Json) (rest : List Json) :
    settledHub hub { consumer with held := none, queue := payload :: rest } =
      settledHub hub { consumer with held := Frame.unmarshal payload, queue := rest } := by
  simp only [settledHub, ok_bind, List.foldlM_cons, consume]
  cases Frame.unmarshal payload <;> rfl

/-- Left to itself, the consumer brings everything it has to the hub. -/
theorem Feeding.drains (feeding : Feeding control consumer) {hub : Snapshot}
    (settled : settledHub control.gateway.hub consumer = .ok hub) :
    ∃ schedule later, run (Control.next allowed) control schedule = some later ∧
      later.gateway.hub = hub := by
  induction queue : consumer.queue generalizing control consumer with
  | nil =>
      obtain ⟨schedule, later, ran, _, done⟩ := feeding.hands_over allowed settled
      rw [settledHub, queue] at done
      cases done
      exact ⟨schedule, later, ran, rfl⟩
  | cons payload rest ih =>
      obtain ⟨schedule, later, ran, fed, left⟩ := feeding.hands_over allowed settled
      obtain ⟨after, stepped, same, feeding'⟩ := fed.receives allowed rfl queue
      rw [queue, settledHub_receive, ← same] at left
      obtain ⟨more, final, ran', reached⟩ := ih feeding' left rfl
      refine ⟨schedule ++ .receive later.gateway.cancel :: more, final, ?_, reached⟩
      rw [run_append, ran, Option.bind_some, run_cons, stepped, Option.bind_some, ran']

/-- Whatever is published to the source next comes to the hub, behind what is under way. -/
def Reaches (allowed : String → Bool) (control : Control) (source : String) : Prop :=
  ∃ consumer, control.gateway.consumers[control.gateway.cancel]? = some consumer ∧
    ∀ payload hub, settledHub control.gateway.hub
        { consumer with queue := consumer.queue ++ [payload] } = .ok hub →
      ∃ schedule later, run (Control.next allowed) control (.publish source payload :: schedule) =
        some later ∧ later.gateway.hub = hub

theorem Live.reaches {source : String} (live : Live control source)
    (free : control.toggle.call = none) : Reaches allowed control source := by
  obtain ⟨consumer, found, own, gen, running, _⟩ := live.consumer
  refine ⟨consumer, found, ?_⟩
  intro payload hub settled
  have fed : Feeding (control.publish source payload)
      { consumer with queue := consumer.queue ++ [payload] } := by
    refine ⟨?_, ?_, gen, running⟩
    · simp [Control.publish, free]
    · have opened := live.opened
      simp only [Control.publish, List.getElem?_mapIdx, Control.gateway] at found opened ⊢
      rw [found]
      simp [opened, Toggle.deliver, own]
  obtain ⟨schedule, later, ran, reached⟩ := fed.drains allowed settled
  exact ⟨schedule, later, ran, reached⟩

end

variable {allowed : String → Bool} {stored : String → Option Json} {session : String}
  {snapshot : Snapshot} {control after : Control} {action : ControlAction} {source : String}

/-- After any requests, deliveries and closures: a switch that is answered leaves a live consumer,
and with it a way to the hub, exactly if the channel it relies on is still open. -/
theorem switch_means_live_iff
    (reachable : Reachable (Control.next allowed) (Control.initial stored session snapshot) control)
    (stepped : control.step allowed action = some (after, some (.switched source))) :
    (Live after source ↔ control.Subscribed action) ∧
      (Live after source → Reaches allowed after source) := by
  have tended : Tended control.gateway control.closed := reachable.invariant
    (fun control => Tended control.gateway control.closed) (tended_initial stored session snapshot) (by
      intro before action later tended moved
      obtain ⟨pair, stepped, rfl⟩ := Option.map_eq_some_iff.mp moved
      exact tended_step tended stepped)
  obtain ⟨free, current, opened⟩ := switched_step tended stepped
  refine ⟨?_, fun live => live.reaches allowed free⟩
  rw [(tended_step tended stepped).live_iff, ← opened]
  exact and_iff_right current

def loopback : String → Bool := hostAllowed (fun _ => none) id []

def switchRequest (source : String) : Request :=
  ⟨.post, "", "localhost", some (.obj [("source", .str source)])⟩

def replayControl : Control := .initial (fun _ => none) "replay" (newSnapshot "replay" "" "")

/-- A switch to the live lane on an undisturbed bus. -/
theorem switch_means_live_iff_undisturbed :
    ∃ control after, Reachable (Control.next loopback) replayControl control ∧
      control.step loopback .commit = some (after, some (.switched "live")) ∧
      Live after "live" ∧ Reaches loopback after "live" := by
  have reachable : Reachable (Control.next loopback) replayControl _ :=
    ⟨[.request (switchRequest "live"), .subscribe, .getSnapshot], rfl⟩
  have law := @switch_means_live_iff loopback _ _ _ _ _ .commit "live" reachable rfl
  have live := law.1.mpr rfl
  exact ⟨_, _, reachable, rfl, live, law.2 live⟩

/-- The replay channel closes and its consumer exits; asking for the replay again is answered, and
still nothing runs. -/
theorem closed_channel_stays_closed :
    ∃ control after, Reachable (Control.next loopback) replayControl control ∧
      control.step loopback (.request (switchRequest "replay")) =
        some (after, some (.switched "replay")) ∧
      (∀ consumer ∈ after.gateway.consumers, consumer.running = false) ∧ ¬ Live after "replay" := by
  refine ⟨_, _, ⟨[.close 0, .stop 0], rfl⟩, rfl, ?_, ?_⟩
  · intro consumer member
    cases List.mem_singleton.mp member
    rfl
  · exact fun live => live.opened (List.mem_cons_self ..)

end RaceTracker.App
