import RaceTracker.Web.Socket

namespace RaceTracker.Web

open RaceTracker.Lib

namespace Connection

variable {connection after : Connection} {event : SocketEvent} {events : List SocketEvent}

/-- Nothing was dialled and nobody was called. -/
def Inert (connection after : Connection) : Prop :=
  after.sockets.length = connection.sockets.length ∧ after.calls = connection.calls

/-- The events whose handlers do not ask whether the connection was closed. -/
def disturbs (state : RaceState) : SocketEvent → Bool
  | .opened _ => true
  | .message _ data => accepts state data
  | .timer _ => true
  | _ => false

/-- Sockets and callbacks only accumulate. -/
def activity (connection : Connection) : Nat := connection.sockets.length + connection.calls.length

theorem step_closed (closed : connection.closed = true) (stepped : connection.step event = some after) :
    after.closed = true ∧
      ((disturbs connection.state event = false ∧ Inert connection after ∧
          after.state = connection.state) ∨
        (disturbs connection.state event = true ∧ connection.activity < after.activity)) := by
  cases event with
  | opened socket =>
      obtain ⟨_, _, rfl⟩ := Option.map_eq_some_iff.mp stepped
      exact ⟨closed, Or.inr ⟨rfl, by simp [activity, onopen, onStatus]⟩⟩
  | message socket data =>
      obtain ⟨one, _, rfl⟩ := Option.map_eq_some_iff.mp stepped
      rcases connection.onmessage_cases socket one.live data with
        ⟨refused, same⟩ | ⟨accepted, state, ⟨_, same⟩ | ⟨_, same⟩⟩
      · rw [same]
        exact ⟨closed, Or.inl ⟨refused, ⟨rfl, rfl⟩, rfl⟩⟩
      · rw [same]
        exact ⟨closed, Or.inr ⟨accepted, by simp [activity]⟩⟩
      · rw [same]
        refine ⟨closed, Or.inr ⟨accepted, ?_⟩⟩
        simp only [activity, List.length_modify, List.length_append, List.length_singleton]
        omega
  | closed socket =>
      obtain ⟨_, _, rfl⟩ := Option.map_eq_some_iff.mp stepped
      have ignored : (connection.endSocket socket).onclose = connection.endSocket socket :=
        onclose_ignored closed
      rw [ignored]
      exact ⟨closed, Or.inl ⟨rfl, ⟨List.length_modify .., rfl⟩, rfl⟩⟩
  | error socket =>
      obtain ⟨_, _, rfl⟩ := Option.map_eq_some_iff.mp stepped
      rw [onerror_ignored closed]
      exact ⟨closed, Or.inl ⟨rfl, ⟨rfl, rfl⟩, rfl⟩⟩
  | timer index =>
      obtain ⟨_, _, rfl⟩ := Option.map_eq_some_iff.mp stepped
      rw [openSocket_eq]
      refine ⟨closed, Or.inr ⟨rfl, ?_⟩⟩
      simp only [activity, List.length_append, List.length_singleton]
      omega
  | retry =>
      simp only [step, retry_ignored (Or.inl closed), Option.ite_none_right_eq_some,
        Option.some.injEq] at stepped
      obtain ⟨_, rfl⟩ := stepped
      exact ⟨closed, Or.inl ⟨rfl, ⟨rfl, rfl⟩, rfl⟩⟩
  | close =>
      obtain ⟨sockets, same, alike⟩ := closeSocket_cases { connection with closed := true }
      cases stepped
      have count := congrArg List.length alike
      simp only [List.length_map] at count
      rw [close, same]
      exact ⟨rfl, Or.inl ⟨rfl, ⟨count, rfl⟩, rfl⟩⟩

theorem activity_run (closed : connection.closed = true)
    (ran : run step connection events = some after) : connection.activity ≤ after.activity := by
  have both := run_invariant
    (fun now => now.closed = true ∧ connection.activity ≤ now.activity)
    (by
      intro now event next still stepped
      obtain ⟨closed, ⟨_, quiet, _⟩ | ⟨_, more⟩⟩ := step_closed still.1 stepped
      · have same : next.activity = now.activity := by simp only [activity, quiet.1, quiet.2]
        exact ⟨closed, same ▸ still.2⟩
      · exact ⟨closed, Nat.le_trans still.2 more.le⟩)
    ⟨closed, Nat.le_refl _⟩ ran
  exact both.2

/-- A closed connection stays inert exactly as long as no pending redial fires, no socket
opens, and none delivers a message that the reducer takes. -/
theorem inert_iff (closed : connection.closed = true)
    (ran : run step connection events = some after) :
    Inert connection after ↔ ∀ event ∈ events, disturbs connection.state event = false := by
  induction events generalizing connection with
  | nil =>
      cases ran
      simp [Inert]
  | cons event rest ih =>
      rw [run_cons, Option.bind_eq_some_iff] at ran
      obtain ⟨next, stepped, ran⟩ := ran
      obtain ⟨still, ⟨quiet, inert, same⟩ | ⟨loud, more⟩⟩ := step_closed closed stepped
      · have onward : Inert connection after ↔ Inert next after := by
          simp only [Inert, inert.1, inert.2]
        rw [onward, ih still ran, same]
        simp [quiet]
      · have grown := activity_run still ran
        constructor
        · intro inert
          have same : after.activity = connection.activity := by
            simp only [activity, inert.1, inert.2]
          omega
        · intro silent
          rw [silent event (List.mem_cons_self ..)] at loud
          cases loud

theorem closed_inert_iff {shut : Connection} (closing : connection.step .close = some shut)
    (ran : run step shut events = some after) :
    Inert shut after ↔ ∀ event ∈ events, disturbs shut.state event = false := by
  refine inert_iff ?_ ran
  obtain ⟨sockets, same, _⟩ := closeSocket_cases { connection with closed := true }
  cases closing
  rw [close, same]

theorem closed_inert_iff_start : ∃ shut after, start.step .close = some shut ∧
    run step shut [.error 0, .closed 0] = some after ∧
    (Inert shut after ↔ ∀ event ∈ [.error 0, .closed 0], disturbs shut.state event = false) :=
  ⟨_, _, rfl, rfl, closed_inert_iff rfl rfl⟩

/-- A redial that was pending at the close still goes out. -/
theorem close_leaks_redial : ¬ ∀ before events connection shut after,
    run step start before = some connection → connection.step .close = some shut →
    run step shut events = some after → Inert shut after := by
  intro claim
  have inert := claim [.closed 0] [.timer 0] _ _ _ rfl rfl rfl
  exact absurd inert.1 (by decide)

/-- A socket delivers nothing after its close event, and nobody closes the connection. -/
def beforeClose (connection : Connection) : SocketEvent → Bool
  | .opened socket | .message socket _ | .closed socket | .error socket =>
      connection.sockets[socket]?.any fun one => !one.ended
  | .timer _ => true
  | .retry => true
  | .close => false

def unended (connection : Connection) : Nat := connection.sockets.countP fun one => !one.ended

def statusOf : Callback → Option ConnStatus
  | .status status _ => some status
  | .state _ => none

def lastStatus (calls : List Callback) : Option ConnStatus := (calls.filterMap statusOf).getLast?

/-- The status the caller was told last. -/
def status (connection : Connection) : Option ConnStatus := lastStatus connection.calls

/-- The events that make the budget start over: a message taken, a press that dials. -/
def renews (connection : Connection) : SocketEvent → Bool
  | .message _ data => accepts connection.state data
  | .retry => connection.exhausted
  | _ => false

/-- How many sockets there were since the budget last started over, the one that the
press opened or that delivered the message included. -/
def dialled (connection : Connection) (count : Nat) : List SocketEvent → Nat
  | [] => count
  | event :: rest =>
      match connection.step event with
      | none => count
      | some next =>
          let opened := next.sockets.length - connection.sockets.length
          dialled next (if connection.renews event then 1 else count + opened) rest

/-- The machine without its close function: one socket, or one redial, or a spent budget. -/
structure Dialling (connection : Connection) : Prop where
  running : connection.closed = false
  single : connection.unended + connection.timers.length + connection.exhausted.toNat = 1
  budget : connection.attempts ≤ maxReconnectAttempts + connection.exhausted.toNat
  told : connection.exhausted = true ↔ connection.status = some .offline
  handed : connection.exhausted = true → connection.calls.any handsRetry = true

@[simp] theorem lastStatus_status (calls : List Callback) (status : ConnStatus) (retry : Bool) :
    lastStatus (calls ++ [.status status retry]) = some status := by
  simp [lastStatus, List.filterMap_append, statusOf]

@[simp] theorem lastStatus_state (calls : List Callback) (state : RaceState) :
    lastStatus (calls ++ [.state state]) = lastStatus calls := by
  simp [lastStatus, List.filterMap_append, statusOf]

theorem Dialling.start : Dialling start where
  running := rfl
  single := rfl
  budget := by decide
  told := by decide
  handed := fun spent => by cases spent

/-- While a socket is still delivering there is no redial and no spent budget. -/
theorem Dialling.of_delivering {socket : Nat} {one : Socket} (dialling : connection.Dialling)
    (found : connection.sockets[socket]? = some one) (delivers : one.ended = false) :
    connection.unended = 1 ∧ connection.timers = [] ∧ connection.exhausted = false := by
  have positive : 0 < connection.unended :=
    List.countP_pos_iff.mpr ⟨one, List.mem_of_getElem? found, by simp [delivers]⟩
  have single := dialling.single
  refine ⟨by omega, List.length_eq_zero_iff.mp (by omega), ?_⟩
  cases spent : connection.exhausted with
  | false => rfl
  | true =>
      rw [spent, Bool.toNat_true] at single
      omega

/-- What is dialled and what is still to be dialled stays within the attempts counted. -/
def Within (connection : Connection) (count : Nat) : Prop :=
  count + connection.timers.length + connection.exhausted.toNat ≤ connection.attempts + 1

/-- The count after an event. -/
def recount (connection after : Connection) (event : SocketEvent) (count : Nat) : Nat :=
  if connection.renews event then 1
  else count + (after.sockets.length - connection.sockets.length)

theorem Dialling.opened {socket : Nat} {one : Socket} (dialling : connection.Dialling)
    (found : connection.sockets[socket]? = some one) (delivers : one.ended = false) :
    connection.onopen.Dialling := by
  obtain ⟨_, _, unspent⟩ := dialling.of_delivering found delivers
  exact { dialling with
    told := by simp [onopen, onStatus, status, unspent]
    handed := fun spent => by
      rw [show connection.onopen.exhausted = connection.exhausted from rfl, unspent] at spent
      cases spent }

theorem Dialling.message {socket : Nat} {one : Socket} (dialling : connection.Dialling)
    (found : connection.sockets[socket]? = some one) (delivers : one.ended = false)
    (data : Option Json) : (connection.onmessage socket one.live data).Dialling := by
  obtain ⟨_, _, unspent⟩ := dialling.of_delivering found delivers
  rcases connection.onmessage_cases socket one.live data with
    ⟨_, same⟩ | ⟨_, state, ⟨_, same⟩ | ⟨_, same⟩⟩
  · rw [same]
    exact dialling
  · rw [same]
    exact { dialling with
      told := by simpa [status] using dialling.told
      handed := fun spent => by simp [unspent] at spent }
  · rw [same]
    refine { running := dialling.running, single := ?_, budget := by simp,
             told := by
               simp only [status, unspent, lastStatus_state, lastStatus_status]
               decide,
             handed := fun spent => by simp [unspent] at spent }
    have alike : (connection.sockets.modify socket fun one => { one with live := true }).map
        Socket.ended = connection.sockets.map Socket.ended := map_modify_of_same fun _ => rfl
    have count := congrArg (List.countP (!·)) alike
    rw [List.countP_map, List.countP_map] at count
    exact (congrArg (· + connection.timers.length + connection.exhausted.toNat) count).trans
      dialling.single

theorem Dialling.closed {socket : Nat} {one : Socket} (dialling : connection.Dialling)
    (found : connection.sockets[socket]? = some one) (delivers : one.ended = false) :
    (connection.endSocket socket).onclose.Dialling := by
  obtain ⟨single, idle, unspent⟩ := dialling.of_delivering found delivers
  have budget := dialling.budget
  rw [unspent, Bool.toNat_false] at budget
  have silent : (connection.endSocket socket).unended = 0 := by
    have lost : (connection.endSocket socket).unended + 1 = connection.unended :=
      countP_modify_lost found (by simp [delivers]) rfl
    rw [single] at lost
    exact Nat.succ.inj lost
  rcases onclose_cases (connection.endSocket socket) dialling.running with
    ⟨spent, same⟩ | ⟨left, same⟩
  · rw [same]
    exact {
      running := dialling.running
      single := by
        change (connection.endSocket socket).unended + connection.timers.length + 1 = 1
        rw [silent, idle, List.length_nil]
      budget := Nat.succ_le_succ budget
      told := by simp [status]
      handed := fun _ => by simp [handsRetry] }
  · rw [same]
    exact {
      running := dialling.running
      single := by
        change (connection.endSocket socket).unended +
          (connection.timers ++ [connection.backoff]).length + connection.exhausted.toNat = 1
        rw [silent, idle, unspent]
        rfl
      budget := Nat.le_add_right_of_le left
      told := by
        change connection.exhausted = true ↔ _
        simp [status, unspent]
      handed := fun spent => by
        change connection.exhausted = true at spent
        simp [unspent] at spent }

theorem Dialling.error (dialling : connection.Dialling) : connection.onerror.Dialling := by
  rw [onerror]
  rw [dialling.running]
  obtain ⟨sockets, same, alike⟩ := closeSocket_cases connection
  have count := congrArg (List.countP fun pair => !pair.2) alike
  simp only [List.countP_map] at count
  rw [if_neg Bool.false_ne_true, same]
  exact { dialling with
    single := (congrArg (· + connection.timers.length + connection.exhausted.toNat) count).trans
      dialling.single }

theorem unended_openSocket (connection : Connection) :
    connection.openSocket.unended = connection.unended + 1 := by
  rw [openSocket_eq]
  exact List.countP_append

theorem status_openSocket (connection : Connection)
    (online : connection.status ≠ some .offline) :
    connection.openSocket.status ≠ some .offline := by
  rw [openSocket_eq, status]
  cases connection.attempted with
  | true => simpa [status] using online
  | false => simp

theorem Dialling.timer {index : Nat} {delay : Nat} (dialling : connection.Dialling)
    (pending : connection.timers[index]? = some delay) :
    ({ connection with timers := connection.timers.eraseIdx index } : Connection).openSocket.Dialling := by
  obtain ⟨within, _⟩ := List.getElem?_eq_some_iff.mp pending
  have single := dialling.single
  have unspent : connection.exhausted = false := by
    cases spent : connection.exhausted with
    | false => rfl
    | true =>
        rw [spent, Bool.toNat_true] at single
        omega
  have one := unended_openSocket { connection with timers := connection.timers.eraseIdx index }
  have same : unended { connection with timers := connection.timers.eraseIdx index } =
    connection.unended := rfl
  rw [openSocket_eq] at one ⊢
  refine { dialling with
    single := ?_
    told := ?_
    handed := fun spent => by simp [unspent] at spent }
  · rw [one, same, List.length_eraseIdx_of_lt within]
    change connection.unended + 1 + (connection.timers.length - 1) + connection.exhausted.toNat = 1
    omega
  · have online := status_openSocket { connection with timers := connection.timers.eraseIdx index }
      fun offline => by simpa [unspent] using dialling.told.mpr offline
    rw [openSocket_eq] at online
    simpa [unspent] using online

theorem Dialling.retry (dialling : connection.Dialling) (spent : connection.exhausted = true) :
    connection.retry.Dialling ∧ connection.retry.exhausted = false ∧ connection.retry.timers = [] ∧
      connection.retry.sockets.length = connection.sockets.length + 1 := by
  have single := dialling.single
  rw [spent, Bool.toNat_true] at single
  let fresh : Connection := { connection with exhausted := false, attempts := 0, backoff := 500 }
  have pressed : connection.retry = (fresh.onStatus .reconnecting false).openSocket := by
    simp [Connection.retry, dialling.running, spent, fresh]
  have one := unended_openSocket (fresh.onStatus .reconnecting false)
  rw [openSocket_eq] at pressed one
  rw [pressed]
  refine ⟨{
    running := dialling.running
    single := ?_
    budget := Nat.zero_le _
    told := ?_
    handed := fun spent => by cases spent }, rfl,
    List.length_eq_zero_iff.mp (by omega : connection.timers.length = 0), List.length_append⟩
  · rw [one]
    change connection.unended + 1 + connection.timers.length + 0 = 1
    omega
  · have online := status_openSocket (fresh.onStatus .reconnecting false)
      (by simp [status, onStatus])
    rw [openSocket_eq] at online
    simpa [onStatus, fresh] using online

/-- What an event before the close function finds: its socket still delivers. -/
theorem delivering {socket : Nat} {next : Socket → Connection}
    (allowed : (connection.sockets[socket]?.any fun one => !one.ended) = true)
    (stepped : connection.sockets[socket]?.map next = some after) :
    ∃ one, connection.sockets[socket]? = some one ∧ one.ended = false ∧ next one = after := by
  obtain ⟨one, found, same⟩ := Option.map_eq_some_iff.mp stepped
  rw [found, Option.any_some] at allowed
  exact ⟨one, found, by simpa using allowed, same⟩

theorem Dialling.step (dialling : connection.Dialling)
    (stepped : restrict beforeClose step connection event = some after) : after.Dialling := by
  obtain ⟨allowed, stepped⟩ := restrict_eq_some_iff.mp stepped
  cases event with
  | opened socket =>
      obtain ⟨one, found, delivers, rfl⟩ := delivering allowed stepped
      exact dialling.opened found delivers
  | message socket data =>
      obtain ⟨one, found, delivers, rfl⟩ := delivering allowed stepped
      exact dialling.message found delivers data
  | closed socket =>
      obtain ⟨one, found, delivers, rfl⟩ := delivering allowed stepped
      exact dialling.closed found delivers
  | error socket =>
      obtain ⟨one, found, delivers, rfl⟩ := delivering allowed stepped
      exact dialling.error
  | timer index =>
      obtain ⟨delay, pending, rfl⟩ := Option.map_eq_some_iff.mp stepped
      exact dialling.timer pending
  | retry =>
      obtain ⟨_, pressed⟩ := Option.ite_none_right_eq_some.mp stepped
      cases pressed
      cases spent : connection.exhausted with
      | true => exact (dialling.retry spent).1
      | false => exact (retry_ignored (Or.inr spent)).symm ▸ dialling
  | close => cases allowed

theorem Within.step {count : Nat} (dialling : connection.Dialling) (within : connection.Within count)
    (stepped : restrict beforeClose Connection.step connection event = some after) :
    after.Within (recount connection after event count) := by
  obtain ⟨allowed, stepped⟩ := restrict_eq_some_iff.mp stepped
  unfold Within at within ⊢
  cases event with
  | opened socket =>
      obtain ⟨one, _, _, rfl⟩ := delivering allowed stepped
      simpa [recount, renews, onopen, onStatus] using within
  | message socket data =>
      obtain ⟨one, found, delivers, rfl⟩ := delivering allowed stepped
      obtain ⟨_, idle, unspent⟩ := dialling.of_delivering found delivers
      rcases connection.onmessage_cases socket one.live data with
        ⟨refused, same⟩ | ⟨accepted, state, ⟨_, same⟩ | ⟨_, same⟩⟩
      · rw [same]
        simpa [recount, renews, refused] using within
      · simp [same, recount, renews, accepted, idle, unspent]
      · simp [same, recount, renews, accepted, idle, unspent]
  | closed socket =>
      obtain ⟨one, found, delivers, rfl⟩ := delivering allowed stepped
      obtain ⟨_, idle, unspent⟩ := dialling.of_delivering found delivers
      have kept : (connection.endSocket socket).sockets.length = connection.sockets.length :=
        List.length_modify ..
      rw [idle, unspent, List.length_nil, Bool.toNat_false] at within
      rcases onclose_cases (connection.endSocket socket) dialling.running with
        ⟨_, same⟩ | ⟨_, same⟩
      · simp only [same, recount, renews, kept]
        simp only [endSocket, idle, List.length_nil, Bool.toNat_true, Bool.false_eq_true, if_false]
        omega
      · simp only [same, recount, renews, kept]
        simp only [endSocket, idle, unspent, List.nil_append, List.length_singleton,
          Bool.toNat_false, Bool.false_eq_true, if_false]
        omega
  | error socket =>
      obtain ⟨one, _, _, rfl⟩ := delivering allowed stepped
      obtain ⟨sockets, same, alike⟩ := closeSocket_cases connection
      have kept := congrArg List.length alike
      simp only [List.length_map] at kept
      simpa [onerror, dialling.running, same, recount, renews, kept] using within
  | timer index =>
      obtain ⟨_, pending, rfl⟩ := Option.map_eq_some_iff.mp stepped
      obtain ⟨index_lt, _⟩ := List.getElem?_eq_some_iff.mp pending
      simp only [openSocket_eq, recount, renews, Bool.false_eq_true, if_false,
        List.length_eraseIdx_of_lt index_lt, List.length_append, List.length_singleton]
      omega
  | retry =>
      obtain ⟨_, pressed⟩ := Option.ite_none_right_eq_some.mp stepped
      cases pressed
      cases spent : connection.exhausted with
      | true =>
          obtain ⟨_, unspent, idle, _⟩ := dialling.retry spent
          simp [recount, renews, spent, unspent, idle]
      | false =>
          rw [retry_ignored (Or.inr spent)]
          simpa [recount, renews, spent] using within
  | close => cases allowed

theorem Dialling.run {count : Nat} (dialling : connection.Dialling)
    (within : connection.Within count)
    (ran : run (restrict beforeClose Connection.step) connection events = some after) :
    after.Dialling ∧ after.Within (connection.dialled count events) := by
  induction events generalizing connection count with
  | nil =>
      cases ran
      exact ⟨dialling, within⟩
  | cons event rest ih =>
      rw [run_cons, Option.bind_eq_some_iff] at ran
      obtain ⟨next, stepped, ran⟩ := ran
      have counted : connection.dialled count (event :: rest) =
          next.dialled (recount connection next event count) rest := by
        simp only [dialled, (restrict_eq_some_iff.mp stepped).2, recount]
      rw [counted]
      exact ih (dialling.step stepped) (within.step dialling stepped) ran

theorem handed_retry (handed : connection.calls.any handsRetry = true) :
    connection.retry.calls.any handsRetry = true := by
  rw [retry]
  split
  · exact handed
  · rw [openSocket_eq]
    simp only [onStatus, List.any_append, handed, Bool.true_or]

theorem press_in_vain (unspent : connection.exhausted = false)
    (handed : connection.calls.any handsRetry = true) (presses : Nat) :
    Lib.run Connection.step connection (List.replicate presses .retry) = some connection := by
  have inert : connection.step .retry = some connection := by
    rw [step, if_pos handed, retry_ignored (Or.inr unspent)]
  induction presses with
  | zero => rfl
  | succ presses ih => rw [List.replicate_succ, run_cons, inert, Option.bind_some, ih]

/-- However often the handle is pressed, the first press dials and the others do nothing. -/
theorem Dialling.press (dialling : connection.Dialling) (spent : connection.exhausted = true)
    (more : Nat) :
    Lib.run Connection.step connection (List.replicate (more + 1) .retry) = some connection.retry := by
  have handed := dialling.handed spent
  obtain ⟨_, unspent, _⟩ := dialling.retry spent
  rw [List.replicate_succ, run_cons, Connection.step, if_pos handed, Option.bind_some,
    press_in_vain unspent (handed_retry handed)]

theorem reconnect_machine
    (ran : Lib.run (restrict beforeClose Connection.step) start events = some connection) :
    connection.unended + connection.timers.length ≤ 1 ∧
      (connection.exhausted = true ↔ connection.status = some .offline) ∧
      (connection.exhausted = true → connection.unended = 0 ∧ connection.timers = [] ∧
        ∀ more, ∃ after,
          Lib.run Connection.step connection (List.replicate (more + 1) .retry) = some after ∧
            after.sockets.length = connection.sockets.length + 1) ∧
      (connection.exhausted = false → ∀ after, connection.step .retry = some after →
        after = connection) ∧
      start.dialled 1 events ≤ maxReconnectAttempts + 1 := by
  obtain ⟨dialling, within⟩ := Dialling.start.run (Nat.le_refl 1 : start.Within 1) ran
  have single := dialling.single
  refine ⟨by omega, dialling.told, ?_, ?_, ?_⟩
  · intro spent
    rw [spent, Bool.toNat_true] at single
    refine ⟨by omega, List.length_eq_zero_iff.mp (by omega), ?_⟩
    intro more
    exact ⟨_, dialling.press spent more, (dialling.retry spent).2.2.2⟩
  · intro unspent after pressed
    obtain ⟨_, pressed⟩ := Option.ite_none_right_eq_some.mp pressed
    rw [retry_ignored (Or.inr unspent)] at pressed
    exact (Option.some.inj pressed).symm
  · have budget := dialling.budget
    have total : start.dialled 1 events + connection.timers.length + connection.exhausted.toNat ≤
      connection.attempts + 1 := within
    omega

/-- Every socket closes, until the budget is spent. -/
def outage : List SocketEvent :=
  (List.range maxReconnectAttempts).flatMap (fun socket => [.closed socket, .timer 0]) ++
    [.closed maxReconnectAttempts]

theorem reconnect_machine_redials : ∃ connection,
    Lib.run (restrict beforeClose Connection.step) start outage = some connection ∧
      connection.exhausted = true ∧ connection.status = some .offline ∧ connection.unended = 0 ∧
      (∀ more, ∃ after,
        Lib.run Connection.step connection (List.replicate (more + 1) .retry) = some after ∧
          after.sockets.length = connection.sockets.length + 1) ∧
      start.dialled 1 outage ≤ maxReconnectAttempts + 1 := by
  have reached : (Lib.run (restrict beforeClose Connection.step) start outage).map exhausted =
      some true := by
    decide +kernel
  obtain ⟨connection, ran, spent⟩ := Option.map_eq_some_iff.mp reached
  obtain ⟨_, told, atEnd, _, budget⟩ := reconnect_machine ran
  obtain ⟨unended, _, press⟩ := atEnd spent
  exact ⟨connection, ran, spent, told.mp spent, unended, press, budget⟩

end Connection

end RaceTracker.Web
