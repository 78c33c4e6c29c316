import RaceTracker.Lib.Slots
import RaceTracker.Lib.Transition
import RaceTracker.Web.Race

namespace RaceTracker.Web

open RaceTracker.Lib

/-! The reconnecting socket: `connectRace` as a machine that the browser's events drive.

A browser delivers events in any order, so a step may come for every socket that was
ever constructed.  The caller's callbacks only record what they were called with.
-/

inductive ConnStatus where
  | connecting
  | live
  | reconnecting
  | failed
  | offline
deriving DecidableEq, Repr

def maxReconnectAttempts : Nat := 20

/-- A call of `onState`, or of `onStatus` with or without the retry handle. -/
inductive Callback where
  | state (state : RaceState)
  | status (status : ConnStatus) (retry : Bool)

structure Socket where
  /-- The `live` of the `open` call that constructed it. -/
  live : Bool
  /-- `close` was called on it. -/
  closing : Bool
  /-- Its close event was delivered. -/
  ended : Bool

structure Connection where
  state : RaceState
  ws : Option Nat
  closed : Bool
  backoff : Nat
  attempted : Bool
  attempts : Nat
  exhausted : Bool
  sockets : List Socket
  /-- The delays of the redials that are still to fire. -/
  timers : List Nat
  calls : List Callback

inductive SocketEvent where
  | opened (socket : Nat)
  /-- `none` is a text that `JSON.parse` refuses. -/
  | message (socket : Nat) (data : Option Json)
  | closed (socket : Nat)
  | error (socket : Nat)
  | timer (index : Nat)
  /-- The caller presses a retry handle. -/
  | retry
  /-- The caller calls the close function. -/
  | close

namespace Connection

def onStatus (connection : Connection) (status : ConnStatus) (retry : Bool) : Connection :=
  { connection with calls := connection.calls ++ [.status status retry] }

def onState (connection : Connection) : Connection :=
  { connection with calls := connection.calls ++ [.state connection.state] }

/-- `open`: only the first attempt is announced here. -/
def openSocket (connection : Connection) : Connection :=
  let connection :=
    if connection.attempted then connection
    else { connection with attempted := true }.onStatus .connecting false
  { connection with
    ws := some connection.sockets.length
    sockets := connection.sockets ++ [⟨false, false, false⟩] }

def start : Connection :=
  openSocket {
    state := emptyState
    ws := none
    closed := false
    backoff := 500
    attempted := false
    attempts := 0
    exhausted := false
    sockets := []
    timers := []
    calls := [] }

/-- The manual half of the budget, live only while it is spent. -/
def retry (connection : Connection) : Connection :=
  if connection.closed || !connection.exhausted then connection
  else
    ({ connection with exhausted := false, attempts := 0, backoff := 500 }.onStatus
      .reconnecting false).openSocket

def onopen (connection : Connection) : Connection :=
  { connection with backoff := 500 }.onStatus .connecting false

/-- The first message of a connection proves the feed healthy; a handshake does not. -/
def onmessage (connection : Connection) (socket : Nat) (live : Bool) (data : Option Json) :
    Connection :=
  match data.bind parseMsg with
  | none => connection
  | some message =>
      match applyMessage connection.state message with
      | .error _ => connection
      | .ok state =>
          let connection := { connection with state }
          let connection :=
            if live then connection
            else
              let sockets := connection.sockets.modify socket fun one => { one with live := true }
              { connection with sockets, attempts := 0 }.onStatus .live false
          connection.onState

def onclose (connection : Connection) : Connection :=
  if connection.closed then connection
  else
    let connection := { connection with attempts := connection.attempts + 1 }
    if maxReconnectAttempts < connection.attempts then
      { connection with exhausted := true }.onStatus .offline true
    else
      let connection := connection.onStatus .reconnecting false
      { connection with
        timers := connection.timers ++ [connection.backoff]
        backoff := min (connection.backoff * 2) 8000 }

/-- `ws?.close()` -/
def closeSocket (connection : Connection) : Connection :=
  match connection.ws with
  | none => connection
  | some current => { connection with
      sockets := connection.sockets.modify current fun one => { one with closing := true } }

def onerror (connection : Connection) : Connection :=
  if connection.closed then connection else connection.closeSocket

def close (connection : Connection) : Connection := { connection with closed := true }.closeSocket

/-- The browser is done with the socket. -/
def endSocket (connection : Connection) (socket : Nat) : Connection :=
  { connection with
    sockets := connection.sockets.modify socket fun one => { one with ended := true } }

def handsRetry : Callback → Bool
  | .status _ retry => retry
  | .state _ => false

def step (connection : Connection) : SocketEvent → Option Connection
  | .opened socket => connection.sockets[socket]?.map fun _ => connection.onopen
  | .message socket data =>
      connection.sockets[socket]?.map fun one => connection.onmessage socket one.live data
  | .closed socket =>
      connection.sockets[socket]?.map fun _ => (connection.endSocket socket).onclose
  | .error socket => connection.sockets[socket]?.map fun _ => connection.onerror
  | .timer index =>
      connection.timers[index]?.map fun _ =>
        { connection with timers := connection.timers.eraseIdx index }.openSocket
  | .retry => if connection.calls.any handsRetry then some connection.retry else none
  | .close => some connection.close

variable (connection : Connection)

theorem openSocket_eq : connection.openSocket = { connection with
    ws := some connection.sockets.length
    attempted := true
    sockets := connection.sockets ++ [⟨false, false, false⟩]
    calls := connection.calls ++ if connection.attempted then [] else [.status .connecting false] } := by
  rw [openSocket]
  cases attempted : connection.attempted with
  | true => simp [← attempted]
  | false => rfl

variable {connection} in
theorem onclose_ignored (closed : connection.closed = true) : connection.onclose = connection := by
  simp [onclose, closed]

variable {connection} in
theorem onerror_ignored (closed : connection.closed = true) : connection.onerror = connection := by
  simp [onerror, closed]

variable {connection} in
theorem retry_ignored (inert : connection.closed = true ∨ connection.exhausted = false) :
    connection.retry = connection := by
  rcases inert with closed | live
  · simp [retry, closed]
  · simp [retry, live]

/-- Asking a socket to close tells nothing about what it delivered so far. -/
theorem closeSocket_cases : ∃ sockets, connection.closeSocket = { connection with sockets } ∧
    sockets.map (fun one => (one.live, one.ended)) =
      connection.sockets.map fun one => (one.live, one.ended) := by
  rw [closeSocket]
  split
  · exact ⟨connection.sockets, rfl, rfl⟩
  · exact ⟨_, rfl, map_modify_of_same fun one => rfl⟩

/-- The text parses, has the shape of a message, and folds into the state. -/
def accepts (state : RaceState) (data : Option Json) : Bool :=
  (data.bind parseMsg).any fun message => (applyMessage state message).isOk

theorem onmessage_cases (socket : Nat) (live : Bool) (data : Option Json) :
    (accepts connection.state data = false ∧
        connection.onmessage socket live data = connection) ∨
      (accepts connection.state data = true ∧ ∃ state,
        (live = true ∧ connection.onmessage socket live data =
            { connection with state, calls := connection.calls ++ [.state state] }) ∨
          (live = false ∧ connection.onmessage socket live data = { connection with
            state
            sockets := connection.sockets.modify socket fun one => { one with live := true }
            attempts := 0
            calls := connection.calls ++ [.status .live false] ++ [.state state] })) := by
  unfold accepts onmessage
  cases data.bind parseMsg with
  | none => exact Or.inl ⟨rfl, rfl⟩
  | some message =>
      cases folded : applyMessage connection.state message with
      | error raised => exact Or.inl ⟨by simp [folded, Except.isOk, Except.toBool], by simp [folded]⟩
      | ok state =>
          refine Or.inr ⟨by simp [folded, Except.isOk, Except.toBool], state, ?_⟩
          cases live with
          | true => exact Or.inl ⟨rfl, by simp [folded, onState]⟩
          | false => exact Or.inr ⟨rfl, by simp [folded, onState, onStatus]⟩

theorem onclose_cases (running : connection.closed = false) :
    (maxReconnectAttempts < connection.attempts + 1 ∧ connection.onclose = { connection with
        attempts := connection.attempts + 1
        exhausted := true
        calls := connection.calls ++ [.status .offline true] }) ∨
      (connection.attempts + 1 ≤ maxReconnectAttempts ∧ connection.onclose = { connection with
        attempts := connection.attempts + 1
        timers := connection.timers ++ [connection.backoff]
        backoff := min (connection.backoff * 2) 8000
        calls := connection.calls ++ [.status .reconnecting false] }) := by
  by_cases spent : maxReconnectAttempts < connection.attempts + 1
  · exact Or.inl ⟨spent, by simp [onclose, running, spent, onStatus]⟩
  · exact Or.inr ⟨by omega, by simp [onclose, running, spent, onStatus]⟩

end Connection

end RaceTracker.Web
