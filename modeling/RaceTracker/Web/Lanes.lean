import Mathlib.Logic.Function.Basic
import RaceTracker.Web.Socket

namespace RaceTracker.Web

open RaceTracker.Lib

/-! The lane registry: `subscribeLane` and the unsubscribe functions it returns.

Entries are objects, so they keep their index when the map forgets them: a source or
an unsubscribe function of an earlier generation still reaches its own entry.
-/

structure LaneSnapshot where
  state : RaceState
  status : ConnStatus

/-- A source calls one of the two callbacks it was connected with. -/
inductive Emission where
  | state (state : RaceState)
  | status (status : ConnStatus)

/-- One call of `connect`.  What it emitted is kept for the statements only. -/
structure Source where
  session : String
  closed : Bool
  emitted : List Emission

structure Entry where
  /-- A set, in the order of insertion. -/
  listeners : List Nat
  snap : LaneSnapshot
  source : Source

/-- An unsubscribe function with the variables it closes over. -/
structure Subscription where
  session : String
  entry : Nat
  listener : Nat
  released : Bool

structure Registry where
  lanes : String → Option Nat
  entries : List Entry
  subscriptions : List Subscription
  /-- The calls of the listeners. -/
  delivered : List (Nat × LaneSnapshot)

inductive RegistryAction where
  /-- `emissions` is what `connect` would call back with before it returns. -/
  | subscribe (session : String) (listener : Nat) (emissions : List Emission)
  | unsubscribe (index : Nat)
  | emit (entry : Nat) (emission : Emission)

def LaneSnapshot.take (snap : LaneSnapshot) : Emission → LaneSnapshot
  | .state state => { snap with state }
  | .status status => { snap with status }

namespace Entry

def take (entry : Entry) (emission : Emission) : Entry :=
  { entry with
    snap := entry.snap.take emission
    source := { entry.source with emitted := entry.source.emitted ++ [emission] } }

/-- A new entry has no listeners yet, so nobody hears what is emitted during `connect`. -/
def connect (session : String) (emissions : List Emission) : Entry :=
  emissions.foldl take {
    listeners := []
    snap := ⟨emptyState, .connecting⟩
    source := { session, closed := false, emitted := [] } }

def add (entry : Entry) (listener : Nat) : Entry :=
  if listener ∈ entry.listeners then entry
  else { entry with listeners := entry.listeners ++ [listener] }

def delete (entry : Entry) (listener : Nat) : Entry :=
  { entry with listeners := entry.listeners.filter (· ≠ listener) }

def close (entry : Entry) : Entry := { entry with source := { entry.source with closed := true } }

end Entry

namespace Registry

def initial : Registry where
  lanes := fun _ => none
  entries := []
  subscriptions := []
  delivered := []

/-- The entry of `session`, created and connected if there is none. -/
def ensure (registry : Registry) (session : String) (emissions : List Emission) : Registry × Nat :=
  match registry.lanes session with
  | some index => (registry, index)
  | none => ({ registry with
      lanes := Function.update registry.lanes session (some registry.entries.length)
      entries := registry.entries ++ [Entry.connect session emissions] }, registry.entries.length)

/-- Add the listener and deliver what the entry already has. -/
def attach (registry : Registry) (session : String) (index listener : Nat) : Option Registry :=
  registry.entries[index]?.map fun entry => { registry with
    entries := registry.entries.set index (entry.add listener)
    subscriptions := registry.subscriptions ++ [⟨session, index, listener, false⟩]
    delivered := registry.delivered ++ [(listener, entry.snap)] }

def subscribeLane (registry : Registry) (session : String) (listener : Nat)
    (emissions : List Emission) : Option Registry :=
  let (registry, index) := registry.ensure session emissions
  registry.attach session index listener

/-- Call an unsubscribe function: the last listener takes the connection with it. -/
def unsubscribe (registry : Registry) (index : Nat) : Option Registry := do
  let subscription ← registry.subscriptions[index]?
  let entry ← registry.entries[subscription.entry]?
  let left := entry.delete subscription.listener
  let registry := { registry with
    subscriptions := registry.subscriptions.modify index ({ · with released := true }) }
  if left.listeners = [] then
    some { registry with
      lanes := Function.update registry.lanes subscription.session none
      entries := registry.entries.set subscription.entry left.close }
  else some { registry with entries := registry.entries.set subscription.entry left }

/-- A source calls back, and the entry's listeners hear its new snapshot. -/
def emit (registry : Registry) (index : Nat) (emission : Emission) : Option Registry :=
  registry.entries[index]?.map fun entry =>
    let entry := entry.take emission
    { registry with
      entries := registry.entries.set index entry
      delivered := registry.delivered ++ entry.listeners.map (·, entry.snap) }

def step (registry : Registry) : RegistryAction → Option Registry
  | .subscribe session listener emissions => registry.subscribeLane session listener emissions
  | .unsubscribe index => registry.unsubscribe index
  | .emit entry emission => registry.emit entry emission

end Registry

end RaceTracker.Web
