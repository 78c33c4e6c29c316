import RaceTracker.Ws.Hub

namespace RaceTracker.Ws

open RaceTracker.Lib RaceTracker.Model

/-! What a client's socket has seen, over every schedule of the hub.

A message travels from the queue through the write loop to the socket, so the three
read together are one stretch of the client's sequence.  A client that had no room
keeps its queue until the broadcaster has closed its socket, and after that no write
succeeds: a gap can enter the queue but never the socket.
-/

variable {hub after : Hub} {id : Nat} {client : Client} {message : Json}

def Client.pipeline (client : Client) : List Json :=
  client.written ++ client.inFlight.toList ++ client.out

/-- The sequence the client may write a beginning of. -/
def Hub.allowance (hub : Hub) (client : Client) : List Json := client.cut.getD (hub.sequence client)

/-- The write loop can still put something on the socket. -/
def Client.Live (client : Client) : Prop := client.looping = true ∧ client.socket ≠ .closed

structure Flowing (hub : Hub) (id : Nat) (client : Client) : Prop where
  joined : client.joined ≤ hub.broadcasts.length
  cut : ∀ sent, client.cut = some sent → sent <+: hub.sequence client
  written : client.written <+: hub.allowance client
  inFlight : client.inFlight ≠ none → client.looping = true
  live : client.Live → client.pipeline <+: hub.allowance client
  member : client.Live → client.cut = none → id ∈ hub.members →
    client.pipeline = hub.sequence client
  condemned : client.cut ≠ none → client.socket ≠ .closed → id ∈ hub.closing

def AllFlowing (hub : Hub) : Prop :=
  ∀ id client, hub.clients id = some client → Flowing hub id client

/-- What a client's own step keeps and what it can do: a closed socket stays closed, a
client that is live was live before with the same pipeline, and at most the message
in the write loop's hands is written, to a socket that is not closed. -/
structure Progress (client next : Client) : Prop where
  greeting : next.greeting = client.greeting
  joined : next.joined = client.joined
  cut : next.cut = client.cut
  socket : next.socket ≠ .closed → client.socket ≠ .closed
  inFlight : (client.inFlight ≠ none → client.looping = true) →
    next.inFlight ≠ none → next.looping = true
  live : next.Live → client.Live ∧ next.pipeline = client.pipeline
  written : next.written = client.written ∨ ∃ message, client.socket ≠ .closed ∧
    client.inFlight = some message ∧ next.written = client.written ++ [message]

theorem Client.step_progress {action : ClientAction} {next : Client}
    (stepped : client.step action = some next) : Progress client next := by
  cases action with
  | beginClose =>
      simp only [Client.step] at stepped
      split at stepped
      · rename_i opened
        cases stepped
        exact ⟨rfl, rfl, rfl, by simp [opened], id, fun live => ⟨⟨live.1, by simp [opened]⟩, rfl⟩,
          Or.inl rfl⟩
      · cases stepped
  | endClose =>
      simp only [Client.step] at stepped
      split at stepped
      · cases stepped
        exact ⟨rfl, rfl, rfl, by simp, id, fun live => absurd rfl live.2, Or.inl rfl⟩
      · cases stepped
  | take =>
      simp only [Client.step] at stepped
      split at stepped
      · rename_i message rest looping idle queued
        cases stepped
        exact ⟨rfl, rfl, rfl, id, fun _ _ => looping,
          fun live => ⟨live, by simp [pipeline, idle, queued]⟩, Or.inl rfl⟩
      · cases stepped
  | wrote =>
      simp only [Client.step] at stepped
      split at stepped
      · rename_i message held
        split at stepped
        · cases stepped
        · rename_i notClosed
          cases stepped
          exact ⟨rfl, rfl, rfl, id, fun _ flying => absurd rfl flying,
            fun live => ⟨live, by simp [pipeline, held]⟩, Or.inr ⟨message, notClosed, held, rfl⟩⟩
      · cases stepped
  | failed =>
      simp only [Client.step] at stepped
      split at stepped
      · cases stepped
        exact ⟨rfl, rfl, rfl, by split <;> simp_all, fun _ flying => absurd rfl flying,
          fun live => absurd live.1 (by simp), Or.inl rfl⟩
      · cases stepped
  | stop =>
      simp only [Client.step] at stepped
      split at stepped
      · rename_i idle
        cases stepped
        have nothing : client.inFlight = none := by simpa using idle.2
        exact ⟨rfl, rfl, rfl, id, fun _ flying => absurd nothing flying,
          fun live => absurd live.1 (by simp), Or.inl rfl⟩
      · cases stepped

theorem Flowing.progress {next : Client} (flowing : Flowing hub id client)
    (progress : Progress client next) : Flowing (hub.setClient id next) id next := by
  have sequence : (hub.setClient id next).sequence next = hub.sequence client := by
    simp [Hub.sequence, Hub.setClient, progress.greeting, progress.joined]
  have allowance : (hub.setClient id next).allowance next = hub.allowance client := by
    simp [Hub.allowance, sequence, progress.cut]
  exact {
    joined := by
      rw [progress.joined]
      exact flowing.joined
    cut := by
      rw [progress.cut, sequence]
      exact flowing.cut
    written := by
      rw [allowance]
      rcases progress.written with same | ⟨message, notClosed, held, written⟩
      · exact same ▸ flowing.written
      · have live : client.Live := ⟨flowing.inFlight (by simp [held]), notClosed⟩
        rw [written]
        refine List.IsPrefix.trans ?_ (flowing.live live)
        simp [Client.pipeline, held]
    inFlight := progress.inFlight flowing.inFlight
    live := fun live => by
      obtain ⟨before, same⟩ := progress.live live
      rw [allowance, same]
      exact flowing.live before
    member := fun live uncut member => by
      obtain ⟨before, same⟩ := progress.live live
      rw [sequence, same]
      exact flowing.member before (progress.cut ▸ uncut) member
    condemned := fun cut notClosed =>
      flowing.condemned (progress.cut ▸ cut) (progress.socket notClosed) }

theorem sequence_broadcast (within : client.joined ≤ hub.broadcasts.length) (message : Json) :
    (hub.broadcast message).sequence client = hub.sequence client ++ [message] := by
  simp [Hub.sequence, Hub.broadcast, List.drop_append_of_le_length within]

/-- With nothing left to close, a client that was cut has a closed socket. -/
theorem Flowing.uncut_of_settled (flowing : Flowing hub id client) (settled : hub.closing = [])
    (notClosed : client.socket ≠ .closed) : client.cut = none := by
  by_contra cut
  have condemned := flowing.condemned cut notClosed
  rw [settled] at condemned
  cases condemned

theorem Flowing.broadcast_other (flowing : Flowing hub id client) (settled : hub.closing = [])
    (outside : id ∉ hub.members) : Flowing (hub.broadcast message) id client := by
  have grown : hub.sequence client <+: (hub.broadcast message).sequence client := by
    rw [sequence_broadcast flowing.joined]
    exact List.prefix_append _ _
  have allowed : hub.allowance client <+: (hub.broadcast message).allowance client := by
    unfold Hub.allowance
    cases client.cut with
    | none => exact grown
    | some sent => exact List.prefix_rfl
  exact {
    joined := by
      simp only [Hub.broadcast, List.length_append]
      exact Nat.le_add_right_of_le flowing.joined
    cut := fun sent cut => (flowing.cut sent cut).trans grown
    written := flowing.written.trans allowed
    inFlight := flowing.inFlight
    live := fun live => (flowing.live live).trans allowed
    member := fun _ _ member => absurd member outside
    condemned := fun cut notClosed => absurd (flowing.uncut_of_settled settled notClosed) cut }

theorem Flowing.broadcast_queued (flowing : Flowing hub id client) (settled : hub.closing = [])
    (inside : id ∈ hub.members) :
    Flowing (hub.broadcast message) id { client with out := client.out ++ [message] } := by
  have sequence : (hub.broadcast message).sequence { client with out := client.out ++ [message] } =
      hub.sequence client ++ [message] := sequence_broadcast flowing.joined message
  have allowed : hub.allowance client <+:
      (hub.broadcast message).allowance { client with out := client.out ++ [message] } := by
    unfold Hub.allowance
    cases client.cut with
    | none => exact sequence ▸ List.prefix_append _ _
    | some sent => exact List.prefix_rfl
  have pipeline (live : client.Live) :
      Client.pipeline { client with out := client.out ++ [message] } =
        hub.sequence client ++ [message] := by
    rw [← flowing.member live (flowing.uncut_of_settled settled live.2) inside]
    simp [Client.pipeline]
  exact {
    joined := by
      simp only [Hub.broadcast, List.length_append]
      exact Nat.le_add_right_of_le flowing.joined
    cut := fun sent cut => by
      rw [sequence]
      exact (flowing.cut sent cut).trans (List.prefix_append _ _)
    written := flowing.written.trans allowed
    inFlight := flowing.inFlight
    live := fun live => by
      have uncut : client.cut = none := flowing.uncut_of_settled settled live.2
      rw [pipeline live, Hub.allowance, sequence]
      simp [uncut]
    member := fun live _ _ => by rw [pipeline live, sequence]
    condemned := fun cut notClosed => absurd (flowing.uncut_of_settled settled notClosed) cut }

theorem Flowing.broadcast_refused (flowing : Flowing hub id client)
    (found : hub.clients id = some client) (inside : id ∈ hub.members)
    (full : ¬ client.out.length < sendBuffer) :
    Flowing (hub.broadcast message) id
      { client with cut := some (client.cut.getD (hub.sequence client)) } := by
  have grown : hub.sequence client <+: (hub.broadcast message).sequence client := by
    rw [sequence_broadcast flowing.joined]
    exact List.prefix_append _ _
  have cutPrefix : hub.allowance client <+: hub.sequence client := by
    rw [Hub.allowance]
    cases cut : client.cut with
    | none => exact List.prefix_rfl
    | some sent => exact flowing.cut sent cut
  exact {
    joined := by
      simp only [Hub.broadcast, List.length_append]
      exact Nat.le_add_right_of_le flowing.joined
    cut := by
      intro _ now
      cases now
      exact cutPrefix.trans grown
    written := flowing.written
    inFlight := flowing.inFlight
    live := flowing.live
    member := fun _ uncut => by cases uncut
    condemned := fun _ _ => by
      simp only [Hub.broadcast, List.mem_filter]
      exact ⟨inside, by simpa [found, Client.full] using full⟩ }

theorem allFlowing_broadcast (flowing : AllFlowing hub) (settled : hub.closing = [])
    (message : Json) : AllFlowing (hub.broadcast message) := by
  intro id client found
  obtain ⟨old, held, same⟩ := Option.map_eq_some_iff.mp found
  have before := flowing id old held
  by_cases inside : id ∈ hub.members
  · rw [if_pos inside, Client.send] at same
    split at same
    · exact same ▸ before.broadcast_queued settled inside
    · rename_i full
      exact same ▸ before.broadcast_refused held inside full
  · rw [if_neg inside] at same
    exact same ▸ before.broadcast_other settled inside

/-- Steps that leave a client, the broadcasts and its place in the hub as they were. -/
theorem Flowing.unchanged (flowing : Flowing hub id client)
    (broadcasts : after.broadcasts = hub.broadcasts) (members : id ∈ after.members → id ∈ hub.members)
    (closing : client.socket ≠ .closed → id ∈ hub.closing → id ∈ after.closing) :
    Flowing after id client := by
  have sequence : after.sequence client = hub.sequence client := by
    simp [Hub.sequence, broadcasts]
  have allowance : after.allowance client = hub.allowance client := by
    simp [Hub.allowance, sequence]
  exact {
    joined := broadcasts ▸ flowing.joined
    cut := sequence ▸ flowing.cut
    written := allowance ▸ flowing.written
    inFlight := flowing.inFlight
    live := allowance ▸ flowing.live
    member := fun live uncut member => sequence ▸ flowing.member live uncut (members member)
    condemned := fun cut notClosed => closing notClosed (flowing.condemned cut notClosed) }

theorem flowing_create (hub : Hub) (id : Nat) (greeting : Json) :
    Flowing hub id (.create greeting hub.broadcasts.length) := by
  have sequence : hub.sequence (.create greeting hub.broadcasts.length) = [greeting] := by
    simp [Hub.sequence, Client.create]
  exact {
    joined := le_rfl
    cut := fun _ cut => by cases cut
    written := List.nil_prefix
    inFlight := fun _ => rfl
    live := fun _ => by rw [Hub.allowance, sequence]; exact List.prefix_rfl
    member := fun _ _ _ => by rw [sequence]; rfl
    condemned := fun cut => absurd rfl cut }

theorem allFlowing_step {action : HubAction} (flowing : AllFlowing hub)
    (stepped : hub.step action = some after) : AllFlowing after := by
  cases action with
  | applyFrame frame =>
      simp only [Hub.step] at stepped
      split at stepped
      · rename_i settled
        split at stepped
        · cases stepped
        · cases stepped
          exact fun id client found => (flowing id client found).unchanged rfl (fun m => m) fun _ m => m
        · rename_i snapshot message _
          cases stepped
          have renewed : AllFlowing { hub with snapshot := snapshot } := fun id client found =>
            (flowing id client found).unchanged rfl (fun m => m) fun _ m => m
          exact allFlowing_broadcast renewed (by simpa using settled) message
      · cases stepped
  | reset snapshot =>
      simp only [Hub.step] at stepped
      split at stepped
      · rename_i settled
        cases stepped
        have renewed : AllFlowing { hub with snapshot := snapshot } := fun id client found =>
          (flowing id client found).unchanged rfl (fun m => m) fun _ m => m
        exact allFlowing_broadcast renewed (by simpa using settled) _
      · cases stepped
  | register fresh =>
      simp only [Hub.step] at stepped
      split at stepped
      · cases stepped
      · cases stepped
        intro id client found
        by_cases same : id = fresh
        · subst same
          simp only [Hub.setClient, Function.update_self, Option.some.injEq] at found
          exact found ▸ flowing_create _ id _
        · simp only [Hub.setClient, Function.update_of_ne same] at found
          exact (flowing id client found).unchanged rfl
            (fun member => (List.mem_cons.mp member).resolve_left same) fun _ m => m
  | unregister gone =>
      simp only [Hub.step, Option.some.injEq] at stepped
      cases stepped
      exact fun id client found =>
        (flowing id client found).unchanged rfl (fun member => (List.mem_filter.mp member).1) fun _ m => m
  | closed done =>
      simp only [Hub.step] at stepped
      split at stepped
      · rename_i client held
        split at stepped
        · rename_i closed
          cases stepped
          intro id other found
          refine (flowing id other found).unchanged rfl (fun m => m) fun notClosed member => ?_
          have different : id ≠ done := by
            intro same
            subst same
            rw [held] at found
            cases found
            exact notClosed closed
          simpa [different] using member
        · cases stepped
      · cases stepped
  | client moved action =>
      simp only [Hub.step] at stepped
      split at stepped
      · rename_i client held
        obtain ⟨next, moving, rfl⟩ := Option.map_eq_some_iff.mp stepped
        intro id other found
        by_cases same : id = moved
        · subst same
          simp only [Hub.setClient, Function.update_self, Option.some.injEq] at found
          exact found ▸ (flowing id client held).progress (Client.step_progress moving)
        · simp only [Hub.setClient, Function.update_of_ne same] at found
          exact (flowing id other found).unchanged rfl (fun m => m) fun _ m => m
      · cases stepped

theorem allFlowing_of_reachable {snapshot : Snapshot}
    (reachable : Reachable Hub.step (Hub.create snapshot) hub) : AllFlowing hub :=
  reachable.invariant AllFlowing (fun _ _ found => by cases found)
    fun _ _ _ => allFlowing_step

/-- The same hub as if the client had never existed. -/
def Hub.erase (hub : Hub) (id : Nat) : Hub :=
  { hub with
    members := hub.members.filter (· ≠ id)
    clients := Function.update hub.clients id none
    closing := hub.closing.filter (· ≠ id) }

theorem Hub.ext_fields {left right : Hub} (snapshot : left.snapshot = right.snapshot)
    (members : left.members = right.members) (clients : ∀ id, left.clients id = right.clients id)
    (closing : left.closing = right.closing) (broadcasts : left.broadcasts = right.broadcasts) :
    left = right := by
  cases left
  cases right
  simp only [Hub.mk.injEq]
  exact ⟨snapshot, members, funext clients, closing, broadcasts⟩

theorem erase_broadcast (hub : Hub) (message : Json) (id : Nat) :
    (hub.broadcast message).erase id = (hub.erase id).broadcast message := by
  apply Hub.ext_fields
  · rfl
  · rfl
  · intro other
    by_cases same : other = id
    · subst same
      simp [Hub.erase, Hub.broadcast]
    · simp [Hub.erase, Hub.broadcast, same, Hub.sequence]
  · simp only [Hub.erase, Hub.broadcast, List.filter_filter]
    apply List.filter_congr
    intro other _
    by_cases same : other = id
    · simp [same]
    · simp [same]
  · rfl

theorem erase_setClient_self (hub : Hub) (id : Nat) (client : Client) :
    (hub.setClient id client).erase id = hub.erase id := by
  simp [Hub.erase, Hub.setClient]

theorem erase_setClient_ne (hub : Hub) {id other : Nat} (different : other ≠ id) (client : Client) :
    (hub.setClient other client).erase id = (hub.erase id).setClient other client := by
  simp [Hub.erase, Hub.setClient, Function.update_comm different]

theorem erase_clients_ne (hub : Hub) {id other : Nat} (different : other ≠ id) :
    (hub.erase id).clients other = hub.clients other := by
  simp [Hub.erase, Function.update_of_ne different]

theorem erase_register {fresh : Nat} (stepped : hub.step (.register fresh) = some after) (id : Nat) :
    after.erase id = hub.erase id ∨ (hub.erase id).step (.register fresh) = some (after.erase id) := by
  simp only [Hub.step] at stepped ⊢
  split at stepped
  · cases stepped
  · rename_i absent
    cases stepped
    by_cases same : fresh = id
    · subst same
      left
      apply Hub.ext_fields <;> simp [Hub.erase, Hub.setClient]
    · right
      rw [erase_clients_ne hub same, absent]
      refine congrArg some (Hub.ext_fields rfl ?_ ?_ rfl rfl)
      · simp [Hub.erase, same]
      · intro other
        simp [Hub.erase, Hub.setClient, Function.update_comm same]

theorem erase_closed {done : Nat} (stepped : hub.step (.closed done) = some after) (id : Nat) :
    after.erase id = hub.erase id ∨ (hub.erase id).step (.closed done) = some (after.erase id) := by
  simp only [Hub.step] at stepped ⊢
  split at stepped
  · rename_i client held
    split at stepped
    · rename_i closed
      cases stepped
      by_cases same : done = id
      · subst same
        left
        refine Hub.ext_fields rfl rfl (fun _ => rfl) ?_ rfl
        simp [Hub.erase, List.filter_filter]
      · right
        rw [erase_clients_ne hub same, held]
        simp only [closed, if_true]
        refine congrArg some (Hub.ext_fields rfl rfl (fun _ => rfl) ?_ rfl)
        simp only [Hub.erase, List.filter_filter]
        exact List.filter_congr fun _ _ => Bool.and_comm _ _
    · cases stepped
  · cases stepped

theorem erase_client {moved : Nat} {action : ClientAction}
    (stepped : hub.step (.client moved action) = some after) (id : Nat) :
    after.erase id = hub.erase id ∨ (hub.erase id).step (.client moved action) = some (after.erase id) := by
  simp only [Hub.step] at stepped ⊢
  split at stepped
  · rename_i client held
    obtain ⟨next, moving, rfl⟩ := Option.map_eq_some_iff.mp stepped
    by_cases same : moved = id
    · subst same
      exact Or.inl (erase_setClient_self hub moved next)
    · right
      rw [erase_clients_ne hub same, held, erase_setClient_ne hub same]
      simp [moving]
  · cases stepped

/-- Without the client every step is still possible and does the same to the rest,
or it was the client's own and nothing is left of it. -/
theorem erase_step {action : HubAction} (stepped : hub.step action = some after) (id : Nat) :
    after.erase id = hub.erase id ∨ (hub.erase id).step action = some (after.erase id) := by
  have settled (empty : hub.closing.isEmpty = true) : (hub.erase id).closing.isEmpty = true := by
    simp [Hub.erase, List.isEmpty_iff.mp empty]
  cases action with
  | applyFrame frame =>
      right
      simp only [Hub.step] at stepped ⊢
      split at stepped
      · rename_i empty
        rw [if_pos (settled empty)]
        have snapshot : (hub.erase id).snapshot = hub.snapshot := rfl
        rw [snapshot]
        split at stepped
        · cases stepped
        · cases stepped
          rfl
        · cases stepped
          rw [erase_broadcast]
          rfl
      · cases stepped
  | reset snapshot =>
      right
      simp only [Hub.step] at stepped ⊢
      split at stepped
      · rename_i empty
        cases stepped
        rw [if_pos (settled empty), erase_broadcast]
        rfl
      · cases stepped
  | register fresh => exact erase_register stepped id
  | unregister gone =>
      right
      simp only [Hub.step, Option.some.injEq] at stepped ⊢
      subst stepped
      refine Hub.ext_fields rfl ?_ (fun _ => rfl) rfl rfl
      simp only [Hub.erase, List.filter_filter]
      exact List.filter_congr fun _ _ => Bool.and_comm _ _
  | closed done => exact erase_closed stepped id
  | client moved action => exact erase_client stepped id

theorem reachable_erase {snapshot : Snapshot}
    (reachable : Reachable Hub.step (Hub.create snapshot) hub) (id : Nat) :
    Reachable Hub.step (Hub.create snapshot) (hub.erase id) := by
  refine reachable.invariant
    (fun hub => Reachable Hub.step (Hub.create snapshot) (hub.erase id)) ?_ ?_
  · have unchanged : (Hub.create snapshot).erase id = Hub.create snapshot := by
      apply Hub.ext_fields <;> simp [Hub.erase, Hub.create]
    rw [unchanged]
    exact Reachable.refl
  · intro hub action after without stepped
    rcases erase_step stepped id with same | follows
    · exact same ▸ without
    · exact without.next follows

/-- What reaches a client's socket is a beginning of its sequence, the snapshot at its
registration and then every later broadcast; a client that had no room for a message
gets nothing from that message on; and the rest of the hub, other clients and their
sequences, is as it would be had the client never registered. -/
theorem client_streams_intact (snapshot : Snapshot)
    (reachable : Reachable Hub.step (Hub.create snapshot) hub) :
    (∀ id client, hub.clients id = some client →
      client.written <+: hub.sequence client ∧
        ∀ sent, client.cut = some sent → sent <+: hub.sequence client ∧ client.written <+: sent) ∧
    ∀ id, Reachable Hub.step (Hub.create snapshot) (hub.erase id) := by
  refine ⟨fun id client found => ?_, reachable_erase reachable⟩
  have flowing := allFlowing_of_reachable reachable id client found
  have written := flowing.written
  rw [Hub.allowance] at written
  cases cut : client.cut with
  | none =>
      rw [cut, Option.getD_none] at written
      exact ⟨written, fun _ impossible => by cases impossible⟩
  | some sent =>
      rw [cut, Option.getD_some] at written
      refine ⟨written.trans (flowing.cut sent cut), ?_⟩
      intro _ now
      cases now
      exact ⟨flowing.cut sent cut, written⟩

def oneClient : List HubAction :=
  [.register 0, .applyFrame ⟨"demo", 1, 0, 100, some [], [], [], none⟩, .client 0 .take,
    .client 0 .wrote, .client 0 .take, .client 0 .wrote]

theorem one_client_gets_both :
    ∃ hub client, run Hub.step (Hub.create (newSnapshot "demo" "replay" "Demo")) oneClient = some hub ∧
      hub.clients 0 = some client ∧ client.written.length = 2 ∧
      client.written <+: hub.sequence client :=
  ⟨_, _, rfl, rfl, rfl,
    ((client_streams_intact (newSnapshot "demo" "replay" "Demo") ⟨oneClient, rfl⟩).1 0 _ rfl).1⟩

end RaceTracker.Ws
