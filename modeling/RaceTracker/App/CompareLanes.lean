import Mathlib.Data.List.Dedup
import Mathlib.Data.List.Perm.Subperm
import RaceTracker.App.Registry
import RaceTracker.App.Control

namespace RaceTracker.App

open RaceTracker.Lib RaceTracker.Model RaceTracker.Ws

/-! Whatever is requested, published, lost or consumed, no lane shows another lane's race.

A hub's snapshot and its broadcasts are the loop over what its own subscription received, and a
client's messages are the loop from the moment it registered.
-/

variable {allowed : String → Bool} {sessions : List String} {registry after : Registry}
  {session : String} {entry : ReadHub} {hub : Hub}

/-- The client was greeted with the hub's snapshot after `earlier`, and gets the rest. -/
def Greeted (entry : ReadHub) (client : Client) : Prop :=
  ∃ earlier snapshot messages, earlier <+: entry.consumed ∧
    broadcastAll entry.seed earlier = .ok (snapshot, messages) ∧
      client.greeting = encodeSnapshot snapshot ∧ client.joined = messages.length

structure EntrySound (published : List Json) (routes : Nat → Option (Option String))
    (session : String) (entry : ReadHub) : Prop where
  heard : (entry.consumed ++ entry.queue).Sublist (published.drop entry.since)
  since : entry.since ≤ published.length
  seed : entry.seed.sessionKey = session
  looped : broadcastAll entry.seed entry.consumed = .ok (entry.hub.snapshot, entry.hub.broadcasts)
  flowing : AllFlowing entry.hub
  clients : ∀ id client, entry.hub.clients id = some client →
    routes id = some (some session) ∧ Greeted entry client

/-- What the request with the lock has in hand is of its own session, which has no hub yet. -/
structure CreationSound (registry : Registry) (call : Creation) : Prop where
  known : call.session ∈ sessions
  absent : registry.hubs.get? call.session = none
  waiting : registry.routes call.id = none
  since : call.since ≤ (registry.published call.session).length
  heard : ∀ queue, call.stage = .subscribed queue ∨ (∃ snapshot, call.stage = .seeded queue snapshot) →
    queue.Sublist ((registry.published call.session).drop call.since)
  seeded : ∀ queue snapshot, call.stage = .seeded queue snapshot → snapshot.sessionKey = call.session

structure RegistrySound (sessions : List String) (registry : Registry) : Prop where
  stored : ∀ session text, registry.stored session = some text → KeyedBy session text
  known : ∀ session ∈ registry.hubs.keys, session ∈ sessions
  entries : ∀ session entry, registry.hubs.get? session = some entry →
    EntrySound (registry.published session) registry.routes session entry
  active : ∀ id client, registry.active.clients id = some client → registry.routes id = some none
  routed : ∀ id session, registry.routes id = some (some session) → session ∈ registry.hubs.keys
  call : ∀ call, registry.call = some call → @CreationSound sessions registry call

/-- Each client is one that was there, perhaps with more to write. -/
def Stay (hub after : Hub) : Prop :=
  ∀ id client, after.clients id = some client → ∃ old, hub.clients id = some old ∧
    client.greeting = old.greeting ∧ client.joined = old.joined

theorem stay_broadcast (hub : Hub) (message : Json) : Stay hub (hub.broadcast message) := by
  intro id client found
  obtain ⟨old, held, rfl⟩ := Option.map_eq_some_iff.mp found
  refine ⟨old, held, ?_⟩
  split
  · rw [Client.send]
    split <;> exact ⟨rfl, rfl⟩
  · exact ⟨rfl, rfl⟩

theorem applyFrame_cases {frame : Frame} {after : Hub}
    (stepped : hub.step (.applyFrame frame) = some after) :
    ∃ message, hubApply hub.snapshot frame = .ok (after.snapshot, message) ∧
      after.broadcasts = hub.broadcasts ++ message.toList ∧ Stay hub after := by
  simp only [Hub.step] at stepped
  split at stepped
  · split at stepped
    · cases stepped
    · rename_i snapshot applied
      cases stepped
      exact ⟨none, applied, (List.append_nil _).symm, fun _ client found => ⟨client, found, rfl, rfl⟩⟩
    · rename_i snapshot message applied
      cases stepped
      exact ⟨some message, applied, rfl, stay_broadcast { hub with snapshot } message⟩
  · cases stepped

theorem stay_reset {snapshot : Snapshot} {after : Hub}
    (stepped : hub.step (.reset snapshot) = some after) : Stay hub after := by
  simp only [Hub.step] at stepped
  split at stepped
  · cases stepped
    exact stay_broadcast { hub with snapshot } (encodeSnapshot snapshot)
  · cases stepped

/-- A connection changes nothing that the others see; at most it is greeted itself. -/
theorem visit_cases {id : Nat} {visit : Visit} {after : Hub}
    (stepped : hub.step (visit.action id) = some after) :
    after.snapshot = hub.snapshot ∧ after.broadcasts = hub.broadcasts ∧
      ∀ other client, after.clients other = some client →
        (∃ old, hub.clients other = some old ∧ client.greeting = old.greeting ∧
          client.joined = old.joined) ∨
        (other = id ∧ client.greeting = encodeSnapshot hub.snapshot ∧
          client.joined = hub.broadcasts.length) := by
  cases visit with
  | register =>
      simp only [Visit.action, Hub.step] at stepped
      split at stepped
      · cases stepped
      · cases stepped
        refine ⟨rfl, rfl, fun other client found => ?_⟩
        by_cases same : other = id
        · subst same
          simp only [Hub.setClient, Function.update_self, Option.some.injEq] at found
          subst found
          exact .inr ⟨rfl, rfl, rfl⟩
        · simp only [Hub.setClient, Function.update_of_ne same] at found
          exact .inl ⟨client, found, rfl, rfl⟩
  | unregister =>
      cases stepped
      exact ⟨rfl, rfl, fun _ client found => .inl ⟨client, found, rfl, rfl⟩⟩
  | closed =>
      simp only [Visit.action, Hub.step] at stepped
      split at stepped
      · split at stepped
        · cases stepped
          exact ⟨rfl, rfl, fun _ client found => .inl ⟨client, found, rfl, rfl⟩⟩
        · cases stepped
      · cases stepped
  | client action =>
      simp only [Visit.action, Hub.step] at stepped
      split at stepped
      · rename_i old held
        obtain ⟨next, moved, rfl⟩ := Option.map_eq_some_iff.mp stepped
        refine ⟨rfl, rfl, fun other client found => .inl ?_⟩
        by_cases same : other = id
        · subst same
          simp only [Hub.setClient, Function.update_self, Option.some.injEq] at found
          subst found
          have progress := Client.step_progress moved
          exact ⟨old, held, progress.greeting, progress.joined⟩
        · simp only [Hub.setClient, Function.update_of_ne same] at found
          exact ⟨client, found, rfl, rfl⟩
      · cases stepped

section Entry

variable {published : List Json} {routes : Nat → Option (Option String)} {payload : Json}

theorem Greeted.grow {client : Client} {later : ReadHub} (greeted : Greeted entry client)
    (seed : later.seed = entry.seed) (grown : entry.consumed <+: later.consumed) :
    Greeted later client := by
  obtain ⟨earlier, snapshot, messages, within, looped, greeting, joined⟩ := greeted
  exact ⟨earlier, snapshot, messages, within.trans grown, seed ▸ looped, greeting, joined⟩

theorem Greeted.same {client old : Client} (greeted : Greeted entry old)
    (greeting : client.greeting = old.greeting) (joined : client.joined = old.joined) :
    Greeted entry client := by
  obtain ⟨earlier, snapshot, messages, within, looped, greeted, counted⟩ := greeted
  exact ⟨earlier, snapshot, messages, within, looped, greeting.trans greeted, joined.trans counted⟩

theorem ReadHub.consume_cases {next : ReadHub} (stepped : entry.consume = some next) :
    ∃ payload rest message, entry.queue = payload :: rest ∧ next.queue = rest ∧
      next.consumed = entry.consumed ++ [payload] ∧ next.seed = entry.seed ∧
      next.since = entry.since ∧
      App.consume entry.hub.snapshot payload = .ok (next.hub.snapshot, message) ∧
      next.hub.broadcasts = entry.hub.broadcasts ++ message.toList ∧ Stay entry.hub next.hub ∧
      (AllFlowing entry.hub → AllFlowing next.hub) := by
  rw [ReadHub.consume] at stepped
  split at stepped
  · cases stepped
  · rename_i payload rest queue
    cases decoded : Frame.unmarshal payload with
    | none =>
        simp only [decoded, Option.some.injEq] at stepped
        subst stepped
        exact ⟨payload, rest, none, queue, rfl, rfl, rfl, rfl, by simp only [App.consume, decoded],
          (List.append_nil _).symm, fun _ client found => ⟨client, found, rfl, rfl⟩, id⟩
    | some frame =>
        simp only [decoded] at stepped
        obtain ⟨hub, applied, rfl⟩ := Option.map_eq_some_iff.mp stepped
        obtain ⟨message, folded, sent, stay⟩ := applyFrame_cases applied
        exact ⟨payload, rest, message, queue, rfl, rfl, rfl, rfl, by simp only [App.consume, decoded, folded],
          sent, stay, fun flowing => allFlowing_step flowing applied⟩

theorem EntrySound.consume (sound : EntrySound published routes session entry) {next : ReadHub}
    (stepped : entry.consume = some next) : EntrySound published routes session next := by
  obtain ⟨payload, rest, message, queue, left, grown, seed, since, folded, sent, stay, flows⟩ :=
    ReadHub.consume_cases stepped
  have within : entry.consumed <+: next.consumed := grown ▸ List.prefix_append _ _
  exact {
    heard := by
      rw [grown, left, since, List.append_assoc, List.singleton_append, ← queue]
      exact sound.heard
    since := since ▸ sound.since
    seed := seed ▸ sound.seed
    looped := by
      rw [grown, seed]
      refine broadcastAll_append_iff.mpr ⟨_, _, message.toList, sound.looped, ?_, sent⟩
      exact broadcastAll_cons_iff.mpr ⟨_, _, [], folded, rfl, (List.append_nil _).symm⟩
    flowing := flows sound.flowing
    clients := fun id client found => by
      obtain ⟨old, held, greeting, joined⟩ := stay id client found
      obtain ⟨routed, greeted⟩ := sound.clients id old held
      exact ⟨routed, (greeted.same greeting joined).grow seed within⟩ }

theorem EntrySound.visit (sound : EntrySound published routes session entry) {id : Nat} {visit : Visit}
    {next : Hub} (routed : routes id = some (some session))
    (stepped : entry.hub.step (visit.action id) = some next) :
    EntrySound published routes session { entry with hub := next } := by
  obtain ⟨snapshot, broadcasts, clients⟩ := visit_cases stepped
  exact {
    heard := sound.heard
    since := sound.since
    seed := sound.seed
    looped := by
      rw [snapshot, broadcasts]
      exact sound.looped
    flowing := allFlowing_step sound.flowing stepped
    clients := fun other client found => by
      rcases clients other client found with ⟨old, held, greeting, joined⟩ | ⟨rfl, greeting, joined⟩
      · obtain ⟨own, greeted⟩ := sound.clients other old held
        exact ⟨own, (greeted.same greeting joined).grow rfl List.prefix_rfl⟩
      · exact ⟨routed, _, _, _, List.prefix_rfl, sound.looped, greeting, joined⟩ }

theorem sublist_published {heard : List Json} {since : Nat} (early : since ≤ published.length)
    (within : heard.Sublist (published.drop since)) :
    (heard ++ [payload]).Sublist ((published ++ [payload]).drop since) := by
  rw [List.drop_append_of_le_length early]
  exact within.append_right [payload]

theorem sublist_missed {heard : List Json} {since : Nat} (early : since ≤ published.length)
    (within : heard.Sublist (published.drop since)) :
    heard.Sublist ((published ++ [payload]).drop since) := by
  rw [List.drop_append_of_le_length early]
  exact within.trans (List.sublist_append_left _ _)

/-- A payload of the session comes to the queue, or is lost. -/
theorem EntrySound.publish (sound : EntrySound published routes session entry) (payload : Json) :
    EntrySound (published ++ [payload]) routes session (entry.deliver payload) ∧
      EntrySound (published ++ [payload]) routes session entry := by
  have later : entry.since ≤ (published ++ [payload]).length := by
    rw [List.length_append]
    exact Nat.le_add_right_of_le sound.since
  constructor
  · refine { sound with heard := ?_, since := later, clients := fun id client found => ?_ }
    · rw [ReadHub.deliver, ← List.append_assoc]
      exact sublist_published sound.since sound.heard
    · obtain ⟨routed, greeted⟩ := sound.clients id client found
      exact ⟨routed, greeted.grow rfl List.prefix_rfl⟩
  · exact { sound with heard := sublist_missed sound.since sound.heard, since := later }

end Entry

section Steps

variable {payload : Json}

theorem mem_keys_of_get? (found : registry.hubs.get? session = some entry) :
    session ∈ registry.hubs.keys :=
  List.mem_map_of_mem (Dict.mem_of_get? found)

theorem RegistrySound.put (sound : RegistrySound sessions registry)
    (held : registry.hubs.get? session = some entry) {next : ReadHub}
    (kept : EntrySound (registry.published session) registry.routes session next) :
    RegistrySound sessions (registry.put session next) where
  stored := sound.stored
  known other member := by
    rcases (Dict.mem_keys_set ..).mp member with rfl | old
    · exact sound.known _ (mem_keys_of_get? held)
    · exact sound.known other old
  entries other found := by
    simp only [Registry.put, Dict.get?_set]
    split
    · rename_i same
      intro now
      cases now
      exact same ▸ kept
    · exact sound.entries other found
  active := sound.active
  routed id other served := (Dict.mem_keys_set ..).mpr (.inr (sound.routed id other served))
  call call holding := by
    have creation := sound.call call holding
    have apart : session ≠ call.session := by
      rintro rfl
      cases held.symm.trans creation.absent
    exact { creation with
      absent := by
        simp only [Registry.put, Dict.get?_set, if_neg apart]
        exact creation.absent }

theorem RegistrySound.serve (sound : RegistrySound sessions registry) {id : Nat}
    (unserved : registry.routes id = none) (waits : ∀ call, registry.call = some call → call.id ≠ id)
    {lane : Option String} (made : ∀ session ∈ lane, session ∈ registry.hubs.keys) :
    RegistrySound sessions (registry.serve id lane) := by
  have kept {other : Nat} {route : Option String} (routed : registry.routes other = some route) :
      (registry.serve id lane).routes other = some route := by
    have apart : other ≠ id := by
      rintro rfl
      cases unserved.symm.trans routed
    simp only [Registry.serve, Function.update_of_ne apart]
    exact routed
  exact {
    stored := sound.stored
    known := sound.known
    entries := fun session entry found =>
      let held := sound.entries session entry found
      { held with clients := fun other client member =>
          let ⟨routed, greeted⟩ := held.clients other client member
          ⟨kept routed, greeted⟩ }
    active := fun other client member => kept (sound.active other client member)
    routed := fun other session served => by
      by_cases same : other = id
      · subst same
        simp only [Registry.serve, Function.update_self, Option.some.injEq] at served
        exact made session served
      · simp only [Registry.serve, Function.update_of_ne same] at served
        exact sound.routed other session served
    call := fun call holding =>
      let held := sound.call call holding
      { held with
        waiting := by
          simp only [Registry.serve, Function.update_of_ne (waits call holding)]
          exact held.waiting } }

/-- The lock is passed on, or what its holder has in hand changes. -/
theorem RegistrySound.withCall (sound : RegistrySound sessions registry) {call : Option Creation}
    (held : ∀ creation, call = some creation → @CreationSound sessions registry creation) :
    RegistrySound sessions { registry with call } :=
  { sound with call := fun creation holding =>
      let held := held creation holding
      { held with } }

theorem RegistrySound.withActive (sound : RegistrySound sessions registry) {active : Hub}
    (clients : ∀ id client, active.clients id = some client → registry.routes id = some none) :
    RegistrySound sessions { registry with active } :=
  { sound with
    active := clients
    call := fun creation holding =>
      let held := sound.call creation holding
      { held with } }

theorem published_self : (registry.publish session payload).published session =
    registry.published session ++ [payload] :=
  Function.update_self ..

theorem published_ne {other : String} (apart : other ≠ session) :
    (registry.publish session payload).published other = registry.published other :=
  Function.update_of_ne apart ..

theorem RegistrySound.missed (sound : RegistrySound sessions registry) (session : String)
    (payload : Json) :
    RegistrySound sessions (registry.publish session payload) where
  stored := sound.stored
  known := sound.known
  entries other entry found := by
    have held := sound.entries other entry found
    by_cases same : other = session
    · subst same
      rw [published_self]
      exact (held.publish payload).2
    · rw [published_ne same]
      exact held
  active := sound.active
  routed := sound.routed
  call creation holding := by
    have held := sound.call creation holding
    by_cases same : creation.session = session
    · subst same
      exact { held with
        since := by
          rw [published_self, List.length_append]
          exact Nat.le_add_right_of_le held.since
        heard := fun queue stage => by
          rw [published_self]
          exact sublist_missed held.since (held.heard queue stage) }
    · exact { held with
        since := by
          rw [published_ne same]
          exact held.since
        heard := fun queue stage => by
          rw [published_ne same]
          exact held.heard queue stage }

theorem Stage.deliver_cases {stage : Stage} {queue : List Json} :
    (stage.deliver payload = .subscribed queue →
      ∃ before, stage = .subscribed before ∧ queue = before ++ [payload]) ∧
    ∀ snapshot, stage.deliver payload = .seeded queue snapshot →
      ∃ before, stage = .seeded before snapshot ∧ queue = before ++ [payload] := by
  cases stage with
  | subscribing => simp [Stage.deliver]
  | subscribed before => simp [Stage.deliver, eq_comm]
  | seeded before held => simp [Stage.deliver, eq_comm]

theorem CreationSound.deliver {call : Creation} (held : @CreationSound sessions registry call)
    (payload : Json) :
    @CreationSound sessions (registry.publish call.session payload)
      { call with stage := call.stage.deliver payload } where
  known := held.known
  absent := held.absent
  waiting := held.waiting
  since := by
    rw [published_self, List.length_append]
    exact Nat.le_add_right_of_le held.since
  heard queue stage := by
    rw [published_self]
    rcases stage with subscribed | ⟨snapshot, seeded⟩
    · obtain ⟨before, earlier, rfl⟩ := Stage.deliver_cases.1 subscribed
      exact sublist_published held.since (held.heard before (.inl earlier))
    · obtain ⟨before, earlier, rfl⟩ := Stage.deliver_cases.2 snapshot seeded
      exact sublist_published held.since (held.heard before (.inr ⟨snapshot, earlier⟩))
  seeded queue snapshot stage := by
    obtain ⟨before, earlier, -⟩ := Stage.deliver_cases.2 snapshot stage
    exact held.seeded before snapshot earlier

theorem RegistrySound.delivered (sound : RegistrySound sessions registry) (session : String)
    (payload : Json) :
    RegistrySound sessions ((registry.deliver session payload).publish session payload) := by
  rw [Registry.deliver]
  cases found : registry.hubs.get? session with
  | some entry =>
      have kept := ((sound.entries session entry found).publish payload).1
      refine (sound.missed session payload).put found ?_
      rw [published_self]
      exact kept
  | none =>
      refine (sound.missed session payload).withCall fun creation holding => ?_
      obtain ⟨before, held, rfl⟩ := Option.map_eq_some_iff.mp holding
      rw [Creation.deliver]
      split
      · rename_i same
        subst same
        exact (sound.call before held).deliver payload
      · exact (sound.missed session payload).call before held

theorem checkWs_session {host : String} {lane : Option String}
    (routed : checkWs allowed sessions host session = .ok lane) :
    ∀ named ∈ lane, named ∈ sessions ∧ named = session := by
  rw [checkWs] at routed
  split at routed
  · cases routed
  split at routed
  · cases routed
    exact fun _ none => by cases none
  split at routed
  · rename_i known
    cases routed
    rintro _ ⟨⟩
    exact ⟨known, rfl⟩
  · cases routed

theorem fresh_iff {id : Nat} : registry.fresh id = true ↔
    registry.routes id = none ∧ ∀ call, registry.call = some call → call.id ≠ id := by
  simp [Registry.fresh]

theorem RegistrySound.request (sound : RegistrySound sessions registry) {id : Nat} {host : String}
    {answer : Option WsAnswer}
    (stepped : registry.step allowed sessions (.request id host session) = some (after, answer)) :
    RegistrySound sessions after := by
  simp only [Registry.step] at stepped
  split at stepped
  · rename_i isFresh
    obtain ⟨unserved, waits⟩ := fresh_iff.mp isFresh
    split at stepped
    · cases stepped
      exact sound
    · cases stepped
      exact sound.serve unserved waits fun _ none => by cases none
    · rename_i lane routed
      split at stepped
      · split at stepped
        · rename_i present
          cases stepped
          obtain ⟨entry, found⟩ := Option.isSome_iff_exists.mp present
          refine sound.serve unserved waits fun named same => ?_
          cases same
          exact mem_keys_of_get? found
        · rename_i absent
          cases stepped
          refine sound.withCall fun creation now => ?_
          cases now
          exact {
            known := (checkWs_session routed lane rfl).1
            absent := by simpa using absent
            waiting := unserved
            since := Nat.zero_le _
            heard := fun queue stage => by rcases stage with now | ⟨_, now⟩ <;> cases now
            seeded := fun queue snapshot now => by cases now }
      · cases stepped
  · cases stepped

theorem RegistrySound.create (sound : RegistrySound sessions registry) {id since : Nat}
    {queue : List Json} {snapshot : Snapshot}
    (holding : registry.call = some ⟨id, session, since, .seeded queue snapshot⟩) :
    RegistrySound sessions
      { (registry.put session ⟨.create snapshot, queue, snapshot, since, []⟩).serve id (some session) with
        call := none } := by
  have creation := sound.call _ holding
  have seed : EntrySound (registry.published session) registry.routes session
      ⟨.create snapshot, queue, snapshot, since, []⟩ := {
    heard := creation.heard queue (.inr ⟨snapshot, rfl⟩)
    since := creation.since
    seed := creation.seeded queue snapshot rfl
    looped := rfl
    flowing := fun _ _ found => by cases found
    clients := fun _ _ found => by cases found }
  have added : RegistrySound sessions
      { registry.put session ⟨.create snapshot, queue, snapshot, since, []⟩ with call := none } := {
    stored := sound.stored
    known := fun other member => by
      rcases (Dict.mem_keys_set ..).mp member with rfl | old
      · exact creation.known
      · exact sound.known other old
    entries := fun other entry found => by
      simp only [Registry.put, Dict.get?_set] at found
      split at found
      · rename_i same
        cases found
        exact same ▸ seed
      · exact sound.entries other entry found
    active := sound.active
    routed := fun id other served => (Dict.mem_keys_set ..).mpr (.inr (sound.routed id other served))
    call := fun _ none => by cases none }
  refine added.serve creation.waiting (fun _ none => by cases none) fun named same => ?_
  cases same
  exact (Dict.mem_keys_set ..).mpr (.inl rfl)

theorem registrySound_step {action : RegistryAction} {answer : Option WsAnswer}
    (sound : RegistrySound sessions registry)
    (stepped : registry.step allowed sessions action = some (after, answer)) :
    RegistrySound sessions after := by
  cases action with
  | request id host session => exact sound.request stepped
  | subscribe =>
      simp only [Registry.step] at stepped
      split at stepped
      · rename_i id session since holding
        cases stepped
        refine sound.withCall fun creation now => ?_
        cases now
        exact { sound.call _ holding with
          since := le_rfl
          heard := fun queue stage => by
            rcases stage with now | ⟨_, now⟩ <;> cases now
            exact List.nil_sublist _
          seeded := fun queue snapshot now => by cases now }
      · cases stepped
  | subscribeFails | getSnapshotFails =>
      simp only [Registry.step] at stepped
      split at stepped
      · cases stepped
        exact sound.withCall fun _ none => by cases none
      · cases stepped
  | getSnapshot =>
      simp only [Registry.step] at stepped
      split at stepped
      · rename_i id session since queue holding
        split at stepped
        · cases stepped
        · rename_i snapshot read
          cases stepped
          refine sound.withCall fun creation now => ?_
          cases now
          have held := sound.call _ holding
          exact { held with
            heard := fun queue stage => by
              rcases stage with now | ⟨_, now⟩ <;> cases now
              exact held.heard _ (.inl rfl)
            seeded := fun queue snapshot now => by
              cases now
              exact seedSnapshot_keyed (sound.stored session) read }
      · cases stepped
  | create =>
      simp only [Registry.step] at stepped
      split at stepped
      · rename_i id session since queue snapshot holding
        cases stepped
        exact sound.create holding
      · cases stepped
  | visit id visit =>
      obtain ⟨moved, visited, same⟩ := Option.map_eq_some_iff.mp stepped
      cases same
      rw [Registry.visit] at visited
      split at visited
      · cases visited
      · rename_i routed
        obtain ⟨active, moved, rfl⟩ := Option.map_eq_some_iff.mp visited
        refine sound.withActive fun other client found => ?_
        rcases (visit_cases moved).2.2 other client found with ⟨old, held, _⟩ | ⟨rfl, _⟩
        · exact sound.active other old held
        · exact routed
      · rename_i session routed
        split at visited
        · cases visited
        · rename_i entry held
          obtain ⟨hub, moved, rfl⟩ := Option.map_eq_some_iff.mp visited
          exact sound.put held ((sound.entries session entry held).visit routed moved)
  | publish session payload delivered =>
      cases stepped
      cases delivered with
      | true => exact sound.delivered session payload
      | false => exact sound.missed session payload
  | store session text =>
      simp only [Registry.step] at stepped
      split at stepped
      · rename_i keyed
        cases stepped
        refine { sound with stored := fun other held found => ?_, call := fun creation holding => ?_ }
        · by_cases same : other = session
          · subst same
            simp only [Function.update_self, Option.some.injEq] at found
            exact found ▸ keyed
          · simp only [Function.update_of_ne same] at found
            exact sound.stored other held found
        · exact { sound.call creation holding with }
      · cases stepped
  | consume session =>
      simp only [Registry.step] at stepped
      split at stepped
      · cases stepped
      · rename_i entry held
        obtain ⟨next, consumed, same⟩ := Option.map_eq_some_iff.mp stepped
        cases same
        exact sound.put held ((sound.entries session entry held).consume consumed)
  | applyActive frame =>
      obtain ⟨active, applied, same⟩ := Option.map_eq_some_iff.mp stepped
      cases same
      refine sound.withActive fun id client found => ?_
      obtain ⟨_, _, _, stay⟩ := applyFrame_cases applied
      obtain ⟨old, held, _⟩ := stay id client found
      exact sound.active id old held
  | resetActive snapshot =>
      obtain ⟨active, reset, same⟩ := Option.map_eq_some_iff.mp stepped
      cases same
      refine sound.withActive fun id client found => ?_
      obtain ⟨old, held, _⟩ := stay_reset reset id client found
      exact sound.active id old held

end Steps

variable {stored : String → Option Json} {active : Snapshot}

theorem registrySound_of_reachable
    (keyed : ∀ session text, stored session = some text → KeyedBy session text)
    (reachable : Reachable (Registry.next allowed sessions) (Registry.initial stored active) registry) :
    RegistrySound sessions registry := by
  refine reachable.invariant (RegistrySound sessions) ?_ ?_
  · exact {
      stored := keyed
      known := fun _ member => by cases member
      entries := fun _ _ found => by cases found
      active := fun _ _ found => by cases found
      routed := fun _ _ served => by cases served
      call := fun _ holding => by cases holding }
  · intro before action later sound stepped
    obtain ⟨⟨_, answer⟩, moved, rfl⟩ := Option.map_eq_some_iff.mp stepped
    exact registrySound_step sound moved

/-- What a client has on its socket is a beginning of its hub's loop from its greeting on. -/
theorem EntrySound.written {published : List Json} {routes : Nat → Option (Option String)}
    (sound : EntrySound published routes session entry) {id : Nat} {client : Client}
    (found : entry.hub.clients id = some client) :
    ∃ earlier later snapshot before messages, entry.consumed = earlier ++ later ∧
      broadcastAll entry.seed earlier = .ok (snapshot, before) ∧
      broadcastAll snapshot later = .ok (entry.hub.snapshot, messages) ∧
      client.written <+: encodeSnapshot snapshot :: messages := by
  obtain ⟨_, earlier, snapshot, before, ⟨later, split⟩, looped, greeting, joined⟩ :=
    sound.clients id client found
  have whole := sound.looped
  rw [← split] at whole
  obtain ⟨middle, first, messages, start, finish, sent⟩ := broadcastAll_append_iff.mp whole
  cases looped.symm.trans start
  have flowing := sound.flowing id client found
  have sequence : entry.hub.sequence client = encodeSnapshot snapshot :: messages := by
    rw [Hub.sequence, greeting, joined, sent, List.drop_left]
  have within : entry.hub.allowance client <+: entry.hub.sequence client := by
    rw [Hub.allowance]
    cases cut : client.cut with
    | none => exact List.prefix_rfl
    | some sent => exact flowing.cut sent cut
  exact ⟨earlier, later, snapshot, before, messages, split.symm, looped, finish,
    sequence ▸ flowing.written.trans within⟩

/-- In every state that any requests, publications, losses and failures lead to: no session outside
the allowlist has a hub; each hub shows the loop over payloads of its own session, in their order;
and every client of it came for that session and was sent one snapshot of the hub and then the
messages that follow it, up to a point. -/
theorem compare_lanes_stay_apart
    (keyed : ∀ session text, stored session = some text → KeyedBy session text)
    (reachable : Reachable (Registry.next allowed sessions) (Registry.initial stored active) registry) :
    (registry.hubs.keys ⊆ sessions ∧ registry.hubs.keys.length ≤ sessions.dedup.length) ∧
      (∀ id client, registry.active.clients id = some client → registry.routes id = some none) ∧
      ∀ session entry, registry.hubs.get? session = some entry →
        (entry.consumed ++ entry.queue).Sublist ((registry.published session).drop entry.since) ∧
        broadcastAll entry.seed entry.consumed = .ok (entry.hub.snapshot, entry.hub.broadcasts) ∧
        entry.seed.sessionKey = session ∧ entry.hub.snapshot.sessionKey = session ∧
        ∀ id client, entry.hub.clients id = some client →
          registry.routes id = some (some session) ∧
          ∃ earlier later snapshot before messages, entry.consumed = earlier ++ later ∧
            broadcastAll entry.seed earlier = .ok (snapshot, before) ∧
            broadcastAll snapshot later = .ok (entry.hub.snapshot, messages) ∧
            client.written <+: encodeSnapshot snapshot :: messages := by
  have sound := registrySound_of_reachable keyed reachable
  have known : registry.hubs.keys ⊆ sessions := fun session member => sound.known session member
  refine ⟨⟨known, ?_⟩, sound.active, ?_⟩
  · have listed : registry.hubs.keys ⊆ sessions.dedup := fun session member =>
      List.mem_dedup.mpr (known member)
    exact (List.Nodup.subperm registry.hubs.distinct listed).length_le
  · intro session entry found
    have held := sound.entries session entry found
    refine ⟨held.heard, held.looped, held.seed, (broadcastAll_sessionKey held.looped).trans held.seed,
      fun id client member => ⟨(held.clients id client member).1, held.written member⟩⟩

def firstFrame (session : String) : Json := Frame.marshal ⟨session, 1, 0, 100, some [], [], [], none⟩

/-- A viewer of each lane of the default list, and a frame published to each: one is received, the
other lost. -/
def twoViewers : List RegistryAction :=
  [.request 0 "localhost" "compare-monza-2023", .subscribe,
    .publish "compare-monza-2023" (firstFrame "compare-monza-2023") true, .getSnapshot, .create,
    .request 1 "localhost" "compare-monza-2024", .subscribe, .getSnapshot, .create,
    .visit 0 .register, .visit 1 .register, .consume "compare-monza-2023",
    .publish "compare-monza-2024" (firstFrame "compare-monza-2024") false,
    .visit 0 (.client .take), .visit 0 (.client .wrote), .visit 0 (.client .take),
    .visit 0 (.client .wrote)]

def comparing : Option Registry :=
  run (Registry.next loopback (setAllowedSessions defaultAllowedSessions []))
    (Registry.initial (fun _ => none) (newSnapshot "replay" "" "")) twoViewers

/-- The first viewer has been sent the greeting and the frame. -/
theorem two_viewers_stay_apart :
    ∃ registry entry client, comparing = some registry ∧
      registry.hubs.get? "compare-monza-2023" = some entry ∧ entry.hub.clients 0 = some client ∧
      client.written.length = 2 ∧ registry.routes 0 = some (some "compare-monza-2023") ∧
      ∃ earlier later snapshot before messages, entry.consumed = earlier ++ later ∧
        broadcastAll entry.seed earlier = .ok (snapshot, before) ∧
        broadcastAll snapshot later = .ok (entry.hub.snapshot, messages) ∧
        client.written <+: encodeSnapshot snapshot :: messages := by
  have seen : (comparing.any fun registry =>
      (registry.hubs.get? "compare-monza-2023").any fun entry =>
        (entry.hub.clients 0).any fun client => client.written.length = 2) = true := by decide +kernel
  simp only [Option.any_eq_true, decide_eq_true_eq] at seen
  obtain ⟨registry, ran, entry, found, client, held, two⟩ := seen
  have unstored : ∀ session text, (fun _ : String => (none : Option Json)) session = some text →
      KeyedBy session text := fun _ _ impossible => by cases impossible
  have apart := (compare_lanes_stay_apart unstored ⟨twoViewers, ran⟩).2.2 _ entry found
  exact ⟨registry, entry, client, ran, found, held, two, apart.2.2.2.2 0 client held⟩

end RaceTracker.App
