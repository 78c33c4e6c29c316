import RaceTracker.App.CompareLanes

namespace RaceTracker.App

open RaceTracker.Lib RaceTracker.Model RaceTracker.Ws

/-! A compare lane's hub stays the one that its first request made, and so do its connections. -/

variable {allowed : String → Bool} {sessions : List String} {registry after : Registry}
  {session : String} {entry : ReadHub} {stored : String → Option Json} {active : Snapshot}

/-- The same hub of the registry, later. -/
structure ReadHub.Onward (before after : ReadHub) : Prop where
  seed : after.seed = before.seed
  since : after.since = before.since
  consumed : before.consumed <+: after.consumed
  broadcasts : before.hub.broadcasts <+: after.hub.broadcasts

structure Registry.Grows (before after : Registry) : Prop where
  routes : ∀ id lane, before.routes id = some lane → after.routes id = some lane
  hubs : ∀ session entry, before.hubs.get? session = some entry →
    ∃ kept, after.hubs.get? session = some kept ∧ entry.Onward kept

theorem ReadHub.Onward.refl (entry : ReadHub) : entry.Onward entry :=
  ⟨rfl, rfl, List.prefix_rfl, List.prefix_rfl⟩

theorem ReadHub.Onward.trans {middle last : ReadHub} (first : entry.Onward middle)
    (second : middle.Onward last) : entry.Onward last :=
  ⟨second.seed.trans first.seed, second.since.trans first.since,
    first.consumed.trans second.consumed, first.broadcasts.trans second.broadcasts⟩

theorem Registry.Grows.refl (registry : Registry) : registry.Grows registry :=
  ⟨fun _ _ routed => routed, fun _ entry found => ⟨entry, found, .refl entry⟩⟩

theorem Registry.Grows.trans {last : Registry} (first : registry.Grows after)
    (second : after.Grows last) : registry.Grows last where
  routes id lane routed := second.routes id lane (first.routes id lane routed)
  hubs session entry found := by
    obtain ⟨middle, held, onward⟩ := first.hubs session entry found
    obtain ⟨kept, later, further⟩ := second.hubs session middle held
    exact ⟨kept, later, onward.trans further⟩

theorem Registry.Grows.put {next : ReadHub}
    (moved : ∀ entry, registry.hubs.get? session = some entry → entry.Onward next) :
    registry.Grows (registry.put session next) where
  routes _ _ routed := routed
  hubs other entry found := by
    simp only [Registry.put, Dict.get?_set]
    split
    · rename_i same
      exact ⟨next, rfl, moved entry (same ▸ found)⟩
    · exact ⟨entry, found, .refl entry⟩

theorem Registry.Grows.serve {id : Nat} (unserved : registry.routes id = none) (lane : Option String) :
    registry.Grows (registry.serve id lane) where
  routes other route routed := by
    have apart : other ≠ id := by
      rintro rfl
      cases unserved.symm.trans routed
    simp only [Registry.serve, Function.update_of_ne apart]
    exact routed
  hubs _ entry found := ⟨entry, found, .refl entry⟩

/-- Steps that leave the registry and the routes alone. -/
theorem Registry.Grows.frame (hubs : after.hubs = registry.hubs) (routes : after.routes = registry.routes) :
    registry.Grows after :=
  ⟨fun id lane routed => by rw [routes]; exact routed,
    fun session entry found => ⟨entry, by rw [hubs]; exact found, .refl entry⟩⟩

theorem ReadHub.consume_onward {next : ReadHub} (stepped : entry.consume = some next) :
    entry.Onward next := by
  obtain ⟨_, _, _, _, _, grown, seed, since, _, sent, _⟩ := ReadHub.consume_cases stepped
  exact ⟨seed, since, grown ▸ List.prefix_append _ _, sent ▸ List.prefix_append _ _⟩

theorem grows_visit {id : Nat} {visit : Visit} (visited : registry.visit id visit = some after) :
    registry.Grows after := by
  rw [Registry.visit] at visited
  split at visited
  · cases visited
  · obtain ⟨active, _, rfl⟩ := Option.map_eq_some_iff.mp visited
    exact .frame rfl rfl
  · rename_i session _
    split at visited
    · cases visited
    · rename_i entry held
      obtain ⟨hub, moved, rfl⟩ := Option.map_eq_some_iff.mp visited
      refine .put fun before found => ?_
      cases held.symm.trans found
      exact ⟨rfl, rfl, List.prefix_rfl, (visit_cases moved).2.1 ▸ List.prefix_rfl⟩

theorem grows_deliver (registry : Registry) (session : String) (payload : Json) :
    registry.Grows (registry.deliver session payload) := by
  rw [Registry.deliver]
  split
  · rename_i entry held
    refine .put fun before found => ?_
    cases held.symm.trans found
    exact ⟨rfl, rfl, List.prefix_rfl, List.prefix_rfl⟩
  · exact .frame rfl rfl

theorem grows_step {action : RegistryAction} {answer : Option WsAnswer}
    (sound : RegistrySound sessions registry)
    (stepped : registry.step allowed sessions action = some (after, answer)) : registry.Grows after := by
  cases action with
  | request id host session =>
      simp only [Registry.step] at stepped
      split at stepped
      · rename_i isFresh
        have unserved := (fresh_iff.mp isFresh).1
        split at stepped
        · cases stepped
          exact .refl registry
        · cases stepped
          exact .serve unserved none
        · split at stepped
          · split at stepped <;> cases stepped
            · exact .serve unserved _
            · exact .frame rfl rfl
          · cases stepped
      · cases stepped
  | subscribe | subscribeFails | getSnapshotFails =>
      simp only [Registry.step] at stepped
      split at stepped <;> cases stepped
      exact .frame rfl rfl
  | getSnapshot =>
      simp only [Registry.step] at stepped
      split at stepped
      · split at stepped <;> cases stepped
        exact .frame rfl rfl
      · cases stepped
  | create =>
      simp only [Registry.step] at stepped
      split at stepped
      · rename_i id session since queue snapshot holding
        cases stepped
        have creation := sound.call _ holding
        let added := registry.put session ⟨.create snapshot, queue, snapshot, since, []⟩
        have new : registry.Grows added := .put fun before found => by
          cases found.symm.trans creation.absent
        have waiting : added.routes id = none := creation.waiting
        have served : added.Grows (added.serve id (some session)) := .serve waiting _
        exact (new.trans served).trans (.frame rfl rfl)
      · cases stepped
  | visit id visit =>
      obtain ⟨moved, visited, same⟩ := Option.map_eq_some_iff.mp stepped
      cases same
      exact grows_visit visited
  | publish session payload delivered =>
      cases stepped
      cases delivered with
      | true => exact (grows_deliver registry session payload).trans (.frame rfl rfl)
      | false => exact .frame rfl rfl
  | store session text =>
      simp only [Registry.step] at stepped
      split at stepped <;> cases stepped
      exact .frame rfl rfl
  | consume session =>
      simp only [Registry.step] at stepped
      split at stepped
      · cases stepped
      · rename_i entry held
        obtain ⟨next, consumed, same⟩ := Option.map_eq_some_iff.mp stepped
        cases same
        refine .put fun before found => ?_
        cases held.symm.trans found
        exact ReadHub.consume_onward consumed
  | applyActive frame | resetActive snapshot =>
      obtain ⟨active, _, same⟩ := Option.map_eq_some_iff.mp stepped
      cases same
      exact .frame rfl rfl

theorem refused_step {action : RegistryAction} {answer : WsAnswer}
    (stepped : registry.step allowed sessions action = some (after, some answer)) :
    after = { registry with call := after.call } ∧ (after.call = registry.call ∨ after.call = none) := by
  cases action with
  | request id host session =>
      simp only [Registry.step] at stepped
      split at stepped
      · split at stepped
        · cases stepped
          exact ⟨rfl, .inl rfl⟩
        · cases stepped
        · split at stepped
          · split at stepped <;> cases stepped
          · cases stepped
      · cases stepped
  | subscribeFails | getSnapshotFails =>
      simp only [Registry.step] at stepped
      split at stepped <;> cases stepped
      exact ⟨rfl, .inr rfl⟩
  | subscribe | create =>
      simp only [Registry.step] at stepped
      split at stepped <;> cases stepped
  | getSnapshot =>
      simp only [Registry.step] at stepped
      split at stepped
      · split at stepped <;> cases stepped
      · cases stepped
  | visit id visit =>
      obtain ⟨_, _, same⟩ := Option.map_eq_some_iff.mp stepped
      cases same
  | publish session payload delivered => cases stepped
  | store session text =>
      simp only [Registry.step] at stepped
      split at stepped <;> cases stepped
  | consume session =>
      simp only [Registry.step] at stepped
      split at stepped
      · cases stepped
      · obtain ⟨_, _, same⟩ := Option.map_eq_some_iff.mp stepped
        cases same
  | applyActive frame | resetActive snapshot =>
      obtain ⟨_, _, same⟩ := Option.map_eq_some_iff.mp stepped
      cases same

/-- A hub that is there stays, seeded as it was, with the payloads and the messages it has had as
the beginning of those it will have; a connection stays with the hub it was given, which is there;
and a request that is turned away leaves nothing behind but, at most, the lock free. -/
theorem compare_hub_kept {later : Registry}
    (keyed : ∀ session text, stored session = some text → KeyedBy session text)
    (reachable : Reachable (Registry.next allowed sessions) (Registry.initial stored active) registry)
    (onward : Reachable (Registry.next allowed sessions) registry later) :
    registry.Grows later ∧
      (∀ id session, later.routes id = some (some session) → session ∈ later.hubs.keys) ∧
      ∀ action after answer, later.step allowed sessions action = some (after, some answer) →
        after = { later with call := after.call } ∧ (after.call = later.call ∨ after.call = none) := by
  have both : registry.Grows later ∧ RegistrySound sessions later := by
    refine onward.invariant (fun later => registry.Grows later ∧ RegistrySound sessions later)
      ⟨.refl registry, registrySound_of_reachable keyed reachable⟩ ?_
    rintro before action after ⟨grown, sound⟩ stepped
    obtain ⟨⟨_, answer⟩, moved, rfl⟩ := Option.map_eq_some_iff.mp stepped
    exact ⟨grown.trans (grows_step sound moved), registrySound_step sound moved⟩
  exact ⟨both.1, both.2.routed, fun _ _ _ refused => refused_step refused⟩

/-- A third viewer is given the hub of the first. -/
theorem compare_hub_kept_third :
    ∃ registry later, comparing = some registry ∧
      Reachable (Registry.next loopback (setAllowedSessions defaultAllowedSessions [])) registry later ∧
      later.routes 2 = some (some "compare-monza-2023") ∧ registry.Grows later := by
  have joined : (comparing.any fun registry =>
      (run (Registry.next loopback (setAllowedSessions defaultAllowedSessions [])) registry
        [.request 2 "localhost" "compare-monza-2023", .visit 2 .register]).any fun later =>
          later.routes 2 = some (some "compare-monza-2023")) = true := by decide +kernel
  simp only [Option.any_eq_true, decide_eq_true_eq] at joined
  obtain ⟨registry, ran, later, onward, served⟩ := joined
  have unstored : ∀ session text, (fun _ : String => (none : Option Json)) session = some text →
      KeyedBy session text := fun _ _ impossible => by cases impossible
  exact ⟨registry, later, ran, ⟨_, onward⟩, served,
    (compare_hub_kept unstored ⟨twoViewers, ran⟩ ⟨_, onward⟩).1⟩

end RaceTracker.App
