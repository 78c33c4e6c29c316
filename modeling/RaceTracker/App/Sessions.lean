import RaceTracker.App.Switching

namespace RaceTracker.App

open RaceTracker.Lib RaceTracker.Model RaceTracker.Ws

/-! No schedule of switches and late consumers mixes two sessions in the hub.

The generation is the whole protection: a consumer of the gateway's own generation
reads the current session, and no other consumer gets a frame past the check.
-/

variable {toggle after : Toggle} {gateway : Gateway}

def entryRev (entry : String × Frame) : Int := entry.2.rev.toInt

/-- What a consumer is, apart from its progress. -/
def Consumer.identity (consumer : Consumer) : String × Nat × Bool :=
  (consumer.session, consumer.gen, consumer.cancelled)

/-- The gateway as a switch leaves it alone: hub, session, generation, and who consumes. -/
structure Untouched (before after : Gateway) : Prop where
  hub : after.hub = before.hub
  session : after.session = before.session
  gen : after.gen = before.gen
  cancel : after.cancel = before.cancel
  consumers : after.consumers.map Consumer.identity = before.consumers.map Consumer.identity

structure Unmixed (gateway : Gateway) : Prop where
  stored : ∀ session text, gateway.stored session = some text → KeyedBy session text
  hub : gateway.hub.sessionKey = gateway.session
  consumers : ∀ consumer ∈ gateway.consumers, consumer.gen ≤ gateway.gen ∧
    (consumer.gen = gateway.gen → consumer.session = gateway.session)
  applied : ∀ entry ∈ gateway.applied, entry.1 = gateway.session
  climbs : Ascending entryRev gateway.resetRev.toInt gateway.applied
  last : gateway.hub.rev.toInt = lastKey entryRev gateway.resetRev.toInt gateway.applied

structure CallSound (gateway : Gateway) (call : Call) : Prop where
  untouched : Untouched call.found gateway
  seeded : ∀ queue snapshot, call.stage = .seeded queue snapshot →
    snapshot.sessionKey = call.session

structure ToggleSound (toggle : Toggle) : Prop where
  unmixed : Unmixed toggle.gateway
  call : ∀ call, toggle.call = some call → CallSound toggle.gateway call

theorem Untouched.refl (gateway : Gateway) : Untouched gateway gateway := ⟨rfl, rfl, rfl, rfl, rfl⟩

theorem identities_set {consumers : List Consumer} {index : Nat} {old : Consumer}
    (found : consumers[index]? = some old) (next : Consumer) (same : next.identity = old.identity) :
    (consumers.set index next).map Consumer.identity = consumers.map Consumer.identity := by
  rw [List.map_set, same]
  apply List.ext_getElem?
  intro position
  rw [List.getElem?_set]
  split
  · rename_i at_
    subst at_
    split
    · simp [List.getElem?_map, found]
    · rename_i beyond
      rw [List.length_map] at beyond
      rw [List.getElem?_eq_none (Nat.le_of_not_lt beyond)] at found
      cases found
  · rfl

/-- Only the progress of consumers changed: the sessions are as unmixed as before. -/
theorem Unmixed.consumers_eq (unmixed : Unmixed gateway) {consumers : List Consumer}
    (same : consumers.map Consumer.identity = gateway.consumers.map Consumer.identity) :
    Unmixed { gateway with consumers } := by
  refine { unmixed with consumers := fun consumer member => ?_ }
  have identity : consumer.identity ∈ gateway.consumers.map Consumer.identity :=
    same ▸ List.mem_map_of_mem member
  obtain ⟨old, oldMember, equal⟩ := List.mem_map.mp identity
  simp only [Consumer.identity, Prod.mk.injEq] at equal
  obtain ⟨session, gen, _⟩ := equal
  have before := unmixed.consumers old oldMember
  rw [← session, ← gen]
  exact before

theorem ToggleSound.consumers_eq (sound : ToggleSound toggle) {consumers : List Consumer}
    (same : consumers.map Consumer.identity = toggle.gateway.consumers.map Consumer.identity) :
    ToggleSound { toggle with gateway := { toggle.gateway with consumers } } where
  unmixed := sound.unmixed.consumers_eq same
  call call holding :=
    let held := sound.call call holding
    { held with untouched := { held.untouched with
        consumers := same.trans held.untouched.consumers } }

theorem Unmixed.applyHeld (unmixed : Unmixed gateway) {index : Nat} {consumer : Consumer}
    {frame : Frame} {next : Gateway} (found : gateway.consumers[index]? = some consumer)
    (stepped : Toggle.applyHeld gateway index consumer frame = some next) : Unmixed next := by
  rw [Toggle.applyHeld] at stepped
  split at stepped
  · rename_i current
    cases folded : hubApply gateway.hub frame with
    | error panic => simp [folded] at stepped
    | ok pair =>
        obtain ⟨hub, broadcast⟩ := pair
        simp only [folded, Option.some.injEq] at stepped
        have released := unmixed.consumers_eq
          (identities_set found { consumer with held := none } rfl)
        rcases hubApply_cases folded with ⟨rfl, _, stale⟩ | ⟨rfl, _, newer, _⟩
        · rw [if_pos stale] at stepped
          exact stepped ▸ { released with }
        · rw [if_neg newer] at stepped
          have own := (unmixed.consumers consumer (List.mem_of_getElem? found)).2 current.symm
          rw [Int64.le_iff_toInt_le, Int.not_le] at newer
          exact stepped ▸ { released with
            hub := unmixed.hub
            applied := fun entry member => by
              rcases List.mem_append.mp member with old | new
              · exact unmixed.applied entry old
              · cases List.mem_singleton.mp new
                exact own
            climbs := by
              rw [ascending_append, ← unmixed.last]
              exact ⟨unmixed.climbs, newer, trivial⟩
            last := by
              rw [lastKey_append_singleton]
              rfl }
  · cases stepped
    exact unmixed.consumers_eq
      (identities_set found { consumer with held := none, running := false } rfl)

theorem Unmixed.commit (unmixed : Unmixed gateway) {session : String} {queue : List Json}
    {snapshot : Snapshot} (keyed : snapshot.sessionKey = session) :
    Unmixed (Toggle.commit gateway session queue snapshot) where
  stored := unmixed.stored
  hub := keyed
  consumers consumer member := by
    rcases List.mem_append.mp member with old | new
    · obtain ⟨before, held, same⟩ : ∃ before ∈ gateway.consumers, consumer.gen = before.gen := by
        obtain ⟨index, at_⟩ := List.mem_iff_getElem?.mp old
        rw [List.getElem?_modify, Option.map_eq_map, Option.map_eq_some_iff] at at_
        obtain ⟨before, found, rfl⟩ := at_
        exact ⟨before, List.mem_of_getElem? found, by split <;> rfl⟩
      have earlier := (unmixed.consumers before held).1
      exact ⟨by rw [same]; exact Nat.le_succ_of_le earlier, fun now => by
        rw [same] at now
        exact absurd (now ▸ earlier) (Nat.not_succ_le_self _)⟩
    · cases List.mem_singleton.mp new
      exact ⟨le_rfl, fun _ => rfl⟩
  applied _ member := by cases member
  climbs := trivial
  last := rfl

theorem seedSnapshot_keyed {session : String} {stored : Option Json} {snapshot : Snapshot}
    (keyed : ∀ text, stored = some text → KeyedBy session text)
    (read : seedSnapshot session stored = .ok snapshot) : snapshot.sessionKey = session := by
  cases stored with
  | none =>
      rw [seedSnapshot_none] at read
      cases read
      rfl
  | some text =>
      cases decoded : Snapshot.unmarshal text with
      | none => simp [seedSnapshot, getSnapshot, decoded] at read
      | some held =>
          simp only [seedSnapshot, getSnapshot, decoded, ok_bind, pure_eq_ok, Option.getD_some,
            Except.ok.injEq] at read
          exact read ▸ keyed text rfl held decoded

theorem CallSound.deliver {call : Call} (sound : CallSound gateway call) (session : String)
    (payload : Json) : CallSound gateway (Toggle.Call.deliver session payload call) := by
  obtain ⟨target, stage, found⟩ := call
  cases stage with
  | subscribing => exact sound
  | subscribed queue =>
      simp only [Toggle.Call.deliver]
      split
      · exact ⟨sound.untouched, fun _ _ impossible => by cases impossible⟩
      · exact sound
  | seeded queue snapshot =>
      simp only [Toggle.Call.deliver]
      split
      · refine ⟨sound.untouched, ?_⟩
        intro _ _ now
        cases now
        exact sound.seeded queue snapshot rfl
      · exact sound

theorem ToggleSound.advance (sound : ToggleSound toggle) {call : Call}
    (untouched : Untouched call.found toggle.gateway)
    (seeded : ∀ queue snapshot, call.stage = .seeded queue snapshot →
      snapshot.sessionKey = call.session) :
    ToggleSound { toggle with call := some call } where
  unmixed := sound.unmixed
  call _ holding := by
    cases holding
    exact ⟨untouched, seeded⟩

theorem ToggleSound.release (sound : ToggleSound toggle) :
    ToggleSound { toggle with call := none } where
  unmixed := sound.unmixed
  call _ holding := by cases holding

theorem toggleSound_step {action : ToggleAction} (sound : ToggleSound toggle)
    (stepped : toggle.step action = some after) : ToggleSound after := by
  cases action with
  | publish session payload =>
      cases stepped
      have same : (toggle.gateway.consumers.map (Toggle.deliver session payload)).map
          Consumer.identity = toggle.gateway.consumers.map Consumer.identity := by
        rw [List.map_map]
        apply List.map_congr_left
        intro consumer _
        simp only [Function.comp_apply, Toggle.deliver]
        split <;> rfl
      have delivered := sound.consumers_eq same
      refine ⟨delivered.unmixed, fun call holding => ?_⟩
      obtain ⟨before, held, rfl⟩ := Option.map_eq_some_iff.mp holding
      exact (delivered.call before held).deliver session payload
  | store session text =>
      simp only [Toggle.step] at stepped
      split at stepped
      · rename_i keyed
        cases stepped
        refine ⟨{ sound.unmixed with stored := fun other held found => ?_ }, fun call holding =>
          let held := sound.call call holding
          { held with untouched := { held.untouched with } }⟩
        by_cases same : other = session
        · subst same
          simp only [Function.update_self, Option.some.injEq] at found
          exact found ▸ keyed
        · simp only [Function.update_of_ne same] at found
          exact sound.unmixed.stored other held found
      · cases stepped
  | switchTo session =>
      obtain ⟨_, rfl⟩ := Toggle.step_switchTo stepped
      split
      · exact sound
      · exact sound.advance (Untouched.refl _) fun _ _ impossible => by cases impossible
  | subscribe =>
      obtain ⟨session, found, holding, rfl⟩ := Toggle.step_subscribe stepped
      exact sound.advance (sound.call _ holding).untouched fun _ _ impossible => by cases impossible
  | subscribeFails =>
      obtain ⟨_, _, rfl⟩ := Toggle.step_fails (.inl rfl) stepped
      exact sound.release
  | getSnapshot =>
      obtain ⟨session, queue, found, snapshot, holding, read, rfl⟩ := Toggle.step_getSnapshot stepped
      refine sound.advance (sound.call _ holding).untouched ?_
      intro _ _ now
      cases now
      exact seedSnapshot_keyed (sound.unmixed.stored session) read
  | getSnapshotFails =>
      obtain ⟨_, _, rfl⟩ := Toggle.step_fails (.inr rfl) stepped
      exact sound.release
  | commit =>
      obtain ⟨session, queue, snapshot, found, holding, rfl⟩ := Toggle.step_commit stepped
      exact ⟨sound.unmixed.commit ((sound.call _ holding).seeded queue snapshot rfl),
        fun _ again => by cases again⟩
  | receive index =>
      obtain ⟨consumer, payload, rest, found, rfl⟩ := Toggle.step_receive stepped
      exact sound.consumers_eq (identities_set found _ rfl)
  | applyHeld index =>
      obtain ⟨consumer, frame, gateway, free, found, moved, rfl⟩ := Toggle.step_applyHeld stepped
      refine ⟨sound.unmixed.applyHeld found moved, fun call holding => ?_⟩
      cases free.symm.trans holding
  | stop index =>
      obtain ⟨consumer, found, rfl⟩ := Toggle.step_stop stepped
      exact sound.consumers_eq (identities_set found _ rfl)

theorem toggleSound_initial {stored : String → Option Json} {session : String} {snapshot : Snapshot}
    (keyed : ∀ key text, stored key = some text → KeyedBy key text)
    (own : snapshot.sessionKey = session) : ToggleSound (Toggle.initial stored session snapshot) where
  unmixed := {
    stored := keyed
    hub := own
    consumers := fun consumer member => by
      cases List.mem_singleton.mp member
      exact ⟨le_rfl, fun _ => rfl⟩
    applied := fun _ member => by cases member
    climbs := trivial
    last := rfl }
  call _ holding := by cases holding

/-- An old consumer holds a frame of "replay" while the gateway switches to "live". -/
def lateFrame : List ToggleAction :=
  [.publish "replay" (Frame.marshal ⟨"replay", 9, 0, 100, some [], [], [], none⟩), .receive 0,
    .switchTo "live", .subscribe, .getSnapshot, .commit, .applyHeld 0, .switchTo "replay"]

end RaceTracker.App
