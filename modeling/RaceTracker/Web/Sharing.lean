import Mathlib.Data.List.Induction
import RaceTracker.Web.Lanes

namespace RaceTracker.Web

open RaceTracker.Lib

/-! One connection per watched session, and every watcher up to date. -/

/-- The latest state and the latest status among what a source emitted. -/
def latest (emitted : List Emission) : LaneSnapshot where
  state := ((emitted.filterMap fun
    | .state state => some state
    | .status _ => none).getLast?).getD emptyState
  status := ((emitted.filterMap fun
    | .state _ => none
    | .status status => some status).getLast?).getD .connecting

theorem latest_append (emitted : List Emission) (emission : Emission) :
    latest (emitted ++ [emission]) = (latest emitted).take emission := by
  cases emission with
  | state state => simp [latest, LaneSnapshot.take]
  | status status => simp [latest, LaneSnapshot.take]

def lastDelivered (delivered : List (Nat × LaneSnapshot)) (listener : Nat) : Option LaneSnapshot :=
  (delivered.reverse.find? (·.1 = listener)).map Prod.snd

theorem lastDelivered_append (delivered : List (Nat × LaneSnapshot)) (listeners : List Nat)
    (snap : LaneSnapshot) (listener : Nat) :
    lastDelivered (delivered ++ listeners.map (·, snap)) listener =
      if listener ∈ listeners then some snap else lastDelivered delivered listener := by
  rw [lastDelivered, List.reverse_append, List.find?_append]
  cases called : (listeners.map (·, snap)).reverse.find? (·.1 = listener) with
  | none =>
      have absent : listener ∉ listeners := by
        intro member
        have refused := List.find?_eq_none.mp called (listener, snap)
          (List.mem_reverse.mpr (List.mem_map_of_mem member))
        exact refused (decide_eq_true rfl)
      rw [if_neg absent, Option.none_or, lastDelivered]
  | some call =>
      obtain ⟨heard, member, rfl⟩ := List.mem_map.mp
        (List.mem_reverse.mp (List.mem_of_find?_eq_some called))
      have same : heard = listener := by simpa using List.find?_some called
      rw [if_pos (same ▸ member)]
      rfl

theorem Entry.connect_cases (session : String) (emissions : List Emission) :
    (Entry.connect session emissions).listeners = [] ∧
      (Entry.connect session emissions).source = { session, closed := false, emitted := emissions } ∧
      (Entry.connect session emissions).snap = latest emissions := by
  induction emissions using List.reverseRecOn with
  | nil => exact ⟨rfl, rfl, rfl⟩
  | append_singleton emissions emission ih =>
      obtain ⟨silent, source, snap⟩ := ih
      have last : Entry.connect session (emissions ++ [emission]) =
          (Entry.connect session emissions).take emission := List.foldl_concat ..
      rw [last, latest_append]
      simp [Entry.take, silent, source, snap]

namespace Registry

/-- Every listener is new, and no unsubscribe function is called twice. -/
def orderly (registry : Registry) : RegistryAction → Bool
  | .subscribe _ listener _ =>
      registry.subscriptions.all fun subscription => subscription.listener ≠ listener
  | .unsubscribe index =>
      registry.subscriptions[index]?.any fun subscription => !subscription.released
  | .emit _ _ => true

def subscribers (registry : Registry) (session : String) : List Subscription :=
  registry.subscriptions.filter fun subscription =>
    subscription.session = session && !subscription.released

/-- The connections of `session` that were opened and not closed. -/
def openConnections (registry : Registry) (session : String) : List Source :=
  (registry.entries.filter fun entry =>
    entry.source.session = session && !entry.source.closed).map Entry.source

end Registry

def Subscription.on (index : Nat) (subscription : Subscription) : Bool :=
  subscription.entry = index && !subscription.released

namespace Registry

/-- Map, entries, subscriptions and deliveries agree. -/
structure Linked (registry : Registry) : Prop where
  mapped : ∀ session index, registry.lanes session = some index →
    ∃ entry, registry.entries[index]? = some entry ∧ entry.source.session = session ∧
      entry.source.closed = false
  unique : ∀ index entry, registry.entries[index]? = some entry → entry.source.closed = false →
    registry.lanes entry.source.session = some index
  held : ∀ index entry, registry.entries[index]? = some entry →
    entry.listeners = (registry.subscriptions.filter (·.on index)).map Subscription.listener
  placed : ∀ subscription ∈ registry.subscriptions, ∃ entry,
    registry.entries[subscription.entry]? = some entry ∧
      entry.source.session = subscription.session
  distinct : (registry.subscriptions.map Subscription.listener).Nodup
  current : ∀ (index : Nat) (entry : Entry), registry.entries[index]? = some entry →
    entry.snap = latest entry.source.emitted ∧
      ∀ listener ∈ entry.listeners, lastDelivered registry.delivered listener = some entry.snap

/-- A connection is closed exactly when nobody listens to it. -/
def Counted (entry : Entry) : Prop := entry.source.closed = true ↔ entry.listeners = []

variable {registry after : Registry} {index listener : Nat} {entry : Entry} {session : String}

theorem Linked.subscription_of_listener (linked : registry.Linked)
    (found : registry.entries[index]? = some entry) (listens : listener ∈ entry.listeners) :
    ∃ subscription ∈ registry.subscriptions, subscription.on index = true ∧
      subscription.listener = listener := by
  rw [linked.held index entry found] at listens
  obtain ⟨subscription, member, same⟩ := List.mem_map.mp listens
  obtain ⟨listed, on⟩ := List.mem_filter.mp member
  exact ⟨subscription, listed, on, same⟩

theorem Linked.apart {other : Nat} {another : Entry} (linked : registry.Linked)
    (found : registry.entries[index]? = some entry)
    (foundOther : registry.entries[other]? = some another)
    (listens : listener ∈ entry.listeners) (listensOther : listener ∈ another.listeners) :
    other = index := by
  obtain ⟨first, listed, on, named⟩ := linked.subscription_of_listener found listens
  obtain ⟨second, listedOther, onOther, namedOther⟩ :=
    linked.subscription_of_listener foundOther listensOther
  have same : first = second :=
    List.inj_on_of_nodup_map linked.distinct listed listedOther (named.trans namedOther.symm)
  subst same
  simp only [Subscription.on, Bool.and_eq_true, decide_eq_true_eq] at on onOther
  exact onOther.1.symm.trans on.1

/-- A subscription that is not released is among the listeners of its entry, which is open. -/
theorem Linked.watched {subscription : Subscription} (linked : registry.Linked)
    (counted : ∀ entry ∈ registry.entries, Counted entry)
    (member : subscription ∈ registry.subscriptions) (current : subscription.released = false) :
    ∃ entry, registry.entries[subscription.entry]? = some entry ∧
      entry.source.session = subscription.session ∧
      subscription.listener ∈ entry.listeners ∧ entry.source.closed = false ∧
      registry.lanes subscription.session = some subscription.entry := by
  obtain ⟨entry, found, named⟩ := linked.placed subscription member
  have listens : subscription.listener ∈ entry.listeners := by
    rw [linked.held _ _ found]
    exact List.mem_map_of_mem (List.mem_filter.mpr ⟨member, by simp [Subscription.on, current]⟩)
  have running : entry.source.closed = false := by
    rw [Bool.eq_false_iff]
    intro closed
    rw [(counted entry (List.mem_of_getElem? found)).mp closed] at listens
    cases listens
  exact ⟨entry, found, named, listens, running, named ▸ linked.unique _ _ found running⟩

/-- A session that leaves the map takes its own entry with it and no other. -/
theorem Linked.mapped_without (linked : registry.Linked)
    (found : registry.entries[index]? = some entry) (changed : Entry) {key : String} {other : Nat}
    (mapped : Function.update registry.lanes entry.source.session none key = some other) :
    ∃ one, (registry.entries.set index changed)[other]? = some one ∧ one.source.session = key ∧
      one.source.closed = false := by
  have different : key ≠ entry.source.session := by
    rintro rfl
    rw [Function.update_self] at mapped
    cases mapped
  rw [Function.update_of_ne different] at mapped
  obtain ⟨one, listed, named, running⟩ := linked.mapped key other mapped
  have apart : other ≠ index := by
    rintro rfl
    cases found.symm.trans listed
    exact different named.symm
  exact ⟨one, (getElem?_set_iff found).mpr (Or.inr ⟨apart, listed⟩), named, running⟩

/-- Replacing an entry by one of the same source keeps the map right. -/
theorem Linked.set_mapped (linked : registry.Linked)
    (found : registry.entries[index]? = some entry) (changed : Entry)
    (same : changed.source.session = entry.source.session)
    (stays : changed.source.closed = entry.source.closed) {session : String} {other : Nat}
    (mapped : registry.lanes session = some other) :
    ∃ one, (registry.entries.set index changed)[other]? = some one ∧
      one.source.session = session ∧ one.source.closed = false := by
  obtain ⟨one, listed, named, running⟩ := linked.mapped session other mapped
  by_cases equal : other = index
  · subst equal
    cases found.symm.trans listed
    exact ⟨changed, (getElem?_set_iff found).mpr (Or.inl ⟨rfl, rfl⟩), same.trans named,
      stays.trans running⟩
  · exact ⟨one, (getElem?_set_iff found).mpr (Or.inr ⟨equal, listed⟩), named, running⟩

theorem Linked.set_placed {subscription : Subscription} (linked : registry.Linked)
    (found : registry.entries[index]? = some entry) (changed : Entry)
    (same : changed.source.session = entry.source.session)
    (member : subscription ∈ registry.subscriptions) :
    ∃ one, (registry.entries.set index changed)[subscription.entry]? = some one ∧
      one.source.session = subscription.session := by
  obtain ⟨one, listed, named⟩ := linked.placed subscription member
  by_cases equal : subscription.entry = index
  · rw [equal] at listed
    cases found.symm.trans listed
    exact ⟨changed, (getElem?_set_iff found).mpr (Or.inl ⟨equal, rfl⟩), same.trans named⟩
  · exact ⟨one, (getElem?_set_iff found).mpr (Or.inr ⟨equal, listed⟩), named⟩

theorem Linked.emit {emission : Emission} (linked : registry.Linked)
    (counted : ∀ entry ∈ registry.entries, Counted entry)
    (emitted : registry.emit index emission = some after) :
    after.Linked ∧ ∀ entry ∈ after.entries, Counted entry := by
  obtain ⟨entry, found, rfl⟩ := Option.map_eq_some_iff.mp emitted
  have lookup {other : Nat} {one : Entry} :
      (registry.entries.set index (entry.take emission))[other]? = some one ↔
        (other = index ∧ one = entry.take emission) ∨
          (other ≠ index ∧ registry.entries[other]? = some one) := getElem?_set_iff found
  refine ⟨{ mapped := ?_, unique := ?_, held := ?_, placed := ?_, distinct := linked.distinct,
            current := ?_ }, ?_⟩
  · intro session other mapped
    exact linked.set_mapped found (entry.take emission) rfl rfl mapped
  · intro other one listed running
    rcases lookup.mp listed with ⟨rfl, rfl⟩ | ⟨_, listed⟩
    · exact linked.unique other entry found running
    · exact linked.unique other one listed running
  · intro other one listed
    rcases lookup.mp listed with ⟨rfl, rfl⟩ | ⟨_, listed⟩
    · exact linked.held other entry found
    · exact linked.held other one listed
  · intro subscription member
    exact linked.set_placed found (entry.take emission) rfl member
  · intro other one listed
    rcases lookup.mp listed with ⟨rfl, rfl⟩ | ⟨apart, listed⟩
    · refine ⟨?_, ?_⟩
      · change entry.snap.take emission = latest (entry.source.emitted ++ [emission])
        rw [latest_append, (linked.current other entry found).1]
      · intro listener listens
        rw [lastDelivered_append, if_pos listens]
    · obtain ⟨snap, told⟩ := linked.current other one listed
      refine ⟨snap, ?_⟩
      intro listener listens
      have elsewhere : listener ∉ (entry.take emission).listeners := fun also =>
        apart (linked.apart found listed also listens)
      rw [lastDelivered_append, if_neg elsewhere]
      exact told listener listens
  · intro one member
    rcases List.mem_or_eq_of_mem_set member with old | rfl
    · exact counted one old
    · exact counted entry (List.mem_of_getElem? found)

/-- A new listener stands behind the others of its entry and has been told what it has. -/
theorem Linked.attach (linked : registry.Linked) (found : registry.entries[index]? = some entry)
    (running : entry.source.closed = false) (named : entry.source.session = session)
    (fresh : ∀ subscription ∈ registry.subscriptions, subscription.listener ≠ listener)
    (counted : ∀ other one, other ≠ index → registry.entries[other]? = some one → Counted one)
    (attached : registry.attach session index listener = some after) :
    after.Linked ∧ ∀ entry ∈ after.entries, Counted entry := by
  obtain ⟨_, again, rfl⟩ := Option.map_eq_some_iff.mp attached
  cases found.symm.trans again
  have unheard {other : Nat} {one : Entry} (listed : registry.entries[other]? = some one) :
      listener ∉ one.listeners := by
    intro listens
    obtain ⟨subscription, member, _, same⟩ := linked.subscription_of_listener listed listens
    exact fresh subscription member same
  have added : entry.add listener = { entry with listeners := entry.listeners ++ [listener] } :=
    if_neg (unheard found)
  have lookup {other : Nat} {one : Entry} :
      (registry.entries.set index (entry.add listener))[other]? = some one ↔
        (other = index ∧ one = entry.add listener) ∨
          (other ≠ index ∧ registry.entries[other]? = some one) := getElem?_set_iff found
  have deliveries (other : Nat) : lastDelivered (registry.delivered ++ [(listener, entry.snap)]) other =
      if other ∈ [listener] then some entry.snap else lastDelivered registry.delivered other :=
    lastDelivered_append registry.delivered [listener] entry.snap other
  have source : (entry.add listener).source = entry.source := by rw [added]
  refine ⟨{ mapped := ?_, unique := ?_, held := ?_, placed := ?_, distinct := ?_, current := ?_ }, ?_⟩
  · intro session other mapped
    exact linked.set_mapped found (entry.add listener) (by rw [source]) (by rw [source]) mapped
  · intro other one listed running
    rcases lookup.mp listed with ⟨rfl, rfl⟩ | ⟨_, listed⟩
    · rw [source] at running ⊢
      exact linked.unique other entry found running
    · exact linked.unique other one listed running
  · intro other one listed
    rw [List.filter_append, List.map_append]
    rcases lookup.mp listed with ⟨rfl, rfl⟩ | ⟨apart, listed⟩
    · rw [added, ← linked.held other entry found]
      simp [Subscription.on]
    · rw [← linked.held other one listed]
      simp [Subscription.on, Ne.symm apart]
  · intro subscription member
    rcases List.mem_append.mp member with old | new
    · exact linked.set_placed found (entry.add listener) (by rw [source]) old
    · cases List.mem_singleton.mp new
      exact ⟨entry.add listener, lookup.mpr (Or.inl ⟨rfl, rfl⟩), by rw [source, named]⟩
  · rw [List.map_append, List.nodup_append]
    refine ⟨linked.distinct, List.nodup_singleton _, ?_⟩
    intro old member new single same
    obtain ⟨subscription, listed, rfl⟩ := List.mem_map.mp member
    exact fresh subscription listed (same.trans (List.mem_singleton.mp single))
  · intro other one listed
    rcases lookup.mp listed with ⟨rfl, rfl⟩ | ⟨apart, listed⟩
    · obtain ⟨snap, told⟩ := linked.current other entry found
      rw [added]
      refine ⟨snap, ?_⟩
      intro heard listens
      rw [deliveries]
      by_cases new : heard = listener
      · rw [if_pos (List.mem_singleton.mpr new)]
      · rw [if_neg fun member => new (List.mem_singleton.mp member)]
        exact told heard ((List.mem_append.mp listens).resolve_right
          fun member => new (List.mem_singleton.mp member))
    · obtain ⟨snap, told⟩ := linked.current other one listed
      refine ⟨snap, ?_⟩
      intro heard listens
      have other : heard ∉ [listener] := fun member =>
        unheard listed (List.mem_singleton.mp member ▸ listens)
      rw [deliveries, if_neg other]
      exact told heard listens
  · intro one member
    obtain ⟨other, listed⟩ := List.mem_iff_getElem?.mp member
    rcases lookup.mp listed with ⟨_, rfl⟩ | ⟨apart, listed⟩
    · simp [Counted, added, running]
    · exact counted other one apart listed

/-- A session without an entry gets one that nobody listens to yet. -/
theorem Linked.created {emissions : List Emission} (linked : registry.Linked)
    (missing : registry.lanes session = none) :
    Linked { registry with
      lanes := Function.update registry.lanes session (some registry.entries.length)
      entries := registry.entries ++ [Entry.connect session emissions] } := by
  obtain ⟨silent, source, snap⟩ := Entry.connect_cases session emissions
  have within {other : Nat} {one : Entry} (listed : registry.entries[other]? = some one) :
      (registry.entries ++ [Entry.connect session emissions])[other]? = some one := by
    rw [List.getElem?_append_left (List.getElem?_eq_some_iff.mp listed).1, listed]
  have lookup {other : Nat} {one : Entry}
      (listed : (registry.entries ++ [Entry.connect session emissions])[other]? = some one) :
      registry.entries[other]? = some one ∨
        (other = registry.entries.length ∧ one = Entry.connect session emissions) := by
    by_cases old : other < registry.entries.length
    · exact Or.inl (List.getElem?_append_left old ▸ listed)
    · rw [List.getElem?_append_right (by omega), List.getElem?_singleton] at listed
      obtain ⟨first, same⟩ := Option.ite_none_right_eq_some.mp listed
      exact Or.inr ⟨by omega, (Option.some.inj same).symm⟩
  refine { linked with mapped := ?_, unique := ?_, held := ?_, placed := ?_, current := ?_ }
  · intro key other mapped
    dsimp only at mapped
    by_cases same : key = session
    · subst same
      rw [Function.update_self] at mapped
      cases mapped
      exact ⟨_, List.getElem?_concat_length, by rw [source], by rw [source]⟩
    · rw [Function.update_of_ne same] at mapped
      obtain ⟨one, listed, named, running⟩ := linked.mapped key other mapped
      exact ⟨one, within listed, named, running⟩
  · intro other one listed running
    dsimp only
    rcases lookup listed with old | ⟨rfl, rfl⟩
    · have mapped := linked.unique other one old running
      have different : one.source.session ≠ session := by
        intro same
        rw [same, missing] at mapped
        cases mapped
      rw [Function.update_of_ne different, mapped]
    · rw [source, Function.update_self]
  · intro other one listed
    rcases lookup listed with old | ⟨rfl, rfl⟩
    · exact linked.held other one old
    · have nobody : registry.subscriptions.filter (·.on registry.entries.length) = [] := by
        rw [List.filter_eq_nil_iff]
        intro subscription member on
        obtain ⟨_, placed, _⟩ := linked.placed subscription member
        have old := (List.getElem?_eq_some_iff.mp placed).1
        simp only [Subscription.on, Bool.and_eq_true, decide_eq_true_eq] at on
        omega
      rw [silent, nobody, List.map_nil]
  · intro subscription member
    obtain ⟨one, listed, named⟩ := linked.placed subscription member
    exact ⟨one, within listed, named⟩
  · intro other one listed
    rcases lookup listed with old | ⟨rfl, rfl⟩
    · exact linked.current other one old
    · refine ⟨by rw [snap, source], ?_⟩
      intro listener listens
      rw [silent] at listens
      cases listens

theorem Linked.subscribe {emissions : List Emission} (linked : registry.Linked)
    (counted : ∀ entry ∈ registry.entries, Counted entry)
    (fresh : ∀ subscription ∈ registry.subscriptions, subscription.listener ≠ listener)
    (subscribed : registry.subscribeLane session listener emissions = some after) :
    after.Linked ∧ ∀ entry ∈ after.entries, Counted entry := by
  cases present : registry.lanes session with
  | some index =>
      obtain ⟨entry, found, named, running⟩ := linked.mapped session index present
      have attached : registry.attach session index listener = some after := by
        simpa [subscribeLane, ensure, present] using subscribed
      exact linked.attach found running named fresh
        (fun _ one _ listed => counted one (List.mem_of_getElem? listed)) attached
  | none =>
      obtain ⟨_, source, _⟩ := Entry.connect_cases session emissions
      have attached : Registry.attach { registry with
          lanes := Function.update registry.lanes session (some registry.entries.length)
          entries := registry.entries ++ [Entry.connect session emissions] }
            session registry.entries.length listener = some after := by
        simpa [subscribeLane, ensure, present] using subscribed
      refine (linked.created present).attach List.getElem?_concat_length (by rw [source])
        (by rw [source]) fresh ?_ attached
      intro other one apart listed
      rcases List.mem_append.mp (List.mem_of_getElem? listed) with old | new
      · exact counted one old
      · have old : other < registry.entries.length := by
          have within := (List.getElem?_eq_some_iff.mp listed).1
          simp only [List.length_append, List.length_singleton] at within
          omega
        rw [List.getElem?_append_left old] at listed
        exact counted one (List.mem_of_getElem? listed)

/-- The entry loses one listener, and with the last one its connection and its place in the map. -/
theorem unsubscribe_cases (released : registry.unsubscribe index = some after) :
    ∃ subscription entry changed, registry.subscriptions[index]? = some subscription ∧
      registry.entries[subscription.entry]? = some entry ∧
      after.subscriptions =
        registry.subscriptions.modify index ({ · with released := true }) ∧
      after.delivered = registry.delivered ∧
      after.entries = registry.entries.set subscription.entry changed ∧
      changed.listeners = entry.listeners.filter (· ≠ subscription.listener) ∧
      changed.snap = entry.snap ∧ changed.source.session = entry.source.session ∧
      changed.source.emitted = entry.source.emitted ∧
      ((changed.source.closed = true ∧ changed.listeners = [] ∧
          after.lanes = Function.update registry.lanes subscription.session none) ∨
        (changed.source.closed = entry.source.closed ∧ changed.listeners ≠ [] ∧
          after.lanes = registry.lanes)) := by
  simp only [unsubscribe, Option.bind_eq_bind, Option.bind_eq_some_iff] at released
  obtain ⟨subscription, called, entry, found, released⟩ := released
  refine ⟨subscription, entry, ?_⟩
  split at released
  · rename_i last
    cases released
    exact ⟨_, called, found, rfl, rfl, rfl, rfl, rfl, rfl, rfl, Or.inl ⟨rfl, last, rfl⟩⟩
  · rename_i others
    cases released
    exact ⟨_, called, found, rfl, rfl, rfl, rfl, rfl, rfl, rfl, Or.inr ⟨rfl, others, rfl⟩⟩

theorem Linked.unsubscribe (linked : registry.Linked)
    (counted : ∀ entry ∈ registry.entries, Counted entry)
    (orderly : registry.orderly (.unsubscribe index) = true)
    (released : registry.unsubscribe index = some after) :
    after.Linked ∧ ∀ entry ∈ after.entries, Counted entry := by
  obtain ⟨subscription, entry, changed, called, found, subscriptions, delivered, entries, listeners,
    snap, source, emitted, state⟩ := unsubscribe_cases released
  have member := List.mem_of_getElem? called
  have current : subscription.released = false := by simpa [Registry.orderly, called] using orderly
  obtain ⟨_, again, named, listens, running, mapped⟩ := linked.watched counted member current
  cases found.symm.trans again
  have lookup {other : Nat} {one : Entry} : after.entries[other]? = some one ↔
      (other = subscription.entry ∧ one = changed) ∨
        (other ≠ subscription.entry ∧ registry.entries[other]? = some one) := by
    rw [entries]
    exact getElem?_set_iff found
  refine ⟨{ mapped := ?_, unique := ?_, held := ?_, placed := ?_, distinct := ?_, current := ?_ }, ?_⟩
  · intro key other inMap
    rw [entries]
    rcases state with ⟨_, _, lanes⟩ | ⟨stays, _, lanes⟩
    · rw [lanes, ← named] at inMap
      exact linked.mapped_without found changed inMap
    · rw [lanes] at inMap
      exact linked.set_mapped found changed source stays inMap
  · intro other one listed opened
    rcases lookup.mp listed with ⟨rfl, rfl⟩ | ⟨apart, listed⟩
    · rcases state with ⟨closed, _⟩ | ⟨_, _, lanes⟩
      · exact absurd (closed.symm.trans opened) (by decide)
      · rw [lanes, source, named, mapped]
    · have own := linked.unique other one listed opened
      rcases state with ⟨_, _, lanes⟩ | ⟨_, _, lanes⟩
      · have different : one.source.session ≠ subscription.session := by
          intro same
          rw [same, mapped] at own
          exact apart (Option.some.inj own).symm
        rw [lanes, Function.update_of_ne different, own]
      · rw [lanes, own]
  · intro other one listed
    rw [subscriptions]
    rcases lookup.mp listed with ⟨rfl, rfl⟩ | ⟨apart, listed⟩
    · rw [filter_modify_lost linked.distinct called (by simp [Subscription.on]), listeners,
        linked.held _ _ found, List.filter_map]
      rfl
    · have elsewhere : subscription.on other = false := by
        simp [Subscription.on, Ne.symm apart]
      rw [filter_modify_same called elsewhere (by simp [Subscription.on]), linked.held _ _ listed]
  · intro one held
    rw [subscriptions] at held
    obtain ⟨old, listed, sameEntry, sameSession⟩ : ∃ old ∈ registry.subscriptions,
        one.entry = old.entry ∧ one.session = old.session := by
      rcases mem_modify held with old | ⟨old, listed, rfl⟩
      · exact ⟨one, old, rfl, rfl⟩
      · exact ⟨old, List.mem_of_getElem? listed, rfl, rfl⟩
    rw [entries, sameEntry, sameSession]
    exact linked.set_placed found changed source listed
  · have same : after.subscriptions.map Subscription.listener =
        registry.subscriptions.map Subscription.listener := by
      rw [subscriptions]
      exact map_modify_of_same fun _ => rfl
    rw [same]
    exact linked.distinct
  · intro other one listed
    rw [delivered]
    rcases lookup.mp listed with ⟨rfl, rfl⟩ | ⟨_, listed⟩
    · obtain ⟨same, told⟩ := linked.current _ _ found
      rw [snap, emitted]
      refine ⟨same, ?_⟩
      intro listener remains
      rw [listeners] at remains
      exact told listener (List.mem_filter.mp remains).1
    · exact linked.current other one listed
  · intro one held
    obtain ⟨other, listed⟩ := List.mem_iff_getElem?.mp held
    rcases lookup.mp listed with ⟨_, rfl⟩ | ⟨_, listed⟩
    · rcases state with ⟨closed, nobody, _⟩ | ⟨stays, somebody, _⟩
      · simp [Counted, closed, nobody]
      · simp [Counted, stays, running, somebody]
    · exact counted one (List.mem_of_getElem? listed)

theorem Linked.step {action : RegistryAction} (linked : registry.Linked)
    (counted : ∀ entry ∈ registry.entries, Counted entry)
    (stepped : restrict orderly Registry.step registry action = some after) :
    after.Linked ∧ ∀ entry ∈ after.entries, Counted entry := by
  obtain ⟨allowed, stepped⟩ := restrict_eq_some_iff.mp stepped
  cases action with
  | subscribe session listener emissions =>
      have fresh : ∀ subscription ∈ registry.subscriptions, subscription.listener ≠ listener := by
        simpa [orderly] using allowed
      exact linked.subscribe counted fresh stepped
  | unsubscribe index => exact linked.unsubscribe counted allowed stepped
  | emit index emission => exact linked.emit counted stepped

theorem Linked.initial : initial.Linked where
  mapped := fun _ _ mapped => by cases mapped
  unique := fun _ _ listed => by cases listed
  held := fun _ _ listed => by cases listed
  placed := fun _ member => by cases member
  distinct := List.nodup_nil
  current := fun _ _ listed => by cases listed

theorem Linked.subscribers_of_unmapped (linked : registry.Linked)
    (counted : ∀ entry ∈ registry.entries, Counted entry)
    (missing : registry.lanes session = none) : registry.subscribers session = [] := by
  rw [subscribers, List.filter_eq_nil_iff]
  intro subscription member current
  simp only [Bool.and_eq_true, decide_eq_true_eq, Bool.not_eq_true'] at current
  obtain ⟨_, _, _, _, _, mapped⟩ := linked.watched counted member current.2
  rw [current.1, missing] at mapped
  cases mapped

theorem Linked.openConnections_of_unmapped (linked : registry.Linked)
    (missing : registry.lanes session = none) : registry.openConnections session = [] := by
  have none : registry.entries.filter (fun entry =>
      entry.source.session = session && !entry.source.closed) = [] := by
    rw [List.filter_eq_nil_iff]
    intro entry member opened
    simp only [Bool.and_eq_true, decide_eq_true_eq, Bool.not_eq_true'] at opened
    obtain ⟨index, found⟩ := List.mem_iff_getElem?.mp member
    have mapped := linked.unique index entry found opened.2
    rw [opened.1, missing] at mapped
    cases mapped
  rw [openConnections, none, List.map_nil]

theorem Linked.openConnections_of_mapped (linked : registry.Linked)
    (mapped : registry.lanes session = some index) :
    ∃ entry, registry.entries[index]? = some entry ∧
      registry.openConnections session = [entry.source] := by
  obtain ⟨entry, found, named, running⟩ := linked.mapped session index mapped
  refine ⟨entry, found, ?_⟩
  rw [openConnections, filter_eq_singleton found (by simp [named, running]), List.map_singleton]
  intro other one listed satisfied
  simp only [Bool.and_eq_true, decide_eq_true_eq, Bool.not_eq_true'] at satisfied
  have own := linked.unique other one listed satisfied.2
  rw [satisfied.1, mapped] at own
  exact (Option.some.inj own).symm

/-- A watched session has one open connection and every watcher its latest snapshot; an
unwatched session has none. -/
theorem lanes_shared (reachable : Reachable (restrict orderly Registry.step) initial registry)
    (session : String) :
    (registry.subscribers session = [] ∧ registry.openConnections session = []) ∨
      ∃ source, registry.subscribers session ≠ [] ∧
        registry.openConnections session = [source] ∧
        ∀ subscription ∈ registry.subscribers session,
          lastDelivered registry.delivered subscription.listener = some (latest source.emitted) := by
  obtain ⟨linked, counted⟩ := reachable.invariant
    (fun registry => registry.Linked ∧ ∀ entry ∈ registry.entries, Counted entry)
    ⟨Linked.initial, fun _ member => by cases member⟩
    fun _ _ _ sound stepped => sound.1.step sound.2 stepped
  cases mapped : registry.lanes session with
  | none =>
      exact Or.inl ⟨linked.subscribers_of_unmapped counted mapped,
        linked.openConnections_of_unmapped mapped⟩
  | some index =>
      obtain ⟨entry, found, connections⟩ := linked.openConnections_of_mapped mapped
      obtain ⟨_, again, named, running⟩ := linked.mapped session index mapped
      cases found.symm.trans again
      refine Or.inr ⟨entry.source, ?_, connections, ?_⟩
      · intro nobody
        have listening : entry.listeners ≠ [] := fun none => by
          have closed := (counted entry (List.mem_of_getElem? found)).mpr none
          exact absurd (closed.symm.trans running) (by decide)
        obtain ⟨listener, listens⟩ := List.exists_mem_of_ne_nil _ listening
        obtain ⟨subscription, member, on, _⟩ := linked.subscription_of_listener found listens
        simp only [Subscription.on, Bool.and_eq_true, decide_eq_true_eq, Bool.not_eq_true'] at on
        obtain ⟨_, placed, same⟩ := linked.placed subscription member
        rw [on.1] at placed
        cases found.symm.trans placed
        have watching : subscription ∈ registry.subscribers session :=
          List.mem_filter.mpr ⟨member, by simp [← same, named, on.2]⟩
        rw [nobody] at watching
        cases watching
      · intro subscription watching
        obtain ⟨member, current⟩ := List.mem_filter.mp watching
        simp only [Bool.and_eq_true, decide_eq_true_eq, Bool.not_eq_true'] at current
        obtain ⟨one, standing, _, listens, _, own⟩ := linked.watched counted member current.2
        rw [current.1, mapped] at own
        rw [← Option.some.inj own] at standing
        cases found.symm.trans standing
        obtain ⟨snap, told⟩ := linked.current index entry found
        rw [told _ listens, snap]

theorem lanes_shared_demo : ∃ registry,
    Reachable (restrict orderly Registry.step) initial registry ∧
      ((registry.subscribers "demo" = [] ∧ registry.openConnections "demo" = []) ∨
        ∃ source, registry.subscribers "demo" ≠ [] ∧
          registry.openConnections "demo" = [source] ∧
          ∀ subscription ∈ registry.subscribers "demo",
            lastDelivered registry.delivered subscription.listener = some (latest source.emitted)) :=
  have reached : Reachable (restrict orderly Registry.step) initial _ :=
    ⟨[.subscribe "demo" 0 [.status .live], .subscribe "demo" 1 [], .unsubscribe 0,
      .emit 0 (.state emptyState)], rfl⟩
  ⟨_, reached, lanes_shared reached "demo"⟩

end Registry

end RaceTracker.Web
