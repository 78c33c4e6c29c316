import RaceTracker.Web.CommsQueue
import RaceTracker.Web.Firing

namespace RaceTracker.Web

open RaceTracker.Lib

/-! What the comms layer keeps of the old source when a new snapshot takes over. -/

/-- The player after the effect has run on each of the states. -/
def observe (browser : Browser) (player : Player) (states : List View) : Player :=
  states.foldl (Player.onState browser) player

/-- A page that has seen nothing yet. -/
def fresh (enabled : Bool) : Player := { Player.mount with enabled }

/-- The messages know the snapshot that began their timeline, and their place in it. -/
def Timeline (state : View) : Prop :=
  ∀ i (ref : TimelineRef), state.radio[i]? = some ref → ref.seq = state.snapshotSeq ∧ ref.index = i

/-- A snapshot and any further frames. -/
structure Frames (snapshot : View) (frames : List View) : Prop where
  follows : (snapshot :: frames).IsChain Follows
  timeline : ∀ state ∈ frames, Timeline state

/-- Whatever happened before, nothing that the effect did not skip was of this snapshot. -/
structure Takeover (events : List CommsEvent) (snapshot : View) : Prop where
  own : Timeline snapshot
  timeline : ∀ state, .state state ∈ events → Timeline state
  earlier : ∀ state, .state state ∈ events → state.rev = 0 ∨ state.snapshotSeq < snapshot.snapshotSeq

/-- Nothing of the old source is left: neither in the history nor in the queue, and both are those of
a page that has seen nothing else. -/
structure Clean (browser : Browser) (player : Player) (snapshot : View) (frames : List View) : Prop where
  history : ∀ ref ∈ (observe browser player (snapshot :: frames)).history,
    ∃ state ∈ snapshot :: frames, ref ∈ state.radio
  queue : ∀ ref ∈ (observe browser player (snapshot :: frames)).queue, ref ∉ player.firings
  sameHistory : (observe browser player (snapshot :: frames)).history =
    (observe browser (fresh player.enabled) (snapshot :: frames)).history
  sameQueue : (observe browser player (snapshot :: frames)).queue =
    (observe browser (fresh player.enabled) (snapshot :: frames)).queue

/-- The snapshot has a clip for the history, nothing waits, and nothing plays that would make new
clips wait.  A snapshot with revision 0 is skipped, and resets nothing whatever its clips are. -/
structure LeavesNothing (player : Player) (snapshot : View) : Prop where
  history : player.history = [] ∨
    snapshot.rev ≠ 0 ∧ ∃ ref ∈ snapshot.radio, ref.timeMs ≤ snapshot.timeMs
  queue : player.queue = []
  idle : player.enabled = false ∨ player.nowPlaying = none

/-- Nothing of the snapshot to come has been seen. -/
structure Past (browser : Browser) (snapshotSeq : Nat) (player : Player) : Prop where
  seq : player.watcher.lastSnapshotSeq < snapshotSeq
  deps : ∀ deps ∈ player.watcher.deps, deps.1 = 0 ∨ deps.2 < snapshotSeq
  live : ∀ ref ∈ player.live, ref.seq < snapshotSeq
  firings : ∀ ref ∈ player.firings, ref.seq < snapshotSeq
  silent : browser.audio = false → player.nowPlaying = none

variable {browser : Browser} {player after one two : Player} {event : CommsEvent}
  {events : List CommsEvent} {state snapshot : View} {frames : List View} {watcher : Watcher}
  {snapshotSeq : Nat} {ref : TimelineRef}

theorem Timeline.seq (timeline : Timeline state) (member : ref ∈ state.radio) :
    ref.seq = state.snapshotSeq := by
  obtain ⟨i, found⟩ := List.mem_iff_getElem?.mp member
  exact (timeline i ref found).1

/-- What the effect makes of a state is of the state's own timeline. -/
structure Sighting.Of (seen : Sighting) (state : View) : Prop where
  warm : state.rev ≠ 0
  history : seen.history ⊆ state.radio
  arrived : seen.arrived ⊆ state.radio
  fired : seen.fired ⊆ state.radio

theorem stepComms_history_subset (cursor : CommsCursor) (clock : Rat) (timeline : List TimelineRef)
    (isSnapshot : Bool) : (stepComms cursor clock timeline isSnapshot).history ⊆ timeline := by
  intro ref member
  rw [stepComms] at member
  split_ifs at member
  · exact List.mem_of_mem_filter (mem_byTime.mp member)
  · cases member
  · cases member

theorem stepComms_fired_subset (cursor : CommsCursor) (clock : Rat) (timeline : List TimelineRef)
    (isSnapshot : Bool) : (stepComms cursor clock timeline isSnapshot).fired ⊆ timeline := by
  intro ref member
  rw [stepComms] at member
  split_ifs at member
  · cases member
  · cases member
  · exact List.mem_of_mem_filter (mem_byTime.mp member)

theorem liveArrivals_subset (timeline : List TimelineRef) (prevLen : Nat) (isSnapshot : Bool) :
    liveArrivals timeline prevLen isSnapshot ⊆ timeline := by
  rw [liveArrivals]
  split_ifs
  · exact List.nil_subset _
  · exact List.drop_subset ..

/-- The effect ran on this state before, or it skips it, or it takes note of it. -/
theorem watch_cases (watcher : Watcher) (state : View) :
    watcher.watch state = (watcher, none) ∨
    (state.rev = 0 ∧
      watcher.watch state = ({ watcher with deps := some (0, state.snapshotSeq) }, none)) ∨
    ∃ cursor seen, seen.Of state ∧ watcher.watch state =
      (⟨cursor, state.snapshotSeq, state.radio.length, some (state.rev, state.snapshotSeq)⟩, some seen) := by
  by_cases same : watcher.deps = some (state.rev, state.snapshotSeq)
  · exact .inl (if_pos same)
  · by_cases cold : state.rev = 0
    · exact .inr (.inl ⟨cold, watch_warmingUp same cold⟩)
    · refine .inr (.inr ⟨_, _, ?_, (if_neg same).trans (if_neg cold)⟩)
      refine ⟨cold, stepComms_history_subset .., liveArrivals_subset .., ?_⟩
      rw [fired_eq]
      intro ref member
      rcases List.mem_append.mp member with clockFired | arrived
      · exact stepComms_fired_subset _ _ _ _ (List.mem_of_mem_filter clockFired)
      · exact liveArrivals_subset _ _ _ arrived

theorem watch_of {seen : Sighting} (watched : (watcher.watch state).2 = some seen) : seen.Of state := by
  rcases watch_cases watcher state with same | ⟨-, skipped⟩ | ⟨cursor, found, sighted, noted⟩
  · rw [same] at watched
    cases watched
  · rw [skipped] at watched
    cases watched
  · rw [noted] at watched
    obtain rfl := Option.some.inj watched
    exact sighted

/-- The effect remembers the last snapshot that it did not skip, and what it ran on last. -/
theorem watch_past (seq : watcher.lastSnapshotSeq < snapshotSeq)
    (deps : ∀ deps ∈ watcher.deps, deps.1 = 0 ∨ deps.2 < snapshotSeq)
    (earlier : state.rev = 0 ∨ state.snapshotSeq < snapshotSeq) :
    (watcher.watch state).1.lastSnapshotSeq < snapshotSeq ∧
      ∀ deps ∈ (watcher.watch state).1.deps, deps.1 = 0 ∨ deps.2 < snapshotSeq := by
  rcases watch_cases watcher state with same | ⟨-, skipped⟩ | ⟨cursor, seen, sighted, noted⟩
  · rw [same]
    exact ⟨seq, deps⟩
  · rw [skipped]
    refine ⟨seq, fun last found => .inl ?_⟩
    obtain rfl := Option.some.inj found
    rfl
  · have less := earlier.resolve_left sighted.warm
    rw [noted]
    refine ⟨Int.ofNat_lt.mpr less, fun last found => .inr ?_⟩
    obtain rfl := Option.some.inj found
    exact less

theorem mount_past (browser : Browser) (snapshotSeq : Nat) : Past browser snapshotSeq .mount where
  seq := by
    simp only [Player.mount, Watcher.mount]
    omega
  deps := nofun
  live := nofun
  firings := nofun
  silent := fun _ => rfl

theorem Past.keep (past : Past browser snapshotSeq player) (watcher : after.watcher = player.watcher)
    (live : after.live = player.live) (firings : after.firings = player.firings)
    (silent : browser.audio = false → after.nowPlaying = none) : Past browser snapshotSeq after where
  seq := watcher ▸ past.seq
  deps := watcher ▸ past.deps
  live := live ▸ past.live
  firings := firings ▸ past.firings
  silent := silent

theorem Past.still (past : Past browser snapshotSeq player) (still : Still player after) :
    Past browser snapshotSeq after :=
  past.keep still.watcher still.live still.firings fun absent =>
    still.nowPlaying.trans (past.silent absent)

theorem Past.pump (past : Past browser snapshotSeq player) :
    Past browser snapshotSeq (player.pump browser) := by
  rcases pump_cases browser player with ⟨same, -⟩ | emptied | ⟨_, next, rest, audio, -, -, started⟩
  · rw [same]
    exact past
  · rw [emptied]
    exact past.keep rfl rfl rfl past.silent
  · rw [started]
    refine past.keep rfl rfl rfl fun absent => ?_
    rw [absent] at audio
    cases audio

theorem step_past (past : Past browser snapshotSeq player)
    (earlier : ∀ state, event = .state state →
      Timeline state ∧ (state.rev = 0 ∨ state.snapshotSeq < snapshotSeq))
    (stepped : player.step browser event = some after) : Past browser snapshotSeq after := by
  have watching {state : View} (earlier : state.rev = 0 ∨ state.snapshotSeq < snapshotSeq)
      {arrived : List TimelineRef} (known : ∀ ref ∈ arrived, ref.seq < snapshotSeq) :
      Past browser snapshotSeq (player.watch state arrived) := by
    obtain ⟨seq, deps⟩ := watch_past past.seq past.deps earlier
    exact ⟨seq, deps, List.forall_mem_append.mpr ⟨known, past.live⟩, past.firings, past.silent⟩
  have own {state : View} (timeline : Timeline state)
      (earlier : state.rev = 0 ∨ state.snapshotSeq < snapshotSeq) {seen : Sighting}
      (sighted : seen.Of state) {ref : TimelineRef} (member : ref ∈ state.radio) : ref.seq < snapshotSeq :=
    timeline.seq member ▸ earlier.resolve_left sighted.warm
  cases step_change stepped with
  | quiet still => exact past.still still
  | unseen watched still => exact (watching (earlier _ rfl).2 (by simp)).still still
  | sees watched still =>
      obtain ⟨timeline, earlier⟩ := earlier _ rfl
      have sighted := watch_of watched
      exact (watching earlier fun ref member =>
        own timeline earlier sighted (sighted.arrived member)).still still
  | @fires state seen next on watched still =>
      obtain ⟨timeline, earlier⟩ := earlier _ rfl
      have sighted := watch_of watched
      have seenPast : Past browser snapshotSeq next :=
        (watching earlier fun ref member =>
          own timeline earlier sighted (sighted.arrived member)).still still
      have fired : ∀ ref ∈ next.firings ++ seen.fired, ref.seq < snapshotSeq :=
        List.forall_mem_append.mpr
          ⟨seenPast.firings, fun ref member => own timeline earlier sighted (sighted.fired member)⟩
      exact Past.pump ⟨seenPast.seq, seenPast.deps, seenPast.live, fired, seenPast.silent⟩
  | ended => exact Past.pump (past.keep rfl rfl rfl fun _ => rfl)
  | refused current still =>
      exact past.keep still.watcher still.live still.firings fun _ => still.nowPlaying
  | off on still => exact past.keep still.watcher still.live still.firings fun _ => still.nowPlaying
  | on off still =>
      exact past.keep still.watcher still.live still.firings fun absent =>
        still.nowPlaying.trans (past.silent absent)
  | replayed audio allowed =>
      refine past.keep rfl rfl rfl fun absent => ?_
      rw [absent] at audio
      cases audio

theorem run_past (takeover : Takeover events snapshot)
    (ran : run (Player.step browser) .mount events = some player) :
    Past browser snapshot.snapshotSeq player := by
  refine run_invariant_of (Past browser snapshot.snapshotSeq)
    (fun event => ∀ state, event = .state state →
      Timeline state ∧ (state.rev = 0 ∨ state.snapshotSeq < snapshot.snapshotSeq))
    (fun _ _ _ earlier past stepped => step_past past earlier stepped) (mount_past browser _) ?_ ran
  rintro event member state rfl
  exact ⟨takeover.timeline state member, takeover.earlier state member⟩

/-- Two players that the rest of the timeline cannot tell apart. -/
structure Agree (snapshotSeq : Nat) (one two : Player) : Prop where
  enabled : one.enabled = two.enabled
  history : one.history = two.history
  queue : one.queue = two.queue
  own : ∀ ref ∈ one.queue, ref.seq = snapshotSeq
  clock : one.clock = two.clock
  watcher : one.watcher = two.watcher
  nowPlaying : one.enabled → one.nowPlaying = two.nowPlaying
  live : ∀ ref, ref.seq = snapshotSeq → (ref ∈ one.live ↔ ref ∈ two.live)

theorem dropWhile_congr {α : Type} {p q : α → Bool} {list : List α} (same : ∀ x ∈ list, p x = q x) :
    list.dropWhile p = list.dropWhile q := by
  induction list with
  | nil => rfl
  | cons first rest ih =>
      rw [List.dropWhile_cons, List.dropWhile_cons, same first (List.mem_cons_self ..),
        ih fun x member => same x (List.mem_cons_of_mem _ member)]

theorem Agree.playable (agree : Agree snapshotSeq one two) (own : ref.seq = snapshotSeq) :
    one.playable browser ref = two.playable browser ref := by
  rw [Player.playable, Player.playable, agree.clock, decide_eq_decide.mpr (agree.live ref own)]

theorem Agree.pump (agree : Agree snapshotSeq one two) (on : one.enabled) :
    Agree snapshotSeq (one.pump browser) (two.pump browser) := by
  have playing := agree.nowPlaying on
  have left : one.queue.dropWhile (fun msg => !one.playable browser msg) =
      two.queue.dropWhile fun msg => !two.playable browser msg := by
    rw [← agree.queue]
    exact dropWhile_congr fun ref member => by rw [agree.playable (agree.own ref member)]
  have kept : ∀ ref ∈ one.queue.dropWhile (fun msg => !one.playable browser msg),
      ref.seq = snapshotSeq := fun ref member => agree.own ref ((List.dropWhile_sublist _).subset member)
  unfold Player.pump
  by_cases busy : browser.audio = false ∨ one.nowPlaying.isSome
  · rw [if_pos busy, if_pos (playing ▸ busy)]
    exact agree
  · rw [if_neg busy, if_neg (playing ▸ busy), ← left]
    split
    · exact ⟨agree.enabled, agree.history, rfl, nofun, agree.clock, agree.watcher, agree.nowPlaying,
        agree.live⟩
    · rename_i next rest found
      rw [found] at kept
      exact ⟨agree.enabled, agree.history, rfl, fun ref member => kept ref (List.mem_cons_of_mem _ member),
        agree.clock, agree.watcher, fun _ => rfl, agree.live⟩

theorem Agree.onState (agree : Agree snapshotSeq one two) (seq : state.snapshotSeq = snapshotSeq)
    (timeline : Timeline state) :
    Agree snapshotSeq (one.onState browser state) (two.onState browser state) := by
  unfold Player.onState
  rw [← agree.watcher]
  rcases watched : one.watcher.watch state with ⟨watcher, _ | seen⟩
  · exact ⟨agree.enabled, agree.history, agree.queue, agree.own, agree.clock, rfl, agree.nowPlaying,
      agree.live⟩
  · have sighted : seen.Of state := watch_of (by rw [watched])
    have saw : Agree snapshotSeq (one.see state watcher seen) (two.see state watcher seen) := by
      refine ⟨agree.enabled, ?_, agree.queue, agree.own, rfl, rfl, agree.nowPlaying, ?_⟩
      · simp only [Player.see, agree.history]
      · intro ref own
        simp only [Player.see, List.mem_append, agree.live ref own]
    simp only
    split
    · exact saw
    · unfold Player.fire
      simp only
      by_cases on : (one.see state watcher seen).enabled
      · rw [if_pos on, if_pos (saw.enabled.symm.trans on)]
        refine Agree.pump ?_ on
        refine ⟨saw.enabled, ?_, ?_, ?_, saw.clock, saw.watcher, saw.nowPlaying, saw.live⟩
        · simp only [Player.enqueue, saw.history]
        · simp only [Player.enqueue, saw.queue]
        · exact List.forall_mem_append.mpr
            ⟨saw.own, fun ref member => (timeline.seq (sighted.fired member)).trans seq⟩
      · rw [if_neg on, if_neg (saw.enabled ▸ on)]
        refine ⟨saw.enabled, ?_, saw.queue, saw.own, saw.clock, saw.watcher, saw.nowPlaying, saw.live⟩
        simp only [saw.history]

theorem Agree.observe (agree : Agree snapshotSeq one two)
    (seq : ∀ state ∈ frames, state.snapshotSeq = snapshotSeq) (timeline : ∀ state ∈ frames, Timeline state) :
    Agree snapshotSeq (observe browser one frames) (observe browser two frames) :=
  List.foldl_rel agree fun state member _ _ agree =>
    agree.onState (seq state member) (timeline state member)

theorem pump_history (browser : Browser) (player : Player) :
    (player.pump browser).history = player.history := by
  rcases pump_cases browser player with ⟨same, -⟩ | emptied | ⟨_, _, _, -, -, -, started⟩
  · rw [same]
  · rw [emptied]
  · rw [started]
    rfl

theorem onState_history {states : List View}
    (known : ∀ ref ∈ player.history, ∃ state ∈ states, ref ∈ state.radio) (member : state ∈ states) :
    ∀ ref ∈ (player.onState browser state).history, ∃ state ∈ states, ref ∈ state.radio := by
  rw [Player.onState]
  rcases watched : player.watcher.watch state with ⟨watcher, _ | seen⟩
  · exact known
  · have sighted : seen.Of state := watch_of (by rw [watched])
    have saw : ∀ ref ∈ (player.see state watcher seen).history, ∃ state ∈ states, ref ∈ state.radio := by
      intro ref shown
      simp only [Player.see] at shown
      split_ifs at shown
      · exact ⟨state, member, sighted.history (List.mem_of_mem_drop (List.mem_reverse.mp shown))⟩
      · exact known ref shown
    have fires : ∀ ref ∈ (seen.fired.reverse ++ (player.see state watcher seen).history).take HISTORY_MAX,
        ∃ state ∈ states, ref ∈ state.radio := by
      intro ref shown
      rcases List.mem_append.mp (List.mem_of_mem_take shown) with fired | old
      · exact ⟨state, member, sighted.fired (List.mem_reverse.mp fired)⟩
      · exact saw ref old
    simp only
    split_ifs
    · exact saw
    · rw [Player.fire]
      simp only
      split_ifs
      · rw [pump_history]
        exact fires
      · exact fires

theorem observe_history (browser : Browser) (enabled : Bool) (states : List View) :
    ∀ ref ∈ (observe browser (fresh enabled) states).history, ∃ state ∈ states, ref ∈ state.radio :=
  List.foldlRecOn states (Player.onState browser)
    (motive := fun player => ∀ ref ∈ player.history, ∃ state ∈ states, ref ∈ state.radio)
    (fun _ none => absurd none List.not_mem_nil)
    fun _ known _ member => onState_history known member

theorem fresh_past (browser : Browser) (enabled : Bool) (snapshotSeq : Nat) :
    Past browser snapshotSeq (fresh enabled) :=
  (mount_past browser snapshotSeq).keep rfl rfl rfl fun _ => rfl

/-- The messages of a snapshot that are for the history. -/
def seeded (snapshot : View) : List TimelineRef :=
  byTime (snapshot.radio.filter fun m => m.timeMs ≤ snapshot.timeMs)

theorem seeded_ne_nil : seeded snapshot ≠ [] ↔ ∃ ref ∈ snapshot.radio, ref.timeMs ≤ snapshot.timeMs := by
  rw [Ne, List.eq_nil_iff_forall_not_mem]
  simp only [not_forall, not_not, seeded, mem_byTime, List.mem_filter, decide_eq_true_eq]

/-- The player once the snapshot is in. -/
def Player.seeded (player : Player) (snapshot : View) : Player :=
  player.see snapshot ⟨⟨snapshot.timeMs⟩, snapshot.snapshotSeq, snapshot.radio.length,
    some (snapshot.rev, snapshot.snapshotSeq)⟩ ⟨true, Web.seeded snapshot, [], []⟩

theorem onState_seeded (past : Past browser snapshot.snapshotSeq player) (warm : snapshot.rev ≠ 0) :
    player.onState browser snapshot = player.seeded snapshot := by
  have changed : player.watcher.deps ≠ some (snapshot.rev, snapshot.snapshotSeq) := by
    intro same
    rcases past.deps _ same with cold | less
    · exact warm cold
    · exact less.false
  have isSnapshot : decide (player.watcher.lastSnapshotSeq ≠ (snapshot.snapshotSeq : Int)) = true :=
    decide_eq_true past.seq.ne
  unfold Player.onState Watcher.watch
  simp only [if_neg changed, if_neg warm, isSnapshot, liveArrivals, stepComms, true_or, if_true]
  rfl

theorem agree_seeded (past : Past browser snapshot.snapshotSeq player)
    (leaves : LeavesNothing player snapshot) :
    Agree snapshot.snapshotSeq (player.seeded snapshot) ((fresh player.enabled).seeded snapshot) where
  enabled := rfl
  history := by
    simp only [Player.seeded, Player.see, true_and]
    rcases leaves.history with empty | ⟨-, some⟩
    · rw [empty]
      rfl
    · rw [if_pos (seeded_ne_nil.mpr some), if_pos (seeded_ne_nil.mpr some)]
  queue := leaves.queue
  own := by
    have none : (player.seeded snapshot).queue = [] := leaves.queue
    rw [none]
    exact nofun
  clock := rfl
  watcher := rfl
  nowPlaying := fun on => leaves.idle.resolve_left (Bool.eq_false_iff.not_left.mpr on)
  live := fun ref own => iff_of_false (fun old => (past.live ref old).ne own) nofun

theorem seq_of_isChain (follows : (snapshot :: frames).IsChain Follows) :
    ∀ state ∈ snapshot :: frames, state.snapshotSeq = snapshot.snapshotSeq := by
  induction frames generalizing snapshot with
  | nil => simp
  | cons frame rest ih =>
      obtain ⟨first, later⟩ := List.isChain_cons_cons.mp follows
      exact List.forall_mem_cons.mpr
        ⟨rfl, fun state member => (ih later state member).trans first.snapshotSeq⟩

theorem clean_of_warm (past : Past browser snapshot.snapshotSeq player)
    (warm : snapshot.rev ≠ 0) (leaves : LeavesNothing player snapshot) (framed : Frames snapshot frames) :
    Clean browser player snapshot frames := by
  have first := onState_seeded past warm
  have second := onState_seeded (fresh_past browser player.enabled snapshot.snapshotSeq) warm
  have alike : Agree snapshot.snapshotSeq (observe browser player (snapshot :: frames))
      (observe browser (fresh player.enabled) (snapshot :: frames)) := by
    rw [observe, observe, List.foldl_cons, List.foldl_cons, first, second]
    exact (agree_seeded past leaves).observe
      (fun state member => seq_of_isChain framed.follows state (List.mem_cons_of_mem _ member))
      framed.timeline
  refine ⟨?_, ?_, alike.history, alike.queue⟩
  · rw [alike.history]
    exact observe_history browser player.enabled (snapshot :: frames)
  · intro ref waiting fired
    exact (past.firings ref fired).ne (alike.own ref waiting)

/-- The player that has skipped a snapshot. -/
def Player.skip (player : Player) (snapshot : View) : Player :=
  { player with watcher := { player.watcher with deps := some (0, snapshot.snapshotSeq) } }

theorem onState_skip (cold : snapshot.rev = 0) :
    player.onState browser snapshot = player.skip snapshot := by
  unfold Player.onState
  by_cases same : player.watcher.deps = some (snapshot.rev, snapshot.snapshotSeq)
  · have again : player.watcher.watch snapshot = (player.watcher, none) := if_pos same
    rw [again, Player.skip, ← cold, ← same]
  · rw [watch_warmingUp same cold]
    rfl

theorem Past.skip (past : Past browser snapshotSeq player) :
    Past browser snapshotSeq (player.skip snapshot) where
  seq := past.seq
  deps := by
    intro deps found
    cases found
    exact .inl rfl
  live := past.live
  firings := past.firings
  silent := past.silent

/-- The first frame that the effect does not skip stands in for the snapshot. -/
theorem onState_frame {frame : View} (past : Past browser snapshot.snapshotSeq player)
    (cold : snapshot.rev = 0) (follows : Follows snapshot frame) :
    (player.onState browser snapshot).onState browser frame = player.seeded frame := by
  have seq : snapshot.snapshotSeq = frame.snapshotSeq := follows.snapshotSeq.symm
  rw [onState_skip cold, onState_seeded (seq ▸ past.skip) (cold ▸ follows.rev).ne']
  rfl

theorem clean_of_cold (past : Past browser snapshot.snapshotSeq player) (cold : snapshot.rev = 0)
    (leaves : LeavesNothing player snapshot) (framed : Frames snapshot frames) :
    Clean browser player snapshot frames := by
  have history : player.history = [] := leaves.history.resolve_right fun seeds => seeds.1 cold
  cases frames with
  | nil =>
      have skipped (one : Player) : observe browser one [snapshot] = one.skip snapshot := onState_skip cold
      constructor <;> simp only [skipped, Player.skip, history, leaves.queue, fresh, Player.mount]
      all_goals simp
  | cons frame rest =>
      obtain ⟨first, later⟩ := List.isChain_cons_cons.mp framed.follows
      have warm : frame.rev ≠ 0 := (cold ▸ first.rev).ne'
      have seen : Past browser frame.snapshotSeq player := first.snapshotSeq ▸ past
      have same (one : Player) (past : Past browser snapshot.snapshotSeq one) :
          observe browser one (snapshot :: frame :: rest) = observe browser one (frame :: rest) := by
        rw [observe, observe, List.foldl_cons, List.foldl_cons, List.foldl_cons,
          onState_frame past cold first, onState_seeded (first.snapshotSeq ▸ past) warm]
      have clean := clean_of_warm seen warm ⟨.inl history, leaves.queue, leaves.idle⟩
        ⟨later, fun state member => framed.timeline state (List.mem_cons_of_mem _ member)⟩
      constructor
      · intro ref shown
        obtain ⟨state, member, known⟩ := clean.history ref (same player past ▸ shown)
        exact ⟨state, List.mem_cons_of_mem _ member, known⟩
      · rw [same player past]
        exact clean.queue
      · rw [same player past, same _ (fresh_past ..)]
        exact clean.sameHistory
      · rw [same player past, same _ (fresh_past ..)]
        exact clean.sameQueue

theorem clean_of_leavesNothing (past : Past browser snapshot.snapshotSeq player)
    (leaves : LeavesNothing player snapshot) (framed : Frames snapshot frames) :
    Clean browser player snapshot frames := by
  by_cases cold : snapshot.rev = 0
  · exact clean_of_cold past cold leaves framed
  · exact clean_of_warm past cold leaves framed

/-- A message at the clock of the snapshot, right behind those it came with. -/
def nextClip (snapshot : View) : TimelineRef :=
  ⟨snapshot.snapshotSeq, snapshot.radio.length, snapshot.timeMs, 0, ""⟩

def nextFrame (snapshot : View) : View where
  rev := max snapshot.rev 0 + 1
  snapshotSeq := snapshot.snapshotSeq
  timeMs := snapshot.timeMs
  radio := snapshot.radio ++ [nextClip snapshot]

theorem nextFrame_advances (snapshot : View) : Advances snapshot (nextFrame snapshot) where
  rev := lt_of_le_of_lt (le_max_left ..) (lt_add_one _)
  snapshotSeq := rfl
  clock := le_refl _
  radio := List.prefix_append ..

theorem nextFrame_frames (own : Timeline snapshot) : Frames snapshot [nextFrame snapshot] := by
  have advances := nextFrame_advances snapshot
  refine ⟨.cons_cons ⟨advances.rev, rfl, advances.radio⟩ (.singleton _), ?_⟩
  intro state member i ref found
  obtain rfl := List.mem_singleton.mp member
  rcases lt_trichotomy i snapshot.radio.length with less | rfl | more
  · exact own i ref ((List.getElem?_append_left less).symm.trans found)
  · obtain rfl : nextClip snapshot = ref := by simpa [nextFrame] using found
    exact ⟨rfl, rfl⟩
  · rw [List.getElem?_eq_none (by simp [nextFrame]; omega)] at found
    cases found

theorem nextFrame_fired (player : Player) (snapshot : View) :
    ∃ seen, ((player.seeded snapshot).watcher.watch (nextFrame snapshot)).2 = some seen ∧
      seen.fired = [nextClip snapshot] := by
  have saw : (player.seeded snapshot).watcher.Saw snapshot := ⟨rfl, rfl, rfl, rfl⟩
  have warm : (nextFrame snapshot).rev ≠ 0 := (lt_of_le_of_lt (le_max_right ..) (lt_add_one _)).ne'
  obtain ⟨seen, watched, -, fired⟩ := watch_eq saw (nextFrame_advances snapshot) warm
  refine ⟨seen, watched, ?_⟩
  have added : appended snapshot (nextFrame snapshot) = [nextClip snapshot] := List.drop_left
  have none : reached snapshot (nextFrame snapshot) (nextFrame snapshot).radio = [] := by
    refine List.eq_nil_iff_forall_not_mem.mpr fun ref member => ?_
    have due := of_decide_eq_true (List.mem_filter.mp (mem_byTime.mp member)).2
    exact (due.1.trans_le due.2).false
  rw [fired, added, none]
  rfl

/-- Firing one clip leaves it in the queue just when something else plays. -/
theorem onState_queue {seen : Sighting} (audio : browser.audio) (on : player.enabled)
    (empty : player.queue = []) (watched : (player.watcher.watch state).2 = some seen)
    (fired : seen.fired = [ref]) :
    (player.onState browser state).queue = if player.nowPlaying = none then [] else [ref] := by
  obtain ⟨next, still, pumped⟩ := onState_fires on watched (by simp [fired])
  have queue : (next.enqueue seen.fired).queue = [ref] := by
    rw [Player.enqueue, still.queue, Player.watch, empty, fired, List.nil_append]
  have playing : (next.enqueue seen.fired).nowPlaying = player.nowPlaying := still.nowPlaying
  rw [pumped, ← playing]
  split
  · rename_i idle
    rcases pump_cases browser (next.enqueue seen.fired) with
      ⟨-, absent | busy⟩ | emptied | ⟨skipped, first, rest, -, parts, -, started⟩
    · rw [audio] at absent
      cases absent
    · rw [idle] at busy
      cases busy
    · rw [emptied]
    · have length := congrArg List.length (queue.symm.trans parts)
      rw [started]
      apply List.length_eq_zero_iff.mp
      simp only [List.length_append, List.length_cons, List.length_nil] at length
      change rest.length = 0
      omega
  · rename_i busy
    rw [Player.pump, if_pos (.inr (Option.isSome_iff_ne_none.mpr busy))]
    exact queue

/-- What fires on the frame waits behind a clip of the old source, and on a fresh page it does not. -/
theorem idle_of_sameQueue (past : Past browser snapshot.snapshotSeq player) (empty : player.queue = [])
    (queues : ((player.seeded snapshot).onState browser (nextFrame snapshot)).queue =
      (((fresh player.enabled).seeded snapshot).onState browser (nextFrame snapshot)).queue) :
    player.enabled = false ∨ player.nowPlaying = none := by
  by_contra waits
  obtain ⟨on, busy⟩ := not_or.mp waits
  have on : player.enabled = true := Bool.eq_true_of_not_eq_false on
  have audio : browser.audio = true :=
    Bool.eq_true_of_not_eq_false fun absent => busy (past.silent absent)
  obtain ⟨seen, watched, fired⟩ := nextFrame_fired player snapshot
  have on : (player.seeded snapshot).enabled = true := on
  have freshOn : ((fresh player.enabled).seeded snapshot).enabled = true := on
  have waits : ((player.seeded snapshot).onState browser (nextFrame snapshot)).queue =
      [nextClip snapshot] := (onState_queue audio on empty watched fired).trans (if_neg busy)
  have starts : (((fresh player.enabled).seeded snapshot).onState browser (nextFrame snapshot)).queue =
      [] := (onState_queue audio freshOn rfl watched fired).trans (if_pos rfl)
  rw [waits, starts] at queues
  cases queues

theorem leavesNothing_of_warm (past : Past browser snapshot.snapshotSeq player) (warm : snapshot.rev ≠ 0)
    (own : Timeline snapshot)
    (clean : ∀ frames, Frames snapshot frames → Clean browser player snapshot frames) :
    LeavesNothing player snapshot := by
  have first := onState_seeded past warm
  have second := onState_seeded (fresh_past browser player.enabled snapshot.snapshotSeq) warm
  have start := clean [] ⟨.singleton _, nofun⟩
  have sameHistory := start.sameHistory
  have sameQueue := start.sameQueue
  simp only [observe, List.foldl_cons, List.foldl_nil, first, second] at sameHistory sameQueue
  have empty : player.queue = [] := sameQueue
  refine ⟨?_, empty, idle_of_sameQueue past empty ?_⟩
  · by_cases some : ∃ ref ∈ snapshot.radio, ref.timeMs ≤ snapshot.timeMs
    · exact .inr ⟨warm, some⟩
    · have none : Web.seeded snapshot = [] := not_not.mp fun nonempty => some (seeded_ne_nil.mp nonempty)
      simp only [Player.seeded, Player.see, none, ne_eq, not_true, and_false, if_false] at sameHistory
      exact .inl sameHistory
  · have queues := (clean [nextFrame snapshot] (nextFrame_frames own)).sameQueue
    simpa only [observe, List.foldl_cons, List.foldl_nil, first, second] using queues

/-- The snapshot again, as a frame that is not skipped. -/
def warmed (snapshot : View) : View := { snapshot with rev := 1 }

theorem leavesNothing_of_cold (past : Past browser snapshot.snapshotSeq player) (cold : snapshot.rev = 0)
    (own : Timeline snapshot)
    (clean : ∀ frames, Frames snapshot frames → Clean browser player snapshot frames) :
    LeavesNothing player snapshot := by
  have start := clean [] ⟨.singleton _, nofun⟩
  have sameHistory := start.sameHistory
  have sameQueue := start.sameQueue
  simp only [observe, List.foldl_cons, List.foldl_nil, onState_skip cold] at sameHistory sameQueue
  have history : player.history = [] := sameHistory
  have empty : player.queue = [] := sameQueue
  have follows : Follows snapshot (warmed snapshot) :=
    ⟨by rw [cold]; exact zero_lt_one, rfl, List.prefix_rfl⟩
  have next : Frames (warmed snapshot) [nextFrame (warmed snapshot)] := nextFrame_frames own
  have framed : Frames snapshot [warmed snapshot, nextFrame (warmed snapshot)] := by
    refine ⟨.cons_cons follows next.follows, ?_⟩
    exact List.forall_mem_cons.mpr ⟨own, next.timeline⟩
  have queues := (clean _ framed).sameQueue
  simp only [observe, List.foldl_cons, List.foldl_nil, onState_frame past cold follows,
    onState_frame (fresh_past browser player.enabled snapshot.snapshotSeq) cold follows] at queues
  have seen : Past browser (warmed snapshot).snapshotSeq player := past
  exact ⟨.inl history, empty, idle_of_sameQueue seen empty queues⟩

/-- However the run before went, a new snapshot leaves nothing of it exactly when it is not skipped and
has a clip for the history, or the history was empty, and nothing waits, and the layer is off or plays
nothing. -/
theorem snapshot_clean_iff (ran : run (Player.step browser) .mount events = some player)
    (takeover : Takeover events snapshot) :
    (∀ frames, Frames snapshot frames → Clean browser player snapshot frames) ↔
      LeavesNothing player snapshot := by
  have past := run_past takeover ran
  constructor
  · intro clean
    by_cases cold : snapshot.rev = 0
    · exact leavesNothing_of_cold past cold takeover.own clean
    · exact leavesNothing_of_warm past cold takeover.own clean
  · exact fun leaves frames framed => clean_of_leavesNothing past leaves framed

/-- A replay that has one clip behind it, and a live lane with none yet. -/
def oldSource : List CommsEvent := [.state ⟨1, 1, 1000, [firstClip]⟩]

def newSource : View := ⟨1, 2, 0, []⟩

theorem newSource_takeover : Takeover oldSource newSource where
  own := by simp [Timeline, newSource]
  timeline := by
    intro state member i ref found
    obtain rfl : state = ⟨1, 1, 1000, [firstClip]⟩ := by simpa [oldSource] using member
    obtain ⟨rfl, rfl⟩ : i = 0 ∧ firstClip = ref := by
      simpa [List.getElem?_singleton] using found
    exact ⟨rfl, rfl⟩
  earlier := by
    intro state member
    obtain rfl : state = ⟨1, 1, 1000, [firstClip]⟩ := by simpa [oldSource] using member
    exact .inr (by decide)

theorem snapshot_clean_iff_newSource : ∃ player, run (Player.step livePage) .mount oldSource = some player ∧
    ((∀ frames, Frames newSource frames → Clean livePage player newSource frames) ↔
      LeavesNothing player newSource) :=
  ⟨_, rfl, snapshot_clean_iff rfl newSource_takeover⟩

/-- The clip of the replay stays in the history of the live lane. -/
theorem newSource_keeps_history :
    (∃ player, run (Player.step livePage) .mount oldSource = some player ∧
      (observe livePage player [newSource]).history = [firstClip]) ∧
    ¬ ∀ events player snapshot frames, run (Player.step livePage) .mount events = some player →
      Takeover events snapshot → Frames snapshot frames → Clean livePage player snapshot frames := by
  have reached : (run (Player.step livePage) .mount oldSource).map
      (fun player => (observe livePage player [newSource]).history) = some [firstClip] := by
    decide +kernel
  obtain ⟨player, ran, kept⟩ := Option.map_eq_some_iff.mp reached
  refine ⟨⟨player, ran, kept⟩, fun cleans => ?_⟩
  have clean := cleans oldSource player newSource [] ran newSource_takeover ⟨.singleton _, nofun⟩
  obtain ⟨state, member, shown⟩ := clean.history firstClip (by rw [kept]; exact List.mem_singleton_self _)
  obtain rfl := List.mem_singleton.mp member
  cases shown

theorem view_timeline (state : RaceState) : Timeline (view state) := by
  intro i ref found
  simp only [view, List.getElem?_mapIdx, Option.map_eq_some_iff] at found
  obtain ⟨json, -, rfl⟩ := found
  exact ⟨rfl, rfl⟩

theorem snapshotSeq_le_applyMessage {state after : RaceState} {message : Msg}
    (applied : applyMessage state message = .ok after) : state.snapshotSeq ≤ after.snapshotSeq := by
  cases message with
  | snapshot data =>
      cases applied
      exact Nat.le_succ _
  | frame data =>
      by_cases stale : data.rev ≤ state.rev
      · rw [applyMessage, applyFrame, if_pos stale] at applied
        cases applied
        exact le_refl _
      · exact (follows_applyFrame (not_le.mp stale) applied).1.snapshotSeq.ge

theorem takeover_of_reducer {states : List RaceState} {last : RaceState} {data : SnapshotData}
    (applied : (states ++ [last]).IsChain fun before after =>
      ∃ message, applyMessage before message = .ok after)
    (seen : ∀ one, .state one ∈ events → ∃ state ∈ states ++ [last], view state = one) :
    Takeover events (view (applySnapshot last data)) := by
  have ordered : (states ++ [last]).Pairwise fun before after => before.snapshotSeq ≤ after.snapshotSeq := by
    rw [← List.isChain_iff_pairwise]
    exact applied.imp fun before after ⟨message, result⟩ => snapshotSeq_le_applyMessage result
  refine ⟨view_timeline _, fun one member => ?_, fun one member => .inr ?_⟩
  · obtain ⟨state, -, rfl⟩ := seen one member
    exact view_timeline state
  · obtain ⟨state, known, rfl⟩ := seen one member
    apply Nat.lt_succ_of_le
    rcases List.mem_append.mp known with old | same
    · exact (List.pairwise_append.mp ordered).2.2 state old last (List.mem_singleton_self _)
    · exact le_of_eq (congrArg RaceState.snapshotSeq (List.mem_singleton.mp same))

/-- A snapshot and the frames applied to it, whichever way their clocks go. -/
theorem frames_of_reducer {snapshot : RaceState} {frames : List RaceState}
    (applied : (snapshot :: frames).IsChain fun before after => ∃ data : FrameData,
      before.rev < data.rev ∧ applyFrame before data = .ok after) :
    Frames (view snapshot) (frames.map view) := by
  refine ⟨?_, ?_⟩
  · rw [← List.map_cons, List.isChain_map]
    exact applied.imp fun before after ⟨data, newer, result⟩ => (follows_applyFrame newer result).1
  · intro one member
    obtain ⟨state, -, rfl⟩ := List.mem_map.mp member
    exact view_timeline state

end RaceTracker.Web
