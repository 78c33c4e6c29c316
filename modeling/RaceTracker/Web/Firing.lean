import Mathlib.Data.List.Chain
import RaceTracker.Web.Comms

namespace RaceTracker.Web

open RaceTracker.Lib

/-! Which clips fire between two snapshots, and how often. -/

/-- What the effect fires on each of the states. -/
def firedOver (watcher : Watcher) : List View → List (List TimelineRef)
  | [] => []
  | state :: rest =>
      (((watcher.watch state).2.map Sighting.fired).getD []) ::
        firedOver (watcher.watch state).1 rest

/-- A frame on top of a state: later, and with nothing but more radio messages. -/
structure Advances (before after : View) : Prop where
  rev : before.rev < after.rev
  snapshotSeq : after.snapshotSeq = before.snapshotSeq
  clock : before.timeMs ≤ after.timeMs
  radio : before.radio <+: after.radio

/-- Any frame on top of a state: the clock of a race that starts over goes back. -/
structure Follows (before after : View) : Prop where
  rev : before.rev < after.rev
  snapshotSeq : after.snapshotSeq = before.snapshotSeq
  radio : before.radio <+: after.radio

/-- A snapshot and the frames up to the next one. -/
structure Segment (snapshot : View) (frames : List View) : Prop where
  advances : (snapshot :: frames).IsChain Advances
  rev : 0 ≤ snapshot.rev
  distinct : ∀ state ∈ snapshot :: frames, state.radio.Nodup

/-- Nothing of this snapshot was seen before. -/
structure Watcher.Unaware (watcher : Watcher) (snapshotSeq : Nat) : Prop where
  seq : watcher.lastSnapshotSeq ≠ snapshotSeq
  deps : ∀ deps ∈ watcher.deps, deps.2 ≠ snapshotSeq

section

variable (states : List View)

/-- The `i`-th frame on top of the state before it. -/
def Step (i : Nat) (before after : View) : Prop :=
  states[i]? = some before ∧ states[i + 1]? = some after

/-- The messages that a frame adds to the timeline. -/
def appended (before after : View) : List TimelineRef := after.radio.drop before.radio.length

/-- Each message fires at most once: those of a frame on that frame, those of the snapshot
that are still to come on the frame whose clock reaches them. -/
structure FiresOnce (fired : List (List TimelineRef)) : Prop where
  once : fired.flatten.Nodup
  arrival : ∀ i before after, Step states i before after → ∀ ref ∈ appended before after,
    ∃ clips, fired[i + 1]? = some clips ∧ ref ∈ clips
  clock : ∀ snapshot ∈ states.head?, ∀ ref ∈ snapshot.radio, snapshot.timeMs < ref.timeMs →
    ∀ i before after clips, Step states i before after → fired[i + 1]? = some clips →
      (ref ∈ clips ↔ before.timeMs < ref.timeMs ∧ ref.timeMs ≤ after.timeMs)

/-- No message is added before its time comes, unless it never comes. -/
def Lagging : Prop :=
  ∀ i before after, Step states i before after → ∀ ref ∈ appended before after,
    after.timeMs < ref.timeMs → ∀ later ∈ states, later.timeMs < ref.timeMs

end

/-- When the first frame stands in for the snapshot, nothing may be due on it. -/
structure Timely (snapshot : View) (frames : List View) : Prop where
  lagging : Lagging (snapshot :: frames)
  seeded : snapshot.rev = 0 → ∀ frame ∈ frames.head?, appended snapshot frame = [] ∧
    ∀ ref ∈ snapshot.radio, snapshot.timeMs < ref.timeMs → frame.timeMs < ref.timeMs

variable {watcher : Watcher} {states frames : List View} {before after snapshot state : View}

/-- The effect has run on this state last. -/
structure Watcher.Saw (watcher : Watcher) (state : View) : Prop where
  clock : watcher.cursor.lastClock = state.timeMs
  seq : watcher.lastSnapshotSeq = state.snapshotSeq
  length : watcher.prevRadioLen = state.radio.length
  deps : watcher.deps = some (state.rev, state.snapshotSeq)

theorem Advances.radio_eq (advances : Advances before after) :
    after.radio = before.radio ++ appended before after := by
  obtain ⟨more, same⟩ := advances.radio
  rw [appended, ← same, List.drop_left]

theorem watch_snapshot (changed : watcher.deps ≠ some (state.rev, state.snapshotSeq))
    (isSnapshot : watcher.lastSnapshotSeq ≠ state.snapshotSeq) (warm : state.rev ≠ 0) :
    ((watcher.watch state).2.map Sighting.fired).getD [] = [] ∧ (watcher.watch state).1.Saw state := by
  rw [Watcher.watch]
  rw [if_neg changed, if_neg warm]
  refine ⟨?_, ⟨?_, rfl, rfl, rfl⟩⟩ <;> simp [liveArrivals, stepComms, isSnapshot]

theorem watch_warmingUp (changed : watcher.deps ≠ some (state.rev, state.snapshotSeq))
    (cold : state.rev = 0) :
    watcher.watch state = ({ watcher with deps := some (0, state.snapshotSeq) }, none) := by
  rw [Watcher.watch]
  rw [if_neg changed, if_pos cold, cold]

theorem mem_byTime {refs : List TimelineRef} {ref : TimelineRef} : ref ∈ byTime refs ↔ ref ∈ refs :=
  List.mem_insertionSort _

/-- Arrival wins: what arrives is not fired by the clock as well. -/
theorem fired_eq (clockFired arrived : List TimelineRef) :
    (if arrived = [] then clockFired else clockFired.filter (· ∉ arrived) ++ arrived) =
      clockFired.filter (· ∉ arrived) ++ arrived := by
  split
  · rename_i none
    simp [none]
  · rfl

/-- What the clock has reached since the state before, of a timeline. -/
def reached (before after : View) (timeline : List TimelineRef) : List TimelineRef :=
  byTime (timeline.filter fun m => before.timeMs < m.timeMs ∧ m.timeMs ≤ after.timeMs)

/-- What a frame fires: what it adds, and of the rest what its clock has reached. -/
def Fires (before after : View) (ref : TimelineRef) : Prop :=
  ref ∈ appended before after ∨
    ref ∈ before.radio ∧ before.timeMs < ref.timeMs ∧ ref.timeMs ≤ after.timeMs

theorem watch_eq (saw : watcher.Saw before) (advances : Advances before after)
    (warm : after.rev ≠ 0) :
    ∃ seen, (watcher.watch after).2 = some seen ∧ (watcher.watch after).1.Saw after ∧
      seen.fired = (reached before after after.radio).filter (· ∉ appended before after) ++
        appended before after := by
  have changed : watcher.deps ≠ some (after.rev, after.snapshotSeq) := by
    rw [saw.deps]
    intro same
    exact advances.rev.ne (congrArg Prod.fst (Option.some.inj same))
  have sameSeq : decide (watcher.lastSnapshotSeq ≠ (after.snapshotSeq : Int)) = false := by
    rw [saw.seq, advances.snapshotSeq]
    simp
  have forward : ¬ after.timeMs < before.timeMs := not_lt.mpr advances.clock
  have arrived : liveArrivals after.radio watcher.prevRadioLen false = appended before after := by
    rw [liveArrivals, saw.length, appended]
    split
    · rename_i none
      exact (List.drop_eq_nil_of_le (by simpa using none)).symm
    · rfl
  rw [Watcher.watch]
  rw [if_neg changed, if_neg warm]
  refine ⟨_, rfl, ⟨?_, rfl, rfl, rfl⟩, ?_⟩
  · simp only [sameSeq, stepComms, saw.clock, if_neg forward, Bool.false_eq_true, if_false]
  · simp only [sameSeq, stepComms, if_neg forward, Bool.false_eq_true, if_false, arrived, fired_eq,
      saw.clock, reached]

theorem watch_frame (saw : watcher.Saw before) (advances : Advances before after)
    (warm : 0 ≤ before.rev) (distinct : after.radio.Nodup) :
    ∃ seen, (watcher.watch after).2 = some seen ∧ (watcher.watch after).1.Saw after ∧
      seen.fired.Nodup ∧ ∀ ref, ref ∈ seen.fired ↔ Fires before after ref := by
  obtain ⟨seen, watched, saw', fired⟩ := watch_eq saw advances (warm.trans_lt advances.rev).ne'
  have parts := distinct
  rw [advances.radio_eq, List.nodup_append] at parts
  obtain ⟨-, newDistinct, apart⟩ := parts
  refine ⟨seen, watched, saw', ?_, fun ref => ?_⟩
  · have reachedDistinct : (reached before after after.radio).Nodup :=
      (List.perm_insertionSort _ _).nodup_iff.mpr (distinct.filter _)
    rw [fired, List.nodup_append]
    refine ⟨reachedDistinct.filter _, newDistinct, fun old member new arrives same => ?_⟩
    have outside := (List.mem_filter.mp member).2
    exact of_decide_eq_true outside (same ▸ arrives)
  · rw [fired, List.mem_append, List.mem_filter, reached, mem_byTime, List.mem_filter,
      advances.radio_eq, List.mem_append]
    simp only [decide_eq_true_eq]
    constructor
    · rintro (⟨⟨old | new, due⟩, outside⟩ | new)
      · exact .inr ⟨old, due⟩
      · exact absurd new outside
      · exact .inl new
    · rintro (new | ⟨old, due⟩)
      · exact .inr new
      · exact .inl ⟨⟨.inl old, due⟩, fun new => apart ref old ref new rfl⟩

/-- What every frame fires, the frames being counted from the state that was seen last. -/
theorem firedOver_spec (saw : watcher.Saw state) (advances : (state :: frames).IsChain Advances)
    (warm : 0 ≤ state.rev) (distinct : ∀ one ∈ state :: frames, one.radio.Nodup) {i : Nat}
    (step : Step (state :: frames) i before after) :
    ∃ clips, (firedOver watcher frames)[i]? = some clips ∧ clips.Nodup ∧
      ∀ ref, ref ∈ clips ↔ Fires before after ref := by
  induction frames generalizing watcher state i with
  | nil =>
      obtain ⟨-, none⟩ := step
      simp at none
  | cons frame rest ih =>
      obtain ⟨first, later⟩ := List.isChain_cons_cons.mp advances
      obtain ⟨seen, watched, saw', own, fires⟩ := watch_frame saw first warm
        (distinct frame (by simp))
      cases i with
      | zero =>
          obtain ⟨begins, next⟩ := step
          obtain rfl : state = before := by simpa using begins
          obtain rfl : frame = after := by simpa using next
          refine ⟨seen.fired, ?_, own, fires⟩
          rw [firedOver, watched]
          rfl
      | succ i =>
          obtain ⟨clips, found, rest⟩ := ih saw' later (warm.trans first.rev.le)
            (fun one member => distinct one (List.mem_cons_of_mem _ member)) (i := i) step
          refine ⟨clips, ?_, rest⟩
          rw [firedOver, List.getElem?_cons_succ]
          exact found

/-- The states of a segment: the clock moves on, the timeline grows. -/
structure Grows (before after : View) : Prop where
  clock : before.timeMs ≤ after.timeMs
  radio : before.radio <+: after.radio

theorem Grows.refl (state : View) : Grows state state := ⟨le_refl _, List.prefix_refl _⟩

theorem grows_of_isChain (advances : states.IsChain Advances) : states.Pairwise Grows := by
  have trans : ∀ one two three : View, Grows one two → Grows two three → Grows one three :=
    fun one two three first second =>
      ⟨first.clock.trans second.clock, first.radio.trans second.radio⟩
  have : Trans Grows Grows Grows := ⟨fun first second => trans _ _ _ first second⟩
  exact List.isChain_iff_pairwise.mp (advances.imp fun one two step => ⟨step.clock, step.radio⟩)

theorem grows_at (advances : states.IsChain Advances) {i j : Nat} (ordered : i ≤ j)
    (found : states[i]? = some before) (found' : states[j]? = some after) : Grows before after := by
  rcases Nat.lt_or_eq_of_le ordered with less | same
  · obtain ⟨within, rfl⟩ := List.getElem?_eq_some_iff.mp found
    obtain ⟨within', rfl⟩ := List.getElem?_eq_some_iff.mp found'
    exact List.pairwise_iff_getElem.mp (grows_of_isChain advances) i j within within' less
  · rw [same, found'] at found
    obtain rfl := Option.some.inj found
    exact .refl _

theorem exists_reached {i k : Nat} {t : Rat} (ordered : i ≤ k)
    (found : states[i]? = some before) (early : before.timeMs < t) (found' : states[k]? = some after)
    (late : t ≤ after.timeMs) : ∃ j one two, i ≤ j ∧ Step states j one two ∧
      one.timeMs < t ∧ t ≤ two.timeMs := by
  induction k generalizing after with
  | zero =>
      obtain rfl : i = 0 := by omega
      rw [found] at found'
      obtain rfl := Option.some.inj found'
      exact absurd early (not_lt.mpr late)
  | succ k ih =>
      rcases Nat.lt_or_eq_of_le ordered with less | same
      · have within : k < states.length :=
          Nat.lt_of_succ_lt (List.getElem?_eq_some_iff.mp found').1
        have middle := List.getElem?_eq_getElem within
        rcases lt_or_ge states[k].timeMs t with below | above
        · exact ⟨k, states[k], after, by omega, ⟨middle, found'⟩, below, late⟩
        · exact ih (by omega) middle above
      · rw [same, found'] at found
        obtain rfl := Option.some.inj found
        exact absurd early (not_lt.mpr late)

theorem appended_notMem (advances : states.IsChain Advances)
    (distinct : ∀ one ∈ states, one.radio.Nodup) {i : Nat} (step : Step states i before after)
    {ref : TimelineRef} (added : ref ∈ appended before after) : ref ∉ before.radio := by
  obtain ⟨more, same⟩ := (grows_at advances (Nat.le_succ i) step.1 step.2).radio
  have parts := distinct after (List.mem_of_getElem? step.2)
  rw [← same, List.nodup_append] at parts
  rw [appended, ← same, List.drop_left] at added
  exact fun old => parts.2.2 ref old ref added rfl

theorem length_firedOver (watcher : Watcher) (states : List View) :
    (firedOver watcher states).length = states.length := by
  induction states generalizing watcher with
  | nil => rfl
  | cons state rest ih => rw [firedOver, List.length_cons, List.length_cons, ih]

/-- What is fired on a state of the segment: nothing on the first, then frame by frame. -/
theorem fired_at (saw : watcher.Saw state) (advances : (state :: frames).IsChain Advances)
    (warm : 0 ≤ state.rev) (distinct : ∀ one ∈ state :: frames, one.radio.Nodup) {i : Nat}
    {clips : List TimelineRef} (found : ([] :: firedOver watcher frames)[i]? = some clips) :
    clips = [] ∨ ∃ j before after, i = j + 1 ∧ Step (state :: frames) j before after ∧ clips.Nodup ∧
      ∀ ref, ref ∈ clips ↔ Fires before after ref := by
  cases i with
  | zero => exact .inl (Option.some.inj found).symm
  | succ j =>
      rw [List.getElem?_cons_succ] at found
      have within : j < frames.length := by
        rw [← length_firedOver watcher frames]
        exact (List.getElem?_eq_some_iff.mp found).1
      have inside : j < (state :: frames).length := Nat.lt_succ_of_lt within
      have step : Step (state :: frames) j (state :: frames)[j] frames[j] :=
        ⟨List.getElem?_eq_getElem inside, by rw [List.getElem?_cons_succ, List.getElem?_eq_getElem]⟩
      obtain ⟨other, found', own, fires⟩ := firedOver_spec saw advances warm distinct step
      obtain rfl := Option.some.inj (found.symm.trans found')
      exact .inr ⟨j, _, _, rfl, step, own, fires⟩

/-- A frame and a later one fire the same message only if it came before its time. -/
theorem Lagging.apart (lagging : Lagging states) (advances : states.IsChain Advances)
    (distinct : ∀ one ∈ states, one.radio.Nodup) {i j : Nat} {before' after' : View}
    (ordered : i < j) (step : Step states i before after) (step' : Step states j before' after')
    {ref : TimelineRef} (one : Fires before after ref) : ¬ Fires before' after' ref := by
  have between : Grows after before' := grows_at advances (Nat.succ_le_of_lt ordered) step.2 step'.1
  have known : ref ∈ before'.radio := by
    apply between.radio.subset
    rcases one with added | ⟨old, -⟩
    · exact List.mem_of_mem_drop added
    · exact (grows_at advances (Nat.le_succ i) step.1 step.2).radio.subset old
  rintro (added' | ⟨-, early', due'⟩)
  · exact appended_notMem advances distinct step' added' known
  · rcases one with added | ⟨-, -, due⟩
    · have early := between.clock.trans_lt early'
      have late := lagging i before after step ref added early after' (List.mem_of_getElem? step'.2)
      exact absurd due' (not_le.mpr late)
    · exact absurd (due.trans between.clock) (not_le.mpr early')

/-- A message that is added ahead of its time fires again when its time comes. -/
theorem FiresOnce.lagging (saw : watcher.Saw state) (advances : (state :: frames).IsChain Advances)
    (warm : 0 ≤ state.rev) (distinct : ∀ one ∈ state :: frames, one.radio.Nodup)
    (fires : FiresOnce (state :: frames) ([] :: firedOver watcher frames)) : Lagging (state :: frames) := by
  intro i before after step ref added early later member
  by_contra late
  obtain ⟨k, found⟩ := List.mem_iff_getElem?.mp member
  have ordered : i + 1 ≤ k := by
    by_contra sooner
    have grows := grows_at advances (show k ≤ i + 1 by omega) found step.2
    exact late (grows.clock.trans_lt early)
  obtain ⟨j, one, two, apart, step', below, above⟩ :=
    exists_reached ordered step.2 early found (not_lt.mp late)
  obtain ⟨clips, own, -, mem⟩ := firedOver_spec saw advances warm distinct step
  obtain ⟨clips', own', -, mem'⟩ := firedOver_spec saw advances warm distinct step'
  have known : ref ∈ one.radio :=
    (grows_at advances apart step.2 step'.1).radio.subset (List.mem_of_mem_drop added)
  obtain ⟨within, same⟩ := List.getElem?_eq_some_iff.mp own
  obtain ⟨within', same'⟩ := List.getElem?_eq_some_iff.mp own'
  have disjoint := (List.nodup_flatten.mp fires.once).2
  have twice := List.pairwise_iff_getElem.mp disjoint (i + 1) (j + 1)
    (by rw [List.length_cons]; omega) (by rw [List.length_cons]; omega) (by omega)
  simp only [List.getElem_cons_succ, same, same'] at twice
  exact twice ((mem ref).mpr (.inl added)) ((mem' ref).mpr (.inr ⟨known, below, above⟩))

theorem Lagging.nodup (lagging : Lagging (state :: frames)) (saw : watcher.Saw state)
    (advances : (state :: frames).IsChain Advances) (warm : 0 ≤ state.rev)
    (distinct : ∀ one ∈ state :: frames, one.radio.Nodup) :
    ([] :: firedOver watcher frames).flatten.Nodup := by
  refine List.nodup_flatten.mpr ⟨?_, ?_⟩
  · intro clips member
    obtain ⟨i, found⟩ := List.mem_iff_getElem?.mp member
    rcases fired_at saw advances warm distinct found with rfl | ⟨_, _, _, _, _, own, _⟩
    · exact List.nodup_nil
    · exact own
  · rw [List.pairwise_iff_getElem]
    intro i j within within' ordered ref one two
    rcases fired_at saw advances warm distinct (List.getElem?_eq_getElem within) with
      none | ⟨i, before, after, rfl, step, -, mem⟩
    · rw [none] at one
      cases one
    rcases fired_at saw advances warm distinct (List.getElem?_eq_getElem within') with
      none | ⟨j, before', after', rfl, step', -, mem'⟩
    · rw [none] at two
      cases two
    exact lagging.apart advances distinct (by omega) step step' ((mem ref).mp one) ((mem' ref).mp two)

theorem firesOnce_iff_lagging (saw : watcher.Saw state)
    (advances : (state :: frames).IsChain Advances) (warm : 0 ≤ state.rev)
    (distinct : ∀ one ∈ state :: frames, one.radio.Nodup) :
    FiresOnce (state :: frames) ([] :: firedOver watcher frames) ↔ Lagging (state :: frames) := by
  refine ⟨FiresOnce.lagging saw advances warm distinct, fun lagging => ?_⟩
  refine ⟨lagging.nodup saw advances warm distinct, ?_, ?_⟩
  · intro i before after step ref added
    obtain ⟨clips, found, -, mem⟩ := firedOver_spec saw advances warm distinct step
    exact ⟨clips, found, (mem ref).mpr (.inl added)⟩
  · intro snapshot head ref known early i before after clips step found
    obtain rfl : state = snapshot := Option.some.inj head
    obtain ⟨clips', found', -, mem⟩ := firedOver_spec saw advances warm distinct step
    obtain rfl := Option.some.inj (found.symm.trans found')
    have old := (grows_at advances (Nat.zero_le i) rfl step.1).radio.subset known
    rw [mem ref]
    constructor
    · rintro (added | ⟨-, due⟩)
      · exact absurd old (appended_notMem advances distinct step added)
      · exact due
    · exact fun due => .inr ⟨old, due⟩

/-- Nothing is due on a frame that is taken for the snapshot. -/
def Idle (snapshot frame : View) : Prop :=
  appended snapshot frame = [] ∧
    ∀ ref ∈ snapshot.radio, snapshot.timeMs < ref.timeMs → frame.timeMs < ref.timeMs

theorem FiresOnce.idle {frame : View} {fired : List (List TimelineRef)}
    (fires : FiresOnce (snapshot :: frame :: frames) ([] :: [] :: fired)) : Idle snapshot frame := by
  have start : Step (snapshot :: frame :: frames) 0 snapshot frame := ⟨rfl, rfl⟩
  refine ⟨List.eq_nil_iff_forall_not_mem.mpr fun ref added => ?_, fun ref known early => ?_⟩
  · obtain ⟨clips, found, member⟩ := fires.arrival 0 snapshot frame start ref added
    rw [← Option.some.inj found] at member
    cases member
  · by_contra due
    have member := (fires.clock snapshot rfl ref known early 0 snapshot frame [] start rfl).mpr
      ⟨early, not_lt.mp due⟩
    cases member

theorem Idle.radio {frame : View} (idle : Idle snapshot frame) (first : Advances snapshot frame) :
    frame.radio = snapshot.radio := by
  rw [first.radio_eq, idle.1, List.append_nil]

/-- After such a frame everything is as if it had been the snapshot. -/
theorem Idle.firesOnce_iff {frame : View} {fired : List (List TimelineRef)} (idle : Idle snapshot frame)
    (first : Advances snapshot frame) :
    FiresOnce (snapshot :: frame :: frames) ([] :: [] :: fired) ↔
      FiresOnce (frame :: frames) ([] :: fired) := by
  have same := idle.radio first
  constructor
  · intro fires
    refine ⟨by simpa using fires.once, fun i => fires.arrival (i + 1), ?_⟩
    intro seed head ref known early i before after clips step found
    obtain rfl : frame = seed := Option.some.inj head
    exact fires.clock snapshot rfl ref (same ▸ known) (first.clock.trans_lt early) (i + 1) before
      after clips step found
  · intro fires
    refine ⟨by simpa using fires.once, ?_, ?_⟩
    · intro i before after step ref added
      cases i with
      | zero =>
          obtain rfl : snapshot = before := Option.some.inj step.1
          obtain rfl : frame = after := Option.some.inj step.2
          rw [idle.1] at added
          cases added
      | succ i => exact fires.arrival i before after step ref added
    · intro seed head ref known early i before after clips step found
      obtain rfl : snapshot = seed := Option.some.inj head
      have ahead := idle.2 ref known early
      cases i with
      | zero =>
          obtain rfl : frame = after := Option.some.inj step.2
          obtain rfl : [] = clips := Option.some.inj found
          refine ⟨nofun, fun due => ?_⟩
          exact absurd due.2 (not_le.mpr ahead)
      | succ i => exact fires.clock frame rfl ref (same ▸ known) ahead i before after clips step found

theorem Idle.lagging_iff {frame : View} (idle : Idle snapshot frame) (first : Advances snapshot frame) :
    Lagging (snapshot :: frame :: frames) ↔ Lagging (frame :: frames) := by
  constructor
  · intro lagging i before after step ref added early later member
    exact lagging (i + 1) before after step ref added early later (List.mem_cons_of_mem _ member)
  · intro lagging i before after step ref added early later member
    cases i with
    | zero =>
        obtain rfl : snapshot = before := Option.some.inj step.1
        obtain rfl : frame = after := Option.some.inj step.2
        rw [idle.1] at added
        cases added
    | succ i =>
        have behind := lagging i before after step ref added early
        rcases List.mem_cons.mp member with rfl | member
        · exact first.clock.trans_lt (behind frame (List.mem_cons_self ..))
        · exact behind later member

/-- Between two snapshots every clip fires as it should exactly when none is added ahead of its
time, and nothing is due on a frame that stands in for the snapshot. -/
theorem fires_once_iff (segment : Segment snapshot frames)
    (unaware : watcher.Unaware snapshot.snapshotSeq) :
    FiresOnce (snapshot :: frames) (firedOver watcher (snapshot :: frames)) ↔
      Timely snapshot frames := by
  have changed : watcher.deps ≠ some (snapshot.rev, snapshot.snapshotSeq) :=
    fun same => unaware.deps _ same rfl
  rw [firedOver]
  by_cases cold : snapshot.rev = 0
  · rw [watch_warmingUp changed cold, Option.map_none, Option.getD_none]
    cases frames with
    | nil =>
        have still {i : Nat} {before after : View} : ¬ Step [snapshot] i before after := fun step => by
          have next := step.2
          simp at next
        refine iff_of_true ⟨by simp [firedOver], fun i before after step => absurd step still,
          fun _ _ _ _ _ i before after clips step => absurd step still⟩
          ⟨fun i before after step => absurd step still, fun _ _ member => by cases member⟩
    | cons frame rest =>
        obtain ⟨first, later⟩ := List.isChain_cons_cons.mp segment.advances
        have revised : 0 < frame.rev := cold ▸ first.rev
        have renewed : ({ watcher with deps := some (0, snapshot.snapshotSeq) } : Watcher).deps ≠
            some (frame.rev, frame.snapshotSeq) := by
          intro same
          exact revised.ne (congrArg Prod.fst (Option.some.inj same))
        have isSnapshot : ({ watcher with deps := some (0, snapshot.snapshotSeq) } :
            Watcher).lastSnapshotSeq ≠ frame.snapshotSeq := by
          rw [first.snapshotSeq]
          exact unaware.seq
        obtain ⟨none, saw⟩ := watch_snapshot renewed isSnapshot revised.ne'
        have onward := firesOnce_iff_lagging saw later revised.le
          fun one member => segment.distinct one (List.mem_cons_of_mem _ member)
        rw [firedOver, none]
        constructor
        · intro fires
          have idle := fires.idle
          have lagging := onward.mp ((idle.firesOnce_iff first).mp fires)
          refine ⟨(idle.lagging_iff first).mpr lagging, fun _ one head => ?_⟩
          obtain rfl : frame = one := Option.some.inj head
          exact idle
        · intro timely
          have idle : Idle snapshot frame := timely.seeded cold frame rfl
          exact (idle.firesOnce_iff first).mpr (onward.mpr ((idle.lagging_iff first).mp timely.lagging))
  · obtain ⟨none, saw⟩ := watch_snapshot changed unaware.seq cold
    rw [none, firesOnce_iff_lagging saw segment.advances segment.rev segment.distinct]
    exact ⟨fun lagging => ⟨lagging, fun same => absurd same cold⟩, fun timely => timely.lagging⟩

/-- Half a second ahead of the clock when it arrives, and reached by the next frame. -/
def early : TimelineRef := ⟨1, 0, 1500, 44, "https://livetiming.formula1.com/44.mp3"⟩

def earlySnapshot : View := ⟨1, 1, 0, []⟩

def earlyFrames : List View := [⟨2, 1, 1000, [early]⟩, ⟨3, 1, 2000, [early]⟩]

theorem early_segment : Segment earlySnapshot earlyFrames := by
  refine ⟨?_, by decide, by decide⟩
  refine .cons_cons ⟨by decide, rfl, by decide, List.nil_prefix⟩
    (.cons_cons ⟨by decide, rfl, by decide, List.prefix_refl _⟩ (.singleton _))

theorem mount_unaware (snapshotSeq : Nat) : Watcher.mount.Unaware snapshotSeq :=
  ⟨by simp only [Watcher.mount]; omega, nofun⟩

theorem Watcher.Unaware.watch {snapshotSeq : Nat} (unaware : watcher.Unaware snapshotSeq)
    (other : state.snapshotSeq ≠ snapshotSeq) : (watcher.watch state).1.Unaware snapshotSeq := by
  have renewed : ∀ deps ∈ some (state.rev, state.snapshotSeq), deps.2 ≠ snapshotSeq := by
    intro deps found
    obtain rfl := Option.some.inj found
    exact other
  rw [Watcher.watch]
  simp only
  split_ifs
  · exact unaware
  · exact ⟨unaware.seq, renewed⟩
  · exact ⟨fun same => other (Int.ofNat.inj same), renewed⟩
  · exact ⟨fun same => other (Int.ofNat.inj same), renewed⟩

theorem Watcher.Unaware.foldl {snapshotSeq : Nat} (unaware : watcher.Unaware snapshotSeq)
    (others : ∀ state ∈ states, state.snapshotSeq ≠ snapshotSeq) :
    (states.foldl (fun watcher state => (Watcher.watch watcher state).1) watcher).Unaware snapshotSeq := by
  induction states generalizing watcher with
  | nil => exact unaware
  | cons first rest ih =>
      obtain ⟨other, others⟩ := List.forall_mem_cons.mp others
      exact ih (unaware.watch other) others

theorem fires_once_iff_early :
    Segment earlySnapshot earlyFrames ∧ Watcher.mount.Unaware earlySnapshot.snapshotSeq ∧
      (FiresOnce (earlySnapshot :: earlyFrames) (firedOver .mount (earlySnapshot :: earlyFrames)) ↔
        Timely earlySnapshot earlyFrames) :=
  ⟨early_segment, mount_unaware 1, fires_once_iff early_segment (mount_unaware 1)⟩

/-- It fires on arrival, and a second time when the clock reaches it. -/
theorem early_fires_twice :
    firedOver .mount (earlySnapshot :: earlyFrames) = [[], [early], [early]] ∧
      ¬ ∀ watcher snapshot frames, Segment snapshot frames → watcher.Unaware snapshot.snapshotSeq →
        FiresOnce (snapshot :: frames) (firedOver watcher (snapshot :: frames)) := by
  have fired : firedOver .mount (earlySnapshot :: earlyFrames) = [[], [early], [early]] := by
    decide +kernel
  refine ⟨fired, fun fires => ?_⟩
  have once := (fires .mount earlySnapshot earlyFrames early_segment (mount_unaware 1)).once
  rw [fired] at once
  revert once
  decide

/-- A message of the timeline that `snapshotSeq` began; its fields have passed `isRadioRefs`. -/
def timelineRef (snapshotSeq index : Nat) (json : Json) : TimelineRef where
  seq := snapshotSeq
  index := index
  timeMs := ((json.get? "timeMs").bind asNumber).getD 0
  driverNum := ((json.get? "driverNum").bind asNumber).getD 0
  clip := ((json.get? "clip").bind asString).getD ""

def view (state : RaceState) : View where
  rev := state.rev
  snapshotSeq := state.snapshotSeq
  timeMs := state.timeMs
  radio := state.radio.mapIdx (timelineRef state.snapshotSeq)

theorem view_distinct (state : RaceState) : (view state).radio.Nodup := by
  rw [List.nodup_iff_pairwise_ne, List.pairwise_iff_getElem]
  intro i j within within' less same
  simp only [view, List.getElem_mapIdx] at same
  exact less.ne (congrArg TimelineRef.index same)

theorem view_prefix {state after : RaceState} {more : List Json}
    (seq : after.snapshotSeq = state.snapshotSeq) (grown : after.radio = state.radio ++ more) :
    (view state).radio <+: (view after).radio := by
  rw [view, view, grown, seq, List.mapIdx_append]
  exact List.prefix_append ..

/-- A frame that is not dropped follows the view that it is applied to. -/
theorem follows_applyFrame {state after : RaceState} {data : FrameData} (newer : state.rev < data.rev)
    (applied : applyFrame state data = .ok after) :
    Follows (view state) (view after) ∧ after.timeMs = data.timeMs := by
  rw [applyFrame, if_neg (not_le.mpr newer), bind_eq_ok_iff] at applied
  obtain ⟨cars, -, result⟩ := applied
  cases result
  refine ⟨⟨newer, rfl, ?_⟩, rfl⟩
  cases data.radio with
  | none => exact view_prefix rfl (List.append_nil _).symm
  | some radio =>
      cases radio with
      | nil => exact view_prefix rfl (List.append_nil _).symm
      | cons first rest => exact view_prefix rfl rfl

theorem view_applyFrame {state after : RaceState} {data : FrameData} (newer : state.rev < data.rev)
    (clock : state.timeMs ≤ data.timeMs) (applied : applyFrame state data = .ok after) :
    Advances (view state) (view after) := by
  obtain ⟨follows, same⟩ := follows_applyFrame newer applied
  exact ⟨follows.rev, follows.snapshotSeq, clock.trans_eq same.symm, follows.radio⟩

/-- A snapshot and the frames applied to it, in the order of their revisions and with the clock
moving on, are a segment. -/
theorem segment_of_reducer {snapshot : RaceState} {frames : List RaceState} (warm : 0 ≤ snapshot.rev)
    (applied : (snapshot :: frames).IsChain fun before after => ∃ data : FrameData,
      before.rev < data.rev ∧ before.timeMs ≤ data.timeMs ∧ applyFrame before data = .ok after) :
    Segment (view snapshot) (frames.map view) := by
  refine ⟨?_, warm, ?_⟩
  · rw [← List.map_cons, List.isChain_map]
    exact applied.imp fun before after ⟨data, newer, clock, result⟩ =>
      view_applyFrame newer clock result
  · intro one member
    rw [← List.map_cons, List.mem_map] at member
    obtain ⟨state, -, rfl⟩ := member
    exact view_distinct state

end RaceTracker.Web
