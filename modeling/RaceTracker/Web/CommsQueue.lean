import Mathlib.Data.List.Induction
import RaceTracker.Web.Comms

namespace RaceTracker.Web

open RaceTracker.Lib

/-! The queue of the comms layer: what is started from it, and when it is left waiting. -/

variable {browser : Browser} {player after : Player} {event : CommsEvent}

/-- Pumping does nothing while something plays; else it starts the first clip that may be played,
and drops those before it. -/
theorem pump_cases (browser : Browser) (player : Player) :
    (player.pump browser = player ∧ (browser.audio = false ∨ player.nowPlaying.isSome)) ∨
    player.pump browser = { player with queue := [] } ∨
    ∃ skipped next rest, browser.audio ∧ player.queue = skipped ++ next :: rest ∧
      player.playable browser next ∧ player.pump browser = { player with queue := rest }.start next true := by
  rw [Player.pump]
  split
  · rename_i busy
    exact .inl ⟨rfl, busy⟩
  · rename_i idle
    split
    · exact .inr (.inl rfl)
    · rename_i next rest found
      refine .inr (.inr ⟨player.queue.takeWhile fun msg => !player.playable browser msg, next, rest,
        Bool.eq_true_of_not_eq_false fun absent => idle (.inl absent), ?_, ?_, rfl⟩)
      · rw [← found, List.takeWhile_append_dropWhile]
      · have head := List.head?_dropWhile_not (fun msg => !player.playable browser msg) player.queue
        rw [found] at head
        simpa using head

/-- The parts of the player that playing is about stay as they are. -/
structure Still (player next : Player) : Prop where
  enabled : next.enabled = player.enabled
  nowPlaying : next.nowPlaying = player.nowPlaying
  queue : next.queue = player.queue
  starts : next.starts = player.starts
  firings : next.firings = player.firings
  live : next.live = player.live
  watcher : next.watcher = player.watcher

def Player.watch (player : Player) (state : View) (arrived : List TimelineRef) : Player :=
  { player with watcher := (player.watcher.watch state).1, live := arrived ++ player.live }

/-- What an event can do to the playing. -/
inductive Change (browser : Browser) (player : Player) : CommsEvent → Player → Prop
  | quiet {event : CommsEvent} {next : Player} (still : Still player next) : Change browser player event next
  | unseen {state : View} {next : Player} (watched : (player.watcher.watch state).2 = none)
      (still : Still (player.watch state []) next) : Change browser player (.state state) next
  | sees {state : View} {seen : Sighting} {next : Player}
      (watched : (player.watcher.watch state).2 = some seen)
      (still : Still (player.watch state seen.arrived) next) : Change browser player (.state state) next
  | fires {state : View} {seen : Sighting} {next : Player} (on : player.enabled)
      (watched : (player.watcher.watch state).2 = some seen)
      (still : Still (player.watch state seen.arrived) next) :
      Change browser player (.state state) ((next.enqueue seen.fired).pump browser)
  | ended : Change browser player .ended (Player.pump browser { player with nowPlaying := none })
  | refused {msg : TimelineRef} {next : Player} (current : player.nowPlaying = some msg)
      (still : Still { player with nowPlaying := none } next) : Change browser player (.rejected msg) next
  | off {next : Player} (on : player.enabled)
      (still : Still { player with queue := [], nowPlaying := none, enabled := false } next) :
      Change browser player .toggle next
  | on {next : Player} (off : player.enabled = false) (still : Still { player with enabled := true } next) :
      Change browser player .toggle next
  | replayed {msg : TimelineRef} (audio : browser.audio) (allowed : browser.isAllowedClip msg.clip) :
      Change browser player (.replay msg) (Player.start { player with queue := [] } msg false)

theorem Still.refl (player : Player) : Still player player := ⟨rfl, rfl, rfl, rfl, rfl, rfl, rfl⟩

theorem onState_fires {state : View} {seen : Sighting} (on : player.enabled)
    (watched : (player.watcher.watch state).2 = some seen) (fired : seen.fired ≠ []) :
    ∃ next, Still (player.watch state seen.arrived) next ∧
      player.onState browser state = (next.enqueue seen.fired).pump browser := by
  have whole : player.watcher.watch state = ((player.watcher.watch state).1, some seen) :=
    Prod.ext rfl watched
  let saw := player.see state (player.watcher.watch state).1 seen
  refine ⟨{ saw with history := (seen.fired.reverse ++ saw.history).take HISTORY_MAX },
    ⟨rfl, rfl, rfl, rfl, rfl, rfl, rfl⟩, ?_⟩
  rw [Player.onState, whole]
  simp only [if_neg fired]
  exact if_pos on

theorem onState_change (browser : Browser) (player : Player) (state : View) :
    Change browser player (.state state) (player.onState browser state) := by
  rw [Player.onState]
  split
  · rename_i watcher watched
    have same : watcher = (player.watcher.watch state).1 := by rw [watched]
    exact .unseen (by rw [watched]) ⟨rfl, rfl, rfl, rfl, rfl, rfl, same⟩
  · rename_i watcher seen watched
    have same : watcher = (player.watcher.watch state).1 := by rw [watched]
    have watched : (player.watcher.watch state).2 = some seen := by rw [watched]
    simp only
    split
    · exact .sees watched ⟨rfl, rfl, rfl, rfl, rfl, rfl, same⟩
    · simp only [Player.fire]
      split
      · rename_i enabled
        exact .fires enabled watched ⟨rfl, rfl, rfl, rfl, rfl, rfl, same⟩
      · exact .sees watched ⟨rfl, rfl, rfl, rfl, rfl, rfl, same⟩

theorem step_change (stepped : player.step browser event = some after) :
    Change browser player event after := by
  cases event with
  | state state =>
      obtain rfl := Option.some.inj stepped
      exact onState_change browser player state
  | ended =>
      simp only [Player.step, Option.ite_none_right_eq_some, Option.some.injEq] at stepped
      obtain ⟨-, rfl⟩ := stepped
      exact .ended
  | played msg =>
      simp only [Player.step, Option.ite_none_right_eq_some, Option.some.injEq] at stepped
      obtain ⟨-, rfl⟩ := stepped
      exact .quiet ⟨rfl, rfl, rfl, rfl, rfl, rfl, rfl⟩
  | rejected msg =>
      simp only [Player.step, Player.onRejected, Option.ite_none_right_eq_some,
        Option.some.injEq] at stepped
      obtain ⟨-, rfl⟩ := stepped
      split
      · rename_i current
        exact .refused current ⟨rfl, rfl, rfl, rfl, rfl, rfl, rfl⟩
      · exact .quiet ⟨rfl, rfl, rfl, rfl, rfl, rfl, rfl⟩
  | toggle =>
      obtain rfl := Option.some.inj stepped
      rw [Player.toggle]
      split
      · rename_i on
        exact .off on ⟨rfl, rfl, rfl, rfl, rfl, rfl, rfl⟩
      · rename_i off
        exact .on (Bool.eq_false_of_not_eq_true off) ⟨rfl, rfl, rfl, rfl, rfl, rfl, rfl⟩
  | replay msg =>
      obtain rfl := Option.some.inj stepped
      rw [Player.replay]
      split_ifs with absent allowed
      · exact .quiet (.refl _)
      · exact .replayed (Bool.eq_true_of_not_eq_false absent) allowed
      · exact .quiet ⟨rfl, rfl, rfl, rfl, rfl, rfl, rfl⟩

/-- What waits, waits for something. -/
def NotStalled (player : Player) : Prop := player.queue ≠ [] → player.nowPlaying.isSome

/-- A clip that is refused by the browser leaves nobody waiting. -/
def LeavesNone (player : Player) : CommsEvent → Prop
  | .rejected msg => player.nowPlaying = some msg → player.queue = []
  | _ => True

theorem pump_notStalled (audio : browser.audio) (player : Player) :
    NotStalled (player.pump browser) := by
  rcases pump_cases browser player with ⟨same, absent | busy⟩ | emptied | ⟨_, next, rest, -, -, -, started⟩
  · rw [audio] at absent
    cases absent
  · rw [same]
    exact fun _ => busy
  · rw [emptied]
    exact fun waiting => absurd rfl waiting
  · rw [started]
    exact fun _ => rfl

theorem Still.notStalled {next : Player} (still : Still player next) (holds : NotStalled player) :
    NotStalled next := by
  rw [NotStalled, still.queue, still.nowPlaying]
  exact holds

theorem step_notStalled (audio : browser.audio) (holds : NotStalled player)
    (leaves : LeavesNone player event) (stepped : player.step browser event = some after) :
    NotStalled after := by
  cases step_change stepped with
  | quiet still | unseen watched still | sees watched still => exact still.notStalled holds
  | fires on watched still => exact pump_notStalled audio _
  | ended => exact pump_notStalled audio _
  | refused current still => exact still.notStalled fun waiting => absurd (leaves current) waiting
  | off on still => exact still.notStalled fun waiting => absurd rfl waiting
  | on off still => exact still.notStalled holds
  | replayed present allowed => exact fun waiting => absurd rfl waiting

/-- Refusing the clip that plays while others wait stalls them. -/
theorem leavesNone_of_notStalled (stepped : player.step browser event = some after)
    (holds : NotStalled after) : LeavesNone player event := by
  cases event with
  | rejected msg =>
      simp only [Player.step, Option.ite_none_right_eq_some, Option.some.injEq] at stepped
      obtain ⟨-, rfl⟩ := stepped
      intro current
      by_contra waiting
      simp only [Player.onRejected, current, if_true] at holds
      cases holds waiting
  | _ => trivial

/-- In a run the queue never waits for nothing exactly when no clip is refused that others wait for. -/
theorem queue_never_stalls_iff (audio : browser.audio) {events : List CommsEvent} {last : Player}
    (ran : run (Player.step browser) .mount events = some last) :
    (∀ before after player, events = before ++ after →
      run (Player.step browser) .mount before = some player → NotStalled player) ↔
    ∀ before event after player, events = before ++ event :: after →
      run (Player.step browser) .mount before = some player → LeavesNone player event := by
  constructor
  · intro holds before event after player parts reached
    obtain ⟨next, stepped⟩ := stepped_of_run ran parts reached
    exact leavesNone_of_notStalled stepped (holds (before ++ [event]) after next (by simp [parts])
      (run_concat_eq_some_iff.mpr ⟨player, reached, stepped⟩))
  · intro leaves
    apply run_invariant_upto NotStalled (fun waiting => absurd rfl waiting)
    intro before event after player next parts reached holds stepped
    exact step_notStalled audio holds (leaves before event after player parts reached) stepped

/-- A page whose URLs all lead to the live timing host. -/
def livePage : Browser := ⟨true, fun _ => some ⟨"https:", "livetiming.formula1.com"⟩⟩

def firstClip : TimelineRef := ⟨1, 0, 500, 44, "https://livetiming.formula1.com/44.mp3"⟩

def secondClip : TimelineRef := ⟨1, 1, 600, 16, "https://livetiming.formula1.com/16.mp3"⟩

/-- Two clips arrive on one frame, and the browser refuses the first. -/
def refusal : List CommsEvent :=
  [.toggle, .state ⟨1, 1, 1000, []⟩, .state ⟨2, 1, 1100, [firstClip, secondClip]⟩, .rejected firstClip]

theorem refusal_runs : ∃ last, run (Player.step livePage) .mount refusal = some last :=
  Option.isSome_iff_exists.mp (by decide +kernel)

theorem queue_never_stalls_iff_refusal :
    (∀ before after player, refusal = before ++ after →
      run (Player.step livePage) .mount before = some player → NotStalled player) ↔
    ∀ before event after player, refusal = before ++ event :: after →
      run (Player.step livePage) .mount before = some player → LeavesNone player event :=
  let ⟨_, ran⟩ := refusal_runs
  queue_never_stalls_iff rfl ran

/-- The second clip is left in the queue with nothing playing. -/
theorem refusal_stalls :
    (∃ player, run (Player.step livePage) .mount refusal = some player ∧
      player.queue = [secondClip] ∧ player.nowPlaying = none) ∧
    ¬ ∀ events player, run (Player.step livePage) .mount events = some player → NotStalled player := by
  have reached : (run (Player.step livePage) .mount refusal).map
      (fun player => (player.queue, player.nowPlaying)) = some ([secondClip], none) := by
    decide +kernel
  obtain ⟨player, ran, same⟩ := Option.map_eq_some_iff.mp reached
  obtain ⟨queue, nowPlaying⟩ := Prod.mk.inj same
  refine ⟨⟨player, ran, queue, nowPlaying⟩, fun holds => ?_⟩
  have playing := holds refusal player ran (by simp [queue])
  rw [nowPlaying] at playing
  cases playing

/-- What was started by itself, of all that was started. -/
def automatic (starts : List Start) : List TimelineRef := (starts.filter Start.automatic).map Start.ref

theorem automatic_append (first second : List Start) :
    automatic (first ++ second) = automatic first ++ automatic second := by
  rw [automatic, List.filter_append, List.map_append, automatic, automatic]

/-- From an accepted host, and by itself only while the race clock is near or it arrived live. -/
structure Start.Sound (browser : Browser) (live : List TimelineRef) (start : Start) : Prop where
  allowed : browser.isAllowedClip start.ref.clip
  fresh : start.automatic → isStale start.ref start.clock = false ∨ start.ref ∈ live

/-- What is started by itself and what still waits come from what waited and what was fired. -/
structure Progress (browser : Browser) (before after : Player) (starts : List Start)
    (firings : List TimelineRef) : Prop where
  started : after.starts = before.starts ++ starts
  fired : after.firings = before.firings ++ firings
  queue : (automatic starts ++ after.queue).Sublist (before.queue ++ firings)
  live : before.live ⊆ after.live
  sound : ∀ start ∈ starts, start.Sound browser after.live

variable {before middle last : Player} {events : List CommsEvent}
  {starts more : List Start} {firings later : List TimelineRef}

theorem Start.Sound.mono {live known : List TimelineRef} {start : Start}
    (sound : start.Sound browser live) (grown : live ⊆ known) : start.Sound browser known :=
  ⟨sound.allowed, fun auto => (sound.fresh auto).imp_right (@grown _)⟩

/-- Nothing started and nothing fired; the queue may have been emptied. -/
theorem Progress.quiet (starts : after.starts = before.starts) (firings : after.firings = before.firings)
    (queue : after.queue.Sublist before.queue) (live : before.live ⊆ after.live) :
    Progress browser before after [] [] where
  started := by rw [starts, List.append_nil]
  fired := by rw [firings, List.append_nil]
  queue := by simpa [automatic] using queue
  live := live
  sound := nofun

theorem Progress.trans (first : Progress browser before middle starts firings)
    (second : Progress browser middle last more later) :
    Progress browser before last (starts ++ more) (firings ++ later) where
  started := by rw [second.started, first.started, List.append_assoc]
  fired := by rw [second.fired, first.fired, List.append_assoc]
  queue := by
    rw [automatic_append, List.append_assoc, ← List.append_assoc before.queue]
    apply (second.queue.append_left (automatic starts)).trans
    rw [← List.append_assoc]
    exact first.queue.append_right later
  live := List.Subset.trans first.live second.live
  sound := fun start member => (List.mem_append.mp member).elim
    (fun old => (first.sound start old).mono second.live) (second.sound start)

theorem pump_progress (browser : Browser) (player : Player) :
    ∃ starts, Progress browser player (player.pump browser) starts [] := by
  rcases pump_cases browser player with ⟨same, -⟩ | emptied | ⟨skipped, next, rest, -, queue, fits, started⟩
  · rw [same]
    exact ⟨[], .quiet rfl rfl (.refl _) (List.Subset.refl _)⟩
  · rw [emptied]
    exact ⟨[], .quiet rfl rfl (List.nil_sublist _) (List.Subset.refl _)⟩
  · rw [started]
    refine ⟨[⟨next, true, player.clock⟩], rfl, (List.append_nil _).symm, ?_, List.Subset.refl _, ?_⟩
    · rw [queue, List.append_nil]
      exact List.sublist_append_right skipped (next :: rest)
    · intro start member
      obtain rfl := List.mem_singleton.mp member
      simp only [Player.playable, Bool.and_eq_true, Bool.or_eq_true, Bool.not_eq_true',
        decide_eq_true_eq] at fits
      exact ⟨fits.2, fun _ => fits.1⟩

theorem enqueue_progress (player : Player) (fired : List TimelineRef) :
    Progress browser player (player.enqueue fired) [] fired where
  started := (List.append_nil _).symm
  fired := rfl
  queue := .refl _
  live := List.Subset.refl _
  sound := nofun

theorem Still.progress {next : Player} (still : Still player next) : Progress browser player next [] [] :=
  .quiet still.starts still.firings (still.queue ▸ .refl _) (still.live ▸ List.Subset.refl _)

theorem step_progress (stepped : player.step browser event = some after) :
    ∃ starts firings, Progress browser player after starts firings := by
  have watching (state : View) (arrived : List TimelineRef) :
      Progress browser player (player.watch state arrived) [] [] :=
    .quiet rfl rfl (.refl _) (List.subset_append_right ..)
  cases step_change stepped with
  | quiet still => exact ⟨_, _, still.progress⟩
  | unseen watched still => exact ⟨_, _, (watching _ _).trans still.progress⟩
  | sees watched still => exact ⟨_, _, (watching _ _).trans still.progress⟩
  | @fires state seen next on watched still =>
      obtain ⟨starts, started⟩ := pump_progress browser (next.enqueue seen.fired)
      exact ⟨_, _, (((watching _ _).trans still.progress).trans (enqueue_progress next _)).trans started⟩
  | ended =>
      obtain ⟨starts, started⟩ := pump_progress browser { player with nowPlaying := none }
      have stopped : Progress browser player { player with nowPlaying := none } [] [] :=
        .quiet rfl rfl (.refl _) (List.Subset.refl _)
      exact ⟨_, _, stopped.trans started⟩
  | refused current still =>
      exact ⟨_, _, .quiet still.starts still.firings (still.queue ▸ .refl _)
        (still.live ▸ List.Subset.refl _)⟩
  | off on still =>
      exact ⟨_, _, .quiet still.starts still.firings (still.queue ▸ List.nil_sublist _)
        (still.live ▸ List.Subset.refl _)⟩
  | on off still =>
      exact ⟨_, _, .quiet still.starts still.firings (still.queue ▸ .refl _)
        (still.live ▸ List.Subset.refl _)⟩
  | @replayed msg audio allowed =>
      refine ⟨[⟨msg, false, player.clock⟩], [], rfl, (List.append_nil _).symm, List.nil_sublist _,
        List.Subset.refl _, ?_⟩
      intro start member
      obtain rfl := List.mem_singleton.mp member
      exact ⟨allowed, nofun⟩

theorem run_progress (ran : run (Player.step browser) player events = some last) :
    ∃ starts firings, Progress browser player last starts firings := by
  induction events generalizing player with
  | nil =>
      cases ran
      exact ⟨[], [], .quiet rfl rfl (.refl _) (List.Subset.refl _)⟩
  | cons event rest ih =>
      rw [run_cons, Option.bind_eq_some_iff] at ran
      obtain ⟨next, stepped, ran⟩ := ran
      obtain ⟨starts, firings, first⟩ := step_progress stepped
      obtain ⟨more, later, second⟩ := ih ran
      exact ⟨_, _, first.trans second⟩

/-- The layer starts a clip again, or lets all that waits go. -/
def Clears (browser : Browser) : CommsEvent → Prop
  | .toggle => True
  | .replay msg => browser.audio ∧ browser.isAllowedClip msg.clip
  | _ => False

theorem pump_disabled (enabled : player.enabled = false → player.queue = []) :
    (player.pump browser).enabled = false → (player.pump browser).queue = [] := by
  rcases pump_cases browser player with ⟨same, -⟩ | emptied | ⟨skipped, next, rest, -, queue, -, started⟩
  · rw [same]
    exact enabled
  · rw [emptied]
    exact fun _ => rfl
  · rw [started]
    intro off
    rw [enabled off] at queue
    simp at queue

theorem step_disabled (enabled : player.enabled = false → player.queue = [])
    (stepped : player.step browser event = some after) : after.enabled = false → after.queue = [] := by
  cases step_change stepped with
  | quiet still | unseen watched still | sees watched still | refused current still =>
      rw [still.enabled, still.queue]
      exact enabled
  | fires on watched still =>
      refine pump_disabled fun off => ?_
      have off : player.enabled = false := still.enabled ▸ off
      rw [on] at off
      cases off
  | ended => exact pump_disabled enabled
  | off on still => exact fun _ => still.queue
  | on off still =>
      rw [still.enabled]
      exact nofun
  | replayed audio allowed => exact fun _ => rfl

theorem step_clears (enabled : player.enabled = false → player.queue = []) (clears : Clears browser event)
    (stepped : player.step browser event = some after) : after.queue = [] := by
  cases event with
  | toggle =>
      obtain rfl := Option.some.inj stepped
      rw [Player.toggle]
      split
      · rfl
      · rename_i off
        exact enabled (Bool.eq_false_of_not_eq_true off)
  | replay msg =>
      obtain rfl := Option.some.inj stepped
      obtain ⟨audio, allowed⟩ := clears
      simp only [Player.replay, audio, allowed, if_true]
      rfl
  | _ => cases clears

/-- A state of the run brought the message after the snapshot of its timeline. -/
def ArrivedLive (browser : Browser) (events : List CommsEvent) (ref : TimelineRef) : Prop :=
  ∃ before state after player seen, events = before ++ .state state :: after ∧
    run (Player.step browser) .mount before = some player ∧
    (player.watcher.watch state).2 = some seen ∧ ref ∈ seen.arrived

theorem pump_live (browser : Browser) (player : Player) : (player.pump browser).live = player.live := by
  rcases pump_cases browser player with ⟨same, -⟩ | emptied | ⟨_, _, _, -, -, -, started⟩
  · rw [same]
  · rw [emptied]
  · rw [started]
    rfl

theorem step_live (stepped : player.step browser event = some after) {ref : TimelineRef}
    (live : ref ∈ after.live) : ref ∈ player.live ∨ ∃ state seen, event = .state state ∧
      (player.watcher.watch state).2 = some seen ∧ ref ∈ seen.arrived := by
  cases step_change stepped with
  | quiet still | unseen watched still | refused current still | off on still | on off still =>
      rw [still.live] at live
      exact .inl live
  | sees watched still =>
      rw [still.live, Player.watch, List.mem_append] at live
      exact live.symm.imp_right fun arrived => ⟨_, _, rfl, watched, arrived⟩
  | @fires state seen next on watched still =>
      have live : ref ∈ next.live := by rwa [pump_live] at live
      rw [still.live, Player.watch, List.mem_append] at live
      exact live.symm.imp_right fun arrived => ⟨_, _, rfl, watched, arrived⟩
  | ended =>
      rw [pump_live] at live
      exact .inl live
  | replayed audio allowed => exact .inl live

theorem run_live (ran : run (Player.step browser) .mount events = some last) {ref : TimelineRef}
    (live : ref ∈ last.live) : ArrivedLive browser events ref := by
  induction events using List.reverseRecOn generalizing last with
  | nil =>
      cases ran
      cases live
  | append_singleton before event ih =>
      obtain ⟨player, reached, stepped⟩ := run_concat_eq_some_iff.mp ran
      rcases step_live stepped live with known | ⟨state, seen, rfl, watched, arrived⟩
      · obtain ⟨first, state, later, old, seen, parts, rest⟩ := ih reached known
        exact ⟨first, state, later ++ [event], old, seen, by simp [parts], rest⟩
      · exact ⟨before, state, [], player, seen, rfl, reached, watched, arrived⟩

/-- However clips fire, end, are refused, replayed and switched off: every source is of an accepted
host, clips start by themselves in the order in which they fired, and none of them stale. -/
theorem automatic_playback_safe (ran : run (Player.step browser) .mount events = some last) :
    (∀ start ∈ last.starts, browser.isAllowedClip start.ref.clip) ∧
    (automatic last.starts).Sublist last.firings ∧
    (∀ before event after player, events = before ++ event :: after → Clears browser event →
      run (Player.step browser) .mount (before ++ [event]) = some player →
      ∃ starts firings, last.starts = player.starts ++ starts ∧
        last.firings = player.firings ++ firings ∧ (automatic starts).Sublist firings) ∧
    ∀ start ∈ last.starts, start.automatic →
      isStale start.ref start.clock = false ∨ ArrivedLive browser events start.ref := by
  obtain ⟨starts, firings, progress⟩ := run_progress ran
  have started : last.starts = starts := progress.started
  refine ⟨?_, ?_, ?_, ?_⟩
  · intro start member
    exact (progress.sound start (started ▸ member)).allowed
  · have fired : last.firings = firings := progress.fired
    rw [started, fired]
    exact (List.sublist_append_left ..).trans progress.queue
  · intro before event after player parts clears reached
    rw [parts, List.append_cons, run_append, reached, Option.bind_some] at ran
    obtain ⟨old, reached, stepped⟩ := run_concat_eq_some_iff.mp reached
    have disabled := run_invariant (fun player : Player => player.enabled = false → player.queue = [])
      (fun _ _ _ => step_disabled) (fun _ => rfl) reached
    have cleared := step_clears disabled clears stepped
    obtain ⟨starts, firings, progress⟩ := run_progress ran
    have order := progress.queue
    rw [cleared, List.nil_append] at order
    exact ⟨starts, firings, progress.started, progress.fired, (List.sublist_append_left ..).trans order⟩
  · intro start member auto
    exact ((progress.sound start (started ▸ member)).fresh auto).imp_right (run_live ran)

theorem automatic_playback_safe_refusal : ∃ last, run (Player.step livePage) .mount refusal = some last ∧
    (∀ start ∈ last.starts, livePage.isAllowedClip start.ref.clip) ∧
    (automatic last.starts).Sublist last.firings :=
  let ⟨last, ran⟩ := refusal_runs
  have safe := automatic_playback_safe ran
  ⟨last, ran, safe.1, safe.2.1⟩

end RaceTracker.Web
