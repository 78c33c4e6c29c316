import Mathlib.Data.List.Perm.Basic
import RaceTracker.Web.CommsQueue

namespace RaceTracker.Web

open RaceTracker.Lib

/-! What plays now, and the calls of `play()` told apart: two calls for one message are two
attempts, though the page compares the message alone. -/

variable {browser : Browser}

/-- A call of `play()`: its place among all calls, and the message its handler closes over. -/
@[ext] structure Attempt where
  number : Nat
  msg : TimelineRef
deriving DecidableEq

/-- The player, the attempts whose promises are open, and the latest attempt while it plays. -/
structure Attempts where
  player : Player
  pending : List Attempt
  current : Option Attempt

inductive AttemptEvent where
  | state (view : View)
  /-- The audio of the current attempt ends. -/
  | ended
  | played (attempt : Attempt)
  | rejected (attempt : Attempt)
  | toggle
  | replay (msg : TimelineRef)

def AttemptEvent.comms : AttemptEvent → CommsEvent
  | .state view => .state view
  | .ended => .ended
  | .played attempt => .played attempt.msg
  | .rejected attempt => .rejected attempt.msg
  | .toggle => .toggle
  | .replay msg => .replay msg

namespace Attempts

def mount : Attempts := ⟨.mount, [], none⟩

def possible (attempts : Attempts) : AttemptEvent → Bool
  | .ended => attempts.current.isSome
  | .played attempt | .rejected attempt => attempt ∈ attempts.pending
  | .state _ | .toggle | .replay _ => true

def left (attempts : Attempts) : AttemptEvent → Option Attempt
  | .ended => none
  | .rejected attempt => if attempts.current = some attempt then none else attempts.current
  | .toggle => if attempts.player.enabled then none else attempts.current
  | .state _ | .played _ | .replay _ => attempts.current

def unsettled (attempts : Attempts) : AttemptEvent → List Attempt
  | .played attempt | .rejected attempt => attempts.pending.erase attempt
  | _ => attempts.pending

/-- The player goes on to `player`; where that started a clip, the latest attempt is this one. -/
def follow (attempts : Attempts) (event : AttemptEvent) (player : Player) : Attempts :=
  match player.starts[attempts.player.starts.length]? with
  | some start =>
      let attempt : Attempt := ⟨attempts.player.starts.length, start.ref⟩
      ⟨player, attempt :: attempts.unsettled event, some attempt⟩
  | none => ⟨player, attempts.unsettled event, attempts.left event⟩

def step (browser : Browser) (attempts : Attempts) (event : AttemptEvent) : Option Attempts :=
  if attempts.possible event then
    (attempts.player.step browser event.comms).map (attempts.follow event)
  else none

/-- The page shows the clip of the attempt that plays, and nothing where none does. -/
def InStep (attempts : Attempts) : Prop :=
  attempts.player.nowPlaying = attempts.current.map Attempt.msg

def Superseded (attempts : Attempts) (attempt : Attempt) : Prop :=
  attempt.number + 1 < attempts.player.starts.length

/-- The attempt that came since plays the same message. -/
def Clashes (attempts : Attempts) (attempt : Attempt) : Prop :=
  attempts.Superseded attempt ∧ attempts.current.map Attempt.msg = some attempt.msg

end Attempts

namespace Player

/-- What an event leaves of the open promises, and of what plays, where it starts nothing. -/
def unsettled (player : Player) : CommsEvent → List TimelineRef
  | .played msg | .rejected msg => player.plays.erase msg
  | .state _ | .ended | .toggle | .replay _ => player.plays

def held (player : Player) : CommsEvent → Option TimelineRef
  | .ended => none
  | .rejected msg => if player.nowPlaying = some msg then none else player.nowPlaying
  | .toggle => if player.enabled then none else player.nowPlaying
  | .state _ | .played _ | .replay _ => player.nowPlaying

end Player

/-- Nothing is started, or one clip, which plays then. -/
inductive Begins (starts : List Start) (plays : List TimelineRef) (held : Option TimelineRef)
    (after : Player) : Prop
  | nothing (starts : after.starts = starts) (plays : after.plays = plays)
      (nowPlaying : after.nowPlaying = held)
  | clip (start : Start) (starts : after.starts = starts ++ [start])
      (plays : after.plays = start.ref :: plays) (nowPlaying : after.nowPlaying = some start.ref)

variable {player after : Player} {event : CommsEvent}

theorem pump_begins (browser : Browser) (player : Player) :
    Begins player.starts player.plays player.nowPlaying (player.pump browser) := by
  rcases pump_cases browser player with ⟨same, -⟩ | emptied | ⟨_, next, rest, -, -, -, started⟩
  · rw [same]
    exact .nothing rfl rfl rfl
  · rw [emptied]
    exact .nothing rfl rfl rfl
  · rw [started]
    exact .clip _ rfl rfl rfl

theorem onState_begins (browser : Browser) (player : Player) (state : View) :
    Begins player.starts player.plays player.nowPlaying (player.onState browser state) := by
  rw [Player.onState]
  split
  · exact .nothing rfl rfl rfl
  · rename_i watcher seen watched
    let saw := player.see state watcher seen
    let recorded := { saw with history := (seen.fired.reverse ++ saw.history).take HISTORY_MAX }
    simp only
    split
    · exact .nothing rfl rfl rfl
    · simp only [Player.fire]
      split
      · exact pump_begins browser (recorded.enqueue seen.fired)
      · exact .nothing rfl rfl rfl

theorem step_begins (stepped : player.step browser event = some after) :
    Begins player.starts (player.unsettled event) (player.held event) after := by
  cases event with
  | state state =>
      obtain rfl := Option.some.inj stepped
      exact onState_begins browser player state
  | ended =>
      simp only [Player.step, Option.ite_none_right_eq_some, Option.some.injEq] at stepped
      obtain ⟨-, rfl⟩ := stepped
      exact pump_begins browser { player with nowPlaying := none }
  | played msg =>
      simp only [Player.step, Option.ite_none_right_eq_some, Option.some.injEq] at stepped
      obtain ⟨-, rfl⟩ := stepped
      exact .nothing rfl rfl rfl
  | rejected msg =>
      simp only [Player.step, Player.onRejected, Option.ite_none_right_eq_some,
        Option.some.injEq] at stepped
      obtain ⟨-, rfl⟩ := stepped
      split
      · rename_i current
        exact .nothing rfl rfl (if_pos current).symm
      · rename_i other
        exact .nothing rfl rfl (if_neg other).symm
  | toggle =>
      obtain rfl := Option.some.inj stepped
      rw [Player.toggle]
      split
      · rename_i on
        exact .nothing rfl rfl (if_pos on).symm
      · rename_i off
        exact .nothing rfl rfl (if_neg off).symm
  | replay msg =>
      obtain rfl := Option.some.inj stepped
      rw [Player.replay]
      split_ifs
      · exact .nothing rfl rfl rfl
      · exact .clip _ rfl rfl rfl
      · exact .nothing rfl rfl rfl

namespace Attempts

variable {attempts next : Attempts} {attempt : Attempt} {event : AttemptEvent}

theorem step_eq_some_iff : attempts.step browser event = some next ↔
    attempts.possible event ∧ ∃ player, attempts.player.step browser event.comms = some player ∧
      attempts.follow event player = next := by
  rw [step, Option.ite_none_right_eq_some, Option.map_eq_some_iff]

theorem follow_of_quiet (starts : player.starts = attempts.player.starts) :
    attempts.follow event player = ⟨player, attempts.unsettled event, attempts.left event⟩ := by
  rw [follow, List.getElem?_eq_none (by rw [starts])]

theorem follow_of_started {start : Start} (starts : player.starts = attempts.player.starts ++ [start]) :
    attempts.follow event player =
      ⟨player, ⟨attempts.player.starts.length, start.ref⟩ :: attempts.unsettled event,
        some ⟨attempts.player.starts.length, start.ref⟩⟩ := by
  rw [follow, starts, List.getElem?_concat_length]

theorem follow_player (attempts : Attempts) (event : AttemptEvent) (player : Player) :
    (attempts.follow event player).player = player := by
  rw [follow]
  split <;> rfl

/-- Every run here is one of the player. -/
theorem run_player {events : List AttemptEvent}
    (ran : run (step browser) attempts events = some next) :
    run (Player.step browser) attempts.player (events.map AttemptEvent.comms) = some next.player := by
  induction events generalizing attempts with
  | nil =>
      cases ran
      rfl
  | cons event rest ih =>
      rw [run_cons, Option.bind_eq_some_iff] at ran
      obtain ⟨middle, stepped, ran⟩ := ran
      obtain ⟨-, player, played, rfl⟩ := step_eq_some_iff.mp stepped
      have later := ih ran
      rw [follow_player] at later
      rw [List.map_cons, run_cons, played, Option.bind_some]
      exact later

/-- The open attempts are those of the player's open promises, and the current one is the last. -/
structure Numbered (attempts : Attempts) : Prop where
  known : ∀ attempt ∈ attempts.pending, attempt.number < attempts.player.starts.length
  latest : ∀ attempt, attempts.current = some attempt → attempt.number + 1 = attempts.player.starts.length
  settles : (attempts.pending.map Attempt.msg).Perm attempts.player.plays

theorem mount_numbered : mount.Numbered := ⟨nofun, nofun, .nil⟩

theorem left_subset (left : attempts.left event = some attempt) : attempts.current = some attempt := by
  cases event with
  | ended => cases left
  | rejected other =>
      rw [Attempts.left, Option.ite_none_left_eq_some] at left
      exact left.2
  | toggle =>
      rw [Attempts.left, Option.ite_none_left_eq_some] at left
      exact left.2
  | state _ | played _ | replay _ => exact left

theorem unsettled_subset (open_ : attempt ∈ attempts.unsettled event) : attempt ∈ attempts.pending := by
  cases event with
  | played other | rejected other => exact List.mem_of_mem_erase open_
  | state _ | ended | toggle | replay _ => exact open_

theorem unsettled_perm (numbered : attempts.Numbered) (possible : attempts.possible event) :
    ((attempts.unsettled event).map Attempt.msg).Perm (attempts.player.unsettled event.comms) := by
  cases event with
  | played attempt | rejected attempt =>
      have pending : attempt ∈ attempts.pending := of_decide_eq_true possible
      have split := (List.perm_cons_erase pending).map Attempt.msg
      have plays : attempt.msg ∈ attempts.player.plays :=
        numbered.settles.mem_iff.mp (List.mem_map_of_mem pending)
      exact (split.symm.trans (numbered.settles.trans (List.perm_cons_erase plays))).cons_inv
  | state _ | ended | toggle | replay _ => exact numbered.settles

theorem step_numbered (numbered : attempts.Numbered) (stepped : attempts.step browser event = some next) :
    next.Numbered := by
  obtain ⟨possible, player, played, rfl⟩ := step_eq_some_iff.mp stepped
  have settles := unsettled_perm numbered possible
  cases step_begins played with
  | nothing starts plays nowPlaying =>
      rw [follow_of_quiet starts]
      refine ⟨fun attempt member => ?_, fun attempt left => ?_, ?_⟩
      · rw [starts]
        exact numbered.known attempt (unsettled_subset member)
      · rw [starts]
        exact numbered.latest attempt (left_subset left)
      · rw [plays]
        exact settles
  | clip start starts plays nowPlaying =>
      have grown : player.starts.length = attempts.player.starts.length + 1 := by
        rw [starts, List.length_append, List.length_singleton]
      rw [follow_of_started starts]
      refine ⟨fun attempt member => ?_, fun attempt left => ?_, ?_⟩
      · rw [grown]
        rcases List.mem_cons.mp member with rfl | member
        · exact Nat.lt_succ_self _
        · exact Nat.lt_succ_of_lt (numbered.known attempt (unsettled_subset member))
      · cases left
        exact grown.symm
      · rw [plays]
        exact settles.cons _

theorem run_numbered {events : List AttemptEvent} (ran : run (step browser) mount events = some attempts) :
    attempts.Numbered :=
  run_invariant Numbered (fun _ _ _ => step_numbered) mount_numbered ran

/-- Whatever else happened, the promise of an open attempt can still be refused. -/
theorem rejected_possible {events : List AttemptEvent}
    (ran : run (step browser) mount events = some attempts) (pending : attempt ∈ attempts.pending) :
    ∃ next, attempts.step browser (.rejected attempt) = some next := by
  have plays : attempt.msg ∈ attempts.player.plays :=
    (run_numbered ran).settles.mem_iff.mp (List.mem_map_of_mem pending)
  exact ⟨_, step_eq_some_iff.mpr ⟨decide_eq_true pending, _, if_pos plays, rfl⟩⟩

theorem step_rejected (stepped : attempts.step browser (.rejected attempt) = some next) :
    attempt ∈ attempts.pending ∧ next.player = attempts.player.onRejected attempt.msg := by
  obtain ⟨possible, player, played, rfl⟩ := step_eq_some_iff.mp stepped
  rw [AttemptEvent.comms, Player.step, Option.ite_none_right_eq_some, Option.some.injEq] at played
  rw [follow_player]
  exact ⟨of_decide_eq_true possible, played.2.symm⟩

/-- A promise refused late takes nothing from an attempt for another message. -/
theorem held_of_inStep (numbered : attempts.Numbered) (inStep : attempts.InStep)
    (possible : attempts.possible event)
    (apart : ∀ attempt, event = .rejected attempt → ¬attempts.Clashes attempt) :
    attempts.player.held event.comms = (attempts.left event).map Attempt.msg := by
  cases event with
  | ended => rfl
  | rejected attempt =>
      have pending : attempt ∈ attempts.pending := of_decide_eq_true possible
      rw [AttemptEvent.comms, Player.held, Attempts.left, inStep]
      by_cases own : attempts.current = some attempt
      · rw [own, if_pos (Option.map_some ..), if_pos rfl]
        rfl
      · have other : attempts.current.map Attempt.msg ≠ some attempt.msg := by
          intro same
          obtain ⟨current, latest, msg⟩ := Option.map_eq_some_iff.mp same
          refine apart attempt rfl ⟨?_, same⟩
          have last := numbered.latest current latest
          have known := numbered.known attempt pending
          -- an open attempt with the latest number and its message would be the latest
          have earlier : current.number ≠ attempt.number :=
            fun number => own (latest.trans (congrArg some (Attempt.ext number msg)))
          rw [Superseded]
          omega
        rw [if_neg other, if_neg own]
  | toggle =>
      rw [AttemptEvent.comms, Player.held, Attempts.left, inStep]
      split <;> rfl
  | state _ | played _ | replay _ => exact inStep

theorem mount_inStep : mount.InStep := rfl

theorem step_inStep (numbered : attempts.Numbered) (inStep : attempts.InStep)
    (apart : ∀ attempt, event = .rejected attempt → ¬attempts.Clashes attempt)
    (stepped : attempts.step browser event = some next) : next.InStep := by
  obtain ⟨possible, player, played, rfl⟩ := step_eq_some_iff.mp stepped
  have held := held_of_inStep numbered inStep possible apart
  cases step_begins played with
  | nothing starts plays nowPlaying =>
      rw [follow_of_quiet starts]
      exact nowPlaying.trans held
  | clip start starts plays nowPlaying =>
      rw [follow_of_started starts]
      exact nowPlaying

theorem rejected_ignored (inStep : attempts.InStep) (superseded : attempts.Superseded attempt)
    (apart : ¬attempts.Clashes attempt)
    (stepped : attempts.step browser (.rejected attempt) = some next) :
    next.player.nowPlaying = attempts.player.nowPlaying ∧ next.player.error = attempts.player.error := by
  have other : ¬attempts.player.nowPlaying = some attempt.msg := by
    rw [inStep]
    exact fun same => apart ⟨superseded, same⟩
  rw [(step_rejected stepped).2, Player.onRejected]
  simp only [if_neg other, and_self]

theorem rejected_clash (inStep : attempts.InStep) (clashes : attempts.Clashes attempt)
    (stepped : attempts.step browser (.rejected attempt) = some next) :
    next.player.nowPlaying = none ∧ attempts.player.nowPlaying = some attempt.msg := by
  have current : attempts.player.nowPlaying = some attempt.msg := inStep.trans clashes.2
  rw [(step_rejected stepped).2, Player.onRejected]
  simp only [if_pos current, true_and]
  exact current

/-- In a run the page shows the clip of the latest attempt while it plays, and a superseded attempt
that is refused changes neither it nor the error, exactly when no such attempt is refused while
the latest plays the same message. -/
theorem nowPlaying_latest_iff {events : List AttemptEvent} {last : Attempts}
    (ran : run (step browser) mount events = some last) :
    ((∀ before after attempts, events = before ++ after →
        run (step browser) mount before = some attempts → attempts.InStep) ∧
      ∀ before attempt after attempts next, events = before ++ .rejected attempt :: after →
        run (step browser) mount before = some attempts → attempts.Superseded attempt →
        attempts.step browser (.rejected attempt) = some next →
        next.player.nowPlaying = attempts.player.nowPlaying ∧
        next.player.error = attempts.player.error) ↔
    ∀ before attempt after attempts, events = before ++ .rejected attempt :: after →
      run (step browser) mount before = some attempts → ¬attempts.Clashes attempt := by
  constructor
  · intro ⟨inStep, ignored⟩ before attempt after attempts parts reached clashes
    obtain ⟨next, stepped⟩ := stepped_of_run ran parts reached
    have shown := inStep before (.rejected attempt :: after) attempts parts reached
    obtain ⟨blank, playing⟩ := rejected_clash shown clashes stepped
    have kept := (ignored before attempt after attempts next parts reached clashes.1 stepped).1
    rw [blank, playing] at kept
    cases kept
  · intro apart
    have inStep : ∀ before after attempts, events = before ++ after →
        run (step browser) mount before = some attempts → attempts.InStep := by
      apply run_invariant_upto InStep mount_inStep
      intro before event after attempts next parts reached inStep stepped
      apply step_inStep (run_numbered reached) inStep _ stepped
      rintro attempt rfl
      exact apart before attempt after attempts parts reached
    refine ⟨inStep, fun before attempt after attempts next parts reached superseded stepped => ?_⟩
    exact rejected_ignored (inStep before _ attempts parts reached) superseded
      (apart before attempt after attempts parts reached) stepped

/-- One clip is replayed and then another, whose source interrupts it. -/
def interruption : List AttemptEvent := [.replay firstClip, .replay secondClip, .rejected ⟨0, firstClip⟩]

theorem interruption_runs : ∃ last, run (step livePage) mount interruption = some last :=
  Option.isSome_iff_exists.mp (by decide +kernel)

theorem nowPlaying_latest_iff_interruption :
    ((∀ before after attempts, interruption = before ++ after →
        run (step livePage) mount before = some attempts → attempts.InStep) ∧
      ∀ before attempt after attempts next, interruption = before ++ .rejected attempt :: after →
        run (step livePage) mount before = some attempts → attempts.Superseded attempt →
        attempts.step livePage (.rejected attempt) = some next →
        next.player.nowPlaying = attempts.player.nowPlaying ∧
        next.player.error = attempts.player.error) ↔
    ∀ before attempt after attempts, interruption = before ++ .rejected attempt :: after →
      run (step livePage) mount before = some attempts → ¬attempts.Clashes attempt :=
  let ⟨_, ran⟩ := interruption_runs
  nowPlaying_latest_iff ran

/-- The same clip is replayed twice; the second call of `play()` interrupts the first. -/
def impatience : List AttemptEvent := [.replay firstClip, .replay firstClip, .rejected ⟨0, firstClip⟩]

/-- The handler of the first call blanks the banner of the second, which plays on, and reports it as
failed. -/
theorem impatience_blanks :
    (∃ attempts next, run (step livePage) mount (impatience.take 2) = some attempts ∧
      attempts.step livePage (.rejected ⟨0, firstClip⟩) = some next ∧
      attempts.Superseded ⟨0, firstClip⟩ ∧
      (attempts.player.nowPlaying, attempts.player.error) = (some firstClip, none) ∧
      (next.player.nowPlaying, next.player.error) = (none, some PLAYBACK_ERROR) ∧
      next.current = some ⟨1, firstClip⟩) ∧
    ¬∀ events attempts, run (step livePage) mount events = some attempts → attempts.InStep := by
  have before : (run (step livePage) mount (impatience.take 2)).map (fun attempts =>
      (attempts.player.starts.length, attempts.player.nowPlaying, attempts.player.error)) =
      some (2, some firstClip, none) := by
    decide +kernel
  have after : (run (step livePage) mount impatience).map (fun attempts =>
      (attempts.player.nowPlaying, attempts.player.error, attempts.current)) =
      some (none, some PLAYBACK_ERROR, some ⟨1, firstClip⟩) := by
    decide +kernel
  obtain ⟨attempts, reached, shown⟩ := Option.map_eq_some_iff.mp before
  obtain ⟨next, ran, left⟩ := Option.map_eq_some_iff.mp after
  simp only [Prod.mk.injEq] at shown left
  have stepped : attempts.step livePage (.rejected ⟨0, firstClip⟩) = some next := by
    have whole : impatience = impatience.take 2 ++ [.rejected ⟨0, firstClip⟩] := rfl
    rw [whole, run_append, reached] at ran
    simpa [run_cons] using ran
  refine ⟨⟨attempts, next, reached, stepped, ?_, ?_, ?_, left.2.2⟩, fun holds => ?_⟩
  · rw [Superseded, shown.1]
    exact Nat.lt_succ_self 1
  · rw [shown.2.1, shown.2.2]
  · rw [left.1, left.2.1]
  · have inStep := holds impatience next ran
    rw [InStep, left.1, left.2.2] at inStep
    cases inStep

end Attempts

end RaceTracker.Web
