import RaceTracker.Lib.Floats
import RaceTracker.Model.Apply

namespace RaceTracker.Seam

open RaceTracker.Lib RaceTracker.Model

/-! When two readings of a clock that runs backwards keep the same messages.

The server empties its rolling buffer on every backward step of the clock, the
browser only on one of more than five seconds.  Both buffers are instances of
`rolled`; what makes them differ in the end is the last backward step alone.
-/

variable {clock rev : Int64} {log : List RaceControlMessage} {frame : Frame}

def serverRewind (clock _rev : Int64) (frame : Frame) : Bool := frame.timeMs < clock

/-- More than five seconds back, as the browser's doubles have it. -/
def FarBack (clock time : Int64) : Prop := roundInt time.toInt < roundInt (roundInt clock.toInt - 5000)

instance (clock time : Int64) : Decidable (FarBack clock time) := inferInstanceAs (Decidable (_ < _))

def clientRewind (clock rev : Int64) (frame : Frame) : Bool :=
  0 < roundInt rev.toInt ∧ FarBack clock frame.timeMs

/-- A backward step that the server takes for a wrap and the browser does not. -/
def serverOnlyRewind (clock rev : Int64) (frame : Frame) : Prop :=
  serverRewind clock rev frame = true ∧ clientRewind clock rev frame = false

def clockAfter (clock : Int64) (frames : List Frame) : Int64 :=
  frames.foldl (fun _ frame => frame.timeMs) clock

def revAfter (rev : Int64) (frames : List Frame) : Int64 :=
  frames.foldl (fun _ frame => frame.rev) rev

def Forward (clock : Int64) : List Frame → Prop
  | [] => True
  | frame :: rest => ¬ frame.timeMs < clock ∧ Forward frame.timeMs rest

def newMessages (frames : List Frame) : List RaceControlMessage := frames.flatMap Frame.messages

/-- Every message since the browser last saw a wrap, on top of `log`. -/
def sinceWrap (clock rev : Int64) (log : List RaceControlMessage) :
    List Frame → List RaceControlMessage
  | [] => log
  | frame :: rest =>
      sinceWrap frame.timeMs frame.rev
        ((if clientRewind clock rev frame then [] else log) ++ frame.messages) rest

/-- The last backward step of the clock, if the browser does not share it, meets an
empty log or is followed by enough messages to push the log out of the buffer. -/
def RewindsHarmless (clock rev : Int64) (log : List RaceControlMessage) (frames : List Frame) : Prop :=
  ∀ earlier frame later, advancing rev frames = earlier ++ frame :: later →
    serverOnlyRewind (clockAfter clock earlier) (revAfter rev earlier) frame →
    Forward frame.timeMs later →
      sinceWrap clock rev log earlier = [] ∨ maxMessages ≤ (newMessages (frame :: later)).length

section Rolled

variable (wraps : Int64 → Int64 → Frame → Bool)

def rolled (clock rev : Int64) (log : List RaceControlMessage) :
    List Frame → List RaceControlMessage
  | [] => log
  | frame :: rest =>
      rolled frame.timeMs frame.rev
        (push maxMessages (if wraps clock rev frame then [] else log) frame.messages) rest

theorem rolled_append (earlier later : List Frame) :
    rolled wraps clock rev log (earlier ++ later) =
      rolled wraps (clockAfter clock earlier) (revAfter rev earlier)
        (rolled wraps clock rev log earlier) later := by
  induction earlier generalizing clock rev log with
  | nil => rfl
  | cons frame rest ih => exact ih

theorem rolled_forward (within : ∀ {clock rev frame},
      wraps clock rev frame = true → serverRewind clock rev frame = true)
    {frames : List Frame} (forward : Forward clock frames) :
    rolled wraps clock rev log frames = push maxMessages log (newMessages frames) := by
  induction frames generalizing clock rev log with
  | nil => simp [rolled, newMessages, push]
  | cons frame rest ih =>
      have kept : wraps clock rev frame = false := by
        rw [Bool.eq_false_iff]
        intro wrapped
        exact forward.1 (by simpa [serverRewind] using within wrapped)
      simp only [rolled, kept, Bool.false_eq_true, if_false, ih forward.2]
      exact push_push maxMessages log frame.messages (newMessages rest)

theorem rolled_wrap (within : ∀ {clock rev frame},
      wraps clock rev frame = true → serverRewind clock rev frame = true)
    {later : List Frame} (wrapped : wraps clock rev frame = true)
    (forward : Forward frame.timeMs later) :
    rolled wraps clock rev log (frame :: later) =
      push maxMessages [] (newMessages (frame :: later)) := by
  simp only [rolled, wrapped, if_true, rolled_forward wraps within forward]
  exact push_push maxMessages [] frame.messages (newMessages later)

end Rolled

theorem FarBack.back {time : Int64} (far : FarBack clock time) : time < clock := by
  rw [FarBack] at far
  rw [Int64.lt_iff_toInt_lt]
  by_contra ahead
  have later := roundInt_mono (not_lt.mp ahead)
  have least := roundInt_mono (show roundInt clock.toInt - 5000 ≤ roundInt time.toInt by omega)
  rw [roundInt_idempotent] at least
  omega

theorem clientRewind_server (wrapped : clientRewind clock rev frame = true) :
    serverRewind clock rev frame = true := by
  simp only [clientRewind, decide_eq_true_eq] at wrapped
  exact decide_eq_true wrapped.2.back

theorem rolled_client_nil_iff (frames : List Frame)
    {buffer : List RaceControlMessage} (same : buffer = [] ↔ log = []) :
    rolled clientRewind clock rev buffer frames = [] ↔ sinceWrap clock rev log frames = [] := by
  induction frames generalizing clock rev log buffer with
  | nil => exact same
  | cons frame rest ih =>
      apply ih
      rw [push_eq_nil_iff (by decide)]
      split <;> simp [same]

/-- Either the clock never steps back, or there is a last time it does. -/
theorem forward_or_last_rewind (clock : Int64) (frames : List Frame) :
    Forward clock frames ∨ ∃ earlier frame later, frames = earlier ++ frame :: later ∧
      frame.timeMs < clockAfter clock earlier ∧ Forward frame.timeMs later := by
  induction frames generalizing clock with
  | nil => exact Or.inl trivial
  | cons frame rest ih =>
      rcases ih frame.timeMs with forward | ⟨earlier, last, later, same, back, forward⟩
      · by_cases back : frame.timeMs < clock
        · exact Or.inr ⟨[], frame, rest, rfl, back, forward⟩
        · exact Or.inl ⟨back, forward⟩
      · exact Or.inr ⟨frame :: earlier, last, later, by rw [same]; rfl, back, forward⟩

/-- However the messages are read: only how many there are counts. -/
theorem rolled_eq_iff {β : Type} (read : RaceControlMessage → β) (frames : List Frame) :
    (rolled clientRewind clock rev log (advancing rev frames)).map read =
        (rolled serverRewind clock rev log (advancing rev frames)).map read ↔
      RewindsHarmless clock rev log frames := by
  have client := @clientRewind_server
  have server : ∀ {clock rev frame}, serverRewind clock rev frame = true →
      serverRewind clock rev frame = true := id
  have split (earlier later : List Frame) (last : Frame)
      (rewind : serverOnlyRewind (clockAfter clock earlier) (revAfter rev earlier) last)
      (forward : Forward last.timeMs later) :
      (rolled clientRewind clock rev log (earlier ++ last :: later)).map read =
          (rolled serverRewind clock rev log (earlier ++ last :: later)).map read ↔
        sinceWrap clock rev log earlier = [] ∨
          maxMessages ≤ (newMessages (last :: later)).length := by
    have clientSide (buffer : List RaceControlMessage) :
        rolled clientRewind (clockAfter clock earlier) (revAfter rev earlier) buffer (last :: later) =
          push maxMessages buffer (newMessages (last :: later)) := by
      simp only [rolled, rewind.2, Bool.false_eq_true, if_false,
        rolled_forward clientRewind client forward]
      exact push_push maxMessages buffer last.messages (newMessages later)
    rw [rolled_append, rolled_append, clientSide, rolled_wrap serverRewind server rewind.1 forward,
      map_push, map_push, List.map_nil, push_eq_push_nil_iff (by decide), List.map_eq_nil_iff,
      List.length_map, rolled_client_nil_iff earlier Iff.rfl]
  constructor
  · intro same earlier last later parts rewind forward
    rw [parts] at same
    exact (split earlier later last rewind forward).mp same
  · intro harmless
    rcases forward_or_last_rewind clock (advancing rev frames) with
      forward | ⟨earlier, last, later, parts, back, forward⟩
    · rw [rolled_forward clientRewind client forward, rolled_forward serverRewind server forward]
    · have rewind : serverRewind (clockAfter clock earlier) (revAfter rev earlier) last = true := by
        simpa [serverRewind] using back
      cases shared : clientRewind (clockAfter clock earlier) (revAfter rev earlier) last with
      | true =>
          rw [parts, rolled_append, rolled_append, rolled_wrap clientRewind client shared forward,
            rolled_wrap serverRewind server rewind forward]
      | false =>
          have case := harmless earlier last later parts ⟨rewind, shared⟩ forward
          rw [parts]
          exact (split earlier later last ⟨rewind, shared⟩ forward).mpr case

end RaceTracker.Seam
