import RaceTracker.App.Lane
import RaceTracker.Ingest.Signalr

namespace RaceTracker.Seam

open RaceTracker.Lib RaceTracker.Model RaceTracker.App RaceTracker.Ingest

/-! One session key over successive writer runs, in either language.

A run reads the stored snapshot once, at its start, and then works from memory.  SET
and PUBLISH are two steps, and a run may end before either of them.
-/

/-- A frame on the channel, and the snapshot that was stored when it went out. -/
structure Publication where
  frame : Json
  stored : Option Json

inductive Runner where
  | writer (writer : Writer)
  | clip (run : ClipRun)
  | live (run : LiveRun)
  /-- Only the trailing frame is still under way. -/
  | leaving

/-- How far the running writer has come with storing and publishing a turn. -/
inductive Call where
  | idle
  | storing (snapshot frame : Json)
  | publishing (frame : Json)

structure World where
  stored : Option Json
  running : Option (Runner × Call)
  published : List Publication

inductive WorldAction where
  | startWriter (source : ClipSource)
  | startClip (label : Option String) (header : ClipHeader) (frames : List ClipFrame)
  | startLive (label : String) (dicts : Nat → Car)
  | sourceFrame (frame : Frame)
  | clipFrame (now : Int)
  /-- The feed's messages between two publishes. -/
  | feed (dicts : Nat → Car) (latestCars : Dict String Nat) (runningPositions : Dict String Int)
  | liveFrame (timeMs now : Int) (radio : List Json)
  | trailingFrame (timeMs now : Int) (radio : List Json)
  | set
  | publish
  /-- The call to the bus comes back with an error. -/
  | fail
  | crash

namespace World

def initial (stored : Option Json) : World where
  stored := stored
  running := none
  published := []

/-- A run that cannot start leaves nothing running. -/
def start (world : World) (runner : Option Runner) : Option World :=
  match world.running with
  | none => some { world with running := runner.map (·, .idle) }
  | some _ => none

/-- The writer logs a failed call, and the live dispatcher swallows it; a clip run dies of it. -/
def survives : Runner → Bool
  | .clip _ => false
  | _ => true

variable (session : String) (intText : String → Option Int)

def step (world : World) : WorldAction → Option World
  | .startWriter source =>
      world.start ((Writer.start source session world.stored).toOption.map .writer)
  | .startClip label header frames =>
      world.start ((ClipRun.start intText session label header frames world.stored).toOption.map .clip)
  | .startLive label dicts =>
      match (LiveRun.start intText session label world.stored dicts).toOption with
      | none => world.start none
      | some (run, text) => { world with stored := some text }.start (some (.live run))
  | .sourceFrame frame =>
      match world.running with
      | some (.writer writer, .idle) =>
          match writer.fold session frame with
          | .error _ => some { world with running := none }
          | .ok (after, none) => some { world with running := some (.writer after, .idle) }
          | .ok (after, some stamped) => some { world with
              running := some (.writer after, .storing after.snap.marshal stamped.marshal) }
      | _ => none
  | .clipFrame now =>
      match world.running with
      | some (.clip run, .idle) => (run.turn now).map fun (after, snapshot, frame) =>
          { world with running := some (.clip after, .storing snapshot frame) }
      | _ => none
  | .feed dicts latestCars runningPositions =>
      match world.running with
      | some (.live run, .idle) => some { world with
          running := some (.live { run with dicts, latestCars, runningPositions }, .idle) }
      | _ => none
  | .liveFrame timeMs now radio =>
      match world.running with
      | some (.live run, .idle) =>
          let (after, snapshot, frame) := run.publishFrame timeMs now radio
          some { world with running := some (.live after, .storing snapshot frame) }
      | _ => none
  | .trailingFrame timeMs now radio =>
      match world.running with
      | some (.live run, .idle) =>
          let (_, snapshot, frame) := run.publishTrailingRadioFrame timeMs now radio
          some { world with running := some (.leaving, .storing snapshot frame) }
      | _ => none
  | .set =>
      match world.running with
      | some (runner, .storing snapshot frame) => some { world with
          stored := some snapshot, running := some (runner, .publishing frame) }
      | _ => none
  | .publish =>
      match world.running with
      | some (runner, .publishing frame) => some { world with
          running := some (runner, .idle), published := world.published ++ [⟨frame, world.stored⟩] }
      | _ => none
  | .fail =>
      match world.running with
      | some (_, .idle) => none
      | some (runner, _) =>
          if survives runner then some { world with running := some (runner, .idle) } else none
      | none => none
  | .crash => some { world with running := none }

end World

def revOf (text : Json) : Option Int :=
  match text.get? "rev" with
  | some (.num number) => some number.value.num
  | _ => none

/-- Whichever language reads the stored text, it continues from this revision. -/
structure Carries (text : Json) (rev : Int) : Prop where
  written : text.get? "rev" = some (.int rev)
  decoded : ∀ snapshot, Snapshot.unmarshal text = some snapshot → snapshot.rev.toInt = rev

theorem revOf_of_written {text : Json} {rev : Int} (written : text.get? "rev" = some (.int rev)) :
    revOf text = some rev := by
  simp [revOf, written, Json.int]

theorem Frame.revOf_marshal (frame : Frame) : revOf frame.marshal = some frame.rev.toInt :=
  revOf_of_written (by
    change (Frame.record.toObject frame.fields).get? "rev" = _
    rw [Frame.record.get?_toObject Frame.record_distinct]
    rfl)

theorem carries_marshal (snapshot : Snapshot) : Carries snapshot.marshal snapshot.rev.toInt where
  written := by
    change (Snapshot.record.toObject snapshot.fields).get? "rev" = _
    rw [Snapshot.record.get?_toObject Snapshot.record_distinct]
    rfl
  decoded decoded same := by
    rw [Snapshot.unmarshal_marshal] at same
    cases same
    rfl

theorem carries_dumps {κ : Type} (snapshot : LiveSnapshot κ) (car : κ → Car) :
    Carries (snapshot.dumps car) snapshot.rev := by
  have member : ("rev", some (Json.int snapshot.rev)) ∈ snapshot.entries car := by
    simp [LiveSnapshot.entries]
  refine ⟨LiveSnapshot.get?_dumps member, ?_⟩
  intro decoded read
  have own := (Snapshot.unmarshal_obj_iff.mp read).rev
  rw [Codec.field_entry Codec.int64 (snapshot.names_distinct car) member] at own
  simpa [Json.int] using Codec.readInt64_eq_some own

theorem startingRev_carries {intText : String → Option Int} {text : Json} {rev : Int}
    (carries : Carries text rev) : startingRev intText (some text) = .ok rev := by
  cases text with
  | obj members =>
      have found : Json.lookup "rev" members = some (.int rev) := carries.written
      simp [startingRev, found, pyInt, Json.int]
  | _ => cases carries.written

theorem getSnapshot_carries {text : Json} {rev : Int} {existing : Option Snapshot}
    (carries : Carries text rev) (read : getSnapshot (some text) = .ok existing) :
    ((existing.map Snapshot.rev).getD 0).toInt = rev := by
  rw [getSnapshot] at read
  cases decoded : Snapshot.unmarshal text with
  | none => simp [decoded] at read
  | some snapshot =>
      simp only [decoded, Except.ok.injEq] at read
      cases read
      exact carries.decoded snapshot decoded

/-- The revision a run has reached; a run that is leaving publishes nothing more. -/
def Runner.rev : Runner → Option Int
  | .writer replay => some replay.snap.rev.toInt
  | .clip run => some run.rev
  | .live run => some run.rev
  | .leaving => none

theorem Writer.start_rev {source : ClipSource} {session : String} {text : Json} {rev : Int}
    {writer : Writer} (carries : Carries text rev)
    (started : Writer.start source session (some text) = .ok writer) :
    writer.snap.rev.toInt = rev := by
  obtain ⟨existing, read, own, fresh⟩ := Writer.start_cases started
  rw [fresh, own]
  exact getSnapshot_carries carries read

theorem Writer.start_same {source : ClipSource} {session : String} {stored : Option Json}
    {writer : Writer} (started : Writer.start source session stored = .ok writer) :
    writer.snap.rev = writer.rev ∧ writer.snap.cars ≠ none := by
  obtain ⟨_, _, _, fresh⟩ := Writer.start_cases started
  rw [fresh]
  exact ⟨rfl, by simp⟩

theorem ClipRun.start_rev {intText : String → Option Int} {session : String}
    {label : Option String} {header : ClipHeader} {frames : List ClipFrame} {stored : Option Json}
    {run : ClipRun} (started : ClipRun.start intText session label header frames stored = .ok run) :
    startingRev intText stored = .ok run.rev := by
  by_cases empty : frames = []
  · simp [ClipRun.start, empty] at started
  · simp only [ClipRun.start, empty, if_false, pure_eq_ok] at started
    obtain ⟨rev, read, begun⟩ := bind_eq_ok_iff.mp started
    cases begun
    exact read

theorem LiveRun.start_rev {intText : String → Option Int} {session label : String}
    {stored : Option Json} {dicts : Nat → Car} {run : LiveRun} {text : Json}
    (started : LiveRun.start intText session label stored dicts = .ok (run, text)) :
    startingRev intText stored = .ok run.rev ∧ Carries text run.rev := by
  obtain ⟨rev, read, begun⟩ := bind_eq_ok_iff.mp started
  cases begun
  exact ⟨read, carries_dumps _ dicts⟩

structure Turn (before after : Int) (snapshot frame : Json) : Prop where
  next : after = before + 1
  snapshot : Carries snapshot after
  frame : revOf frame = some after

theorem revOf_frameEntries (session : String) (rev now timeMs : Int) (cars messages : List Json)
    (weather : Option Json) (radio : List Json) :
    revOf (.obj (Codec.members
      (frameEntries session rev now timeMs cars messages weather radio))) = some rev := by
  have member : ("rev", some (Json.int rev)) ∈
      frameEntries session rev now timeMs cars messages weather radio := by
    simp [frameEntries]
  exact revOf_of_written (get?_frame member)

theorem ClipRun.turn_rev {run after : ClipRun} {now : Int} {snapshot frame : Json}
    (turned : run.turn now = some (after, snapshot, frame)) : Turn run.rev after.rev snapshot frame := by
  rw [ClipRun.turn] at turned
  cases frames : run.frames with
  | nil => simp [frames] at turned
  | cons first rest =>
      simp only [frames, Option.some.injEq, Prod.mk.injEq] at turned
      obtain ⟨rfl, rfl, rfl⟩ := turned
      exact ⟨rfl, carries_dumps _ id, revOf_frameEntries ..⟩

theorem LiveRun.publishFrame_rev (run : LiveRun) (timeMs now : Int) (radio : List Json) :
    Turn run.rev (run.publishFrame timeMs now radio).1.rev (run.publishFrame timeMs now radio).2.1
      (run.publishFrame timeMs now radio).2.2 :=
  ⟨rfl, carries_dumps .., revOf_frameEntries ..⟩

theorem LiveRun.publishTrailingRadioFrame_rev (run : LiveRun) (timeMs now : Int) (radio : List Json) :
    Turn run.rev (run.publishTrailingRadioFrame timeMs now radio).1.rev
      (run.publishTrailingRadioFrame timeMs now radio).2.1
      (run.publishTrailingRadioFrame timeMs now radio).2.2 :=
  ⟨rfl, carries_dumps .., revOf_frameEntries ..⟩

def Publication.rev (publication : Publication) : Option Int := revOf publication.frame

def Publication.storedRev (publication : Publication) : Option Int := publication.stored.bind revOf

def Publication.Before (earlier later : Publication) : Prop :=
  ∃ first second, earlier.rev = some first ∧ later.rev = some second ∧ first < second

/-- The snapshot that was stored when the frame went out reflects it. -/
def Publication.Covered (publication : Publication) : Prop :=
  ∃ rev stored, publication.rev = some rev ∧ publication.storedRev = some stored ∧ rev ≤ stored

def World.Below (world : World) (bound : Int) : Prop :=
  ∀ publication ∈ world.published, ∃ rev, publication.rev = some rev ∧ rev < bound

/-- What the stored snapshot, if it matters yet, says about the frames published so far. -/
def World.Continues (world : World) : Prop :=
  world.published ≠ [] →
    ∃ text rev, world.stored = some text ∧ Carries text rev ∧ world.Below (rev + 1)

/-- Where the running writer stands against the frames published so far. -/
def Proceeds (world : World) (runner : Runner) : Call → Prop
  | .idle => ∀ own, runner.rev = some own → world.Below (own + 1)
  | .storing snapshot frame => ∃ rev, Carries snapshot rev ∧ revOf frame = some rev ∧
      world.Below rev ∧ ∀ own, runner.rev = some own → own = rev
  | .publishing frame => ∃ text rev, world.stored = some text ∧ Carries text rev ∧
      revOf frame = some rev ∧ world.Below rev ∧ ∀ own, runner.rev = some own → own = rev

/-- The writer's counter is its snapshot's revision, unless that can rise no more. -/
def Counting (writer : Writer) : Prop :=
  (writer.snap.rev = writer.rev ∨ writer.snap.rev = Int64.maxValue) ∧ writer.snap.cars ≠ none

structure Orderly (world : World) : Prop where
  rising : world.published.Pairwise Publication.Before
  covered : ∀ publication ∈ world.published, publication.Covered
  continues : world.Continues
  proceeds : ∀ runner call, world.running = some (runner, call) → Proceeds world runner call
  counting : ∀ writer call, world.running = some (.writer writer, call) → Counting writer

variable {session : String} {intText : String → Option Int} {world after : World}

theorem World.Below.mono {low high : Int} (below : world.Below low) (le : low ≤ high) :
    world.Below high := by
  intro publication member
  obtain ⟨rev, shown, less⟩ := below publication member
  exact ⟨rev, shown, by omega⟩

theorem orderly_initial (stored : Option Json) : Orderly (World.initial stored) where
  rising := List.Pairwise.nil
  covered _ member := by cases member
  continues published := absurd rfl published
  proceeds _ _ running := by cases running
  counting _ _ running := by cases running

/-- Whatever happens to the running writer alone, as long as it stands where it should. -/
theorem Orderly.running (orderly : Orderly world) {running : Option (Runner × Call)}
    (proceeds : ∀ runner call, running = some (runner, call) →
      Proceeds { world with running } runner call)
    (counting : ∀ writer call, running = some (.writer writer, call) → Counting writer) :
    Orderly { world with running } :=
  ⟨orderly.rising, orderly.covered, orderly.continues, proceeds, counting⟩

theorem Orderly.stop (orderly : Orderly world) : Orderly { world with running := none } :=
  orderly.running (fun _ _ running => by cases running) fun _ _ running => by cases running

/-- A run that starts from the stored snapshot starts above everything published. -/
theorem Orderly.above (orderly : Orderly world) {rev : Int}
    (read : ∀ text stored, world.stored = some text → Carries text stored → rev = stored) :
    world.Below (rev + 1) := by
  intro publication member
  obtain ⟨text, stored, held, carries, below⟩ := orderly.continues (List.ne_nil_of_mem member)
  rw [read text stored held carries]
  exact below publication member

theorem Orderly.start (orderly : Orderly world) {runner : Option Runner}
    (above : ∀ started, runner = some started →
      ∀ own, started.rev = some own → world.Below (own + 1))
    (counting : ∀ writer, runner = some (.writer writer) → Counting writer)
    (stepped : world.start runner = some after) : Orderly after := by
  rw [World.start] at stepped
  split at stepped
  · cases stepped
    apply orderly.running
    · intro started call running
      obtain ⟨_, same, rest⟩ := Option.map_eq_some_iff.mp running
      cases rest
      exact above started same
    · intro writer call running
      obtain ⟨_, same, rest⟩ := Option.map_eq_some_iff.mp running
      cases rest
      exact counting writer same
  · cases stepped

theorem Orderly.turn (orderly : Orderly world) {runner next : Runner} {rev own : Int}
    {snapshot frame : Json} (running : world.running = some (runner, .idle))
    (held : runner.rev = some rev) (higher : rev < own) (carries : Carries snapshot own)
    (shows_ : revOf frame = some own) (same : ∀ value, next.rev = some value → value = own)
    (counting : ∀ writer, next = .writer writer → Counting writer) :
    Orderly { world with running := some (next, .storing snapshot frame) } := by
  have below : world.Below own := (orderly.proceeds _ _ running rev held).mono (by omega)
  apply orderly.running
  · intro _ _ now
    cases now
    exact ⟨own, carries, shows_, below, same⟩
  · intro writer _ now
    cases now
    exact counting writer rfl

theorem Orderly.pythonTurn (orderly : Orderly world) {runner next : Runner} {rev own : Int}
    {snapshot frame : Json} (running : world.running = some (runner, .idle))
    (held : runner.rev = some rev) (turn : Turn rev own snapshot frame)
    (same : ∀ value, next.rev = some value → value = own)
    (python : ∀ writer, next ≠ .writer writer) :
    Orderly { world with running := some (next, .storing snapshot frame) } := by
  have higher : rev < own := by
    rw [turn.next]
    omega
  exact orderly.turn running held higher turn.snapshot turn.frame same
    fun writer now => absurd now (python writer)

theorem Orderly.set (orderly : Orderly world) {runner : Runner} {snapshot frame : Json}
    (running : world.running = some (runner, .storing snapshot frame)) :
    Orderly { world with stored := some snapshot, running := some (runner, .publishing frame) } := by
  obtain ⟨rev, carries, shows_, below, same⟩ := orderly.proceeds _ _ running
  exact {
    rising := orderly.rising
    covered := orderly.covered
    continues := fun _ => ⟨snapshot, rev, rfl, carries, below.mono (by omega)⟩
    proceeds := by
      intro _ _ now
      cases now
      exact ⟨snapshot, rev, rfl, carries, shows_, below, same⟩
    counting := by
      intro writer _ now
      cases now
      exact orderly.counting writer _ running }

theorem Orderly.publish (orderly : Orderly world) {runner : Runner} {frame : Json}
    (running : world.running = some (runner, .publishing frame)) :
    Orderly { world with
      running := some (runner, .idle), published := world.published ++ [⟨frame, world.stored⟩] } := by
  obtain ⟨text, rev, stored, carries, shows_, below, same⟩ := orderly.proceeds _ _ running
  have upTo : World.Below { world with
      running := some (runner, .idle), published := world.published ++ [⟨frame, world.stored⟩] }
      (rev + 1) := by
    intro publication member
    rcases List.mem_append.mp member with old | new
    · exact below.mono (by omega) publication old
    · cases List.mem_singleton.mp new
      exact ⟨rev, shows_, by omega⟩
  exact {
    rising := by
      refine List.pairwise_append.mpr ⟨orderly.rising, List.pairwise_singleton _ _, ?_⟩
      intro earlier old later new
      cases List.mem_singleton.mp new
      obtain ⟨first, shown, less⟩ := below earlier old
      exact ⟨first, rev, shown, shows_, less⟩
    covered := by
      intro publication member
      rcases List.mem_append.mp member with old | new
      · exact orderly.covered publication old
      · cases List.mem_singleton.mp new
        refine ⟨rev, rev, shows_, ?_, le_refl _⟩
        simp [Publication.storedRev, stored, revOf_of_written carries.written]
    continues := fun _ => ⟨text, rev, stored, carries, upTo⟩
    proceeds := by
      intro _ _ now
      cases now
      intro own held
      rw [same own held]
      exact upTo
    counting := by
      intro writer _ now
      cases now
      exact orderly.counting writer _ running }

theorem le_maxValue (rev : Int64) : rev ≤ Int64.maxValue := by
  rw [Int64.le_iff_toInt_le]
  exact Int64.toInt_le rev

theorem next_le_iff (rev : Int64) : rev + 1 ≤ rev ↔ rev = Int64.maxValue := by
  constructor
  · intro stale
    by_contra below
    have bound : rev.toInt ≤ Int64.maxValue.toInt := Int64.toInt_le rev
    have short : rev.toInt ≠ Int64.maxValue.toInt := fun same => below (Int64.toInt_inj.mp same)
    have low : Int64.minValue.toInt ≤ rev.toInt := Int64.minValue_le_toInt rev
    rw [Int64.toInt_maxValue] at bound short
    rw [Int64.toInt_minValue] at low
    rw [Int64.le_iff_toInt_le, Int64.toInt_add] at stale
    have one : (1 : Int64).toInt = 1 := rfl
    rw [one, Int.bmod_eq_of_le (by omega) (by omega)] at stale
    omega
  · intro limit
    rw [limit]
    decide

theorem Counting.stale_iff {writer : Writer} (counting : Counting writer) :
    writer.rev + 1 ≤ writer.snap.rev ↔ writer.snap.rev = Int64.maxValue := by
  rcases counting.1 with same | limit
  · rw [same]
    exact next_le_iff writer.rev
  · rw [limit]
    exact ⟨fun _ => rfl, fun _ => le_maxValue _⟩

theorem Counting.fold {writer after : Writer} {frame : Frame} {sent : Option Frame}
    (counting : Counting writer) (result : writer.fold session frame = .ok (after, sent)) :
    Counting after := by
  obtain ⟨counter, ⟨_, same, stale⟩ | ⟨_, advanced, _⟩⟩ := Writer.fold_cases result
  · exact ⟨Or.inr (same ▸ counting.stale_iff.mp stale), same ▸ counting.2⟩
  · refine ⟨Or.inl ?_, ?_⟩
    · rw [advanced, counter]
      rfl
    · rw [advanced]
      simpa [advance] using counting.2

theorem Counting.fold_short {writer : Writer} (counting : Counting writer)
    (short : writer.snap.rev ≠ Int64.maxValue) (session : String) (frame : Frame) :
    writer.fold session frame =
      .ok (⟨advance writer.snap (writer.stamp session frame), writer.rev + 1⟩,
        some (writer.stamp session frame)) := by
  have newer : ¬ writer.rev + 1 ≤ writer.snap.rev := fun stale => short (counting.stale_iff.mp stale)
  have result : apply writer.snap (writer.stamp session frame) =
      .ok (advance writer.snap (writer.stamp session frame), true) :=
    apply_advancing newer (Or.inl counting.2)
  simp [Writer.fold, result]

/-- The writer's fold never panics, and it rejects a frame only at the end of the counter. -/
theorem Counting.rejects_iff {writer : Writer} (counting : Counting writer) (session : String)
    (frame : Frame) : ∃ after sent, writer.fold session frame = .ok (after, sent) ∧
      (sent = none ↔ writer.snap.rev = Int64.maxValue) := by
  by_cases limit : writer.snap.rev = Int64.maxValue
  · have result : apply writer.snap (writer.stamp session frame) = .ok (writer.snap, false) :=
      apply_stale (counting.stale_iff.mpr limit)
    refine ⟨⟨writer.snap, writer.rev + 1⟩, none, ?_, ?_⟩
    · simp [Writer.fold, result]
    · simp [limit]
  · exact ⟨_, _, counting.fold_short limit session frame, by simp [limit]⟩

theorem Orderly.sourceFrame (orderly : Orderly world) {frame : Frame}
    (stepped : world.step session intText (.sourceFrame frame) = some after) : Orderly after := by
  simp only [World.step] at stepped
  split at stepped
  · rename_i writer running
    have counting := orderly.counting _ _ running
    split at stepped
    · cases stepped
      exact orderly.stop
    · -- A stale frame: the counter moves on, the snapshot does not.
      rename_i next folded
      cases stepped
      obtain ⟨_, ⟨_, same, _⟩ | ⟨sent, _⟩⟩ := Writer.fold_cases folded
      · apply orderly.running
        · intro _ _ now
          cases now
          intro own held
          apply orderly.proceeds _ _ running own
          simpa [Runner.rev, same] using held
        · intro _ _ now
          cases now
          exact counting.fold folded
      · cases sent
    · rename_i next stamped folded
      cases stepped
      obtain ⟨_, ⟨sent, _⟩ | ⟨sent, advanced, newer⟩⟩ := Writer.fold_cases folded
      · cases sent
      · have snapRev : next.snap.rev = stamped.rev := by
          rw [advanced, Option.some.inj sent]
          rfl
        refine orderly.turn running rfl ?_ (carries_marshal next.snap) ?_ ?_ ?_
        · rw [Int64.le_iff_toInt_le, Int.not_le] at newer
          rw [snapRev, Option.some.inj sent]
          exact newer
        · rw [snapRev]
          exact Frame.revOf_marshal stamped
        · intro value held
          cases held
          rfl
        · intro _ same
          cases same
          exact counting.fold folded
  · cases stepped

theorem Proceeds.gaveUp {runner : Runner} {call : Call} {own : Int}
    (proceeds : Proceeds world runner call) (held : runner.rev = some own) :
    world.Below (own + 1) := by
  cases call with
  | idle => exact proceeds own held
  | storing snapshot frame =>
      obtain ⟨rev, _, _, below, same⟩ := proceeds
      exact below.mono (by rw [same own held]; omega)
  | publishing frame =>
      obtain ⟨_, rev, _, _, _, below, same⟩ := proceeds
      exact below.mono (by rw [same own held]; omega)

theorem Orderly.startWriter (orderly : Orderly world) {source : ClipSource}
    (stepped : world.step session intText (.startWriter source) = some after) : Orderly after := by
  refine orderly.start ?_ ?_ stepped
  · intro _ started own held
    obtain ⟨writer, ran, rfl⟩ := Option.map_eq_some_iff.mp started
    have begun := ok_of_toOption ran
    cases held
    apply orderly.above
    intro text stored held carries
    rw [held] at begun
    exact Writer.start_rev carries begun
  · intro writer started
    obtain ⟨_, ran, same⟩ := Option.map_eq_some_iff.mp started
    cases same
    have begun := Writer.start_same (ok_of_toOption ran)
    exact ⟨Or.inl begun.1, begun.2⟩

/-- Where a Python writer starts counting, nothing published lies above. -/
theorem Orderly.aboveStarting (orderly : Orderly world) {rev : Int}
    (started : startingRev intText world.stored = .ok rev) : world.Below (rev + 1) := by
  apply orderly.above
  intro text stored held carries
  rw [held, startingRev_carries carries] at started
  cases started
  rfl

theorem Orderly.startClip (orderly : Orderly world) {label : Option String} {header : ClipHeader}
    {frames : List ClipFrame}
    (stepped : world.step session intText (.startClip label header frames) = some after) :
    Orderly after := by
  refine orderly.start ?_ ?_ stepped
  · intro _ started own held
    obtain ⟨run, ran, rfl⟩ := Option.map_eq_some_iff.mp started
    cases held
    exact orderly.aboveStarting (ClipRun.start_rev (ok_of_toOption ran))
  · intro _ started
    obtain ⟨_, _, same⟩ := Option.map_eq_some_iff.mp started
    cases same

theorem Orderly.startLive (orderly : Orderly world) {label : String} {dicts : Nat → Car}
    (stepped : world.step session intText (.startLive label dicts) = some after) : Orderly after := by
  simp only [World.step] at stepped
  split at stepped
  · refine orderly.start ?_ ?_ stepped
    · intro _ started
      cases started
    · intro _ started
      cases started
  · rename_i run text ran
    obtain ⟨read, carries⟩ := LiveRun.start_rev (ok_of_toOption ran)
    have above := orderly.aboveStarting read
    -- The empty snapshot goes in before anything is published, at the revision it found.
    have seeded : Orderly { world with stored := some text, running := none } := {
      orderly.stop with
      continues := fun _ => ⟨text, run.rev, rfl, carries, above⟩
      proceeds := fun _ _ running => by cases running }
    have idle : world.running = none := by
      cases running : world.running with
      | none => rfl
      | some _ => simp [World.start, running] at stepped
    rw [← idle] at seeded
    refine seeded.start ?_ ?_ stepped
    · intro _ started own held
      cases started
      cases held
      exact above
    · intro _ started
      cases started

theorem Orderly.step (orderly : Orderly world) {action : WorldAction}
    (stepped : world.step session intText action = some after) : Orderly after := by
  cases action with
  | startWriter source => exact orderly.startWriter stepped
  | startClip label header frames => exact orderly.startClip stepped
  | startLive label dicts => exact orderly.startLive stepped
  | sourceFrame frame => exact orderly.sourceFrame stepped
  | clipFrame now =>
      simp only [World.step] at stepped
      split at stepped
      · rename_i run running
        obtain ⟨⟨next, snapshot, frame⟩, turned, rfl⟩ := Option.map_eq_some_iff.mp stepped
        exact orderly.pythonTurn running rfl (ClipRun.turn_rev turned)
          (fun _ held => (Option.some.inj held).symm) (fun _ same => by cases same)
      · cases stepped
  | feed dicts latestCars runningPositions =>
      simp only [World.step] at stepped
      split at stepped
      · rename_i run running
        cases stepped
        apply orderly.running
        · intro _ _ now
          cases now
          exact orderly.proceeds _ _ running
        · intro _ _ now
          cases now
      · cases stepped
  | liveFrame timeMs now radio =>
      simp only [World.step] at stepped
      split at stepped
      · rename_i run running
        cases stepped
        exact orderly.pythonTurn running rfl (LiveRun.publishFrame_rev run timeMs now radio)
          (fun _ held => (Option.some.inj held).symm) (fun _ same => by cases same)
      · cases stepped
  | trailingFrame timeMs now radio =>
      simp only [World.step] at stepped
      split at stepped
      · rename_i run running
        cases stepped
        exact orderly.pythonTurn running rfl
          (LiveRun.publishTrailingRadioFrame_rev run timeMs now radio)
          (fun _ held => by cases held) (fun _ same => by cases same)
      · cases stepped
  | set =>
      simp only [World.step] at stepped
      split at stepped
      · rename_i runner snapshot frame running
        cases stepped
        exact orderly.set running
      · cases stepped
  | publish =>
      simp only [World.step] at stepped
      split at stepped
      · rename_i runner frame running
        cases stepped
        exact orderly.publish running
      · cases stepped
  | fail =>
      simp only [World.step] at stepped
      split at stepped
      · cases stepped
      · rename_i runner call busy running
        split at stepped
        · cases stepped
          apply orderly.running
          · intro _ _ now
            cases now
            intro own held
            exact (orderly.proceeds _ _ running).gaveUp held
          · intro writer _ now
            cases now
            exact orderly.counting writer _ running
        · cases stepped
      · cases stepped
  | crash =>
      cases stepped
      exact orderly.stop

/-- Over every succession of runs the published revisions rise, the stored snapshot is never
behind a published frame, and the replay writer drops a frame only when its counter, 64 bits
wide, can rise no more. -/
theorem revs_rise_over_restarts (stored : Option Json)
    (reachable : Reachable (World.step session intText) (World.initial stored) world) :
    world.published.Pairwise Publication.Before ∧
      (∀ publication ∈ world.published, publication.Covered) ∧
      ∀ writer call, world.running = some (.writer writer, call) →
        ∀ frame, ∃ after sent, writer.fold session frame = .ok (after, sent) ∧
          (sent = none ↔ writer.snap.rev = Int64.maxValue) := by
  have orderly : Orderly world := reachable.invariant Orderly (orderly_initial stored)
    fun _ _ _ orderly stepped => orderly.step stepped
  exact ⟨orderly.rising, orderly.covered, fun writer call running frame =>
    (orderly.counting writer call running).rejects_iff session frame⟩

/-- A replay run that dies between SET and PUBLISH, a clip run that loops, a live run. -/
def demoRuns : List WorldAction :=
  [.startWriter demoSource, .sourceFrame demoFrame, .set, .publish, .sourceFrame demoFrame, .set,
    .crash, .startClip none ⟨none, none, none, none, none, none⟩ [⟨0, [], [], none⟩], .clipFrame 0,
    .set, .publish, .clipFrame 0, .set, .publish, .crash,
    .startLive "Live" fun _ => leaderCar, .liveFrame 0 0 [], .set, .publish]

/-- The second run continues above the frame that was stored and never published. -/
theorem revs_rise_through_a_crash : ∃ world,
    run (World.step "live" fun _ => none) (World.initial none) demoRuns = some world ∧
      world.published.map Publication.rev = [some 1, some 3, some 4, some 5] ∧
      world.published.Pairwise Publication.Before := by
  have ran : ((run (World.step "live" fun _ => none) (World.initial none) demoRuns).map
      fun world => world.published.map Publication.rev) = some [some 1, some 3, some 4, some 5] := rfl
  obtain ⟨world, reached, revs⟩ := Option.map_eq_some_iff.mp ran
  exact ⟨world, reached, revs, (revs_rise_over_restarts none ⟨demoRuns, reached⟩).1⟩

def lastSnapshot : Snapshot := { newSnapshot "live" "" "" with rev := Int64.maxValue }

def lastWriter : Writer where
  snap := { demoSource.baked with
    sessionKey := "live", cars := some .empty, rev := Int64.maxValue }
  rev := Int64.maxValue

/-- A writer that starts from the last revision rejects its own frames. -/
theorem last_revision_is_rejected :
    Reachable (World.step "live" fun _ => none) (World.initial (some lastSnapshot.marshal))
        ⟨some lastSnapshot.marshal, some (.writer lastWriter, .idle), []⟩ ∧
      lastWriter.fold "live" demoFrame =
        .ok ({ lastWriter with rev := Int64.maxValue + 1 }, none) := by
  have started : Writer.start demoSource "live" (some lastSnapshot.marshal) = .ok lastWriter := by
    simp [Writer.start, lastSnapshot, lastWriter]
  refine ⟨⟨[.startWriter demoSource], ?_⟩, rfl⟩
  simp only [run_cons, World.step, World.initial, started]
  rfl

end RaceTracker.Seam
