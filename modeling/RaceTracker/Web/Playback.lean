import Mathlib.Tactic.Linarith
import RaceTracker.Web.Folding
import RaceTracker.Web.StaticReplay

namespace RaceTracker.Web

open RaceTracker.Lib

/-! Static playback of a baked clip: every frame is newer than the state it meets. -/

/-- The snapshot line of a baked clip: a fresh revision, and nothing played yet. -/
def Bare (data : SnapshotData) : Prop :=
  data.rev = 0 ∧ data.cars = [] ∧ data.messages = none ∧ data.weather = none

/-- What is left of a snapshot line and frame lines of revisions 1, 2, …, when some are missing. -/
def Baked (messages : List Msg) : Prop :=
  ∃ (snapshot : SnapshotData) (frames : List FrameData), Bare snapshot ∧
    (∀ (index : Nat) data, frames[index]? = some data → data.rev = (index : Rat) + 1 ∧ data.Numbered) ∧
    messages.Sublist (.snapshot snapshot :: frames.map .frame)

/-- A clip that plays: maybe a bare snapshot, then frames of ascending revisions. -/
structure Clip where
  head : Option SnapshotData
  frames : List FrameData
  bare : ∀ data, head = some data → Bare data
  ascending : frames.Pairwise fun earlier later => earlier.rev < later.rev
  positive : ∀ data ∈ frames, 0 < data.rev
  numbered : ∀ data ∈ frames, data.Numbered
  plays : frames ≠ []

namespace Clip

def messages (clip : Clip) : List Msg := clip.head.toList.map .snapshot ++ clip.frames.map .frame

/-- Where the frames start. -/
def first (clip : Clip) : Nat := clip.head.toList.length

def total (clip : Clip) : Nat := clip.first + clip.frames.length

end Clip

theorem Baked.clip {messages : List Msg} (baked : Baked messages)
    (playable : messages.any isFrame = true) : ∃ clip : Clip, clip.messages = messages := by
  obtain ⟨snapshot, frames, bare, written, sub⟩ := baked
  have climb : frames.Pairwise fun earlier later => earlier.rev < later.rev := by
    rw [List.pairwise_iff_getElem]
    intro i j earlier later before
    have first := (written i _ (List.getElem?_eq_getElem earlier)).1
    have second := (written j _ (List.getElem?_eq_getElem later)).1
    rw [first, second]
    have cast : (i : Rat) < j := by exact_mod_cast before
    linarith
  have each (data : FrameData) (member : data ∈ frames) : 0 < data.rev ∧ data.Numbered := by
    obtain ⟨index, listed⟩ := List.mem_iff_getElem?.mp member
    obtain ⟨rev, numbered⟩ := written index data listed
    have nonneg : (0 : Rat) ≤ index := by positivity
    exact ⟨by rw [rev]; linarith, numbered⟩
  obtain ⟨head, kept, bareHead, remaining, parts⟩ : ∃ (head : Option SnapshotData) (kept : List FrameData),
      (∀ data, head = some data → Bare data) ∧ kept.Sublist frames ∧
        messages = head.toList.map .snapshot ++ kept.map .frame := by
    rcases List.sublist_cons_iff.mp sub with without | ⟨rest, rfl, later⟩
    · obtain ⟨kept, remaining, rfl⟩ := List.sublist_map_iff.mp without
      exact ⟨none, kept, (fun _ absent => by cases absent), remaining, rfl⟩
    · obtain ⟨kept, remaining, rfl⟩ := List.sublist_map_iff.mp later
      exact ⟨some snapshot, kept, (fun _ same => Option.some.inj same ▸ bare), remaining, rfl⟩
  refine ⟨{ head, frames := kept, bare := bareHead, ascending := climb.sublist remaining,
            positive := fun data member => (each data (remaining.subset member)).1,
            numbered := fun data member => (each data (remaining.subset member)).2,
            plays := ?_ }, parts.symm⟩
  intro none
  rw [parts, none] at playable
  cases head with
  | none => cases playable
  | some data => cases playable

namespace Clip

variable (clip : Clip)

theorem length_messages : clip.messages.length = clip.total := by
  simp [messages, total, first]

theorem messages_frame (number : Nat) :
    clip.messages[clip.first + number]? = clip.frames[number]?.map .frame := by
  rw [messages, List.getElem?_append_right (by simp [first]), List.getElem?_map]
  simp [first]

theorem first_le_one : clip.first ≤ 1 := by
  rw [first]
  cases clip.head <;> simp

theorem messages_head {index : Nat} (before : index < clip.first) :
    index = 0 ∧ ∃ data, clip.head = some data ∧ clip.messages[index]? = some (.snapshot data) := by
  have start : index = 0 := by
    have most := clip.first_le_one
    omega
  subst start
  cases present : clip.head with
  | none => simp [first, present] at before
  | some data => exact ⟨rfl, data, rfl, by simp [messages, present]⟩

theorem frames_positive : 0 < clip.frames.length := List.length_pos_iff.mpr clip.plays

theorem isFrame_head {message : Msg} (member : message ∈ clip.head.toList.map Msg.snapshot) :
    isFrame message = false := by
  obtain ⟨data, _, rfl⟩ := List.mem_map.mp member
  rfl

theorem loopRestartIndex_messages : loopRestartIndex clip.messages = clip.first := by
  obtain ⟨data, rest, frames⟩ := List.exists_cons_of_ne_nil clip.plays
  have before : (clip.head.toList.map Msg.snapshot).findIdx? isFrame = none := by
    rw [List.findIdx?_eq_none_iff]
    intro message member
    exact isFrame_head clip member
  rw [loopRestartIndex, messages, List.findIdx?_append, before, frames]
  simp [List.findIdx?_cons, isFrame, first]

/-- Folding a maximum gives a bound on the start and on every frame. -/
theorem foldl_maxRev (list : List Msg) (highest : Rat) :
    let top := list.foldl (fun highest message =>
      match message with
      | .frame data => max highest data.rev
      | .snapshot _ => highest) highest
    highest ≤ top ∧ ∀ data, Msg.frame data ∈ list → data.rev ≤ top := by
  induction list generalizing highest with
  | nil => exact ⟨le_refl _, fun _ member => by cases member⟩
  | cons message rest ih =>
      cases message with
      | snapshot data =>
          obtain ⟨low, each⟩ := ih highest
          refine ⟨low, ?_⟩
          intro other member
          rcases List.mem_cons.mp member with same | later
          · cases same
          · exact each other later
      | frame data =>
          obtain ⟨low, each⟩ := ih (max highest data.rev)
          refine ⟨le_trans (le_max_left _ _) low, ?_⟩
          intro other member
          rcases List.mem_cons.mp member with same | later
          · cases same
            exact le_trans (le_max_right _ _) low
          · exact each other later

theorem rev_le_maxRev {data : FrameData} (member : data ∈ clip.frames) :
    data.rev ≤ maxRev clip.messages :=
  (foldl_maxRev clip.messages 0).2 data
    (List.mem_append_right _ (List.mem_map_of_mem member))

theorem maxRev_nonneg : 0 ≤ maxRev clip.messages := (foldl_maxRev clip.messages 0).1

def bumped (laps : Nat) (data : FrameData) : FrameData :=
  { data with rev := data.rev + laps * maxRev clip.messages }

theorem bump_frame (laps : Nat) (data : FrameData) :
    Playback.bump clip.messages laps (.frame data) = .frame (clip.bumped laps data) := by
  cases laps with
  | zero => simp [Playback.bump, bumped]
  | succ laps => simp [Playback.bump, bumped]

theorem bumped_numbered {laps : Nat} {data : FrameData} (member : data ∈ clip.frames) :
    (clip.bumped laps data).Numbered := clip.numbered data member

theorem bumped_lt {laps number : Nat} {earlier later : FrameData}
    (first : clip.frames[number]? = some earlier) (second : clip.frames[number + 1]? = some later) :
    (clip.bumped laps earlier).rev < (clip.bumped laps later).rev := by
  obtain ⟨within, rfl⟩ := List.getElem?_eq_some_iff.mp first
  obtain ⟨next, rfl⟩ := List.getElem?_eq_some_iff.mp second
  have climb := List.pairwise_iff_getElem.mp clip.ascending number (number + 1) within next (by omega)
  simpa [bumped] using climb

theorem bumped_positive (laps : Nat) {data : FrameData} (member : data ∈ clip.frames) :
    0 < (clip.bumped laps data).rev := by
  have positive := clip.positive data member
  have nonneg : 0 ≤ (laps : Rat) * maxRev clip.messages :=
    mul_nonneg (by positivity) clip.maxRev_nonneg
  simp only [bumped]
  linarith

/-- The first frame of the next lap is newer than every frame of this one. -/
theorem bumped_next_lap {laps : Nat} {last opener : FrameData} (member : last ∈ clip.frames)
    (opens : opener ∈ clip.frames) :
    (clip.bumped laps last).rev < (clip.bumped (laps + 1) opener).rev := by
  have top := clip.rev_le_maxRev member
  have positive := clip.positive opener opens
  simp only [bumped]
  push_cast
  linarith

/-- The state before the first frame. -/
def opening : RaceState :=
  match clip.head with
  | none => emptyState
  | some data => applySnapshot emptyState data

/-- `count` frames of a lap folded into `state`. -/
def lapFold (state : RaceState) (laps count : Nat) : RaceState :=
  ((clip.frames.take count).map (clip.bumped laps)).foldl advanceFrame state

theorem opening_rev : clip.opening.rev = 0 := by
  rw [opening]
  split
  · rfl
  · rename_i data present
    exact (clip.bare data present).1

theorem lapFold_succ (state : RaceState) (laps : Nat) {number : Nat} {data : FrameData}
    (found : clip.frames[number]? = some data) :
    clip.lapFold state laps (number + 1) =
      advanceFrame (clip.lapFold state laps number) (clip.bumped laps data) := by
  rw [lapFold, List.take_add_one, found, Option.toList_some, List.map_append, List.foldl_append]
  rfl

/-- A state older than a lap stays older than each of its frames until that one is folded in. -/
theorem lapFold_older {state : RaceState} {laps number : Nat}
    (older : ∀ data ∈ clip.frames, state.rev < (clip.bumped laps data).rev) {data : FrameData}
    (found : clip.frames[number]? = some data) :
    (clip.lapFold state laps number).rev < (clip.bumped laps data).rev := by
  cases number with
  | zero => exact older data (List.mem_of_getElem? found)
  | succ number =>
      have within := (List.getElem?_eq_some_iff.mp found).1
      have earlier : clip.frames[number]? = some clip.frames[number] := List.getElem?_eq_getElem _
      rw [clip.lapFold_succ state laps earlier]
      exact clip.bumped_lt earlier found

theorem applyMessage_lapFold (laps : Nat) {state : RaceState} {number : Nat}
    (older : ∀ data ∈ clip.frames, state.rev < (clip.bumped laps data).rev) {data : FrameData}
    (found : clip.frames[number]? = some data) :
    applyMessage (clip.lapFold state laps number)
        (Playback.bump clip.messages laps (.frame data)) =
      .ok (clip.lapFold state laps (number + 1)) := by
  rw [clip.bump_frame, clip.lapFold_succ state laps found]
  exact applyFrame_newer (clip.lapFold_older older found)
    (clip.bumped_numbered (List.mem_of_getElem? found))

/-- Replaying the top of a lap from the empty state succeeds. -/
theorem replay (laps count : Nat) :
    ((clip.messages.take (clip.first + count)).map (Playback.bump clip.messages laps)).foldlM
      applyMessage emptyState = .ok (clip.lapFold clip.opening laps count) := by
  have older : ∀ data ∈ clip.frames, clip.opening.rev < (clip.bumped laps data).rev := by
    intro data member
    rw [clip.opening_rev]
    exact clip.bumped_positive _ member
  induction count with
  | zero =>
      have top : clip.messages.take clip.first = clip.head.toList.map .snapshot := by
        rw [messages, first, List.take_left' (by simp)]
      rw [Nat.add_zero, top]
      unfold opening lapFold
      cases clip.head <;> rfl
  | succ count ih =>
      rw [← Nat.add_assoc, List.take_add_one, List.map_append, List.foldlM_append, ih,
        clip.messages_frame, ok_bind]
      cases found : clip.frames[count]? with
      | none =>
          have past : clip.frames.length ≤ count := List.getElem?_eq_none_iff.mp found
          have same : clip.frames.take (count + 1) = clip.frames.take count := by
            rw [List.take_of_length_le past, List.take_of_length_le (by omega)]
          simp [lapFold, same]
      | some data =>
          have folded := clip.applyMessage_lapFold laps older found
          simp [folded]

end Clip

/-- The lap and index due after what was shown: the next message, or the next lap. -/
def following (messages : List Msg) (shown : List Shown) : Nat × Nat :=
  match shown.getLast? with
  | none => (0, 0)
  | some last =>
      if last.index + 1 < messages.length then (last.lap, last.index + 1)
      else (last.lap + 1, loopRestartIndex messages)

/-- Whatever was not jumped to by a scrub followed what was shown before it. -/
def InOrder (messages : List Msg) (shown : List Shown) : Prop :=
  ∀ earlier one later, shown = earlier ++ one :: later →
    one.scrubbed = true ∨ (one.lap, one.index) = following messages earlier

theorem InOrder.concat {messages : List Msg} {shown : List Shown} {one : Shown}
    (ordered : InOrder messages shown)
    (next : one.scrubbed = true ∨ (one.lap, one.index) = following messages shown) :
    InOrder messages (shown ++ [one]) := by
  intro earlier other later parts
  rcases List.eq_nil_or_concat later with rfl | ⟨rest, last, rfl⟩
  · obtain ⟨rfl, same⟩ := List.append_inj' parts rfl
    cases same
    exact next
  · have front : shown = earlier ++ other :: rest := by
      have split : shown ++ [one] = (earlier ++ other :: rest) ++ [last] := by simpa using parts
      exact (List.append_inj' split rfl).1
    exact ordered earlier other rest front

namespace Clip

variable (clip : Clip)

/-- The revision that what was shown has brought the state to. -/
def level (shown : List Shown) : Rat :=
  match shown.getLast? with
  | none => 0
  | some last =>
      match clip.messages[last.index]? with
      | some (.frame data) => (clip.bumped last.lap data).rev
      | _ => 0

theorem first_lt_total : clip.first < clip.total := by
  have frames := clip.frames_positive
  rw [total]
  omega

theorem level_lt {shown : List Shown} {lap index : Nat} {data : FrameData}
    (inRange : ∀ one ∈ shown, one.index < clip.total)
    (due : following clip.messages shown = (lap, index))
    (found : clip.messages[index]? = some (.frame data)) :
    clip.level shown < (clip.bumped lap data).rev := by
  have listed : data ∈ clip.frames := by
    have member := List.mem_of_getElem? found
    rcases List.mem_append.mp member with head | frame
    · exact absurd (clip.isFrame_head head) (by simp [isFrame])
    · obtain ⟨other, member, same⟩ := List.mem_map.mp frame
      cases same
      exact member
  have positive := clip.bumped_positive lap listed
  rw [level]
  cases last : shown.getLast? with
  | none => exact positive
  | some one =>
      have within := inRange one (List.mem_of_getLast? last)
      simp only [following, last, clip.length_messages, clip.loopRestartIndex_messages] at due
      by_cases before : one.index < clip.first
      · obtain ⟨_, opener, _, present⟩ := clip.messages_head before
        simpa [present] using positive
      · obtain ⟨number, stands⟩ := Nat.exists_eq_add_of_le (Nat.le_of_not_lt before)
        have inFrames : number < clip.frames.length := by
          rw [total] at within
          omega
        have present : clip.messages[one.index]? = some (.frame clip.frames[number]) := by
          rw [stands, clip.messages_frame, List.getElem?_eq_getElem inFrames]
          rfl
        simp only [present]
        split at due
        · cases due
          rw [stands, Nat.add_assoc, clip.messages_frame] at found
          obtain ⟨next, second, same⟩ := Option.map_eq_some_iff.mp found
          cases same
          exact clip.bumped_lt (List.getElem?_eq_getElem inFrames) second
        · cases due
          exact clip.bumped_next_lap (List.getElem_mem inFrames) listed

/-- Where playback stands: the next message of the lap, or the top of the next one. -/
def position (laps index : Nat) : Nat × Nat :=
  if index < clip.total then (laps, index) else (laps + 1, clip.first)

end Clip

/-- A timer is pending whenever playback is neither paused nor closed, for the message due. -/
def Playback.Scheduled (clip : Clip) (playback : Playback) : Prop :=
  (playback.timer = none ∧ (playback.closed || playback.paused) = true) ∨
    ((playback.closed || playback.paused) = false ∧ playback.nextIndex < clip.total ∧
      ((∃ wait, playback.timer = some (.play playback.nextIndex, wait)) ∨
        (playback.nextIndex = clip.first ∧ ∃ wait, playback.timer = some (.restart, wait))))

structure Playback.Settled (clip : Clip) (playback : Playback) : Prop where
  level : playback.state.rev = clip.level playback.shown
  inRange : ∀ one ∈ playback.shown, one.index < clip.total
  ordered : InOrder clip.messages playback.shown

structure Playback.Sound (clip : Clip) (playback : Playback) : Prop
    extends Playback.Settled clip playback where
  due : clip.position playback.lapsCompleted playback.nextIndex =
    following clip.messages playback.shown
  scheduled : playback.Scheduled clip

namespace Playback

variable {clip : Clip} {playback after : Playback} {index : Nat} {now : Rat}

theorem playFrom_idle (idle : (playback.closed || playback.paused) = true) :
    playback.playFrom clip.messages index now = playback := by
  simp [playFrom, idle]

theorem playFrom_running (playback : Playback) (clip : Clip) (index : Nat) (now : Rat)
    (running : (playback.closed || playback.paused) = false) :
    ∃ loopStart wait, playback.playFrom clip.messages index now =
      if index < clip.total then
        { playback with loopStart, nextIndex := index, timer := some (.play index, wait) }
      else { playback with
        loopStart
        lapsCompleted := playback.lapsCompleted + 1
        nextIndex := clip.first
        timer := some (.restart, wait) } := by
  rw [playFrom]
  rw [running, clip.length_messages, clip.loopRestartIndex_messages]
  by_cases within : index < clip.total
  · refine ⟨if offset clip.messages index < now - playback.loopStart then
      now - offset clip.messages index else playback.loopStart, ?_⟩
    simp only [Bool.false_eq_true, if_false, Nat.not_le.mpr within, within, if_true]
    exact ⟨_, rfl⟩
  · exact ⟨now, 0, by simp [within, Nat.not_lt.mp within]⟩

theorem Settled.playFrom (settled : playback.Settled clip) (index : Nat) (now : Rat)
    (idle : playback.timer = none)
    (due : clip.position playback.lapsCompleted index = following clip.messages playback.shown)
    (stays : (playback.closed || playback.paused) = true → playback.nextIndex = index) :
    (playback.playFrom clip.messages index now).Sound clip := by
  cases stopped : playback.closed || playback.paused with
  | true =>
      rw [playFrom_idle stopped]
      exact { settled with due := stays stopped ▸ due, scheduled := Or.inl ⟨idle, stopped⟩ }
  | false =>
      obtain ⟨loopStart, wait, same⟩ :=
        playFrom_running playback clip index now stopped
      rw [same]
      by_cases within : index < clip.total
      · rw [if_pos within]
        exact {
          level := settled.level
          inRange := settled.inRange
          ordered := settled.ordered
          due := due
          scheduled := Or.inr ⟨stopped, within, Or.inl ⟨wait, rfl⟩⟩ }
      · rw [if_neg within]
        have top : clip.position (playback.lapsCompleted + 1) clip.first =
            clip.position playback.lapsCompleted index := by
          simp [Clip.position, within, clip.first_lt_total]
        exact {
          level := settled.level
          inRange := settled.inRange
          ordered := settled.ordered
          due := top.trans due
          scheduled := Or.inr ⟨stopped, clip.first_lt_total, Or.inr ⟨rfl, wait, rfl⟩⟩ }

theorem Settled.concat {state : RaceState} {one : Shown} (settled : playback.Settled clip)
    (within : one.index < clip.total)
    (next : one.scrubbed = true ∨ (one.lap, one.index) = following clip.messages playback.shown)
    (reached : state.rev = clip.level [one]) (moved : Playback) (same : moved.state = state)
    (shown : moved.shown = playback.shown ++ [one]) : moved.Settled clip where
  level := by
    rw [same, reached, shown]
    simp [Clip.level]
  inRange := by
    rw [shown]
    intro other member
    rcases List.mem_append.mp member with old | new
    · exact settled.inRange other old
    · cases List.mem_singleton.mp new
      exact within
  ordered := shown ▸ settled.ordered.concat next

/-- What the due message does to the state: a frame is newer and is folded in. -/
theorem Sound.apply_due (sound : playback.Sound clip) (within : playback.nextIndex < clip.total) :
    ∃ message state, clip.messages[playback.nextIndex]? = some message ∧
      applyMessage playback.state (bump clip.messages playback.lapsCompleted message) = .ok state ∧
      state.rev = clip.level [⟨playback.lapsCompleted, playback.nextIndex, false⟩] ∧
      ∀ data, message = .frame data →
        playback.state.rev < (clip.bumped playback.lapsCompleted data).rev ∧
          state = advanceFrame playback.state (clip.bumped playback.lapsCompleted data) := by
  have due : following clip.messages playback.shown = (playback.lapsCompleted, playback.nextIndex) := by
    rw [← sound.due, Clip.position, if_pos within]
  have listed : playback.nextIndex < clip.messages.length := by
    rw [clip.length_messages]
    exact within
  have found := List.getElem?_eq_getElem listed
  generalize clip.messages[playback.nextIndex] = message at found
  cases message with
  | snapshot data =>
      have head : clip.head = some data := by
        have member := List.mem_of_getElem? found
        rcases List.mem_append.mp member with inHead | inFrames
        · obtain ⟨other, member, same⟩ := List.mem_map.mp inHead
          cases same
          exact Option.mem_toList.mp member
        · obtain ⟨_, _, same⟩ := List.mem_map.mp inFrames
          cases same
      refine ⟨_, applySnapshot playback.state data, found, rfl, ?_, fun _ same => by cases same⟩
      have fresh : (applySnapshot playback.state data).rev = 0 := (clip.bare data head).1
      simpa [Clip.level, found] using fresh
  | frame data =>
      have member : data ∈ clip.frames := by
        rcases List.mem_append.mp (List.mem_of_getElem? found) with inHead | inFrames
        · exact absurd (clip.isFrame_head inHead) (by simp [isFrame])
        · obtain ⟨other, member, same⟩ := List.mem_map.mp inFrames
          cases same
          exact member
      have newer : playback.state.rev < (clip.bumped playback.lapsCompleted data).rev := by
        rw [sound.level]
        exact clip.level_lt sound.inRange due found
      refine ⟨_, advanceFrame playback.state (clip.bumped playback.lapsCompleted data), found, ?_,
        ?_, ?_⟩
      · rw [clip.bump_frame]
        exact applyFrame_newer newer (clip.bumped_numbered member)
      · simp [Clip.level, found, advanceFrame]
      · intro other same
        cases same
        exact ⟨newer, rfl⟩

theorem due_concat (shown : List Shown) (lap index : Nat) (scrubbed : Bool) :
    clip.position lap (index + 1) =
      following clip.messages (shown ++ [⟨lap, index, scrubbed⟩]) := by
  simp [Clip.position, following, clip.length_messages, clip.loopRestartIndex_messages]

theorem Sound.fire_play (sound : playback.Sound clip) (now : Rat) {wait : Rat}
    (pending : playback.timer = some (.play index, wait)) :
    following clip.messages playback.shown = (playback.lapsCompleted, index) ∧
      ∃ message, clip.messages[index]? = some message ∧ ∃ next,
      playback.fire clip.messages now = some next ∧ next.Sound clip ∧
      (next.closed || next.paused) = false ∧
      next.shown = playback.shown ++ [⟨playback.lapsCompleted, index, false⟩] ∧
      applyMessage playback.state (bump clip.messages playback.lapsCompleted message) =
        .ok next.state ∧
      ∀ data, message = .frame data →
        playback.state.rev < (clip.bumped playback.lapsCompleted data).rev ∧
          next.state = advanceFrame playback.state (clip.bumped playback.lapsCompleted data) := by
  obtain ⟨running, within, same⟩ : (playback.closed || playback.paused) = false ∧
      playback.nextIndex < clip.total ∧ index = playback.nextIndex := by
    rcases sound.scheduled with ⟨idle, _⟩ | ⟨running, within, ⟨_, set⟩ | ⟨_, _, set⟩⟩
    · rw [idle] at pending
      cases pending
    · rw [set] at pending
      cases pending
      exact ⟨running, within, rfl⟩
    · rw [set] at pending
      cases pending
  subst same
  obtain ⟨message, state, found, applied, reached, folded⟩ := sound.apply_due within
  have due : following clip.messages playback.shown =
      (playback.lapsCompleted, playback.nextIndex) := by
    rw [← sound.due, Clip.position, if_pos within]
  let played : Playback := { playback with
    state
    timer := none
    live := true
    lastOffset := offset clip.messages playback.nextIndex
    shown := playback.shown ++ [⟨playback.lapsCompleted, playback.nextIndex, false⟩] }
  have settled : played.Settled clip :=
    sound.toSettled.concat within (Or.inr due.symm) reached played rfl rfl
  have going := settled.playFrom (playback.nextIndex + 1) now rfl
    (due_concat ..) (fun stopped => absurd stopped (by simp [played, running]))
  have kept : ∀ next, next = played.playFrom clip.messages (playback.nextIndex + 1) now →
      (next.closed || next.paused) = false ∧ next.shown = played.shown ∧ next.state = state := by
    intro next same
    obtain ⟨_, _, cases⟩ := playFrom_running played clip (playback.nextIndex + 1) now running
    rw [cases] at same
    split at same <;> (subst same; exact ⟨running, rfl, rfl⟩)
  obtain ⟨stays, shown, kept⟩ := kept _ rfl
  refine ⟨due, message, found, _, ?_, going, stays, shown, kept ▸ applied, ?_⟩
  · simp only [fire, pending, found, applied, Option.map_some]
    rfl
  · intro data same
    exact ⟨(folded data same).1, kept.trans (folded data same).2⟩

/-- Between two laps the timer only moves on to the first frame. -/
theorem Sound.fire_restart (sound : playback.Sound clip) (now : Rat) {wait : Rat}
    (pending : playback.timer = some (.restart, wait)) :
    ∃ next, playback.fire clip.messages now = some next ∧ next.Sound clip ∧
      ∃ wait, next = { playback with
        loopStart := next.loopStart
        timer := some (.play clip.first, wait) } := by
  obtain ⟨running, start⟩ : (playback.closed || playback.paused) = false ∧
      playback.nextIndex = clip.first := by
    rcases sound.scheduled with ⟨idle, _⟩ | ⟨running, _, ⟨_, set⟩ | ⟨start, _, _⟩⟩
    · rw [idle] at pending
      cases pending
    · rw [set] at pending
      cases pending
    · exact ⟨running, start⟩
  let resting : Playback := { playback with timer := none }
  have settled : resting.Settled clip := ⟨sound.level, sound.inRange, sound.ordered⟩
  have going := settled.playFrom clip.first now rfl
    (start ▸ sound.due) (fun _ => start)
  obtain ⟨loopStart, wait, next⟩ := playFrom_running resting clip clip.first now running
  rw [if_pos clip.first_lt_total] at next
  rw [next] at going
  refine ⟨_, ?_, going, wait, by simp [resting, start]⟩
  simp only [fire, pending]
  rw [clip.loopRestartIndex_messages, next]

theorem Sound.pause (sound : playback.Sound clip) : playback.pause.Sound clip := by
  rw [Playback.pause]
  split
  · exact sound
  · exact {
      level := sound.level
      inRange := sound.inRange
      ordered := sound.ordered
      due := sound.due
      scheduled := Or.inl ⟨rfl, by simp⟩ }

theorem Sound.resume (sound : playback.Sound clip) :
    (playback.resume clip.messages now).Sound clip := by
  rw [Playback.resume]
  split
  · rename_i paused
    have idle : playback.timer = none := by
      rcases sound.scheduled with ⟨idle, _⟩ | ⟨running, _⟩
      · exact idle
      · simp [paused] at running
    have settled : Settled clip { playback with
        paused := false, loopStart := now - playback.lastOffset } :=
      ⟨sound.level, sound.inRange, sound.ordered⟩
    exact settled.playFrom _ _ idle sound.due fun _ => rfl
  · exact sound

theorem Sound.close (sound : playback.Sound clip) : playback.close.Sound clip where
  level := sound.level
  inRange := sound.inRange
  ordered := sound.ordered
  due := sound.due
  scheduled := Or.inl ⟨rfl, rfl⟩

end Playback

namespace Clip

variable (clip : Clip)

theorem scrubEnd_messages (ms : Rat) :
    ∃ number, number < clip.frames.length ∧
      Playback.scrubEnd clip.messages ms = clip.first + number := by
  have last : clip.messages.length - 1 = clip.first + (clip.frames.length - 1) := by
    have frames := clip.frames_positive
    rw [clip.length_messages, total]
    omega
  rw [Playback.scrubEnd]
  rw [last, clip.length_messages, clip.loopRestartIndex_messages]
  cases found : (List.range clip.total).find? fun index =>
      clip.first ≤ index ∧ ms ≤ offset clip.messages index with
  | none =>
      have frames := clip.frames_positive
      exact ⟨clip.frames.length - 1, by omega, rfl⟩
  | some index =>
      have late := List.find?_some found
      have within := List.mem_range.mp (List.mem_of_find?_eq_some found)
      simp only [decide_eq_true_eq] at late
      rw [total] at within
      exact ⟨index - clip.first, by omega, by simp only [Option.getD_some]; omega⟩

theorem scrub_messages (playback : Playback) {ms now : Rat} {number : Nat}
    (lands : Playback.scrubEnd clip.messages ms = clip.first + number) :
    playback.scrub clip.messages ms now =
      let landed : Playback := { playback with
        state := clip.lapFold clip.opening playback.lapsCompleted (number + 1)
        timer := none
        lastOffset := offset clip.messages (clip.first + number)
        nextIndex := clip.first + number + 1
        loopStart := now - offset clip.messages (clip.first + number)
        shown := playback.shown ++ [⟨playback.lapsCompleted, clip.first + number, true⟩] }
      if playback.paused then landed
      else landed.playFrom clip.messages (clip.first + number + 1) now := by
  have replayed := clip.replay playback.lapsCompleted (number + 1)
  rw [← Nat.add_assoc] at replayed
  simp only [Playback.scrub, lands, replayed]

end Clip

namespace Playback

variable {clip : Clip} {playback : Playback} {ms now : Rat}

theorem Sound.scrub (sound : playback.Sound clip) :
    (playback.scrub clip.messages ms now).Sound clip := by
  obtain ⟨number, within, lands⟩ := clip.scrubEnd_messages ms
  have found := List.getElem?_eq_getElem within
  have inRange : clip.first + number < clip.total := by
    rw [Clip.total]
    omega
  have reached : (clip.lapFold clip.opening playback.lapsCompleted (number + 1)).rev =
      clip.level [⟨playback.lapsCompleted, clip.first + number, true⟩] := by
    rw [clip.lapFold_succ clip.opening playback.lapsCompleted found]
    simp [Clip.level, clip.messages_frame, found, advanceFrame]
  rw [clip.scrub_messages playback lands]
  set landed : Playback := { playback with
    state := clip.lapFold clip.opening playback.lapsCompleted (number + 1)
    timer := none
    lastOffset := offset clip.messages (clip.first + number)
    nextIndex := clip.first + number + 1
    loopStart := now - offset clip.messages (clip.first + number)
    shown := playback.shown ++ [⟨playback.lapsCompleted, clip.first + number, true⟩] }
  have settled : landed.Settled clip :=
    sound.toSettled.concat inRange (Or.inl rfl) reached landed rfl rfl
  by_cases paused : playback.paused = true
  · rw [if_pos paused]
    exact { settled with
      due := due_concat ..
      scheduled := Or.inl ⟨rfl, by simp [landed, paused]⟩ }
  · rw [if_neg paused]
    exact settled.playFrom _ _ rfl (due_concat ..) fun _ => rfl

theorem Sound.step {action : PlaybackAction} {after : Playback} (sound : playback.Sound clip)
    (stepped : playback.step clip.messages action = some after) : after.Sound clip := by
  cases action with
  | fire now =>
      rcases sound.scheduled with ⟨idle, _⟩ | ⟨_, _, ⟨wait, pending⟩ | ⟨_, wait, pending⟩⟩
      · simp [Playback.step, fire, idle] at stepped
      · obtain ⟨_, _, _, next, fired, going, _⟩ := sound.fire_play now pending
        cases fired.symm.trans stepped
        exact going
      · obtain ⟨next, fired, going, _⟩ := sound.fire_restart now pending
        cases fired.symm.trans stepped
        exact going
  | pause =>
      cases stepped
      exact sound.pause
  | resume now =>
      cases stepped
      exact sound.resume
  | scrub ms now =>
      cases stepped
      exact sound.scrub
  | close =>
      cases stepped
      exact sound.close

theorem Sound.start {first : Playback} (started : start clip.messages now = some first) :
    first.Sound clip := by
  rw [Playback.start] at started
  split at started
  · cases started
    refine Settled.playFrom ?_ _ _ rfl ?_ ?_
    · exact {
        level := rfl
        inRange := fun _ member => by cases member
        ordered := fun earlier one later parts => by cases earlier <;> cases parts }
    · have room := clip.first_lt_total
      simp [Clip.position, following, Nat.zero_lt_of_lt room]
    · intro _
      rfl
  · cases started

/-- While the clip runs, a timer is set.  Firing it plays the message it is set for, a frame
being newer than the state and folded into it, or moves on to the first frame of the next lap. -/
def Advances (messages : List Msg) (playback : Playback) : Prop :=
  (playback.closed || playback.paused) = false → ∃ due wait, playback.timer = some (due, wait) ∧
    ∀ now, ∃ after, playback.step messages (.fire now) = some after ∧
      match due with
      | .restart => after.shown = playback.shown ∧ after.state = playback.state ∧
          ∃ wait, after.timer = some (.play (loopRestartIndex messages), wait)
      | .play index => after.shown = playback.shown ++ [⟨playback.lapsCompleted, index, false⟩] ∧
          ∀ data, messages[index]? = some (.frame data) → ∃ bumped,
            bump messages playback.lapsCompleted (.frame data) = .frame bumped ∧
              playback.state.rev < bumped.rev ∧ after.state = advanceFrame playback.state bumped

theorem Sound.advances (sound : playback.Sound clip) : playback.Advances clip.messages := by
  intro running
  rcases sound.scheduled with ⟨_, stopped⟩ | ⟨_, _, ⟨wait, pending⟩ | ⟨_, wait, pending⟩⟩
  · rw [running] at stopped
    cases stopped
  · refine ⟨_, wait, pending, ?_⟩
    intro now
    obtain ⟨_, message, found, next, fired, _, _, shown, _, folded⟩ :=
      sound.fire_play now pending
    refine ⟨next, fired, shown, ?_⟩
    intro data stands
    cases found.symm.trans stands
    exact ⟨_, clip.bump_frame _ data, folded data rfl⟩
  · refine ⟨_, wait, pending, ?_⟩
    intro now
    obtain ⟨next, fired, _, later, same⟩ := sound.fire_restart now pending
    refine ⟨next, fired, ?_⟩
    rw [same, clip.loopRestartIndex_messages]
    exact ⟨rfl, rfl, later, rfl⟩

/-- Static replay never freezes: frames are played in the order of the file, lap after lap, and
each of them is newer than the state it meets. -/
theorem replay_never_freezes {messages : List Msg} (baked : Baked messages) {first : Playback}
    (started : Playback.start messages now = some first)
    (reachable : Reachable (Playback.step messages) first playback) :
    InOrder messages playback.shown ∧ playback.Advances messages := by
  have playable : messages.any isFrame = true := by
    rw [Playback.start] at started
    split at started
    · assumption
    · cases started
  obtain ⟨clip, rfl⟩ := baked.clip playable
  have sound : playback.Sound clip :=
    reachable.invariant (Playback.Sound clip) (Sound.start started)
      fun _ _ _ sound stepped => sound.step stepped
  exact ⟨sound.ordered, sound.advances⟩

/-- A snapshot and two frames six seconds apart. -/
def twoFrames : List Msg :=
  [.snapshot {
      session := "demo", mode := "replay", label := "Demo"
      track := none, corners := none, cars := [], timeMs := 0, rev := 0
      radio := none, lapTrace := none, totalLaps := none, stints := none, pitStops := none
      pedalTraces := none, sectorDominance := none, weather := none, messages := none },
    .frame {
      rev := 1, timeMs := 0, cars := some [.obj [("driverNum", .int 1)]]
      messages := none, weather := none, radio := none },
    .frame {
      rev := 2, timeMs := 6000, cars := some [.obj [("driverNum", .int 44)]]
      messages := none, weather := none, radio := none }]

theorem twoFrames_baked : Baked twoFrames := by
  refine ⟨_, [_, _], ⟨rfl, rfl, rfl, rfl⟩, ?_, List.Sublist.refl _⟩
  have numbered (number : Int) : Numbered (.obj [("driverNum", .int number)]) :=
    ⟨_, _, rfl, rfl⟩
  intro index data listed
  match index, listed with
  | 0, rfl => exact ⟨by norm_num, fun car member => List.mem_singleton.mp member ▸ numbered 1⟩
  | 1, rfl => exact ⟨by norm_num, fun car member => List.mem_singleton.mp member ▸ numbered 44⟩

theorem replay_never_freezes_twoFrames :
    ∃ first playback, Playback.start twoFrames 0 = some first ∧
      Reachable (Playback.step twoFrames) first playback ∧ playback.lapsCompleted = 1 ∧
      InOrder twoFrames playback.shown ∧ playback.Advances twoFrames := by
  have ran : ∃ first playback, Playback.start twoFrames 0 = some first ∧
      run (Playback.step twoFrames) first [.fire 0, .fire 0, .fire 6000] = some playback ∧
      playback.lapsCompleted = 1 := by
    refine ⟨_, _, rfl, rfl, ?_⟩
    decide
  obtain ⟨first, playback, started, ran, lap⟩ := ran
  exact ⟨first, playback, started, ⟨_, ran⟩, lap,
    replay_never_freezes twoFrames_baked started ⟨_, ran⟩⟩

end Playback

end RaceTracker.Web
