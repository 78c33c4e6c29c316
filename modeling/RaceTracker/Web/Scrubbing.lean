import Mathlib.Data.List.Chain
import RaceTracker.Web.Playback

namespace RaceTracker.Web

open RaceTracker.Lib

/-! Scrubbing against playback that reached the same frame of the same lap on its own. -/

/-- Equal in every field, the cars name by name. -/
def Same (left right : RaceState) : Prop :=
  (∀ name, left.cars.get? name = right.cars.get? name) ∧
    { left with cars := .empty } = { right with cars := .empty }

def framesOf (messages : List Msg) : List FrameData :=
  messages.filterMap fun
    | .frame data => some data
    | .snapshot _ => none

/-- Whole laps leave nothing behind that the frames up to a target do not bring again. -/
structure Forgotten (frames upTo : List FrameData) : Prop where
  steady : (frames ++ frames.head?.toList).IsChain fun earlier later => ¬ Rewound earlier later
  radio : ∀ data ∈ frames, data.radioList = []
  messages : (∀ data ∈ frames, data.messageList = []) ∨
    maxMessages ≤ (upTo.flatMap FrameData.messageList).length
  weather : (∀ data ∈ frames, data.weather = none) ∨ ∃ data ∈ upTo, data.weather ≠ none
  cars : ∀ data ∈ frames, ∀ car ∈ data.carList,
    ∃ other ∈ upTo, ∃ again ∈ other.carList, carName again = carName car

section

variable {state : RaceState} {earlier rest : List FrameData} {data : FrameData}

theorem getLast?_append_eq_iff {α : Type} (first second : List α) :
    second.getLast? = (first ++ second).getLast? ↔ first = [] ∨ second ≠ [] := by
  rw [List.getLast?_append]
  rcases List.eq_nil_or_concat second with rfl | ⟨front, last, rfl⟩
  · simp [eq_comm]
  · simp

theorem same_foldl_iff_fields (first second : List FrameData) :
    let left := first.foldl advanceFrame state
    let right := second.foldl advanceFrame state
    Same left right ↔
      (∀ name, left.cars.get? name = right.cars.get? name) ∧ left.timeMs = right.timeMs ∧
        left.rev = right.rev ∧ left.messages = right.messages ∧ left.radio = right.radio ∧
        left.weather = right.weather ∧ left.loopSeq = right.loopSeq := by
  intro left right
  have keptLeft : left = _ := foldl_advanceFrame state first
  have keptRight : right = _ := foldl_advanceFrame state second
  constructor
  · intro same
    obtain ⟨cars, others⟩ := same
    simp only [RaceState.mk.injEq, true_and] at others
    obtain ⟨_, _, _, _, _, timeMs, rev, radio, _, _, _, _, _, _, weather, messages, _, loopSeq⟩ :=
      others
    exact ⟨cars, timeMs, rev, messages, radio, weather, loopSeq⟩
  · intro fields
    obtain ⟨cars, timeMs, rev, messages, radio, weather, loopSeq⟩ := fields
    refine ⟨cars, ?_⟩
    have onlyThese (folded : RaceState) (frames : List FrameData)
        (kept : folded = frames.foldl advanceFrame state) :
        { folded with cars := .empty } = { state with
          cars := .empty
          timeMs := folded.timeMs
          rev := folded.rev
          messages := folded.messages
          radio := folded.radio
          weather := folded.weather
          loopSeq := folded.loopSeq } := by
      rw [kept, foldl_advanceFrame state frames]
    rw [onlyThese left first rfl, onlyThese right second rfl, timeMs, rev, messages, radio, weather,
      loopSeq]

theorem get?_putCars_append_iff (first second : List Json) :
    (∀ name, (putCars .empty second).get? name = (putCars .empty (first ++ second)).get? name) ↔
      ∀ car ∈ first, ∃ again ∈ second, carName again = carName car := by
  simp only [get?_putCars, List.filter_append, Dict.get?_empty, Option.or_none,
    getLast?_append_eq_iff]
  constructor
  · intro shadowed car member
    rcases shadowed (carName car) with none | some
    · have kept : car ∈ first.filter fun other => carName other = carName car := by simp [member]
      rw [none] at kept
      cases kept
    · obtain ⟨again, kept⟩ := List.exists_mem_of_ne_nil _ some
      obtain ⟨member, same⟩ := List.mem_filter.mp kept
      exact ⟨again, member, of_decide_eq_true same⟩
  · intro covered name
    rcases List.eq_nil_or_concat (first.filter fun car => carName car = name) with
      none | ⟨_, car, kept⟩
    · exact Or.inl none
    · apply Or.inr
      have member : car ∈ first.filter fun car => carName car = name := by simp [kept]
      obtain ⟨listed, named⟩ := List.mem_filter.mp member
      obtain ⟨again, present, same⟩ := covered car listed
      refine List.ne_nil_of_mem (List.mem_filter.mpr ⟨present, ?_⟩ : again ∈ _)
      simpa [same] using named

theorem loopSeq_append_iff (start : state.rev = 0) :
    ((data :: rest).foldl advanceFrame state).loopSeq =
        ((earlier ++ data :: rest).foldl advanceFrame state).loopSeq ↔
      Steady state (earlier ++ [data]) := by
  have first : (advanceFrame state data).loopSeq = state.loopSeq := by
    simp [advanceFrame, looped, start]
  have both := loopSeq_foldl_add (advanceFrame state data)
    (advanceFrame (earlier.foldl advanceFrame state) data) rfl rfl rest
  rw [← loopSeq_foldl_eq_iff, List.foldl_append, List.foldl_append, List.foldl_cons, List.foldl_cons,
    List.foldl_cons, List.foldl_nil]
  omega

/-- The earlier frames are forgotten exactly when nothing of theirs shows. -/
theorem same_foldl_iff (start : state.rev = 0) (noCars : state.cars = .empty)
    (noMessages : state.messages = []) (noWeather : state.weather = none)
    (positive : ∀ other ∈ earlier ++ data :: rest, 0 < other.rev)
    (again : (earlier ++ [data]).IsChain (fun earlier later => ¬ Rewound earlier later) →
      (data :: rest).IsChain fun earlier later => ¬ Rewound earlier later) :
    Same ((data :: rest).foldl advanceFrame state)
        ((earlier ++ data :: rest).foldl advanceFrame state) ↔
      (earlier ++ [data]).IsChain (fun earlier later => ¬ Rewound earlier later) ∧
        (∀ other ∈ earlier, other.radioList = []) ∧
        ((∀ other ∈ earlier, other.messageList = []) ∨
          maxMessages ≤ ((data :: rest).flatMap FrameData.messageList).length) ∧
        ((∀ other ∈ earlier, other.weather = none) ∨ ∃ other ∈ data :: rest, other.weather ≠ none) ∧
        ∀ other ∈ earlier, ∀ car ∈ other.carList,
          ∃ newer ∈ data :: rest, ∃ same ∈ newer.carList, carName same = carName car := by
  have positiveFirst : ∀ other ∈ earlier ++ [data], 0 < other.rev := fun other member =>
    positive other (by simp only [List.mem_append, List.mem_cons] at member ⊢; tauto)
  have positiveLast : ∀ other ∈ data :: rest, 0 < other.rev := fun other member =>
    positive other (List.mem_append_right _ member)
  have sameCars : (∀ name, ((data :: rest).foldl advanceFrame state).cars.get? name =
        ((earlier ++ data :: rest).foldl advanceFrame state).cars.get? name) ↔
      ∀ other ∈ earlier, ∀ car ∈ other.carList,
        ∃ newer ∈ data :: rest, ∃ same ∈ newer.carList, carName same = carName car := by
    simp only [cars_foldl, noCars, List.flatMap_append, get?_putCars_append_iff, List.mem_flatMap]
    constructor
    · intro covered other member car listed
      obtain ⟨again, ⟨newer, inNewer, kept⟩, same⟩ := covered car ⟨other, member, listed⟩
      exact ⟨newer, inNewer, again, kept, same⟩
    · intro covered car listed
      obtain ⟨other, member, listed⟩ := listed
      obtain ⟨newer, inNewer, again, kept, same⟩ := covered other member car listed
      exact ⟨again, ⟨newer, inNewer, kept⟩, same⟩
  have sameWeather : ((data :: rest).foldl advanceFrame state).weather =
        ((earlier ++ data :: rest).foldl advanceFrame state).weather ↔
      (∀ other ∈ earlier, other.weather = none) ∨ ∃ other ∈ data :: rest, other.weather ≠ none := by
    simp only [weather_foldl, noWeather, Option.or_none, List.filterMap_append, getLast?_append_eq_iff,
      List.filterMap_eq_nil_iff, ne_eq, not_forall, exists_prop]
  have sameRadio : ((data :: rest).foldl advanceFrame state).radio =
        ((earlier ++ data :: rest).foldl advanceFrame state).radio ↔
      ∀ other ∈ earlier, other.radioList = [] := by
    simp only [radio_foldl, List.flatMap_append, List.append_cancel_left_eq, List.self_eq_append_left,
      List.flatMap_eq_nil_iff]
  have sameMessages (steady : (earlier ++ [data]).IsChain fun earlier later => ¬ Rewound earlier later) :
      ((data :: rest).foldl advanceFrame state).messages =
        ((earlier ++ data :: rest).foldl advanceFrame state).messages ↔
      (∀ other ∈ earlier, other.messageList = []) ∨
        maxMessages ≤ ((data :: rest).flatMap FrameData.messageList).length := by
    have whole : (earlier ++ data :: rest).IsChain fun earlier later => ¬ Rewound earlier later :=
      List.isChain_split.mpr ⟨steady, again steady⟩
    rw [((steady_iff start positiveLast).mpr (again steady)).messages,
      ((steady_iff start positive).mpr whole).messages, noMessages, List.flatMap_append, ← push_push,
      eq_comm, push_eq_push_nil_iff (by decide), push_eq_nil_iff (by decide)]
    simp only [true_and, List.flatMap_eq_nil_iff]
  apply (same_foldl_iff_fields ..).trans
  rw [sameCars, sameRadio, sameWeather, loopSeq_append_iff start, steady_iff start positiveFirst]
  constructor
  · intro same
    obtain ⟨sameCars, _, _, messages, radio, weather, steady⟩ := same
    exact ⟨steady, radio, (sameMessages steady).mp messages, weather, sameCars⟩
  · intro forgotten
    obtain ⟨steady, radio, messages, weather, sameCars⟩ := forgotten
    refine ⟨sameCars, ?_, ?_, (sameMessages steady).mpr messages, radio, weather, steady⟩
    · rw [timeMs_foldl, timeMs_foldl]
      simp [List.getLast?_cons]
    · rw [rev_foldl, rev_foldl]
      simp [List.getLast?_cons]

end

namespace Clip

variable (clip : Clip)

def lapsBefore : Nat → List FrameData
  | 0 => []
  | laps + 1 => lapsBefore laps ++ clip.frames.map (clip.bumped laps)

/-- What playback shows `count` frames into a lap that it came to on its own. -/
def stateAt (laps count : Nat) : RaceState :=
  clip.lapFold ((clip.lapsBefore laps).foldl advanceFrame clip.opening) laps count

theorem opening_blank :
    clip.opening.cars = .empty ∧ clip.opening.messages = [] ∧ clip.opening.weather = none := by
  rw [opening]
  split
  · exact ⟨rfl, rfl, rfl⟩
  · rename_i data present
    obtain ⟨_, cars, messages, weather⟩ := clip.bare data present
    simp [applySnapshot, cars, messages, weather, Dict.ofMembers]

theorem stateAt_zero : clip.stateAt 0 0 = clip.opening := rfl

theorem stateAt_next_lap (laps : Nat) :
    clip.stateAt (laps + 1) 0 = clip.stateAt laps clip.frames.length := by
  simp [stateAt, lapFold, lapsBefore]

theorem framesOf_messages : framesOf clip.messages = clip.frames := by
  rw [framesOf, messages, List.filterMap_append, List.filterMap_map, List.filterMap_map]
  simp

theorem framesOf_take (number : Nat) :
    framesOf (clip.messages.take (clip.first + number)) = clip.frames.take number := by
  have frames : clip.messages.drop clip.first = clip.frames.map .frame := by
    rw [messages, first, List.drop_left' (by simp)]
  have head : clip.messages.take clip.first = clip.head.toList.map .snapshot := by
    rw [messages, first, List.take_left' (by simp)]
  rw [List.take_add, head, frames, framesOf, List.filterMap_append, List.filterMap_map,
    ← List.map_take, List.filterMap_map]
  simp

theorem forall_lapsBefore {holds : FrameData → Prop}
    (same : ∀ laps data, holds (clip.bumped laps data) ↔ holds data) (laps : Nat) :
    (∀ data ∈ clip.lapsBefore (laps + 1), holds data) ↔ ∀ data ∈ clip.frames, holds data := by
  have lap (laps : Nat) :
      (∀ data ∈ clip.frames.map (clip.bumped laps), holds data) ↔
        ∀ data ∈ clip.frames, holds data := by
    simp only [List.forall_mem_map, same]
  induction laps with
  | zero => simpa [lapsBefore] using lap 0
  | succ laps ih =>
      rw [lapsBefore, List.forall_mem_append]
      exact (and_congr ih (lap (laps + 1))).trans (and_self_iff)

theorem lapsBefore_positive {laps : Nat} {other : FrameData} (member : other ∈ clip.lapsBefore laps) :
    0 < other.rev := by
  induction laps with
  | zero => cases member
  | succ laps ih =>
      rcases List.mem_append.mp member with before | within
      · exact ih before
      · obtain ⟨data, listed, rfl⟩ := List.mem_map.mp within
        exact clip.bumped_positive _ listed

theorem bumped_rewound (first second : Nat) (earlier later : FrameData) :
    Rewound (clip.bumped first earlier) (clip.bumped second later) ↔ Rewound earlier later :=
  Iff.rfl

/-- Laps in a row are steady when one lap is, through to its own first frame. -/
theorem isChain_lapsBefore {data : FrameData} (starts : clip.frames.head? = some data)
    (laps : Nat) :
    (clip.lapsBefore (laps + 1) ++ [clip.bumped (laps + 1) data]).IsChain
        (fun earlier later => ¬ Rewound earlier later) ↔
      (clip.frames ++ [data]).IsChain fun earlier later => ¬ Rewound earlier later := by
  have lap (laps : Nat) :
      (clip.frames.map (clip.bumped laps) ++ [clip.bumped (laps + 1) data]).IsChain
          (fun earlier later => ¬ Rewound earlier later) ↔
        (clip.frames ++ [data]).IsChain fun earlier later => ¬ Rewound earlier later := by
    rw [List.isChain_append, List.isChain_append, List.isChain_map]
    simp [bumped_rewound]
  obtain ⟨rest, frames⟩ : ∃ rest, clip.frames = data :: rest := List.head?_eq_some_iff.mp starts
  induction laps with
  | zero => exact lap 0
  | succ laps ih =>
      have next := lap (laps + 1)
      have split : clip.lapsBefore (laps + 2) ++ [clip.bumped (laps + 2) data] =
          clip.lapsBefore (laps + 1) ++ clip.bumped (laps + 1) data ::
            (rest.map (clip.bumped (laps + 1)) ++ [clip.bumped (laps + 2) data]) := by
        rw [lapsBefore, frames, List.append_assoc]
        rfl
      have opens : clip.frames.map (clip.bumped (laps + 1)) ++ [clip.bumped (laps + 2) data] =
          clip.bumped (laps + 1) data ::
            (rest.map (clip.bumped (laps + 1)) ++ [clip.bumped (laps + 2) data]) := by
        rw [frames]
        rfl
      rw [split, List.isChain_split, ← opens]
      exact (and_congr ih next).trans and_self_iff

theorem same_stateAt_iff (laps number : Nat) :
    Same (clip.lapFold clip.opening laps (number + 1)) (clip.stateAt laps (number + 1)) ↔
      laps = 0 ∨ Forgotten clip.frames (clip.frames.take (number + 1)) := by
  cases laps with
  | zero => exact iff_of_true ⟨fun _ => rfl, rfl⟩ (Or.inl rfl)
  | succ laps =>
      obtain ⟨data, rest, frames⟩ := List.exists_cons_of_ne_nil clip.plays
      have starts : clip.frames.head? = some data := by rw [frames]; rfl
      have taken : (clip.frames.take (number + 1)).map (clip.bumped (laps + 1)) =
          clip.bumped (laps + 1) data :: (rest.take number).map (clip.bumped (laps + 1)) := by
        rw [frames, List.take_succ_cons, List.map_cons]
      have positive : ∀ other ∈ clip.lapsBefore (laps + 1) ++
          (clip.frames.take (number + 1)).map (clip.bumped (laps + 1)), 0 < other.rev := by
        intro other member
        rcases List.mem_append.mp member with before | within
        · exact clip.lapsBefore_positive before
        · obtain ⟨data, listed, rfl⟩ := List.mem_map.mp within
          exact clip.bumped_positive _ (List.mem_of_mem_take listed)
      have again : (clip.lapsBefore (laps + 1) ++ [clip.bumped (laps + 1) data]).IsChain
            (fun earlier later => ¬ Rewound earlier later) →
          ((clip.frames.take (number + 1)).map (clip.bumped (laps + 1))).IsChain
            fun earlier later => ¬ Rewound earlier later := by
        rw [isChain_lapsBefore clip starts]
        intro steady
        rw [List.isChain_map]
        exact (List.isChain_append.mp steady).1.take (number + 1)
      rw [taken] at positive again
      have folds := same_foldl_iff clip.opening_rev clip.opening_blank.1 clip.opening_blank.2.1
        clip.opening_blank.2.2 positive again
      rw [← taken, isChain_lapsBefore clip starts] at folds
      simp only [stateAt, lapFold]
      rw [← List.foldl_append]
      apply folds.trans
      have each {holds : FrameData → Prop}
          (same : ∀ laps data, holds (clip.bumped laps data) ↔ holds data) :=
        clip.forall_lapsBefore same laps
      rw [each (fun _ _ => Iff.rfl), each (fun _ _ => Iff.rfl), each (fun _ _ => Iff.rfl),
        each (fun _ _ => Iff.rfl)]
      have upTo (holds : FrameData → Prop) :
          (∃ other ∈ (clip.frames.take (number + 1)).map (clip.bumped (laps + 1)), holds other) ↔
            ∃ other ∈ clip.frames.take (number + 1), holds (clip.bumped (laps + 1) other) := by
        simp only [List.mem_map, exists_exists_and_eq_and]
      simp only [List.flatMap_map, upTo]
      constructor
      · intro forgotten
        obtain ⟨steady, radio, messages, weather, cars⟩ := forgotten
        exact Or.inr ⟨starts ▸ steady, radio, messages, weather, cars⟩
      · intro forgotten
        obtain ⟨steady, radio, messages, weather, cars⟩ := forgotten.resolve_left (Nat.succ_ne_zero laps)
        rw [starts] at steady
        exact ⟨steady, radio, messages, weather, cars⟩

end Clip

namespace Playback

/-- Reached by nothing but the timer. -/
def Uninterrupted (messages : List Msg) (first playback : Playback) : Prop :=
  ∃ times : List Rat, run (step messages) first (times.map .fire) = some playback

variable {clip : Clip} {first playback after : Playback} {now : Rat}

/-- The state is the fold of all that was played. -/
structure OnItsOwn (clip : Clip) (playback : Playback) : Prop extends Playback.Sound clip playback where
  running : (playback.closed || playback.paused) = false
  state : playback.state =
    match playback.shown.getLast? with
    | none => emptyState
    | some last => clip.stateAt last.lap (last.index + 1 - clip.first)

theorem OnItsOwn.state_due (own : playback.OnItsOwn clip) {lap number : Nat}
    (due : following clip.messages playback.shown = (lap, clip.first + number)) :
    playback.state = clip.stateAt lap number := by
  have state := own.state
  rw [following] at due
  cases last : playback.shown.getLast? with
  | none =>
      rw [last] at state due
      simp only [Prod.mk.injEq] at due
      obtain ⟨rfl, start⟩ := due
      obtain ⟨bare, rfl⟩ : clip.first = 0 ∧ number = 0 := by omega
      have none : clip.head = none := by
        cases present : clip.head with
        | none => rfl
        | some _ => simp [Clip.first, present] at bare
      rw [state, clip.stateAt_zero]
      simp [Clip.opening, none]
  | some one =>
      have inRange := own.inRange one (List.mem_of_getLast? last)
      rw [last] at state due
      simp only [clip.length_messages, clip.loopRestartIndex_messages] at state due
      split at due
      · simp only [Prod.mk.injEq] at due
        obtain ⟨rfl, next⟩ := due
        rw [state, next, Nat.add_sub_cancel_left]
      · simp only [Prod.mk.injEq] at due
        obtain ⟨rfl, start⟩ := due
        obtain rfl : number = 0 := by omega
        have whole : one.index + 1 - clip.first = clip.frames.length := by
          unfold Clip.total at *
          omega
        rw [state, whole, clip.stateAt_next_lap]

theorem OnItsOwn.fire_play (own : playback.OnItsOwn clip) (now : Rat) {index : Nat} {wait : Rat}
    (pending : playback.timer = some (.play index, wait)) :
    ∃ next, playback.fire clip.messages now = some next ∧ next.OnItsOwn clip ∧
      (playback.lapsCompleted, index) = following clip.messages playback.shown ∧
      next.shown = playback.shown ++ [⟨playback.lapsCompleted, index, false⟩] := by
  obtain ⟨due, message, found, next, fired, sound, running, shown, applied, folded⟩ :=
    own.toSound.fire_play now pending
  refine ⟨next, fired, ⟨sound, running, ?_⟩, due.symm, shown⟩
  rw [shown, List.getLast?_concat]
  by_cases before : index < clip.first
  · obtain ⟨rfl, data, head, snapshot⟩ := clip.messages_head before
    cases found.symm.trans snapshot
    have one : clip.first = 1 := by
      have most := clip.first_le_one
      omega
    cases last : playback.shown.getLast? with
    | none =>
        have state := own.state
        simp only [following, last, Prod.mk.injEq] at due
        rw [last] at state
        simp only [applyMessage, Playback.bump, Except.ok.injEq] at applied
        rw [← applied, state, ← due.1, one]
        simp only [Nat.zero_add, Nat.sub_self, clip.stateAt_zero]
        simp [Clip.opening, head]
    | some one =>
        simp only [following, last, clip.loopRestartIndex_messages] at due
        split at due <;> (simp only [Prod.mk.injEq] at due; omega)
  · obtain ⟨number, rfl⟩ := Nat.exists_eq_add_of_le (Nat.le_of_not_lt before)
    rw [clip.messages_frame] at found
    obtain ⟨data, listed, rfl⟩ := Option.map_eq_some_iff.mp found
    have counted : clip.first + number + 1 - clip.first = number + 1 := by omega
    simp only [counted]
    rw [(folded data rfl).2, own.state_due due]
    exact (clip.lapFold_succ _ _ listed).symm

theorem OnItsOwn.fire_restart (own : playback.OnItsOwn clip) (now : Rat) {wait : Rat}
    (pending : playback.timer = some (.restart, wait)) :
    ∃ next, playback.fire clip.messages now = some next ∧ next.OnItsOwn clip ∧
      next.shown = playback.shown ∧ ∃ wait, next.timer = some (.play clip.first, wait) := by
  obtain ⟨next, fired, sound, later, same⟩ := own.toSound.fire_restart now pending
  rw [same] at sound fired
  exact ⟨_, fired, ⟨sound, own.running, own.state⟩, rfl, later, rfl⟩

theorem OnItsOwn.fire (own : playback.OnItsOwn clip)
    (fired : playback.step clip.messages (.fire now) = some after) : after.OnItsOwn clip := by
  rcases own.scheduled with ⟨_, stopped⟩ | ⟨_, _, ⟨wait, pending⟩ | ⟨_, wait, pending⟩⟩
  · exact absurd own.running (by simp [stopped])
  · obtain ⟨next, stepped, kept, _⟩ := own.fire_play now pending
    cases stepped.symm.trans fired
    exact kept
  · obtain ⟨next, stepped, kept, _⟩ := own.fire_restart now pending
    cases stepped.symm.trans fired
    exact kept

theorem OnItsOwn.start (started : Playback.start clip.messages now = some first) :
    first.OnItsOwn clip ∧ first.shown = [] := by
  have sound := Sound.start started
  rw [Playback.start] at started
  split at started
  · have fresh : (first.closed || first.paused) = false ∧ first.state = emptyState ∧
        first.shown = [] := by
      cases started
      let opening : Playback := {
        state := emptyState, closed := false, timer := none, live := false, paused := false
        lapsCompleted := 0, nextIndex := 0, lastOffset := 0, loopStart := now, shown := [] }
      obtain ⟨loopStart, wait, same⟩ := playFrom_running opening clip 0 now rfl
      rw [same]
      split <;> exact ⟨rfl, rfl, rfl⟩
    obtain ⟨running, state, shown⟩ := fresh
    exact ⟨⟨sound, running, by rw [state, shown]; rfl⟩, shown⟩
  · cases started

theorem Uninterrupted.refl (messages : List Msg) : Uninterrupted messages first first := ⟨[], rfl⟩

theorem Uninterrupted.fire {messages : List Msg} (alone : Uninterrupted messages first playback)
    (fired : playback.fire messages now = some after) : Uninterrupted messages first after := by
  obtain ⟨times, ran⟩ := alone
  refine ⟨times ++ [now], ?_⟩
  rw [List.map_append, List.map_singleton]
  exact run_concat_eq_some_iff.mpr ⟨playback, ran, fired⟩

theorem Uninterrupted.onItsOwn (started : Playback.start clip.messages now = some first)
    (alone : Uninterrupted clip.messages first playback) : playback.OnItsOwn clip := by
  obtain ⟨times, ran⟩ := alone
  induction times using List.reverseRecOn generalizing playback with
  | nil =>
      cases ran
      exact (OnItsOwn.start started).1
  | append_singleton times last ih =>
      rw [List.map_append, List.map_singleton] at ran
      obtain ⟨middle, ran, fired⟩ := run_concat_eq_some_iff.mp ran
      exact (ih ran).fire fired

theorem Uninterrupted.next (started : Playback.start clip.messages now = some first)
    (alone : Uninterrupted clip.messages first playback) (lap index : Nat)
    (due : following clip.messages playback.shown = (lap, index)) :
    ∃ later, Uninterrupted clip.messages first later ∧
      later.shown = playback.shown ++ [⟨lap, index, false⟩] := by
  have own := alone.onItsOwn started
  have plays {playing : Playback} {set : Nat} {wait : Rat}
      (own : playing.OnItsOwn clip) (alone : Uninterrupted clip.messages first playing)
      (pending : playing.timer = some (.play set, wait)) (same : playing.shown = playback.shown) :
      ∃ later, Uninterrupted clip.messages first later ∧
        later.shown = playback.shown ++ [⟨lap, index, false⟩] := by
    obtain ⟨later, fired, _, next, shown⟩ := own.fire_play now pending
    rw [same, due, Prod.mk.injEq] at next
    obtain ⟨rfl, rfl⟩ := next
    exact ⟨later, alone.fire fired, same ▸ shown⟩
  rcases own.scheduled with ⟨_, stopped⟩ | ⟨_, _, ⟨wait, pending⟩ | ⟨_, wait, pending⟩⟩
  · exact absurd own.running (by simp [stopped])
  · exact plays own alone pending rfl
  · obtain ⟨resumed, fired, kept, same, _, pending⟩ := own.fire_restart now pending
    exact plays kept (alone.fire fired) pending same

/-- Left alone, playback shows every message of the first lap and every frame of the later ones. -/
theorem exists_uninterrupted (started : Playback.start clip.messages now = some first)
    (lap : Nat) {index : Nat} (within : index < clip.total) (frame : lap = 0 ∨ clip.first ≤ index) :
    ∃ playback, Uninterrupted clip.messages first playback ∧
      playback.shown.getLast? = some ⟨lap, index, false⟩ := by
  have onwards {lap start : Nat} (reached : ∃ playback, Uninterrupted clip.messages first playback ∧
      playback.shown.getLast? = some ⟨lap, start, false⟩) (index : Nat) (within : index < clip.total)
      (later : start ≤ index) : ∃ playback, Uninterrupted clip.messages first playback ∧
        playback.shown.getLast? = some ⟨lap, index, false⟩ := by
    induction index, later using Nat.le_induction with
    | base => exact reached
    | succ index later ih =>
        obtain ⟨playback, alone, last⟩ := ih (Nat.lt_of_succ_lt within)
        obtain ⟨next, alone, shown⟩ := alone.next started lap (index + 1) (by
          simp [following, last, clip.length_messages, within])
        exact ⟨next, alone, by rw [shown, List.getLast?_concat]⟩
  have room := clip.first_lt_total
  induction lap generalizing index with
  | zero =>
      obtain ⟨opened, alone, shown⟩ := (Uninterrupted.refl clip.messages).next started
        0 0 (by rw [(OnItsOwn.start started).2]; rfl)
      exact onwards ⟨opened, alone, by rw [shown, List.getLast?_concat]⟩ index within (Nat.zero_le _)
  | succ lap ih =>
      obtain ⟨playback, alone, last⟩ := ih (by omega : clip.total - 1 < clip.total) (Or.inr (by omega))
      obtain ⟨next, alone, shown⟩ := alone.next started (lap + 1) clip.first (by
        have past : ¬ clip.total - 1 + 1 < clip.total := by omega
        simp only [following, last, clip.length_messages, clip.loopRestartIndex_messages, past,
          if_false])
      refine onwards ⟨next, alone, by rw [shown, List.getLast?_concat]⟩ index within ?_
      exact frame.resolve_left (Nat.succ_ne_zero lap)

theorem playFrom_state (playback : Playback) (messages : List Msg) (index : Nat) (now : Rat) :
    (playback.playFrom messages index now).state = playback.state := by
  rw [playFrom]
  split
  · rfl
  · split <;> rfl

/-- A scrub shows what uninterrupted playback shows at the frame it lands on, in the first lap and
where earlier laps leave no trace, and nowhere else. -/
theorem scrub_same_iff {messages : List Msg} (baked : Baked messages)
    (started : Playback.start messages now = some first) (playback : Playback) (ms later : Rat) :
    let landing : Shown := ⟨playback.lapsCompleted, scrubEnd messages ms, false⟩
    (∃ alone, Uninterrupted messages first alone ∧ alone.shown.getLast? = some landing) ∧
    ∀ alone, Uninterrupted messages first alone → alone.shown.getLast? = some landing →
      (Same (playback.scrub messages ms later).state alone.state ↔
        playback.lapsCompleted = 0 ∨
          Forgotten (framesOf messages) (framesOf (messages.take (scrubEnd messages ms + 1)))) := by
  have playable : messages.any isFrame = true := by
    rw [Playback.start] at started
    split at started
    · assumption
    · cases started
  obtain ⟨clip, rfl⟩ := baked.clip playable
  obtain ⟨number, within, lands⟩ := clip.scrubEnd_messages ms
  have inRange : clip.first + number < clip.total := by
    rw [Clip.total]
    omega
  simp only [lands]
  refine ⟨exists_uninterrupted started _ inRange (Or.inr (Nat.le_add_right ..)), ?_⟩
  intro alone uninterrupted last
  have own := (uninterrupted.onItsOwn started).state
  have counted : clip.first + number + 1 - clip.first = number + 1 := by omega
  simp only [last, counted] at own
  have scrubbed : (playback.scrub clip.messages ms later).state =
      clip.lapFold clip.opening playback.lapsCompleted (number + 1) := by
    rw [clip.scrub_messages playback lands]
    split
    · rfl
    · rw [playFrom_state]
  rw [scrubbed, own, Nat.add_assoc, clip.framesOf_take, clip.framesOf_messages]
  exact clip.same_stateAt_iff ..

theorem scrub_same_iff_twoFrames :
    ∃ first, Playback.start twoFrames 0 = some first ∧
      ∀ alone, Uninterrupted twoFrames first alone →
        alone.shown.getLast? = some ⟨0, scrubEnd twoFrames 6000, false⟩ →
          Same (first.scrub twoFrames 6000 0).state alone.state := by
  have started : ∃ first, Playback.start twoFrames 0 = some first ∧ first.lapsCompleted = 0 :=
    ⟨_, rfl, by decide⟩
  obtain ⟨first, started, lap⟩ := started
  have same := (scrub_same_iff twoFrames_baked started first 6000 0).2
  rw [lap] at same
  exact ⟨first, started, fun alone uninterrupted last =>
    (same alone uninterrupted last).mpr (Or.inl rfl)⟩

/-- In the second lap a scrub to the start undoes the count of the wrap. -/
theorem scrub_forgets_wrap :
    Baked twoFrames ∧ ∃ first playback alone, Playback.start twoFrames 0 = some first ∧
      Reachable (step twoFrames) first playback ∧ playback.lapsCompleted = 1 ∧
      Uninterrupted twoFrames first alone ∧
      alone.shown.getLast? = some ⟨1, scrubEnd twoFrames 0, false⟩ ∧
      ¬ Same (playback.scrub twoFrames 0 6000).state alone.state := by
  have ran : ∃ first playback alone, Playback.start twoFrames 0 = some first ∧
      run (step twoFrames) first [.fire 0, .fire 0, .fire 6000] = some playback ∧
      run (step twoFrames) first ([0, 0, 6000, 6000, 6000].map .fire) = some alone ∧
      playback.lapsCompleted = 1 ∧
      alone.shown.getLast? = some ⟨1, scrubEnd twoFrames 0, false⟩ ∧
      (playback.scrub twoFrames 0 6000).state.loopSeq = 0 ∧ alone.state.loopSeq = 1 := by
    refine ⟨_, _, _, rfl, rfl, rfl, ?_⟩
    decide +kernel
  obtain ⟨first, playback, alone, started, toPlayback, toAlone, lap, last, scrubbed, played⟩ := ran
  refine ⟨twoFrames_baked, first, playback, alone, started, ⟨_, toPlayback⟩, lap, ⟨_, toAlone⟩, last, ?_⟩
  intro same
  have counts := congrArg RaceState.loopSeq same.2
  simp only [scrubbed, played] at counts
  cases counts

end Playback

end RaceTracker.Web
