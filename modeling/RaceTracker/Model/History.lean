import Mathlib.Data.List.Chain
import RaceTracker.Model.Apply

namespace RaceTracker.Model

open RaceTracker.Lib

/-! The snapshot as a function of the frames that were applied. -/

/-- Newer than the empty snapshot and than every frame applied so far. -/
def Exceeds (done : List Frame) (frame : Frame) : Prop :=
  0 < frame.rev ∧ ∀ earlier ∈ done, earlier.rev < frame.rev

instance (done : List Frame) (frame : Frame) : Decidable (Exceeds done frame) :=
  inferInstanceAs (Decidable (_ ∧ _))

def appliedFrames (frames : List Frame) : List Frame :=
  frames.foldl (fun done frame => if Exceeds done frame then done ++ [frame] else done) []

/-- The clock of the frames never runs backwards. -/
def Forward (frames : List Frame) : Prop :=
  frames.IsChain fun earlier later => ¬ later.timeMs < earlier.timeMs

instance (frames : List Frame) : Decidable (Forward frames) :=
  inferInstanceAs (Decidable (List.IsChain _ _))

/-- The frames from the last one whose clock is behind its predecessor's. -/
def sinceRewind : List Frame → List Frame
  | [] => []
  | first :: rest => if Forward (first :: rest) then first :: rest else sinceRewind rest

/-- What a snapshot shows of the frames applied to it. -/
structure Summarises (snapshot : Snapshot) (done : List Frame) : Prop where
  messages : snapshot.messages = keepLast maxMessages ((sinceRewind done).flatMap Frame.messages)
  radio : snapshot.radio = done.flatMap Frame.radio
  cars : ∃ cars, snapshot.cars = some cars ∧ ∀ driver, cars.get? driver =
    ((done.flatMap Frame.carList).filter fun car => car.driverNum = driver).getLast?
  weather : snapshot.weather = (done.filterMap Frame.weather).getLast?
  timeMs : snapshot.timeMs = (done.getLast?.map Frame.timeMs).getD 0
  rev : snapshot.rev = (done.getLast?.map Frame.rev).getD 0

/-- The clock of the frame is behind that of the last frame applied. -/
def Rewinds (done : List Frame) (frame : Frame) : Prop :=
  ∃ last ∈ done.getLast?, frame.timeMs < last.timeMs

def foldFrames (snapshot : Snapshot) (frames : List Frame) : Except Panic Snapshot :=
  frames.foldlM (fun snapshot frame => (apply snapshot frame).map Prod.fst) snapshot

variable {frames done : List Frame} {frame : Frame} {snapshot : Snapshot}

theorem forward_append_iff : Forward (done ++ [frame]) ↔ Forward done ∧ ¬ Rewinds done frame := by
  unfold Forward Rewinds
  rw [List.isChain_append]
  simp only [List.isChain_singleton, List.head?_cons, Option.mem_some_iff, forall_eq', true_and,
    not_exists, not_and]

theorem sinceRewind_of_rewinds (rewinds : Rewinds done frame) :
    sinceRewind (done ++ [frame]) = [frame] := by
  induction done with
  | nil =>
      obtain ⟨last, none, _⟩ := rewinds
      cases none
  | cons first rest ih =>
      have broken : ¬ Forward (first :: rest ++ [frame]) := fun forward =>
        (forward_append_iff.mp forward).2 rewinds
      rw [List.cons_append] at broken ⊢
      rw [sinceRewind, if_neg broken]
      cases rest with
      | nil => exact if_pos (List.isChain_singleton frame)
      | cons next rest => exact ih rewinds

theorem sinceRewind_of_forward (continues : ¬ Rewinds done frame) :
    sinceRewind (done ++ [frame]) = sinceRewind done ++ [frame] := by
  induction done with
  | nil => exact if_pos (List.isChain_singleton frame)
  | cons first rest ih =>
      have forward : Forward (first :: (rest ++ [frame])) ↔ Forward (first :: rest) := by
        rw [← List.cons_append, forward_append_iff]
        exact and_iff_left continues
      rw [List.cons_append, sinceRewind, sinceRewind]
      by_cases whole : Forward (first :: rest)
      · rw [if_pos whole, if_pos (forward.mpr whole), List.cons_append]
      · rw [if_neg whole, if_neg (mt forward.mp whole)]
        cases rest with
        | nil => exact absurd (List.isChain_singleton first) whole
        | cons next rest => exact ih continues

theorem appliedFrames_append (frames : List Frame) (frame : Frame) :
    appliedFrames (frames ++ [frame]) =
      if Exceeds (appliedFrames frames) frame then appliedFrames frames ++ [frame]
      else appliedFrames frames := by
  rw [appliedFrames, List.foldl_append]
  rfl

theorem appliedFrames_climb (frames : List Frame) :
    (appliedFrames frames).Pairwise (fun earlier later => earlier.rev < later.rev) ∧
      ∀ frame ∈ appliedFrames frames, 0 < frame.rev := by
  induction frames using List.reverseRecOn with
  | nil => exact ⟨List.Pairwise.nil, fun _ none => by cases none⟩
  | append_singleton frames frame ih =>
      obtain ⟨climb, positive⟩ := ih
      rw [appliedFrames_append]
      split
      · rename_i exceeds
        refine ⟨List.pairwise_append.mpr ⟨climb, List.pairwise_singleton .., ?_⟩, ?_⟩
        · intro earlier member later last
          rw [List.mem_singleton.mp last]
          exact exceeds.2 earlier member
        · intro other member
          rcases List.mem_append.mp member with before | last
          · exact positive other before
          · exact List.mem_singleton.mp last ▸ exceeds.1
      · exact ⟨climb, positive⟩

/-- The staleness check compares with the last applied frame only. -/
theorem exceeds_iff (summary : Summarises snapshot (appliedFrames frames)) :
    Exceeds (appliedFrames frames) frame ↔ ¬ frame.rev ≤ snapshot.rev := by
  obtain ⟨climb, positive⟩ := appliedFrames_climb frames
  rw [summary.rev, Int64.not_le]
  rcases List.eq_nil_or_concat (appliedFrames frames) with none | ⟨before, last, split⟩
  · simp [none, Exceeds]
  · rw [List.concat_eq_append] at split
    rw [split] at climb positive ⊢
    have newest := (List.pairwise_append.mp climb).2.2
    have fresh := positive last (by simp)
    simp only [List.getLast?_concat, Option.map_some, Option.getD_some]
    constructor
    · intro exceeds
      exact exceeds.2 last (by simp)
    · intro newer
      refine ⟨Int64.lt_trans fresh newer, fun earlier member => ?_⟩
      rcases List.mem_append.mp member with old | same
      · exact Int64.lt_trans (newest earlier old last (List.mem_singleton_self last)) newer
      · exact List.mem_singleton.mp same ▸ newer

theorem carriedMessages_eq (summary : Summarises snapshot done) :
    keepLast maxMessages ((sinceRewind (done ++ [frame])).flatMap Frame.messages) =
      push maxMessages (carriedMessages snapshot frame) frame.messages := by
  have short : push maxMessages [] frame.messages = keepLast maxMessages frame.messages :=
    push_keepLast maxMessages [] frame.messages
  by_cases rewinds : Rewinds done frame
  · obtain ⟨last, newest, behind⟩ := rewinds
    have clock : snapshot.timeMs = last.timeMs := by rw [summary.timeMs, newest]; rfl
    rw [sinceRewind_of_rewinds ⟨last, newest, behind⟩, carriedMessages, clock, if_pos behind, short]
    simp
  · have kept : carriedMessages snapshot frame = snapshot.messages := by
      cases newest : done.getLast? with
      | some last =>
          have clock : snapshot.timeMs = last.timeMs := by rw [summary.timeMs, newest]; rfl
          have ahead : ¬ frame.timeMs < last.timeMs := fun behind => rewinds ⟨last, newest, behind⟩
          rw [carriedMessages, clock, if_neg ahead]
      | none =>
          -- Before the first frame there is nothing to carry or to clear.
          have nothing : snapshot.messages = [] := by
            rw [summary.messages, List.getLast?_eq_none_iff.mp newest]
            rfl
          rw [carriedMessages, nothing, ite_self]
    rw [sinceRewind_of_forward rewinds, kept, summary.messages, push_keepLast]
    simp

theorem Summarises.advance (summary : Summarises snapshot done) (frame : Frame) :
    Summarises (Model.advance snapshot frame) (done ++ [frame]) where
  messages := (carriedMessages_eq summary).symm
  radio := by simp [Model.advance, summary.radio]
  cars := by
    obtain ⟨cars, held, last⟩ := summary.cars
    refine ⟨setCars cars frame.carList, by simp [Model.advance, held], fun driver => ?_⟩
    rw [setCars, Dict.get?_foldl_set, last, Option.map_id']
    simp [List.getLast?_append]
  weather := by
    simp only [Model.advance, summary.weather, List.filterMap_append, List.getLast?_append]
    cases weather : frame.weather <;> simp [weather]
  timeMs := by simp [Model.advance]
  rev := by simp [Model.advance]

theorem summarises_newSnapshot (session mode label : String) :
    Summarises (newSnapshot session mode label) [] :=
  ⟨rfl, rfl, ⟨.empty, rfl, fun _ => rfl⟩, rfl, rfl, rfl⟩

theorem apply_summarised (summary : Summarises snapshot (appliedFrames frames)) (frame : Frame) :
    apply snapshot frame =
      .ok (if Exceeds (appliedFrames frames) frame then (Model.advance snapshot frame, true)
        else (snapshot, false)) := by
  by_cases exceeds : Exceeds (appliedFrames frames) frame
  · obtain ⟨cars, held, _⟩ := summary.cars
    have writable : Writable snapshot frame := Or.inl (by rw [held]; exact Option.some_ne_none cars)
    rw [if_pos exceeds, apply_advancing ((exceeds_iff summary).mp exceeds) writable]
  · have stale : frame.rev ≤ snapshot.rev := not_not.mp (mt (exceeds_iff summary).mpr exceeds)
    rw [if_neg exceeds, apply_stale stale]

theorem foldFrames_append {after : Snapshot} (folded : foldFrames snapshot frames = .ok after)
    (frame : Frame) :
    foldFrames snapshot (frames ++ [frame]) = (apply after frame).map Prod.fst := by
  unfold foldFrames at folded ⊢
  rw [List.foldlM_append, folded]
  change ((apply after frame).map Prod.fst).bind (fun next => .ok next) = _
  cases apply after frame <;> rfl

theorem foldFrames_summarises (session mode label : String) (frames : List Frame) :
    ∃ after, foldFrames (newSnapshot session mode label) frames = .ok after ∧
      Summarises after (appliedFrames frames) := by
  induction frames using List.reverseRecOn with
  | nil => exact ⟨_, rfl, summarises_newSnapshot session mode label⟩
  | append_singleton frames frame ih =>
      obtain ⟨before, folded, summary⟩ := ih
      rw [foldFrames_append folded, apply_summarised summary frame, appliedFrames_append]
      by_cases exceeds : Exceeds (appliedFrames frames) frame
      · rw [if_pos exceeds, if_pos exceeds]
        exact ⟨_, rfl, summary.advance frame⟩
      · rw [if_neg exceeds, if_neg exceeds]
        exact ⟨before, rfl, summary⟩

/-- Folded into an empty snapshot, any frames leave what the applied ones say; the next one is
applied exactly when it exceeds them, and otherwise changes nothing. -/
theorem fold_is_history (session mode label : String) (frames : List Frame) :
    ∃ after, foldFrames (newSnapshot session mode label) frames = .ok after ∧
      Summarises after (appliedFrames frames) ∧
      ∀ frame, apply after frame =
        .ok (if Exceeds (appliedFrames frames) frame then (advance after frame, true)
          else (after, false)) := by
  obtain ⟨after, folded, summary⟩ := foldFrames_summarises session mode label frames
  exact ⟨after, folded, summary, apply_summarised summary⟩

/-- The frames newer than every applied one before them, the first in any case. -/
def climbingFrames (frames : List Frame) : List Frame :=
  frames.foldl (fun done frame =>
    if ∀ earlier ∈ done, earlier.rev < frame.rev then done ++ [frame] else done) []

def unnumberedFrame : Frame where
  sessionKey := "demo"
  rev := 0
  t := 0
  timeMs := 1000
  cars := some []
  messages := []
  radio := []
  weather := none

/-- A first frame without a revision is not applied, though there is none before it. -/
theorem first_frame_needs_a_revision :
    climbingFrames [unnumberedFrame] = [unnumberedFrame] ∧
    foldFrames (newSnapshot "demo" "replay" "") [unnumberedFrame] =
      .ok (newSnapshot "demo" "replay" "") ∧
    ¬ Summarises (newSnapshot "demo" "replay" "") (climbingFrames [unnumberedFrame]) := by
  refine ⟨by decide, by decide, fun summary => ?_⟩
  exact absurd summary.timeMs (by decide)

end RaceTracker.Model
