import RaceTracker.Seam.Broadcasts
import RaceTracker.Web.Folding

namespace RaceTracker.Seam

open RaceTracker.Lib RaceTracker.Model RaceTracker.Ws RaceTracker.Web

/-! A browser that has been connected all along against one that joins now.

`Model.apply` and `Web.applyFrame` are two implementations of one fold.  Both
clients read the texts that the hub encodes, so their numbers are doubles.  The
browser's state is the board of the hub's snapshot with the browser's own log in
place of the snapshot's messages; the logs are compared in `Rewinds`.
-/

def applyAll (snapshot : Snapshot) (frames : List Frame) : Except Panic Snapshot :=
  frames.foldlM (fun snapshot frame => (apply snapshot frame).map Prod.fst) snapshot

/-- The texts that come over a socket, one after another. -/
def onTexts (state : RaceState) (texts : List Json) : Except TypeError RaceState :=
  texts.foldlM onText state

/-- What a viewer sees: everything except the two counters the tab keeps for itself. -/
def view (state : RaceState) : RaceState := { state with snapshotSeq := 0, loopSeq := 0 }

/-- Two tabs show the same: every field a viewer sees is equal. -/
def SameView (left right : RaceState) : Prop := view left = view right

/-- A message as the browser reads it. -/
def readMessage (message : RaceControlMessage) : Json :=
  (RaceControlMessage.codec.marshal message).parsed

/-- The browser state that shows `snapshot` with `log` as its messages. -/
def board (snapshot : Snapshot) (cars : Dict Int64 CarState) (log : List RaceControlMessage)
    (snapshotSeq loopSeq : Nat) : RaceState :=
  { applySnapshot emptyState (snapshotData snapshot cars).parsed with
    messages := log.map readMessage, snapshotSeq, loopSeq }

/-- The revisions climb as doubles do, no frame is the zero frame, and every driver number is
a double. -/
def Legible (rev : Int64) : List Frame → Prop
  | [] => True
  | frame :: rest => roundInt rev.toInt < roundInt frame.rev.toInt ∧
      ¬ (frame.rev = 0 ∧ frame.carList = []) ∧ (∀ car ∈ frame.carList, Exact car.driverNum) ∧
        Legible frame.rev rest

instance decideLegible (rev : Int64) : (frames : List Frame) → Decidable (Legible rev frames)
  | [] => .isTrue trivial
  | frame :: rest =>
      let _ := decideLegible frame.rev rest
      inferInstanceAs (Decidable (_ ∧ _ ∧ _ ∧ _))

theorem rounded_getD {α : Type} (marshal : α → Json) (values : List α) :
    (roundedList (listed marshal values)).getD [] = values.map fun value => (marshal value).parsed := by
  cases values with
  | nil => rfl
  | cons value rest => simp [roundedList, listed]

/-- The cars of a snapshot as the browser reads them. -/
def shownCars (cars : Dict Int64 CarState) : Dict String Json :=
  cars.rename Codec.keyText Codec.keyText_injective fun car => (CarState.codec.marshal car).parsed

theorem cars_parsed (snapshot : Snapshot) (cars : Dict Int64 CarState) :
    Dict.ofMembers (snapshotData snapshot cars).parsed.cars = shownCars cars := by
  have members : (snapshotData snapshot cars).parsed.cars = (shownCars cars).entries := by
    simp [SnapshotData.parsed, snapshotData, Codec.marshalMembers, shownCars, Dict.rename]
  rw [members, Dict.ofMembers_entries]

theorem carName_marshal {car : CarState} (exact : Exact car.driverNum) :
    carName (CarState.codec.marshal car).parsed = Codec.keyText car.driverNum := by
  have low := Int64.le_toInt car.driverNum
  have high := Int64.toInt_lt car.driverNum
  have small : car.driverNum.toInt.natAbs < 10 ^ 21 := by omega
  rw [carName, driverNum_parsed]
  change numberToString (nearest (car.driverNum.toInt : Rat)) = _
  rw [nearest_intCast, exact, numberToString_intCast small, Codec.keyText]

theorem putCars_marshal (cars : Dict Int64 CarState) {list : List CarState}
    (exact : ∀ car ∈ list, Exact car.driverNum) :
    putCars (shownCars cars) ((list.map CarState.codec.marshal).map Json.parsed) =
      shownCars (setCars cars list) := by
  induction list generalizing cars with
  | nil => rfl
  | cons car rest ih =>
      obtain ⟨own, exact⟩ := List.forall_mem_cons.mp exact
      have stored : (shownCars cars).set (Codec.keyText car.driverNum) (CarState.codec.marshal car).parsed =
          shownCars (cars.set car.driverNum car) :=
        (Dict.rename_set Codec.keyText Codec.keyText_injective _ cars car.driverNum car).symm
      rw [List.map_cons, List.map_cons, putCars, List.foldl_cons, carName_marshal own, stored]
      exact ih (cars.set car.driverNum car) exact

theorem radio_append (heard new : List RadioMessage) :
    (roundedList (listed RadioMessage.codec.marshal heard)).getD [] ++
        (roundedList (listed RadioMessage.codec.marshal new)).getD [] =
      (roundedList (listed RadioMessage.codec.marshal (heard ++ new))).getD [] := by
  rw [rounded_getD, rounded_getD, rounded_getD, List.map_append]

theorem weather_or (sent held : Option Weather) :
    ((sent.map Weather.codec.marshal).map Json.parsed).or
        ((held.map Weather.codec.marshal).map Json.parsed) =
      ((sent.or held).map Weather.codec.marshal).map Json.parsed := by
  cases sent <;> rfl

theorem messages_push (log new : List RaceControlMessage) :
    push Web.maxMessages (log.map readMessage)
        ((roundedList (listed RaceControlMessage.codec.marshal new)).getD []) =
      (push Model.maxMessages log new).map readMessage := by
  rw [rounded_getD, map_push]
  rfl

theorem looped_board (snapshot : Snapshot) (cars : Dict Int64 CarState)
    (log : List RaceControlMessage) (snapshotSeq loopSeq : Nat) (frame : Frame) (list : List CarState) :
    looped (board snapshot cars log snapshotSeq loopSeq) (frameData frame list).parsed =
      clientRewind snapshot.timeMs snapshot.rev frame := by
  change decide (0 < nearest (snapshot.rev.toInt : Rat) ∧
    nearest (frame.timeMs.toInt : Rat) < nearest (nearest (snapshot.timeMs.toInt : Rat) - loopRewindMs)) = _
  have clock : nearest (snapshot.timeMs.toInt : Rat) - loopRewindMs =
      ((roundInt snapshot.timeMs.toInt - 5000 : Int) : Rat) := by
    rw [nearest_intCast, loopRewindMs]
    push_cast
    rfl
  rw [clock, nearest_intCast, nearest_intCast, nearest_intCast, clientRewind, decide_eq_decide, FarBack]
  exact_mod_cast Iff.rfl

/-- A stale revision is one for the browser as well. -/
theorem onText_stale (snapshot : Snapshot) (cars : Dict Int64 CarState) (log : List RaceControlMessage)
    (snapshotSeq loopSeq : Nat) {frame : Frame} {list : List CarState} (sent : frame.cars = some list)
    (stale : frame.rev ≤ snapshot.rev) :
    onText (board snapshot cars log snapshotSeq loopSeq) (frameEnvelope frame) =
      .ok (board snapshot cars log snapshotSeq loopSeq) := by
  have old : (frameData frame list).parsed.rev ≤ (board snapshot cars log snapshotSeq loopSeq).rev := by
    change nearest (frame.rev.toInt : Rat) ≤ nearest (snapshot.rev.toInt : Rat)
    rw [nearest_intCast, nearest_intCast]
    exact_mod_cast roundInt_mono (Int64.le_iff_toInt_le.mp stale)
  rw [onText, onMessage, parseMsg_frameEnvelope_parsed sent]
  exact if_pos old

/-- The browser's step on a newer frame is the hub's step, up to the log. -/
theorem onText_newer (snapshot : Snapshot) (cars : Dict Int64 CarState) (log : List RaceControlMessage)
    (snapshotSeq loopSeq : Nat) {frame : Frame} {list : List CarState} (sent : frame.cars = some list)
    (newer : roundInt snapshot.rev.toInt < roundInt frame.rev.toInt)
    (exact : ∀ car ∈ list, Exact car.driverNum) :
    ∃ loops, onText (board snapshot cars log snapshotSeq loopSeq) (frameEnvelope frame) =
      .ok (board (advance snapshot frame) (setCars cars list)
        (push Model.maxMessages
          (if clientRewind snapshot.timeMs snapshot.rev frame then [] else log) frame.messages)
        snapshotSeq loops) := by
  have climbs : (board snapshot cars log snapshotSeq loopSeq).rev < (frameData frame list).parsed.rev := by
    change nearest (snapshot.rev.toInt : Rat) < nearest (frame.rev.toInt : Rat)
    rw [nearest_intCast, nearest_intCast]
    exact_mod_cast newer
  refine ⟨if clientRewind snapshot.timeMs snapshot.rev frame then loopSeq + 1 else loopSeq, ?_⟩
  rw [onText, onMessage, parseMsg_frameEnvelope_parsed sent]
  apply (applyFrame_newer climbs (frameData_numbered frame list)).trans
  rw [advanceFrame, looped_board]
  apply congrArg Except.ok
  unfold board applySnapshot
  congr 1
  · change putCars (Dict.ofMembers (snapshotData snapshot cars).parsed.cars)
      ((list.map CarState.codec.marshal).map Json.parsed) = _
    rw [cars_parsed, putCars_marshal cars exact]
    exact (cars_parsed (advance snapshot frame) (setCars cars list)).symm
  · exact radio_append snapshot.radio frame.radio
  · exact weather_or frame.weather snapshot.weather
  · cases clientRewind snapshot.timeMs snapshot.rev frame with
    | true => exact messages_push [] frame.messages
    | false => exact messages_push log frame.messages

theorem onText_snapshot (state : RaceState) {snapshot : Snapshot} {cars : Dict Int64 CarState}
    (held : snapshot.cars = some cars) :
    onText state (encodeSnapshot snapshot) =
      .ok (board snapshot cars snapshot.messages (state.snapshotSeq + 1) state.loopSeq) := by
  have shown : applySnapshot state (snapshotData snapshot cars).parsed =
      board snapshot cars snapshot.messages (state.snapshotSeq + 1) state.loopSeq := by
    unfold board applySnapshot
    congr 1
    exact rounded_getD _ _
  rw [onText, onMessage, parseMsg_parsed, parseMsg_encodeSnapshot, parseSnapshot_marshal held, ← shown]
  rfl

theorem applyAll_cons {snapshot after : Snapshot} {frame : Frame} {applied : Bool}
    (step : apply snapshot frame = .ok (after, applied)) (rest : List Frame) :
    applyAll snapshot (frame :: rest) = applyAll after rest := by
  rw [applyAll, List.foldlM_cons, step]
  rfl

theorem onTexts_cons {state after : RaceState} {text : Json} (step : onText state text = .ok after)
    (rest : List Json) : onTexts state (text :: rest) = onTexts after rest := by
  rw [onTexts, List.foldlM_cons, step]
  rfl

/-- The browser follows the hub through every frame; only its log is its own. -/
theorem onTexts_frames (frames : List Frame) (sent : ∀ frame ∈ frames, frame.cars ≠ none)
    {snapshot : Snapshot} (legible : Legible snapshot.rev (advancing snapshot.rev frames))
    {cars : Dict Int64 CarState} (held : snapshot.cars = some cars) (log : List RaceControlMessage)
    (snapshotSeq loopSeq : Nat) :
    ∃ hub hubCars loops, applyAll snapshot frames = .ok hub ∧ hub.cars = some hubCars ∧
      hub.messages = rolled serverRewind snapshot.timeMs snapshot.rev snapshot.messages
        (advancing snapshot.rev frames) ∧
      onTexts (board snapshot cars log snapshotSeq loopSeq) (frames.filterMap encodeFrame) =
        .ok (board hub hubCars
          (rolled clientRewind snapshot.timeMs snapshot.rev log (advancing snapshot.rev frames))
          snapshotSeq loops) := by
  induction frames generalizing snapshot cars log loopSeq with
  | nil => exact ⟨snapshot, cars, loopSeq, rfl, held, rfl, rfl⟩
  | cons frame rest ih =>
      obtain ⟨own, restSent⟩ := List.forall_mem_cons.mp sent
      obtain ⟨list, listed⟩ := Option.ne_none_iff_exists'.mp own
      have encoded (nonzero : ¬ (frame.rev = 0 ∧ frame.carList = [])) :
          encodeFrame frame = some (frameEnvelope frame) :=
        if_neg fun refused => nonzero ⟨refused.1, List.length_eq_zero_iff.mp refused.2⟩
      by_cases stale : frame.rev ≤ snapshot.rev
      · simp only [advancing, stale, if_true] at legible ⊢
        obtain ⟨hub, hubCars, loops, folded, kept, messages, shown⟩ :=
          ih restSent legible held log loopSeq
        refine ⟨hub, hubCars, loops, (applyAll_cons (apply_stale stale) rest).trans folded, kept,
          messages, ?_⟩
        by_cases refused : frame.rev = 0 ∧ frame.carList = []
        · have silent : encodeFrame frame = none :=
            if_pos ⟨refused.1, List.length_eq_zero_iff.mpr refused.2⟩
          rw [List.filterMap_cons_none silent]
          exact shown
        · rw [List.filterMap_cons_some (encoded refused),
            onTexts_cons (onText_stale snapshot cars log snapshotSeq loopSeq listed stale)]
          exact shown
      · simp only [advancing, stale, if_false, rolled] at legible ⊢
        obtain ⟨newer, nonzero, exact, later⟩ := legible
        rw [Frame.carList, listed, Option.getD_some] at exact
        obtain ⟨loops, stepped⟩ :=
          onText_newer snapshot cars log snapshotSeq loopSeq listed newer exact
        have next : (advance snapshot frame).cars = some (setCars cars list) := by
          simp [advance, held, Frame.carList, listed]
        have writable : Writable snapshot frame := Or.inl (by simp [held])
        obtain ⟨hub, hubCars, loops, folded, kept, messages, shown⟩ := ih restSent later next
          (push Model.maxMessages
            (if clientRewind snapshot.timeMs snapshot.rev frame then [] else log) frame.messages) loops
        refine ⟨hub, hubCars, loops, (applyAll_cons (apply_advancing stale writable) rest).trans folded,
          kept, ?_, ?_⟩
        · simpa [advance, carriedMessages, serverRewind] using messages
        · rw [List.filterMap_cons_some (encoded nonzero), onTexts_cons stepped]
          exact shown

def messageSnapshot : Snapshot :=
  { newSnapshot "demo" "replay" "Demo" with
    messages := [⟨1, 1000, "Flag", "GREEN LIGHT", none⟩], timeMs := 1000, rev := 1 }

def earlyFrame : Frame := ⟨"demo", 2, 0, 900, some [], [], [], none⟩

end RaceTracker.Seam
