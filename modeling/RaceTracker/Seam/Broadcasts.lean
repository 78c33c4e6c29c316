import RaceTracker.App.Roles
import RaceTracker.Seam.Rewinds
import RaceTracker.Seam.Views
import RaceTracker.Web.Folding
import RaceTracker.Web.Rounding

namespace RaceTracker.Seam

open RaceTracker.Lib RaceTracker.Model RaceTracker.Ws RaceTracker.App RaceTracker.Web

/-! When every broadcast is taken, and moves the browser as far as it moved the hub.

The hub folds a frame before it encodes it.  A frame that the encoder or the
browser's validator refuses, or whose revision is no double, leaves the browser
behind.
-/

/-- A broadcast reaches the client, if there is one. -/
def deliver (client : RaceState) : Option Json → Except TypeError RaceState
  | none => .ok client
  | some text => onText client text

/-- From payload to payload the client accepts what is broadcast and stands where the hub stands. -/
def InStep (hub : Snapshot) (client : RaceState) : List Json → Prop
  | [] => client.rev = hub.rev.toInt
  | payload :: rest => client.rev = hub.rev.toInt ∧
      ∃ after broadcast next, consume hub payload = .ok (after, broadcast) ∧
        (∀ text, broadcast = some text → (parseMsg text.parsed).isSome) ∧
        deliver client broadcast = .ok next ∧ InStep after next rest

def Exact (rev : Int64) : Prop := roundInt rev.toInt = rev.toInt

instance (rev : Int64) : Decidable (Exact rev) := inferInstanceAs (Decidable (_ = _))

/-- The frame has a car list, is not the zero frame, and its revision is a double. -/
def Shown (frame : Frame) : Prop :=
  frame.cars ≠ none ∧ ¬ (frame.rev = 0 ∧ frame.carList = []) ∧ Exact frame.rev

instance (frame : Frame) : Decidable (Shown frame) := inferInstanceAs (Decidable (_ ∧ _))

theorem driverNum_parsed (car : CarState) :
    (CarState.codec.marshal car).parsed.get? "driverNum" = some (Json.int car.driverNum.toInt).parsed := by
  have entry : (CarState.codec.marshal car).get? "driverNum" = some (.int car.driverNum.toInt) :=
    CarState.record.get?_toObject CarState.record_distinct _ _
  rw [Json.get?_parsed, entry, Option.map_some]

theorem numbered_parsed (car : CarState) : Numbered (CarState.codec.marshal car).parsed :=
  ⟨_, _, driverNum_parsed car, rfl⟩

theorem frameData_numbered (frame : Frame) (list : List CarState) :
    (frameData frame list).parsed.Numbered := by
  intro car member
  obtain ⟨text, listed, rfl⟩ := List.mem_map.mp member
  obtain ⟨state, _, rfl⟩ := List.mem_map.mp listed
  exact numbered_parsed state

theorem parseMsg_frameEnvelope_parsed {frame : Frame} {list : List CarState}
    (sent : frame.cars = some list) :
    parseMsg (frameEnvelope frame).parsed = some (.frame (frameData frame list).parsed) := by
  rw [parseMsg_parsed, parseMsg_frameEnvelope, parseFrame_marshal sent]
  rfl

theorem onText_frameEnvelope (client : RaceState) {frame : Frame} {list : List CarState}
    (sent : frame.cars = some list) :
    (parseMsg (frameEnvelope frame).parsed).isSome = true ∧
      ∃ next, onText client (frameEnvelope frame) = .ok next ∧
        next.rev = if (roundInt frame.rev.toInt : Rat) ≤ client.rev then client.rev
          else (roundInt frame.rev.toInt : Rat) := by
  have read := parseMsg_frameEnvelope_parsed sent
  have rev : (frameData frame list).parsed.rev = (roundInt frame.rev.toInt : Rat) :=
    nearest_intCast frame.rev.toInt
  have shape : onText client (frameEnvelope frame) = applyFrame client (frameData frame list).parsed := by
    rw [onText, onMessage, read]
    rfl
  refine ⟨by rw [read]; rfl, ?_⟩
  rw [shape, ← rev]
  by_cases stale : (frameData frame list).parsed.rev ≤ client.rev
  · rw [applyFrame, if_pos stale, if_pos stale]
    exact ⟨client, rfl, rfl⟩
  · rw [applyFrame_newer (not_le.mp stale) (frameData_numbered frame list), if_neg stale]
    exact ⟨_, rfl, rfl⟩

theorem parseMsg_frameEnvelope_nil {frame : Frame} (absent : frame.cars = none) :
    parseMsg (frameEnvelope frame).parsed = none := by
  rw [parseMsg_parsed, parseMsg_frameEnvelope, parseFrame_marshal_nil absent]
  rfl

theorem parseMsg_encodeSnapshot_isSome (snapshot : Snapshot) :
    (parseMsg (encodeSnapshot snapshot).parsed).isSome = true ↔ snapshot.cars ≠ none := by
  rw [parseMsg_parsed, parseMsg_encodeSnapshot]
  cases held : snapshot.cars with
  | none => simp [parseSnapshot_marshal_nil held]
  | some cars => simp [parseSnapshot_marshal held]

theorem onText_encodeSnapshot (client : RaceState) {snapshot : Snapshot}
    (held : snapshot.cars ≠ none) :
    ∃ greeted, onText client (encodeSnapshot snapshot) = .ok greeted ∧
      greeted.rev = (roundInt snapshot.rev.toInt : Rat) := by
  obtain ⟨cars, present⟩ := Option.ne_none_iff_exists'.mp held
  have read : parseMsg (encodeSnapshot snapshot).parsed =
      some (.snapshot (snapshotData snapshot cars).parsed) := by
    rw [parseMsg_parsed, parseMsg_encodeSnapshot, parseSnapshot_marshal present]
    rfl
  refine ⟨applySnapshot client (snapshotData snapshot cars).parsed, ?_, ?_⟩
  · rw [onText, onMessage, read]
    rfl
  · exact nearest_intCast snapshot.rev.toInt

theorem exact_iff (rev : Int64) : (roundInt rev.toInt : Rat) = (rev.toInt : Rat) ↔ Exact rev := by
  rw [Exact]
  exact_mod_cast Iff.rfl

theorem InStep.same {hub : Snapshot} {client : RaceState} {payloads : List Json}
    (inStep : InStep hub client payloads) : client.rev = hub.rev.toInt := by
  cases payloads with
  | nil => exact inStep
  | cons payload rest => exact inStep.1

/-- The browser follows the hub over an advancing frame exactly when the frame is shown. -/
theorem follows_iff {hub : Snapshot} {client : RaceState} {frame : Frame}
    (same : client.rev = hub.rev.toInt) (newer : ¬ frame.rev ≤ hub.rev) :
    (∃ next, (∀ text, encodeFrame frame = some text → (parseMsg text.parsed).isSome) ∧
      deliver client (encodeFrame frame) = .ok next ∧ next.rev = frame.rev.toInt) ↔ Shown frame := by
  have climbs : hub.rev.toInt < frame.rev.toInt := by
    rw [Int64.le_iff_toInt_le] at newer
    omega
  have apart : (hub.rev.toInt : Rat) ≠ (frame.rev.toInt : Rat) := by
    exact_mod_cast climbs.ne
  by_cases refused : frame.rev = 0 ∧ (frame.cars.getD []).length = 0
  · -- The hub has moved to revision zero, and the client hears nothing of it.
    have silent : encodeFrame frame = none := if_pos refused
    constructor
    · intro followed
      obtain ⟨next, _, delivered, moved⟩ := followed
      rw [silent] at delivered
      cases delivered
      exact absurd (same.symm.trans moved) apart
    · intro shown
      exact absurd ⟨refused.1, List.length_eq_zero_iff.mp refused.2⟩ shown.2.1
  have encoded : encodeFrame frame = some (frameEnvelope frame) := if_neg refused
  have nonzero : ¬ (frame.rev = 0 ∧ frame.carList = []) :=
    fun zero => refused ⟨zero.1, List.length_eq_zero_iff.mpr zero.2⟩
  cases sent : frame.cars with
  | none =>
      constructor
      · intro followed
        obtain ⟨next, accepted, _⟩ := followed
        have taken := accepted _ encoded
        rw [parseMsg_frameEnvelope_nil sent] at taken
        cases taken
      · intro shown
        exact absurd sent shown.1
  | some list =>
      obtain ⟨taken, next, delivered, moved⟩ := onText_frameEnvelope client sent
      rw [encoded]
      constructor
      · intro followed
        obtain ⟨other, _, again, reached⟩ := followed
        cases delivered.symm.trans again
        refine ⟨by simp [sent], nonzero, ?_⟩
        rw [← exact_iff, ← reached, moved]
        split
        · -- A dropped frame would leave the client at the hub's old revision.
          rename_i stale
          rw [if_pos stale, same] at moved
          exact absurd (moved.symm.trans reached) apart
        · rfl
      · intro shown
        have whole := (exact_iff frame.rev).mpr shown.2.2
        refine ⟨next, ?_, delivered, ?_⟩
        · intro text same
          cases same
          exact taken
        · rw [moved, whole, same, if_neg]
          exact_mod_cast climbs.not_ge

theorem inStep_iff (payloads : List Json) {hub : Snapshot} {client : RaceState}
    (held : hub.cars ≠ none) (same : client.rev = hub.rev.toInt) :
    InStep hub client payloads ↔
      ∀ frame ∈ advancing hub.rev (payloads.filterMap Frame.unmarshal), Shown frame := by
  induction payloads generalizing hub client with
  | nil => simp [InStep, advancing, same]
  | cons payload rest ih =>
      -- A payload that moves nothing leaves the question to the rest.
      have skipped (consumed : consume hub payload = .ok (hub, none)) :
          InStep hub client (payload :: rest) ↔ InStep hub client rest := by
        constructor
        · intro inStep
          obtain ⟨_, after, broadcast, next, ran, _, delivered, later⟩ := inStep
          cases consumed.symm.trans ran
          cases delivered
          exact later
        · intro later
          exact ⟨same, hub, none, client, consumed, (fun _ silent => by cases silent), rfl, later⟩
      cases decoded : Frame.unmarshal payload with
      | none =>
          rw [skipped (by simp [consume, decoded]), List.filterMap_cons_none decoded]
          exact ih held same
      | some frame =>
          rw [List.filterMap_cons_some decoded]
          by_cases stale : frame.rev ≤ hub.rev
          · rw [skipped (by simp [consume, decoded, hubApply_stale stale]), advancing, if_pos stale]
            exact ih held same
          · have applied : consume hub payload = .ok (advance hub frame, encodeFrame frame) := by
              simp [consume, decoded, hubApply_advancing stale (Or.inl held)]
            have kept : (advance hub frame).cars ≠ none := by simpa [advance] using held
            rw [advancing, if_neg stale, List.forall_mem_cons]
            constructor
            · intro inStep
              obtain ⟨_, after, broadcast, next, ran, accepted, delivered, later⟩ := inStep
              cases applied.symm.trans ran
              have moved : next.rev = frame.rev.toInt := later.same
              exact ⟨(follows_iff same stale).mp ⟨next, accepted, delivered, moved⟩,
                (ih kept moved).mp later⟩
            · intro shown
              obtain ⟨next, accepted, delivered, moved⟩ := (follows_iff same stale).mpr shown.1
              exact ⟨same, _, _, next, applied, accepted, delivered, (ih kept moved).mpr shown.2⟩

/-- A client that is greeted with the hub's snapshot accepts every broadcast and stays at
the hub's revision exactly when the snapshot has a car map, every advancing frame has a car
list and is not the zero frame, and every revision on the way is a double. -/
theorem broadcasts_keep_in_step_iff (client : RaceState) (snapshot : Snapshot)
    (payloads : List Json) :
    (∃ greeted, (parseMsg (encodeSnapshot snapshot).parsed).isSome ∧
      onText client (encodeSnapshot snapshot) = .ok greeted ∧ InStep snapshot greeted payloads) ↔
      snapshot.cars ≠ none ∧ Exact snapshot.rev ∧
        ∀ frame ∈ advancing snapshot.rev (payloads.filterMap Frame.unmarshal), Shown frame := by
  constructor
  · intro followed
    obtain ⟨greeted, accepted, delivered, inStep⟩ := followed
    have held := (parseMsg_encodeSnapshot_isSome snapshot).mp accepted
    obtain ⟨reached, same, rev⟩ := onText_encodeSnapshot client held
    cases same.symm.trans delivered
    exact ⟨held, (exact_iff _).mp (rev.symm.trans inStep.same),
      (inStep_iff payloads held inStep.same).mp inStep⟩
  · intro met
    obtain ⟨held, whole, shown⟩ := met
    obtain ⟨greeted, delivered, rev⟩ := onText_encodeSnapshot client held
    have same : greeted.rev = snapshot.rev.toInt := rev.trans ((exact_iff _).mpr whole)
    exact ⟨greeted, (parseMsg_encodeSnapshot_isSome snapshot).mpr held, delivered,
      (inStep_iff payloads held same).mpr shown⟩

def carlessPayload : Json := .obj [("rev", .int 1), ("timeMs", .int 0)]

def carlessFrame : Frame := ⟨"", 1, 0, 0, none, [], [], none⟩

/-- The hub takes the frame and moves to revision 1; the browser refuses the broadcast. -/
theorem carless_frame_splits :
    consume (newSnapshot "live" "" "") carlessPayload = .ok
        (advance (newSnapshot "live" "" "") carlessFrame, some (frameEnvelope carlessFrame)) ∧
      ¬ ∃ greeted, (parseMsg (encodeSnapshot (newSnapshot "live" "" "")).parsed).isSome ∧
        onText emptyState (encodeSnapshot (newSnapshot "live" "" "")) = .ok greeted ∧
        InStep (newSnapshot "live" "" "") greeted [carlessPayload] := by
  have decoded : Frame.unmarshal carlessPayload = some carlessFrame := rfl
  have held : (newSnapshot "live" "" "").cars ≠ none := by simp [newSnapshot]
  refine ⟨by simp only [consume, decoded]; rfl, ?_⟩
  intro followed
  obtain ⟨greeted, _, _, inStep⟩ := followed
  have shown := (inStep_iff [carlessPayload] held inStep.same).mp inStep carlessFrame (by
    simp [decoded, advancing, carlessFrame, newSnapshot])
  exact shown.1 rfl

end RaceTracker.Seam
