import RaceTracker.Model.Wire

namespace RaceTracker.Ws

open RaceTracker.Lib RaceTracker.Model

/-! Wire envelopes: the type-tagged JSON the frontend switches on. -/

def envelope (type : String) (data : Json) : Json := .obj [("type", .str type), ("data", data)]

def encodeSnapshot (snapshot : Snapshot) : Json := envelope "snapshot" snapshot.marshal

def frameEnvelope (frame : Frame) : Json := envelope "frame" frame.marshal

/-- A zero-value frame is never a real broadcast; `none` is the refusal. -/
def encodeFrame (frame : Frame) : Option Json :=
  if frame.rev = 0 ∧ (frame.cars.getD []).length = 0 then none else some (frameEnvelope frame)

@[simp] theorem get?_envelope_data (type : String) (data : Json) :
    (envelope type data).get? "data" = some data := by
  simp [envelope, Json.get?, Json.lookup]

@[simp] theorem get?_envelope_type (type : String) (data : Json) :
    (envelope type data).get? "type" = some (.str type) := by
  simp [envelope, Json.get?, Json.lookup]

end RaceTracker.Ws
