import RaceTracker.App.Roles

namespace RaceTracker.App

open RaceTracker.Lib RaceTracker.Model RaceTracker.Ws

/-! Whatever other processes leave on the bus: texts that may be no JSON, JSON of any shape.

Seeding either fails before there is a hub, or yields a snapshot; after that every
payload goes through `consume`.  What decoding admits and the fold cannot take is a
snapshot without a car map.
-/

section

-- The syntax check of `json.Unmarshal`; `none` is a syntax error.
variable (parse : String → Option Json) (session : String)

def seedText (stored : Option String) : Except BusError Snapshot :=
  match stored with
  | none => seedSnapshot session none
  | some text =>
      match parse text with
      | none => .error .unmarshalSnapshot
      | some json => seedSnapshot session (some json)

def decodeFrame (payload : String) : Option Frame := (parse payload).bind Frame.unmarshal

def consumeText (hub : Snapshot) (payload : String) : Except Panic (Snapshot × Option Json) :=
  match parse payload with
  | none => .ok (hub, none)
  | some json => consume hub json

/-- The consume loop over a channel: the hub after it, and everything it broadcast. -/
def consumeAll (hub : Snapshot) : List String → Except Panic (Snapshot × List Json)
  | [] => .ok (hub, [])
  | payload :: rest => do
      let (after, broadcast) ← consumeText parse hub payload
      let (final, later) ← consumeAll after rest
      return (final, broadcast.toList ++ later)

/-- Every payload is handled, and one that is no frame might as well not have been sent. -/
def Handles (hub : Snapshot) (payloads : List String) : Prop :=
  (∃ result, consumeAll parse hub payloads = .ok result) ∧
    ∀ before bad after, payloads = before ++ bad :: after → decodeFrame parse bad = none →
      (∀ reached, consumeText parse reached bad = .ok (reached, none)) ∧
        consumeAll parse hub payloads = consumeAll parse hub (before ++ after)

/-- No frame that gets past the staleness check carries a car. -/
def Carless (rev : Int64) (payloads : List String) : Prop :=
  ∀ frame ∈ advancing rev (payloads.filterMap (decodeFrame parse)), frame.carList = []

end

variable {parse : String → Option Json} {hub : Snapshot} {payload : String}

theorem consumeText_eq (hub : Snapshot) (payload : String) :
    consumeText parse hub payload =
      match decodeFrame parse payload with
      | none => .ok (hub, none)
      | some frame => hubApply hub frame := by
  unfold consumeText decodeFrame
  cases parse payload with
  | none => rfl
  | some json => rfl

theorem consumeText_bad (bad : decodeFrame parse payload = none) (hub : Snapshot) :
    consumeText parse hub payload = .ok (hub, none) := by
  rw [consumeText_eq, bad]

theorem consumeAll_bad (bad : decodeFrame parse payload = none) (hub : Snapshot)
    (before after : List String) :
    consumeAll parse hub (before ++ payload :: after) = consumeAll parse hub (before ++ after) := by
  induction before generalizing hub with
  | nil =>
      have rest : consumeAll parse hub (payload :: after) =
          (consumeAll parse hub after).bind fun later => .ok (later.1, later.2) := by
        simp only [consumeAll, consumeText_bad bad, ok_bind]
        rfl
      rw [List.nil_append, List.nil_append, rest]
      cases consumeAll parse hub after with
      | error panic => rfl
      | ok later => rfl
  | cons first rest ih =>
      simp only [List.cons_append, consumeAll]
      cases consumeText parse hub first with
      | error panic => rfl
      | ok step => simp only [ih]

theorem consumeAll_cons_ok {after : Snapshot} {broadcast : Option Json} (rest : List String)
    (step : consumeText parse hub payload = .ok (after, broadcast)) :
    (∃ result, consumeAll parse hub (payload :: rest) = .ok result) ↔
      ∃ result, consumeAll parse after rest = .ok result := by
  simp only [consumeAll, step, ok_bind]
  cases consumeAll parse after rest with
  | error panic => simp
  | ok result => simp

/-- With a car map nothing panics; without one the first car does. -/
theorem consumeAll_ok_iff (payloads : List String) (hub : Snapshot) :
    (∃ result, consumeAll parse hub payloads = .ok result) ↔
      hub.cars ≠ none ∨ Carless parse hub.rev payloads := by
  induction payloads generalizing hub with
  | nil => simp [consumeAll, Carless, advancing]
  | cons payload rest ih =>
      unfold Carless at ih ⊢
      cases decoded : decodeFrame parse payload with
      | none =>
          rw [consumeAll_cons_ok rest (consumeText_bad decoded hub), ih,
            List.filterMap_cons_none decoded]
      | some frame =>
          have step : consumeText parse hub payload = hubApply hub frame := by
            rw [consumeText_eq, decoded]
          rw [List.filterMap_cons_some decoded, advancing]
          by_cases stale : frame.rev ≤ hub.rev
          · rw [if_pos stale, consumeAll_cons_ok rest (step.trans (hubApply_stale stale)), ih]
          · rw [if_neg stale, List.forall_mem_cons]
            have cars : (advance hub frame).cars ≠ none ↔ hub.cars ≠ none := by simp [advance]
            by_cases writable : Writable hub frame
            · rw [consumeAll_cons_ok rest (step.trans (hubApply_advancing stale writable)), ih, cars]
              constructor
              · intro survived
                rcases survived with held | carless
                · exact Or.inl held
                · exact writable.imp id fun empty => ⟨empty, carless⟩
              · intro allowed
                exact allowed.imp id And.right
            · have panics : consumeText parse hub payload = .error .assignmentToNilMap := by
                rw [step]
                simp [hubApply, apply_panics stale writable]
              constructor
              · intro survived
                obtain ⟨result, ran⟩ := survived
                simp [consumeAll, panics] at ran
              · intro allowed
                exact absurd (allowed.imp id And.left) writable

/-- Bad data never takes the gateway down, except when a stored snapshot that decodes without
a car map meets a frame that carries a car. -/
theorem bad_data_is_survived_iff (parse : String → Option Json) (session : String)
    (stored : Option String) (payloads : List String) :
    ((∃ bad, seedText parse session stored = .error bad) ∨
      ∃ hub, seedText parse session stored = .ok hub ∧ Handles parse hub payloads) ↔
      ∀ hub, seedText parse session stored = .ok hub →
        hub.cars ≠ none ∨ Carless parse hub.rev payloads := by
  cases seeded : seedText parse session stored with
  | error bad =>
      constructor
      · intro _ hub failed
        cases failed
      · intro _
        exact Or.inl ⟨bad, rfl⟩
  | ok hub =>
      have survives : (∃ result, consumeAll parse hub payloads = .ok result) ↔
          hub.cars ≠ none ∨ Carless parse hub.rev payloads := consumeAll_ok_iff payloads hub
      constructor
      · intro handled other same
        cases same
        rcases handled with ⟨_, failed⟩ | ⟨_, same, handles, _⟩
        · cases failed
        · cases same
          exact survives.mp handles
      · intro allowed
        refine Or.inr ⟨hub, rfl, survives.mpr (allowed hub rfl), ?_⟩
        intro before bad after split undecodable
        refine ⟨consumeText_bad undecodable, ?_⟩
        rw [split]
        exact consumeAll_bad undecodable hub before after

def nullCarsText : String := "\x7b\"cars\":null\x7d"

def oneCarText : String := "\x7b\"rev\":1,\"cars\":[null]\x7d"

def readTexts (text : String) : Option Json :=
  if text = nullCarsText then some (.obj [("cars", .null)])
  else if text = oneCarText then some (.obj [("rev", .int 1), ("cars", .arr [.null])])
  else none

/-- The hub is seeded with a nil car map, and the frame's car is written into it. -/
theorem null_cars_panic : ∃ hub, seedText readTexts "live" (some nullCarsText) = .ok hub ∧
    consumeAll readTexts hub [oneCarText] = .error .assignmentToNilMap ∧
    ¬ ((∃ bad, seedText readTexts "live" (some nullCarsText) = .error bad) ∨
      ∃ hub, seedText readTexts "live" (some nullCarsText) = .ok hub ∧
        Handles readTexts hub [oneCarText]) := by
  have seeded : seedText readTexts "live" (some nullCarsText) = .ok Snapshot.codec.zero := rfl
  have panics : consumeAll readTexts Snapshot.codec.zero [oneCarText] =
      .error .assignmentToNilMap := rfl
  refine ⟨_, seeded, panics, ?_⟩
  intro survived
  rcases survived with ⟨_, failed⟩ | ⟨_, same, ⟨_, handled⟩, _⟩
  · cases seeded.symm.trans failed
  · cases seeded.symm.trans same
    cases panics.symm.trans handled

end RaceTracker.App
