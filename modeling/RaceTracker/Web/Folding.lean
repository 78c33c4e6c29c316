import RaceTracker.Lib.Rolling
import RaceTracker.Web.Validator

namespace RaceTracker.Web

open RaceTracker.Lib

/-! The reducer on frames whose cars carry their numbers: nothing is thrown, and a newer
revision is always folded in. -/

variable {state : RaceState} {data : FrameData} {car : Json} {list : List Json}

def Numbered (car : Json) : Prop := ∃ key, KeyedBy key car

def FrameData.Numbered (data : FrameData) : Prop := ∀ car ∈ data.cars.getD [], Web.Numbered car

/-- The property a numbered car is written under. -/
def carName (car : Json) : String :=
  match car.get? "driverNum" with
  | some (.num number) => numberToString number.value
  | _ => ""

def putCars (cars : Dict String Json) (list : List Json) : Dict String Json :=
  list.foldl (fun cars car => cars.set (carName car) car) cars

def advanceFrame (state : RaceState) (data : FrameData) : RaceState :=
  { state with
    cars := putCars state.cars (data.cars.getD [])
    timeMs := data.timeMs
    rev := data.rev
    messages := push maxMessages (if looped state data then [] else state.messages)
      (data.messages.getD [])
    radio := state.radio ++ data.radio.getD []
    weather := data.weather.or state.weather
    loopSeq := if looped state data then state.loopSeq + 1 else state.loopSeq }

theorem writeCar_numbered (cars : Dict String Json) (numbered : Numbered car) :
    writeCar ⟨cars, false⟩ car = .ok ⟨cars.set (carName car) car, false⟩ := by
  obtain ⟨key, number, entry, rfl⟩ := numbered
  have ordinary : numberToString number.value ≠ "__proto__" := numbered_key ⟨number, entry, rfl⟩
  have present : car ≠ .null := by
    intro null
    rw [null] at entry
    cases entry
  rw [writeCar_ok_iff]
  refine ⟨numberToString number.value, ⟨present, ?_⟩, ?_⟩
  · simp [carKey, entry, toText]
  · simp [CarsObject.write, ordinary, carName, entry]

theorem writeCars_numbered (cars : Dict String Json) (numbered : ∀ car ∈ list, Numbered car) :
    writeCars ⟨cars, false⟩ list = .ok ⟨putCars cars list, false⟩ := by
  induction list generalizing cars with
  | nil => rfl
  | cons car rest ih =>
      rw [writeCars, List.foldlM_cons, writeCar_numbered cars (numbered car (List.mem_cons_self ..))]
      exact ih _ fun other member => numbered other (List.mem_cons_of_mem _ member)

theorem applyFrame_newer (newer : state.rev < data.rev) (numbered : data.Numbered) :
    applyFrame state data = .ok (advanceFrame state data) := by
  have written := writeCars_numbered state.cars numbered
  rw [applyFrame, if_neg (not_le.mpr newer), written]
  apply congrArg Except.ok
  rw [advanceFrame]
  congr 1
  · cases data.radio with
    | none => simp
    | some refs => cases refs <;> simp
  · cases data.messages with
    | none => rfl
    | some new => cases new <;> rfl

section

variable {frames rest : List FrameData}

def FrameData.carList (data : FrameData) : List Json := data.cars.getD []

def FrameData.messageList (data : FrameData) : List Json := data.messages.getD []

def FrameData.radioList (data : FrameData) : List Json := data.radio.getD []

theorem foldl_advanceFrame (state : RaceState) (frames : List FrameData) :
    let folded := frames.foldl advanceFrame state
    folded = { state with
      cars := putCars state.cars (frames.flatMap FrameData.carList)
      timeMs := ((frames.map FrameData.timeMs).getLast?).getD state.timeMs
      rev := ((frames.map FrameData.rev).getLast?).getD state.rev
      messages := folded.messages
      radio := state.radio ++ frames.flatMap FrameData.radioList
      weather := (frames.filterMap FrameData.weather).getLast?.or state.weather
      loopSeq := folded.loopSeq } := by
  induction frames generalizing state with
  | nil => simp [putCars]
  | cons data rest ih =>
      rw [List.foldl_cons]
      apply (ih (advanceFrame state data)).trans
      simp only [advanceFrame, List.flatMap_cons, List.map_cons, List.getLast?_cons,
        Option.getD_some, List.append_assoc, putCars, List.foldl_append, FrameData.carList,
        FrameData.radioList]
      congr 1
      cases weather : data.weather with
      | none => simp [weather]
      | some sky => cases last : (rest.filterMap FrameData.weather).getLast? <;>
          simp [weather, List.getLast?_cons, last]

section

variable (state : RaceState) (frames : List FrameData)

theorem cars_foldl : (frames.foldl advanceFrame state).cars =
    putCars state.cars (frames.flatMap FrameData.carList) :=
  congrArg RaceState.cars (foldl_advanceFrame state frames)

theorem timeMs_foldl : (frames.foldl advanceFrame state).timeMs =
    ((frames.map FrameData.timeMs).getLast?).getD state.timeMs :=
  congrArg RaceState.timeMs (foldl_advanceFrame state frames)

theorem rev_foldl : (frames.foldl advanceFrame state).rev =
    ((frames.map FrameData.rev).getLast?).getD state.rev :=
  congrArg RaceState.rev (foldl_advanceFrame state frames)

theorem radio_foldl : (frames.foldl advanceFrame state).radio =
    state.radio ++ frames.flatMap FrameData.radioList :=
  congrArg RaceState.radio (foldl_advanceFrame state frames)

theorem weather_foldl : (frames.foldl advanceFrame state).weather =
    (frames.filterMap FrameData.weather).getLast?.or state.weather :=
  congrArg RaceState.weather (foldl_advanceFrame state frames)

end

theorem get?_putCars (cars : Dict String Json) (list : List Json) (name : String) :
    (putCars cars list).get? name =
      (list.filter fun car => carName car = name).getLast?.or (cars.get? name) := by
  rw [putCars, Dict.get?_foldl_set, Option.map_id']

/-- A jump backwards that counts as the clip wrapping. -/
def Rewound (earlier later : FrameData) : Prop := later.timeMs < nearest (earlier.timeMs - loopRewindMs)

/-- None of the frames reads as a wrap when folded in after the ones before it. -/
def Steady : RaceState → List FrameData → Prop
  | _, [] => True
  | state, data :: rest => looped state data = false ∧ Steady (advanceFrame state data) rest

theorem loopSeq_advance (state : RaceState) (data : FrameData) :
    (advanceFrame state data).loopSeq = state.loopSeq + if looped state data then 1 else 0 := by
  rw [advanceFrame]
  cases looped state data <;> rfl

theorem loopSeq_le_foldl (state : RaceState) (frames : List FrameData) :
    state.loopSeq ≤ (frames.foldl advanceFrame state).loopSeq := by
  induction frames generalizing state with
  | nil => exact le_refl _
  | cons data rest ih =>
      have next := ih (advanceFrame state data)
      have climbed := loopSeq_advance state data
      rw [List.foldl_cons]
      omega

theorem loopSeq_foldl_eq_iff (state : RaceState) (frames : List FrameData) :
    (frames.foldl advanceFrame state).loopSeq = state.loopSeq ↔ Steady state frames := by
  induction frames generalizing state with
  | nil => simp [Steady]
  | cons data rest ih =>
      have climbed := loopSeq_advance state data
      have later := loopSeq_le_foldl (advanceFrame state data) rest
      rw [List.foldl_cons, Steady, ← ih (advanceFrame state data)]
      cases wraps : looped state data with
      | true =>
          rw [wraps, if_pos rfl] at climbed
          simp only [Bool.true_eq_false, false_and, iff_false]
          omega
      | false =>
          rw [wraps, if_neg Bool.false_ne_true, Nat.add_zero] at climbed
          simp only [true_and, climbed]

theorem Steady.messages {state : RaceState} (steady : Steady state frames) :
    (frames.foldl advanceFrame state).messages =
      push maxMessages state.messages (frames.flatMap FrameData.messageList) := by
  induction frames generalizing state with
  | nil => simp [push]
  | cons data rest ih =>
      have rolled : (advanceFrame state data).messages =
          push maxMessages state.messages data.messageList := by
        simp [advanceFrame, steady.1, FrameData.messageList]
      rw [List.foldl_cons, ih steady.2, rolled, push_push, List.flatMap_cons]

/-- After one frame only the clock tells whether the next one reads as a wrap. -/
theorem steady_advance_iff (state : RaceState) (positive : ∀ other ∈ data :: rest, 0 < other.rev) :
    Steady (advanceFrame state data) rest ↔
      (data :: rest).IsChain fun earlier later => ¬ Rewound earlier later := by
  induction rest generalizing state data with
  | nil => simp [Steady]
  | cons next rest ih =>
      have fresh : 0 < data.rev := positive data (List.mem_cons_self ..)
      have wraps : looped (advanceFrame state data) next = false ↔ ¬ Rewound data next := by
        simp [looped, advanceFrame, Rewound, fresh]
      rw [Steady, List.isChain_cons_cons, wraps,
        ih _ fun other member => positive other (List.mem_cons_of_mem _ member)]

theorem steady_iff {state : RaceState} (start : state.rev = 0)
    (positive : ∀ other ∈ frames, 0 < other.rev) :
    Steady state frames ↔ frames.IsChain fun earlier later => ¬ Rewound earlier later := by
  cases frames with
  | nil => simp [Steady]
  | cons data rest =>
      have first : looped state data = false := by simp [looped, start]
      rw [Steady, steady_advance_iff state positive]
      simp only [first, true_and]

/-- Two states of one clock count the same wraps from then on. -/
theorem loopSeq_foldl_add (left right : RaceState) (rev : left.rev = right.rev)
    (clock : left.timeMs = right.timeMs) (frames : List FrameData) :
    (frames.foldl advanceFrame left).loopSeq + right.loopSeq =
      (frames.foldl advanceFrame right).loopSeq + left.loopSeq := by
  induction frames generalizing left right with
  | nil => exact Nat.add_comm ..
  | cons data rest ih =>
      have both : looped left data = looped right data := by simp [looped, rev, clock]
      have next := ih (advanceFrame left data) (advanceFrame right data) rfl rfl
      rw [loopSeq_advance, loopSeq_advance, both] at next
      rw [List.foldl_cons, List.foldl_cons]
      omega

end

end RaceTracker.Web
