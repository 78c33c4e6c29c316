import RaceTracker.Ingest.Bounds

namespace RaceTracker.Ingest

open RaceTracker.Lib RaceTracker.Model

/-! What one entry of a feed payload can do to the others.

An entry that raises ends its whole payload.  A car record that is read but should not have
been moves the bounding box, and with it every later sample.
-/

variable {γ β : Type} (builtins : Builtins γ β)

/-- The payload without one driver's entry. -/
def withoutLine (number : String) (payload : List (String × Json)) : List (String × Json) :=
  Json.adjust "Lines" (Json.without number) payload

/-- Folding a payload does not raise, and no entry shows in what stands under another number. -/
structure Isolating {σ τ : Type} (fold : List (String × Json) → σ × Option PyError)
    (view : σ → String → τ) (payload : List (String × Json)) : Prop where
  total : (fold payload).2 = none
  alone : ∀ bad other, other ≠ bad →
    view (fold payload).1 other = view (fold (withoutLine bad payload)).1 other

theorem isolating_iff {σ τ : Type} {step : σ → String × Json → σ × Option PyError}
    {quiet : String × Json → Bool} {view : σ → String → τ}
    (tells : ∀ state entry, (step state entry).2.isNone = quiet entry)
    (keyed : Keyed (fun state entry => (step state entry).1) view) (state : σ)
    (payload : List (String × Json)) :
    Isolating (overLines step state) view payload ↔ quietLines quiet payload = true := by
  refine ⟨fun isolating => (overLines_ends tells state payload).mp isolating.total, ?_⟩
  intro quietly
  refine ⟨(overLines_ends tells state payload).mpr quietly, ?_⟩
  intro bad other apart
  have lines := Json.lookup_adjust "Lines" (Json.without bad) payload
  unfold overLines withoutLine
  rw [lines]
  rw [quietLines] at quietly
  cases found : Json.lookup "Lines" payload with
  | none => rfl
  | some value =>
      rw [found] at quietly
      cases value with
      | obj members =>
          have all : ∀ entry ∈ (Dict.ofMembers members).entries, quiet entry = true :=
            List.all_eq_true.mp quietly
          have kept := Dict.ofMembers_filter (fun key => decide (key ≠ bad)) members
          simp only [Option.map_some, Option.getD_some, Json.without]
          rw [foldUntil_eq_foldl tells all, kept, foldUntil_eq_foldl tells
            fun entry member => all entry (List.mem_filter.mp member).1]
          exact keyed.view_without state _ apart
      | _ => cases quietly

def positionOf (payload : List (String × Json)) : Json :=
  builtins.decodePositionPayload (.obj payload)

/-- The record of a driver in one sample of a payload. -/
def recordAt (payload : List (String × Json)) (index : Nat) (number : String) : Option Json :=
  match (Json.lookup "Position" payload).getD (.arr []) with
  | .arr samples => do
      let sample ← samples[index]?
      let entries ← sample.get? "Entries"
      entries.get? number
  | _ => none

/-- A sample without one driver's record. -/
def sampleWithout (number : String) : Json → Json
  | .obj members => .obj (Json.adjust "Entries" (Json.without number) members)
  | sample => sample

def samplesWithout (index : Nat) (number : String) : Json → Json
  | .arr samples => .arr (samples.modify index (sampleWithout number))
  | samples => samples

def withoutRecord (index : Nat) (number : String) (payload : List (String × Json)) :
    List (String × Json) :=
  Json.adjust "Position" (samplesWithout index number) payload

def finite : Option Json → Bool
  | some (.num number) => (Codec.readFloat64 number).isSome
  | _ => false

/-- A record as the feed documents it: two finite numbers, and a status that is a text. -/
def wellFormedRecord : Json → Bool
  | .obj coords =>
      finite (Json.lookup "X" coords) && finite (Json.lookup "Y" coords) &&
        (match Json.lookup "Status" coords with
          | none => true
          | some (.str _) => true
          | some _ => false)
  | _ => false

/-- The car dicts under their numbers, after a payload. -/
def latestAfter (latest : Dict String Car) (cars : List (String × Car)) : Dict String Car :=
  cars.foldl (fun latest entry => latest.set entry.1 entry.2) latest

/-- Folding a payload does not raise, and no malformed record shows in another driver's car. -/
structure PositionsIsolating (reports : Reports) (box : β) (latest : Dict String Car)
    (payload : List (String × Json)) : Prop where
  total : (applyPositionSamples builtins reports box (positionOf builtins payload)).2 = none
  alone : ∀ index bad value, recordAt payload index bad = some value →
    wellFormedRecord value = false → ∀ other, other ≠ bad →
      (latestAfter latest
        (applyPositionSamples builtins reports box (positionOf builtins payload)).1.2).get? other =
      (latestAfter latest (applyPositionSamples builtins reports box
        (positionOf builtins (withoutRecord index bad payload))).1.2).get? other

/-- A malformed record that is read all the same leaves a box that places the others' later
records where the box before it does. -/
def Steady (box : β) (records : List (String × Json)) : Prop :=
  ∀ before entry after, records = before ++ entry :: after → wellFormedRecord entry.2 = false →
    ∀ reading, builtins.reading entry = some reading → ∀ other, other ≠ entry.1 →
      let held := boxAfter builtins box (before.filterMap builtins.reading)
      Json.lookup other (shownAt builtins (builtins.place held reading.x reading.y).1
          (after.filterMap builtins.reading)) =
        Json.lookup other (shownAt builtins held (after.filterMap builtins.reading))

/-- The sample moves no side. -/
def Extent.Contains (extent : Extent) (x y : Binary64) : Prop :=
  (x.lt extent.xMin = false ∧ extent.xMax.lt x = false) ∧
    y.lt extent.yMin = false ∧ extent.yMax.lt y = false

theorem Extent.grow_contained {extent : Extent} {x y : Binary64} (inside : extent.Contains x y) :
    extent.grow x y = extent := by
  obtain ⟨⟨left, right⟩, low, high⟩ := inside
  simp [Extent.grow, Binary64.min, Binary64.max, left, right, low, high]

/-- The next updates all come before the warm-up is over. -/
def StaysWarm (clock : Nat → Clock) (start : Rat) (updates count : Nat) : Prop :=
  ∀ index, updates ≤ index → index < updates + count → toDouble ((clock index).now - start) < boundWarmupS

/-- The box is frozen; or no later record is another driver's; or the reading lies inside the
bounds and the payload ends before the freeze. -/
def Settled (clock : Nat → Clock) (held : BoundBox × Nat) (number : String) (reading : Reading Binary64)
    (after : List (String × Json)) : Prop :=
  held.1.frozen = true ∨ (∀ later ∈ after, later.1 = number) ∨
    ∃ extent ∈ held.1.extent, ∃ start ∈ held.1.startTs, extent.Contains reading.x reading.y ∧
      StaysWarm clock start held.2 (after.length + 1)

section

variable {β : Type} {builtins : Builtins Binary64 β} {clock : Nat → Clock}

theorem shownAt_frozen {box : BoundBox} (frozen : box.frozen = true) (updates later : Nat)
    (readings : List (Reading Binary64)) :
    shownAt (builtins.live clock) (box, updates) readings =
      shownAt (builtins.live clock) (box, later) readings := by
  induction readings generalizing updates later with
  | nil => rfl
  | cons reading rest ih =>
      have kept (clock : Clock) : box.update clock reading.x reading.y = box := if_pos frozen
      simp only [shownAt, Builtins.live, kept]
      exact congrArg _ (ih (updates + 1) (later + 1))

theorem update_warm {box : BoundBox} {clock : Clock} {start : Rat} (warm : box.frozen = false)
    (begun : box.startTs = some start) (early : toDouble (clock.now - start) < boundWarmupS)
    (x y : Binary64) :
    box.update clock x y =
      ⟨some ((box.extent.map fun extent => extent.grow x y).getD (.single x y)), false, some start⟩ := by
  rw [BoundBox.update, warm, if_neg (by decide)]
  simp only [begun, Option.getD_some, decide_eq_false (not_le.mpr early)]
  cases box.extent <;> rfl

/-- While the warm-up lasts, what the clock reads does not matter. -/
theorem shownAt_warm {box : BoundBox} {start : Rat} (warm : box.frozen = false)
    (begun : box.startTs = some start) {updates later : Nat} {readings : List (Reading Binary64)}
    (first : StaysWarm clock start updates readings.length)
    (second : StaysWarm clock start later readings.length) :
    shownAt (builtins.live clock) (box, updates) readings =
      shownAt (builtins.live clock) (box, later) readings := by
  induction readings generalizing box updates later with
  | nil => rfl
  | cons reading rest ih =>
      have some : 0 < (reading :: rest).length := Nat.succ_pos _
      have early := update_warm warm begun (first updates le_rfl (Nat.lt_add_of_pos_right some))
        reading.x reading.y
      have late := update_warm warm begun (second later le_rfl (Nat.lt_add_of_pos_right some))
        reading.x reading.y
      simp only [shownAt, Builtins.live, early, late]
      refine congrArg _ (ih rfl rfl ?_ ?_)
      · intro index low high
        exact first index (by omega) (by rw [List.length_cons]; omega)
      · intro index low high
        exact second index (by omega) (by rw [List.length_cons]; omega)

theorem reading_number {γ' β' : Type} {builtins : Builtins γ' β'} {entry : String × Json}
    {reading : Reading γ'} (read : builtins.reading entry = some reading) : reading.number = entry.1 := by
  obtain ⟨number, value⟩ := entry
  cases value with
  | obj coords =>
      simp only [Builtins.reading, Option.bind_eq_bind, Option.bind_eq_some_iff] at read
      obtain ⟨x, _, y, _, made⟩ := read
      cases made
      rfl
  | _ => cases read

theorem steady_of_settled {box : BoundBox × Nat} {records : List (String × Json)}
    (settled : ∀ before entry after, records = before ++ entry :: after →
      wellFormedRecord entry.2 = false → ∀ reading, builtins.reading entry = some reading →
        Settled clock (boxAfter (builtins.live clock) box (before.filterMap builtins.reading))
          entry.1 reading after) : Steady (builtins.live clock) box records := by
  intro before entry after split malformed reading read other apart held
  have known : Settled clock held entry.1 reading after :=
    settled before entry after split malformed reading read
  clear_value held
  obtain ⟨box, updates⟩ := held
  have placed : ((builtins.live clock).place (box, updates) reading.x reading.y).1 =
      (box.update (clock updates) reading.x reading.y, updates + 1) := rfl
  rw [placed]
  have frozen (stays : box.frozen = true) : box.update (clock updates) reading.x reading.y = box :=
    if_pos stays
  rcases known with stays | own | ⟨extent, sides, start, begun, inside, warm⟩
  · rw [frozen stays, shownAt_frozen stays]
  · -- Nothing is shown under the other number, whatever the box.
    have absent (state : BoundBox × Nat) : Json.lookup other (shownAt (builtins.live clock) state
        (after.filterMap (builtins.live clock).reading)) = none := by
      rw [← Option.not_isSome_iff_eq_none, Json.lookup_isSome, shownAt_numbers]
      intro listed
      obtain ⟨later, member, rfl⟩ := List.mem_map.mp listed
      obtain ⟨entry', listed', read'⟩ := List.mem_filterMap.mp member
      exact apart ((reading_number read').trans (own entry' listed'))
    rw [absent, absent]
  · cases stays : box.frozen with
    | true => rw [frozen stays, shownAt_frozen stays]
    | false =>
        have short := List.length_filterMap_le (builtins.live clock).reading after
        have kept := update_warm stays begun (warm updates le_rfl (Nat.lt_add_of_pos_right
          (Nat.succ_pos _))) reading.x reading.y
        have same : box.update (clock updates) reading.x reading.y = box := by
          obtain ⟨boxExtent, boxFrozen, boxStart⟩ := box
          rw [kept, sides, Option.map_some, Option.getD_some, Extent.grow_contained inside]
          simp_all
        rw [same]
        apply congrArg (Json.lookup other)
        apply shownAt_warm stays begun
        · intro index low high
          exact warm index (by omega) (high.trans_le (by change _ ≤ updates + _; omega))
        · intro index low high
          exact warm index low (high.trans_le (by change _ ≤ updates + _; omega))

end

theorem flatMap_split {α α' : Type} {f : α → List α'} {items : List α} {before after : List α'}
    {entry : α'} (split : items.flatMap f = before ++ entry :: after) :
    ∃ (index : Nat) (item : α) (pre post : List α'), items[index]? = some item ∧
      f item = pre ++ entry :: post ∧ before = (items.take index).flatMap f ++ pre ∧
        after = post ++ (items.drop (index + 1)).flatMap f := by
  induction items generalizing before with
  | nil => simp at split
  | cons item rest ih =>
      rw [List.flatMap_cons] at split
      rcases List.append_eq_append_iff.mp split with ⟨later, rfl, tail⟩ | ⟨own, same, tail⟩
      · obtain ⟨index, found, pre, post, place, made, rfl, rfl⟩ := ih tail
        exact ⟨index + 1, found, pre, post, place, made, by simp, rfl⟩
      · cases own with
        | nil =>
            have later : rest.flatMap f = [] ++ entry :: after := tail.symm
            obtain ⟨index, found, pre, post, place, made, nothing, rfl⟩ := ih later
            refine ⟨index + 1, found, pre, post, place, made, ?_, rfl⟩
            rw [List.take_succ_cons, List.flatMap_cons, List.append_assoc, ← nothing, same,
              List.append_nil, List.append_nil]
        | cons first own =>
            obtain ⟨rfl, rfl⟩ := List.cons.inj tail
            exact ⟨0, item, before, own, rfl, same, by simp, rfl⟩

theorem recordsOf_distinct (sample : Json) : ((recordsOf sample).map Prod.fst).Nodup := by
  rw [recordsOf]
  split
  · exact Dict.distinct _
  · exact List.nodup_nil

theorem recordsOf_without (number : String) (sample : Json) :
    recordsOf (sampleWithout number sample) =
      (recordsOf sample).filter fun entry => entry.1 ≠ number := by
  cases sample with
  | obj members =>
      have entries := Json.lookup_adjust "Entries" (Json.without number) members
      simp only [recordsOf, sampleWithout, Json.get?, entries]
      cases Json.lookup "Entries" members with
      | none => rfl
      | some value =>
          cases value with
          | obj entries => exact Dict.ofMembers_filter (fun key => decide (key ≠ number)) entries
          | _ => rfl
  | _ => rfl

/-- The keys of a sample are distinct, so one record goes and the others stay. -/
theorem recordsOf_split {sample value : Json} {number : String} {pre post : List (String × Json)}
    (split : recordsOf sample = pre ++ (number, value) :: post) :
    recordsOf (sampleWithout number sample) = pre ++ post := by
  have distinct := recordsOf_distinct sample
  rw [recordsOf_without, split]
  rw [split, List.map_append, List.map_cons] at distinct
  obtain ⟨_, later, apart⟩ := List.nodup_append.mp distinct
  have kept (entries : List (String × Json)) (other : ∀ entry ∈ entries, entry.1 ≠ number) :
      entries.filter (fun entry => entry.1 ≠ number) = entries :=
    List.filter_eq_self.mpr fun entry member => decide_eq_true (other entry member)
  rw [List.filter_append, List.filter_cons_of_neg (by simp), kept pre, kept post]
  · intro entry member same
    exact (List.nodup_cons.mp later).1 (List.mem_map.mpr ⟨entry, member, same⟩)
  · intro entry member
    exact apart _ (List.mem_map_of_mem member) _ (List.mem_cons_self ..)

theorem quietSample_without {number : String} {sample : Json}
    (quiet : builtins.quietSample sample = true) :
    builtins.quietSample (sampleWithout number sample) = true := by
  cases sample with
  | obj members =>
      have entries := Json.lookup_adjust "Entries" (Json.without number) members
      simp only [Builtins.quietSample, sampleWithout, entries] at quiet ⊢
      cases found : Json.lookup "Entries" members with
      | none => rfl
      | some value =>
          rw [found] at quiet
          cases value with
          | obj entries =>
              have kept := Dict.ofMembers_filter (fun key => decide (key ≠ number)) entries
              simp only [Option.map_some, Option.getD_some, Json.without] at quiet ⊢
              rw [kept, List.all_eq_true]
              intro entry member
              exact List.all_eq_true.mp quiet entry (List.mem_filter.mp member).1
          | _ => cases quiet
  | _ => cases quiet

theorem quietSamples_without {index : Nat} {number : String} {samples : Json}
    (quiet : builtins.quietSamples samples = true) :
    builtins.quietSamples (samplesWithout index number samples) = true := by
  cases samples with
  | arr samples =>
      simp only [Builtins.quietSamples, iterate, samplesWithout, List.all_eq_true] at quiet ⊢
      intro sample member
      obtain ⟨place, found⟩ := List.mem_iff_getElem?.mp member
      rw [List.getElem?_modify] at found
      cases held : samples[place]? with
      | none => simp [held] at found
      | some old =>
          have calm := quiet old (List.mem_of_getElem? held)
          rw [held, Option.map_eq_map, Option.map_some, Option.some.injEq] at found
          rw [← found]
          split
          · exact quietSample_without builtins calm
          · exact calm
  | _ => exact quiet

theorem records_without {samples : List Json} {index : Nat} {number : String} {sample value : Json}
    {pre post : List (String × Json)} (place : samples[index]? = some sample)
    (split : recordsOf sample = pre ++ (number, value) :: post) :
    let before := (samples.take index).flatMap recordsOf ++ pre
    let after := post ++ (samples.drop (index + 1)).flatMap recordsOf
    recordsIn (.arr samples) = before ++ (number, value) :: after ∧
      recordsIn (samplesWithout index number (.arr samples)) = before ++ after := by
  obtain ⟨within, rfl⟩ := List.getElem?_eq_some_iff.mp place
  constructor
  · have whole : samples.take index ++ samples[index] :: samples.drop (index + 1) = samples := by simp
    calc samples.flatMap recordsOf
        = (samples.take index ++ samples[index] :: samples.drop (index + 1)).flatMap recordsOf := by
          rw [whole]
      _ = _ := by
          rw [List.flatMap_append, List.flatMap_cons, split]
          simp
  · simp only [recordsIn, samplesWithout, List.modify_eq_take_cons_drop within]
    simp [recordsOf_split split]

theorem recordAt_iff {payload : List (String × Json)} {samples : List Json} {index : Nat}
    {number : String} {value : Json} (held : positionOf builtins payload = .arr samples) :
    recordAt payload index number = some value ↔
      ∃ sample, samples[index]? = some sample ∧ (number, value) ∈ recordsOf sample := by
  have listed (sample : Json) : (sample.get? "Entries").bind (Json.get? number) = some value ↔
      (number, value) ∈ recordsOf sample := by
    rw [recordsOf]
    cases sample.get? "Entries" with
    | none => simp
    | some entries =>
        cases entries with
        | obj members =>
            rw [Option.bind_some, Json.get?, ← Json.get?_ofMembers]
            exact ⟨Dict.mem_of_get?, Dict.get?_of_mem⟩
        | _ => simp [Json.get?]
  have position : (Json.lookup "Position" payload).getD (.arr []) = .arr samples := held
  rw [recordAt]
  simp only [position, Option.bind_eq_bind]
  cases place : samples[index]? with
  | none => simp
  | some sample => simpa using listed sample

theorem positionOf_without (index : Nat) (number : String) (payload : List (String × Json)) :
    positionOf builtins (withoutRecord index number payload) =
      samplesWithout index number (positionOf builtins payload) := by
  have samples := Json.lookup_adjust "Position" (samplesWithout index number) payload
  simp only [positionOf, Builtins.decodePositionPayload, withoutRecord, samples]
  cases Json.lookup "Position" payload with
  | none => simp [samplesWithout]
  | some value => rfl

theorem shownCar_injective (reports : Reports) (number : String) :
    Function.Injective (shownCar builtins reports number) := by
  intro first second same
  have status := congrArg Car.status same
  have place := congrArg Car.p same
  exact Prod.ext (Option.some.inj status) place

/-- Taking a record out shows in another driver's car exactly if the box it leaves does. -/
theorem car_without (reports : Reports) (box : β) (latest : Dict String Car)
    (before after : List (String × Json)) (entry : String × Json) {reading : Reading γ}
    (read : builtins.reading entry = some reading) {other : String} (apart : other ≠ entry.1) :
    let cars (records : List (String × Json)) :=
      (shownAt builtins box (records.filterMap builtins.reading)).map
        fun spot => (spot.1, shownCar builtins reports spot.1 spot.2)
    let held := boxAfter builtins box (before.filterMap builtins.reading)
    (latestAfter latest (cars (before ++ entry :: after))).get? other =
        (latestAfter latest (cars (before ++ after))).get? other ↔
      Json.lookup other (shownAt builtins (builtins.place held reading.x reading.y).1
          (after.filterMap builtins.reading)) =
        Json.lookup other (shownAt builtins held (after.filterMap builtins.reading)) := by
  intro cars held
  have own := reading_number read
  have seen (records : List (String × Json)) : (latestAfter latest (cars records)).get? other =
      ((Json.lookup other (shownAt builtins box (records.filterMap builtins.reading))).map
        (shownCar builtins reports other)).or (latest.get? other) := by
    rw [latestAfter]
    rw [Json.get?_foldl_set, Json.lookup_map_member]
  have readings : (before ++ entry :: after).filterMap builtins.reading =
      before.filterMap builtins.reading ++ reading :: after.filterMap builtins.reading := by
    rw [List.filterMap_append, List.filterMap_cons_some read]
  rw [← own] at apart
  rw [seen, seen, readings, List.filterMap_append,
    ← shown_without builtins box _ (after.filterMap builtins.reading) reading apart]
  refine (or_inj ?_ _).trans (Option.map_injective (shownCar_injective builtins reports other)).eq_iff
  rw [Option.isSome_map, Option.isSome_map, Bool.eq_iff_iff, Json.lookup_isSome, Json.lookup_isSome,
    shownAt_numbers, shownAt_numbers]
  simp [apart]

theorem alone_iff (reports : Reports) (box : β) (latest : Dict String Car)
    {payload : List (String × Json)} {samples : List Json} {index : Nat} {number : String}
    {sample value : Json} {pre post : List (String × Json)}
    (quiet : builtins.quietSamples (positionOf builtins payload) = true)
    (held : positionOf builtins payload = .arr samples) (place : samples[index]? = some sample)
    (split : recordsOf sample = pre ++ (number, value) :: post) {other : String}
    (apart : other ≠ number) :
    let before := (samples.take index).flatMap recordsOf ++ pre
    let after := post ++ (samples.drop (index + 1)).flatMap recordsOf
    let box' := boxAfter builtins box (before.filterMap builtins.reading)
    (latestAfter latest
        (applyPositionSamples builtins reports box (positionOf builtins payload)).1.2).get? other =
      (latestAfter latest (applyPositionSamples builtins reports box
        (positionOf builtins (withoutRecord index number payload))).1.2).get? other ↔
      ∀ reading, builtins.reading (number, value) = some reading →
        Json.lookup other (shownAt builtins (builtins.place box' reading.x reading.y).1
            (after.filterMap builtins.reading)) =
          Json.lookup other (shownAt builtins box' (after.filterMap builtins.reading)) := by
  intro before after box'
  obtain ⟨whole, rest⟩ := records_without place split
  have later : builtins.quietSamples
      (samplesWithout index number (positionOf builtins payload)) = true :=
    quietSamples_without builtins quiet
  rw [positionOf_without, applyPositionSamples_eq builtins reports box quiet,
    applyPositionSamples_eq builtins reports box later, held, whole, rest]
  cases read : builtins.reading (number, value) with
  | none =>
      refine iff_of_true ?_ nofun
      simp only [List.filterMap_append, List.filterMap_cons_none read]
  | some reading =>
      apply (car_without builtins reports box latest before after _ read apart).trans
      exact ⟨fun same _ found => Option.some.inj found ▸ same, fun same => same reading rfl⟩

theorem positions_isolating_iff (reports : Reports) (box : β) (latest : Dict String Car)
    (payload : List (String × Json)) :
    PositionsIsolating builtins reports box latest payload ↔
      builtins.quietSamples (positionOf builtins payload) = true ∧
        Steady builtins box (recordsIn (positionOf builtins payload)) := by
  have ends := applyPositionSamples_ends builtins reports box (positionOf builtins payload)
  constructor
  · intro isolating
    have quiet := ends.mp isolating.total
    refine ⟨quiet, ?_⟩
    intro before entry after split malformed reading read other apart
    cases held : positionOf builtins payload with
    | arr samples =>
        rw [held] at split
        obtain ⟨index, sample, pre, post, place, made, rfl, rfl⟩ := flatMap_split split
        have found : recordAt payload index entry.1 = some entry.2 :=
          (recordAt_iff builtins held).mpr ⟨sample, place, by rw [made]; simp⟩
        have same := isolating.alone index entry.1 entry.2 found malformed other apart
        exact (alone_iff builtins reports box latest quiet held place made apart).mp same reading read
    | _ =>
        rw [held] at split
        simp [recordsIn] at split
  · rintro ⟨quiet, steady⟩
    refine ⟨ends.mpr quiet, ?_⟩
    intro index bad value found malformed other apart
    cases held : positionOf builtins payload with
    | arr samples =>
        obtain ⟨sample, place, listed⟩ := (recordAt_iff builtins held).mp found
        obtain ⟨pre, post, split⟩ := List.append_of_mem listed
        have whole := (records_without place split).1
        rw [held] at steady
        rw [← held]
        apply (alone_iff builtins reports box latest quiet held place split apart).mpr
        intro reading read
        exact steady _ _ _ whole malformed reading read other apart
    | _ =>
        have position : (Json.lookup "Position" payload).getD (.arr []) = _ := held
        simp [recordAt, position] at found

/-- For each topic, the entries that get past the parsers and the box are those that stay alone. -/
theorem bad_entries_stay_alone (positions : Dict String Int) (extra : Dict String Timing)
    (tyres : Dict String Tyre) (reports : Reports) (box : β) (latest : Dict String Car)
    (payload : List (String × Json)) :
    (Isolating (applyTimingData builtins positions extra) timingOf payload ↔
        quietLines builtins.quietTimingEntry payload = true) ∧
      (Isolating (applyTyreData builtins tyres) Dict.get? payload ↔
        quietLines builtins.quietTyreEntry payload = true) ∧
      (PositionsIsolating builtins reports box latest payload ↔
        builtins.quietSamples (positionOf builtins payload) = true ∧
          Steady builtins box (recordsIn (positionOf builtins payload))) :=
  ⟨isolating_iff (timingLine_tells builtins) (timingLine_keyed builtins) (positions, extra) payload,
    isolating_iff (tyreLine_tells builtins) (tyreLine_keyed builtins) tyres payload,
    positions_isolating_iff builtins reports box latest payload⟩

/-- A lap time that is a number, before the entry of another car. -/
def numberedLapTime : List (String × Json) :=
  [("Lines", .obj [("1", .obj [("LastLapTime", .obj [("Value", .int 83)])]),
    ("44", .obj [("Position", .int 1)])])]

/-- The number has no `split`: the handler raises, and the other car's position is lost. -/
theorem numbered_lap_time_raises :
    (applyTimingData plainBuiltins .empty .empty numberedLapTime).2 = some .attributeError ∧
      (timingOf (applyTimingData plainBuiltins .empty .empty numberedLapTime).1 "44").1 = none ∧
      (timingOf (applyTimingData plainBuiltins .empty .empty
        (withoutLine "1" numberedLapTime)).1 "44").1 = some 1 ∧
      ¬ Isolating (applyTimingData plainBuiltins .empty .empty) timingOf numberedLapTime := by
  refine ⟨by decide, by decide, by decide, ?_⟩
  intro isolating
  exact absurd isolating.total (by decide)

end RaceTracker.Ingest
