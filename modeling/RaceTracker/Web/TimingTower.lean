import RaceTracker.Web.DisplayGaps

namespace RaceTracker.Web

open RaceTracker.Lib

/-! The tower's effect on the smoothing: the fold lives in a ref, and what is rendered is a copy in
the component state that is written only when the fold hands back a new map.
-/

/-- What the effect depends on: `[state.rev, state.session, state.loopSeq]`. -/
structure EffectDeps where
  rev : Rat
  session : String
  loopSeq : Nat
deriving DecidableEq

def effectDeps (state : RaceState) : EffectDeps := ⟨state.rev, state.session, state.loopSeq⟩

structure Tower where
  smoothing : GapSmoothing
  smoothingRef : GapSmoothing
  sessionRef : String
  loopRef : Nat
  /-- The dependencies of the effect's last run. -/
  deps : Option EffectDeps

namespace Tower

def initial (state : RaceState) : Tower where
  smoothing := .empty
  smoothingRef := .empty
  sessionRef := state.session
  loopRef := state.loopSeq
  deps := none

/-- The map the fold starts from: none of another session or pass of the clip. -/
def kept (tower : Tower) (state : RaceState) : GapSmoothing :=
  if tower.sessionRef ≠ state.session ∨ tower.loopRef ≠ state.loopSeq then .empty
  else tower.smoothingRef

def effect (tower : Tower) (state : RaceState) : Tower :=
  let started := { tower with
    smoothingRef := tower.kept state
    sessionRef := state.session
    loopRef := state.loopSeq
    deps := some (effectDeps state) }
  match copiedSmoothing (tower.kept state) (orderCars state.cars) with
  -- `sm === smoothingRef.current`
  | none => started
  | some sm => { started with smoothingRef := sm, smoothing := sm }

def render (tower : Tower) (state : RaceState) : Tower :=
  if tower.deps = some (effectDeps state) then tower else tower.effect state

/-- The tower after it has been mounted on a state and has rendered others after it. -/
def shown (first : RaceState) (rest : List RaceState) : Tower :=
  (first :: rest).foldl render (initial first)

def gaps (tower : Tower) (state : RaceState) : List DisplayGap :=
  displayGaps (orderCars state.cars) tower.smoothing

end Tower

/-- Some car of the state carries a gap or an interval. -/
def Reads (state : RaceState) : Prop :=
  ∃ car ∈ orderCars state.cars, ∃ column : Column, column.reading car ≠ none

/-- The fold hands its map back when no car carries a reading. -/
theorem copiedSmoothing_eq_none {prev : GapSmoothing} {cars : List Json} :
    copiedSmoothing prev cars = none ↔ ∀ car ∈ cars, ∀ column : Column, column.reading car = none := by
  rw [copiedSmoothing, copied_eq_none]
  simp only [samplesAfter_eq_none]

namespace Tower

/-- Two towers that fold alike and print alike. -/
structure Agrees (tower tower' : Tower) : Prop where
  ref : tower.smoothingRef = tower'.smoothingRef
  session : tower.sessionRef = tower'.sessionRef
  loop : tower.loopRef = tower'.loopRef
  deps : tower.deps = tower'.deps
  printed : ∀ driver, tower.smoothing.get? driver = tower'.smoothing.get? driver

theorem kept_eq {tower tower' : Tower} (agrees : Agrees tower tower') (state : RaceState) :
    tower.kept state = tower'.kept state := by
  rw [kept, kept, agrees.session, agrees.loop, agrees.ref]

theorem render_agrees {tower tower' : Tower} (agrees : Agrees tower tower') (state : RaceState) :
    Agrees (tower.render state) (tower'.render state) := by
  rw [render, render, agrees.deps]
  by_cases same : tower'.deps = some (effectDeps state)
  · rw [if_pos same, if_pos same]
    exact agrees
  · rw [if_neg same, if_neg same, effect, effect, kept_eq agrees]
    cases copiedSmoothing (tower'.kept state) (orderCars state.cars) with
    | none => exact ⟨rfl, rfl, rfl, rfl, agrees.printed⟩
    | some sm => exact ⟨rfl, rfl, rfl, rfl, fun _ => rfl⟩

theorem foldl_agrees {tower tower' : Tower} (agrees : Agrees tower tower') (states : List RaceState) :
    Agrees (states.foldl render tower) (states.foldl render tower') := by
  induction states generalizing tower tower' with
  | nil => exact agrees
  | cons state rest ih => exact ih (render_agrees agrees state)

/-- The refs are those of the state the effect ran for last. -/
def Synced (tower : Tower) (state : RaceState) : Prop :=
  tower.deps = some (effectDeps state) ∧ tower.sessionRef = state.session ∧
    tower.loopRef = state.loopSeq

theorem effect_synced (tower : Tower) (state : RaceState) : Synced (tower.effect state) state := by
  rw [effect]
  cases copiedSmoothing (tower.kept state) (orderCars state.cars) <;> exact ⟨rfl, rfl, rfl⟩

theorem render_synced {tower : Tower} {last : RaceState} (synced : Synced tower last)
    (state : RaceState) : Synced (tower.render state) state := by
  rw [render]
  split
  · rename_i same
    have deps := synced.1.symm.trans same
    simp only [effectDeps, Option.some.injEq, EffectDeps.mk.injEq] at deps
    exact ⟨same, synced.2.1.trans deps.2.1, synced.2.2.trans deps.2.2⟩
  · exact effect_synced tower state

theorem foldl_synced {tower : Tower} {last : RaceState} (synced : Synced tower last)
    (states : List RaceState) : Synced (states.foldl render tower) ((states.getLast?).getD last) := by
  induction states generalizing tower last with
  | nil => exact synced
  | cons state rest ih =>
      rw [List.foldl_cons, List.getLast?_cons, Option.getD_some]
      exact ih (render_synced synced state)

theorem shown_synced (first : RaceState) (rest : List RaceState) :
    Synced (shown first rest) ((rest.getLast?).getD first) := by
  rw [shown, List.foldl_cons]
  apply foldl_synced
  rw [render, if_neg nofun]
  exact effect_synced _ first

/-- Another session, or another pass of the clip. -/
def Changes (last state : RaceState) : Prop :=
  last.session ≠ state.session ∨ last.loopSeq ≠ state.loopSeq

theorem render_change {tower : Tower} {last state : RaceState} (synced : Synced tower last)
    (changes : Changes last state) : tower.render state = tower.effect state ∧
      tower.kept state = .empty := by
  obtain ⟨deps, session, loop⟩ := synced
  constructor
  · rw [render, if_neg]
    intro same
    have equal := deps.symm.trans same
    simp only [effectDeps, Option.some.injEq, EffectDeps.mk.injEq] at equal
    rcases changes with other | other
    · exact other equal.2.1
    · exact other equal.2.2
  · rw [kept, session, loop]
    exact if_pos changes

theorem copied_empty_eq_none {state : RaceState} :
    copiedSmoothing .empty (orderCars state.cars) = none ↔ ¬ Reads state := by
  rw [copiedSmoothing_eq_none, Reads]
  push Not
  rfl

/-- A change to a state without readings leaves the copy as it is. -/
theorem render_silent {tower : Tower} {last state : RaceState} (synced : Synced tower last)
    (changes : Changes last state) (silent : ¬ Reads state) :
    (tower.render state).smoothing = tower.smoothing := by
  obtain ⟨ran, fresh⟩ := render_change synced changes
  rw [ran, effect, fresh, copied_empty_eq_none.mpr silent]

/-- The first effect after a change: the ref starts afresh, the copy only if some car reads. -/
theorem change_agrees_iff {tower tower' : Tower} {last last' state : RaceState}
    (synced : Synced tower last) (synced' : Synced tower' last') (changes : Changes last state)
    (changes' : Changes last' state) :
    Agrees (tower.render state) (tower'.render state) ↔ Reads state ∨
      ∀ driver, tower.smoothing.get? driver = tower'.smoothing.get? driver := by
  obtain ⟨ran, fresh⟩ := render_change synced changes
  obtain ⟨ran', fresh'⟩ := render_change synced' changes'
  rw [ran, ran', effect, effect, fresh, fresh']
  cases copied : copiedSmoothing .empty (orderCars state.cars) with
  | none =>
      simp only [copied_empty_eq_none.mp copied, false_or]
      exact ⟨Agrees.printed, fun same => ⟨rfl, rfl, rfl, rfl, same⟩⟩
  | some sm =>
      have reads : Reads state := by
        by_contra not
        rw [copied_empty_eq_none.mpr not] at copied
        cases copied
      exact ⟨fun _ => Or.inl reads, fun _ => ⟨rfl, rfl, rfl, rfl, fun _ => rfl⟩⟩

theorem agrees_of_printed {tower tower' : Tower} {last last' state : RaceState}
    (synced : Synced tower last) (synced' : Synced tower' last') (changes : Changes last state)
    (changes' : Changes last' state)
    (printed : ∀ driver, (tower.render state).smoothing.get? driver =
      (tower'.render state).smoothing.get? driver) : Agrees (tower.render state) (tower'.render state) := by
  obtain ⟨ran, fresh⟩ := render_change synced changes
  obtain ⟨ran', fresh'⟩ := render_change synced' changes'
  rw [ran, ran', effect, effect, fresh, fresh'] at printed ⊢
  cases copied : copiedSmoothing .empty (orderCars state.cars) with
  | none => exact ⟨rfl, rfl, rfl, rfl, by simpa [copied] using printed⟩
  | some sm => exact ⟨rfl, rfl, rfl, rfl, fun _ => rfl⟩

theorem gaps_of_agrees {tower tower' : Tower} (agrees : Agrees tower tower') (state : RaceState) :
    tower.gaps state = tower'.gaps state :=
  displayGaps_congr agrees.printed (orderCars state.cars)

/-- Two runs print from the same smoothing, from the first state after a change on, exactly when that
state has a reading or nothing told their smoothings apart before it; then their tables agree. -/
theorem tower_forgets_iff (first first' state : RaceState) (before before' later : List RaceState)
    (changes : Changes ((before.getLast?).getD first) state)
    (changes' : Changes ((before'.getLast?).getD first') state) :
    ((∀ seen, seen <+: later → ∀ driver,
        (shown first (before ++ state :: seen)).smoothing.get? driver =
          (shown first' (before' ++ state :: seen)).smoothing.get? driver) ↔
      Reads state ∨ ∀ driver, (shown first before).smoothing.get? driver =
        (shown first' before').smoothing.get? driver) ∧
    ((Reads state ∨ ∀ driver, (shown first before).smoothing.get? driver =
        (shown first' before').smoothing.get? driver) →
      ∀ seen, seen <+: later → ∀ current,
        (shown first (before ++ state :: seen)).gaps current =
          (shown first' (before' ++ state :: seen)).gaps current) := by
  have after (first : RaceState) (before seen : List RaceState) :
      shown first (before ++ state :: seen) = seen.foldl render ((shown first before).render state) := by
    rw [shown, shown, ← List.cons_append, List.foldl_append, List.foldl_cons]
  have at_change := change_agrees_iff (shown_synced first before) (shown_synced first' before') changes changes'
  have afterwards (agrees : Agrees ((shown first before).render state) ((shown first' before').render state))
      (seen : List RaceState) : Agrees (shown first (before ++ state :: seen))
        (shown first' (before' ++ state :: seen)) := by
    rw [after, after]
    exact foldl_agrees agrees seen
  refine ⟨⟨?_, ?_⟩, ?_⟩
  · intro same
    have printed := same [] List.nil_prefix
    rw [after, after] at printed
    exact at_change.mp (agrees_of_printed (shown_synced first before) (shown_synced first' before')
      changes changes' printed)
  · intro either seen _ driver
    exact (afterwards (at_change.mpr either) seen).printed driver
  · intro either seen _ current
    exact gaps_of_agrees (afterwards (at_change.mpr either) seen) current

def leadingCar : Json := .obj [("driverNum", .int 1), ("pos", .int 1), ("lastLapMs", .int 84000)]

def chasingCar (gapMs : Int) : Json :=
  .obj [("driverNum", .int 4), ("pos", .int 2), ("lastLapMs", .int 85000), ("gapMs", .int gapMs)]

/-- A lap is known of this car, so that the row has cells. -/
def silentCar : Json := .obj [("driverNum", .int 4), ("pos", .int 2), ("lastLapMs", .int 85000)]

def twoCars (second : Json) : Dict String Json := ⟨[("1", leadingCar), ("4", second)], by simp⟩

def sessionState (session : String) (rev : Int) (second : Json) : RaceState :=
  { emptyState with session, rev := rev, cars := twoCars second }

theorem median_singleton (reading : Rat) : median [reading] = some reading := by
  simp [median]

theorem copiedSmoothing_chasing (gapMs : Int) :
    copiedSmoothing .empty [leadingCar, chasingCar gapMs] =
      some (Dict.set .empty (carName silentCar) ⟨[(gapMs : Rat)], [], some (gapMs : Rat), none⟩) := by
  have leads : samplesAfter .empty leadingCar = none := by
    rw [samplesAfter_eq_none]
    intro column
    cases column <;> rfl
  have read : Column.gap.reading (chasingCar gapMs) = some (gapMs : Rat) := rfl
  have unread : Column.interval.reading (chasingCar gapMs) = none := rfl
  have kept : keepLast gapWindow [(gapMs : Rat)] = [(gapMs : Rat)] := rfl
  have chases : samplesAfter .empty (chasingCar gapMs) =
      some ⟨[(gapMs : Rat)], [], some (gapMs : Rat), none⟩ := by
    have none_yet : (settle [] none : Option Rat) = none := by simp [settle, median]
    have first : settle [(gapMs : Rat)] none = some (gapMs : Rat) := by
      rw [settle_first, median_singleton]
    simp [samplesAfter, read, unread, pushCapped, kept, GapSamples.empty, none_yet, first]
  simp only [copiedSmoothing, copied, writeCopy, List.foldl_cons, List.foldl_nil, leads, chases]
  rfl

/-- Switched to a session without gaps, the tower still prints the gap of the old one. -/
theorem gaps_after_switch {gapMs : Int} (order : orderCars (twoCars (chasingCar gapMs)) =
    [leadingCar, chasingCar gapMs]) :
    ((shown (sessionState "monza" 1 (chasingCar gapMs)) [sessionState "monaco" 2 silentCar]).gaps
      (sessionState "monaco" 2 silentCar)).map DisplayGap.gapMs = [none, some (max (gapMs : Rat) 0)] := by
  let before := sessionState "monza" 1 (chasingCar gapMs)
  let switched := sessionState "monaco" 2 silentCar
  have live : orderCars switched.cars = [leadingCar, silentCar] :=
    orderCars_eq (List.Perm.refl _) (by decide +kernel) (by decide +kernel)
  have silent : ¬ Reads switched := by
    rw [← copied_empty_eq_none, copiedSmoothing_eq_none, live]
    intro car member column
    rcases List.mem_pair.mp member with rfl | rfl <;> cases column <;> rfl
  have mounted : (shown before []).smoothing =
      Dict.set .empty (carName silentCar) ⟨[(gapMs : Rat)], [], some (gapMs : Rat), none⟩ := by
    have afresh : (initial before).kept before = .empty := if_neg (by simp [initial])
    rw [shown, List.foldl_cons, List.foldl_nil, render, if_neg nofun, effect, afresh]
    change (match copiedSmoothing .empty (orderCars (twoCars (chasingCar gapMs))) with
      | none => _ | some sm => _ : Tower).smoothing = _
    rw [order, copiedSmoothing_chasing]
  have changes : Changes before switched := Or.inl (show "monza" ≠ "monaco" by decide)
  have stays := render_silent (shown_synced before []) changes silent
  change (displayGaps (orderCars switched.cars) ((shown before []).render switched).smoothing).map _ = _
  rw [live, stays, mounted]
  simp [displayGaps, displayRows, shownReading, GapSamples.shown]

/-- What is printed after the switch tells what the other session had shown. -/
theorem session_switch_leaks :
    let before (gapMs : Int) := sessionState "monza" 1 (chasingCar gapMs)
    let switched := sessionState "monaco" 2 silentCar
    Changes (before 5000) switched ∧ Changes (before 9000) switched ∧ hasNoData silentCar = false ∧
      (shown (before 5000) [switched]).gaps switched ≠ (shown (before 9000) [switched]).gaps switched := by
  refine ⟨Or.inl (by decide), Or.inl (by decide), by decide +kernel, ?_⟩
  intro same
  have printed := congrArg (List.map DisplayGap.gapMs) same
  rw [gaps_after_switch (orderCars_eq (List.Perm.refl _) (by decide +kernel) (by decide +kernel)),
    gaps_after_switch (orderCars_eq (List.Perm.refl _) (by decide +kernel) (by decide +kernel))] at printed
  exact absurd printed (by decide +kernel)

/-- A first state with a gap replaces what was printed. -/
theorem tower_forgets_iff_reading :
    Reads (sessionState "monaco" 2 (chasingCar 3000)) ∧
    ∀ seen, seen <+: [sessionState "monaco" 3 silentCar] → ∀ driver,
      (shown (sessionState "monza" 1 (chasingCar 5000))
          ([] ++ sessionState "monaco" 2 (chasingCar 3000) :: seen)).smoothing.get? driver =
        (shown (sessionState "monza" 1 (chasingCar 9000))
          ([] ++ sessionState "monaco" 2 (chasingCar 3000) :: seen)).smoothing.get? driver := by
  have live : orderCars (sessionState "monaco" 2 (chasingCar 3000)).cars = [leadingCar, chasingCar 3000] :=
    orderCars_eq (List.Perm.refl _) (by decide +kernel) (by decide +kernel)
  have reads : Reads (sessionState "monaco" 2 (chasingCar 3000)) := by
    refine ⟨chasingCar 3000, ?_, .gap, nofun⟩
    rw [live]
    exact List.mem_cons_of_mem _ (List.mem_cons_self ..)
  exact ⟨reads, (tower_forgets_iff _ _ _ [] [] _ (Or.inl (by decide)) (Or.inl (by decide))).1.mpr
    (Or.inl reads)⟩

end Tower

end RaceTracker.Web
