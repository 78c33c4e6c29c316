import RaceTracker.Lib.Dict
import RaceTracker.Lib.Outcome

namespace RaceTracker.Lib

/-! Loops over a dictionary whose every iteration works on its own key.

What such a loop leaves under a key depends on the entries of that key alone, so an entry
can be taken out without a trace under the other keys.
-/

variable {σ α κ ν τ ε : Type}

/-- The items of the iterations that run: the first that is not quiet is the last. -/
def reached (quiet : α → Bool) : List α → List α
  | [] => []
  | item :: rest => item :: if quiet item then reached quiet rest else []

section

variable {step : σ → α → σ × Option ε} {quiet : α → Bool}

theorem foldUntil_reached (tells : ∀ state item, (step state item).2.isNone = quiet item)
    (state : σ) (items : List α) :
    (foldUntil step state items).1 =
      (reached quiet items).foldl (fun state item => (step state item).1) state := by
  induction items generalizing state with
  | nil => rfl
  | cons item rest ih =>
      have told := tells state item
      cases stepped : step state item with
      | mk next raised =>
          rw [stepped] at told
          cases raised with
          | none => simp [foldUntil, reached, stepped, ← told, ih]
          | some error => simp [foldUntil, reached, stepped, ← told]

theorem foldUntil_ends (tells : ∀ state item, (step state item).2.isNone = quiet item)
    (state : σ) (items : List α) :
    (foldUntil step state items).2 = none ↔ ∀ item ∈ items, quiet item = true := by
  induction items generalizing state with
  | nil => simp [foldUntil]
  | cons item rest ih =>
      have told := tells state item
      cases stepped : step state item with
      | mk next raised =>
          rw [stepped] at told
          cases raised with
          | none => simp [foldUntil, stepped, ← told, ih]
          | some error => simp [foldUntil, stepped, ← told]

/-- A loop whose items are all quiet ends, and it ends where the items that do something take it. -/
theorem foldUntil_quiet (tells : ∀ state item, (step state item).2.isNone = quiet item)
    (keep : α → Bool) (idle : ∀ item, quiet item = true → keep item = false →
      ∀ state, step state item = (state, none))
    {items : List α} (all : ∀ item ∈ items, quiet item = true) (state : σ) :
    ∃ last, foldUntil step state items = (last, none) ∧
      foldUntil step state (items.filter keep) = (last, none) := by
  have ended := (foldUntil_ends tells state items).mpr all
  have same := foldUntil_filter step keep (fun item member => idle item (all item member)) state
  refine ⟨(foldUntil step state items).1, Prod.ext rfl ended, ?_⟩
  rw [← same]
  exact Prod.ext rfl ended

theorem reached_eq {items : List α} (all : ∀ item ∈ items, quiet item = true) :
    reached quiet items = items := by
  induction items with
  | nil => rfl
  | cons item rest ih =>
      rw [reached, if_pos (all item (List.mem_cons_self ..)),
        ih fun later member => all later (List.mem_cons_of_mem _ member)]

/-- A loop whose items are all quiet is a plain fold. -/
theorem foldUntil_eq_foldl (tells : ∀ state item, (step state item).2.isNone = quiet item)
    {state : σ} {items : List α} (all : ∀ item ∈ items, quiet item = true) :
    foldUntil step state items =
      (items.foldl (fun state item => (step state item).1) state, none) := by
  refine Prod.ext ?_ ((foldUntil_ends tells state items).mpr all)
  rw [foldUntil_reached tells, reached_eq all]

end

/-- An iteration reads and writes only what stands under its own key. -/
structure Keyed (step : σ → κ × ν → σ) (view : σ → κ → τ) : Prop where
  own : ∀ {state state' : σ} {entry : κ × ν}, view state entry.1 = view state' entry.1 →
    view (step state entry) entry.1 = view (step state' entry) entry.1
  other : ∀ (state : σ) (entry : κ × ν) {key : κ}, entry.1 ≠ key →
    view (step state entry) key = view state key

variable [DecidableEq κ] {step : σ → κ × ν → σ} {view : σ → κ → τ}

theorem Keyed.congr (keyed : Keyed step view) {state state' : σ} {key : κ}
    (same : view state key = view state' key) (entries : List (κ × ν)) :
    view (entries.foldl step state) key = view (entries.foldl step state') key := by
  induction entries generalizing state state' with
  | nil => exact same
  | cons entry rest ih =>
      apply ih
      by_cases here : entry.1 = key
      · subst here
        exact keyed.own same
      · rw [keyed.other _ _ here, keyed.other _ _ here, same]

/-- Only the entries of a key have a say in what stands under it. -/
theorem Keyed.view_foldl (keyed : Keyed step view) (state : σ) (entries : List (κ × ν)) (key : κ) :
    view (entries.foldl step state) key =
      view ((entries.filter fun entry => entry.1 = key).foldl step state) key := by
  induction entries generalizing state with
  | nil => rfl
  | cons entry rest ih =>
      rw [List.foldl_cons, ih]
      by_cases here : entry.1 = key
      · simp [here]
      · rw [List.filter_cons_of_neg (by simpa using here)]
        exact keyed.congr (keyed.other state entry here) _

theorem Keyed.view_without (keyed : Keyed step view) (state : σ) (entries : List (κ × ν))
    {gone key : κ} (other : key ≠ gone) :
    view (entries.foldl step state) key =
      view ((entries.filter fun entry => entry.1 ≠ gone).foldl step state) key := by
  have own : (entries.filter fun entry => entry.1 ≠ gone).filter (fun entry => entry.1 = key) =
      entries.filter fun entry => entry.1 = key := by
    rw [List.filter_filter]
    apply List.filter_congr
    intro entry _
    by_cases here : entry.1 = key <;> simp [here, other]
  have without := keyed.view_foldl state (entries.filter fun entry => entry.1 ≠ gone) key
  rw [without, own]
  exact keyed.view_foldl state entries key

/-- A loop comes to the entry of a key if everything before it is quiet. -/
theorem reached_of_key {quiet : κ × ν → Bool} {entries : List (κ × ν)}
    (distinct : (entries.map Prod.fst).Nodup) (key : κ) :
    (reached quiet entries).filter (fun entry => entry.1 = key) =
      if (entries.takeWhile fun entry => entry.1 ≠ key).all quiet then
        (Dict.findEntry key entries).toList.map (key, ·)
      else [] := by
  induction entries with
  | nil => rfl
  | cons entry rest ih =>
      rw [List.map_cons, List.nodup_cons] at distinct
      have later := ih distinct.2
      by_cases here : entry.1 = key
      · have gone : Dict.findEntry key rest = none := Dict.findEntry_eq_none (here ▸ distinct.1)
        rw [gone] at later
        have nothing : (reached quiet rest).filter (fun entry => entry.1 = key) = [] := by
          rw [later]
          split <;> rfl
        subst here
        by_cases calm : quiet entry = true <;> simp [reached, Dict.findEntry, calm, nothing]
      · rw [List.takeWhile_cons_of_pos (by simpa using here)]
        by_cases calm : quiet entry = true
        · simp only [reached, calm, if_true, List.all_cons, Bool.true_and, Dict.findEntry, here,
            if_false]
          rw [List.filter_cons_of_neg (by simpa using here)]
          exact later
        · simp [reached, here, calm]

theorem Dict.putEntry_filter (keep : κ → Bool) (key : κ) (value : ν) (entries : List (κ × ν)) :
    (Dict.putEntry key value entries).filter (fun entry => keep entry.1) =
      if keep key then Dict.putEntry key value (entries.filter fun entry => keep entry.1)
      else entries.filter fun entry => keep entry.1 := by
  induction entries with
  | nil => by_cases kept : keep key = true <;> simp [Dict.putEntry, kept]
  | cons entry rest ih =>
      by_cases same : entry.1 = key
      · subst same
        by_cases kept : keep entry.1 = true <;> simp [Dict.putEntry, kept]
      · rw [Dict.putEntry, if_neg same, List.filter_cons, List.filter_cons, ih]
        by_cases kept : keep entry.1 = true <;> by_cases kept' : keep key = true <;>
          simp [Dict.putEntry, kept, kept', same]

theorem Dict.ofMembers_filter (keep : κ → Bool) (members : List (κ × ν)) :
    (Dict.ofMembers (members.filter fun member => keep member.1)).entries =
      (Dict.ofMembers members).entries.filter fun entry => keep entry.1 := by
  have written (start start' : Dict κ ν)
      (same : start'.entries = start.entries.filter fun entry => keep entry.1) :
      ((members.filter fun member => keep member.1).foldl
        (fun dict member => dict.set member.1 member.2) start').entries =
        (members.foldl (fun dict member => dict.set member.1 member.2) start).entries.filter
          fun entry => keep entry.1 := by
    induction members generalizing start start' with
    | nil => exact same
    | cons member rest ih =>
        have put := Dict.putEntry_filter keep member.1 member.2 start.entries
        rw [← same] at put
        by_cases kept : keep member.1 = true
        · rw [if_pos kept] at put
          simpa [kept] using ih _ _ put.symm
        · rw [if_neg kept] at put
          simpa [kept] using ih _ _ put.symm
  exact written .empty .empty rfl

end RaceTracker.Lib
