import Mathlib.Data.List.Induction

namespace RaceTracker.Lib

/-! Systems that take one enabled action after another.

`step` is partial: `none` says the action cannot happen in that state.  A schedule
is any list of actions, so a statement about every schedule is one about every
interleaving of the parties the actions belong to.
-/

variable {σ α : Type}

def run (step : σ → α → Option σ) (state : σ) (actions : List α) : Option σ :=
  actions.foldlM step state

def Reachable (step : σ → α → Option σ) (initial state : σ) : Prop :=
  ∃ actions, run step initial actions = some state

variable {step : σ → α → Option σ} {initial state after : σ}

@[simp] theorem run_nil : run step state [] = some state := rfl

theorem run_cons (action : α) (rest : List α) :
    run step state (action :: rest) = (step state action).bind fun next => run step next rest := rfl

theorem run_append (first second : List α) :
    run step state (first ++ second) = (run step state first).bind fun next => run step next second := by
  induction first generalizing state with
  | nil => rfl
  | cons action rest ih =>
      rw [List.cons_append, run_cons, run_cons]
      cases step state action with
      | none => rfl
      | some next => exact ih

theorem run_concat_eq_some_iff {actions : List α} {action : α} :
    run step state (actions ++ [action]) = some after ↔
      ∃ before, run step state actions = some before ∧ step before action = some after := by
  rw [run_append, Option.bind_eq_some_iff]
  simp only [run_cons, run_nil, Option.bind_fun_some]

/-- An invariant that the allowed actions keep holds after every schedule of such actions. -/
theorem run_invariant_of (holds : σ → Prop) (allowed : α → Prop)
    (preserved : ∀ state action after, allowed action → holds state → step state action = some after →
      holds after)
    (starts : holds state) {actions : List α} (all : ∀ action ∈ actions, allowed action)
    (ran : run step state actions = some after) : holds after := by
  induction actions generalizing state with
  | nil =>
      cases ran
      exact starts
  | cons action rest ih =>
      obtain ⟨first, later⟩ := List.forall_mem_cons.mp all
      rw [run_cons, Option.bind_eq_some_iff] at ran
      obtain ⟨next, stepped, ran⟩ := ran
      exact ih (preserved _ _ _ first starts stepped) later ran

/-- An invariant every action keeps holds after every schedule. -/
theorem run_invariant (holds : σ → Prop)
    (preserved : ∀ state action after, holds state → step state action = some after → holds after)
    (starts : holds state) {actions : List α} (ran : run step state actions = some after) :
    holds after :=
  run_invariant_of holds (fun _ => True) (fun state action after _ => preserved state action after) starts
    (fun _ _ => trivial) ran

theorem stepped_of_run {actions before later : List α} {action : α} {middle : σ}
    (ran : run step initial actions = some after) (parts : actions = before ++ action :: later)
    (reached : run step initial before = some middle) : ∃ next, step middle action = some next := by
  rw [parts, run_append, reached, Option.bind_some, run_cons, Option.bind_eq_some_iff] at ran
  obtain ⟨next, stepped, -⟩ := ran
  exact ⟨next, stepped⟩

/-- An invariant that each step of one schedule keeps holds in all its states. -/
theorem run_invariant_upto (holds : σ → Prop) {actions : List α} (starts : holds initial)
    (preserved : ∀ before action later state next, actions = before ++ action :: later →
      run step initial before = some state → holds state → step state action = some next → holds next) :
    ∀ before later state, actions = before ++ later → run step initial before = some state →
      holds state := by
  intro before
  induction before using List.reverseRecOn with
  | nil =>
      intro later state _ reached
      cases reached
      exact starts
  | append_singleton before action ih =>
      intro later state parts reached
      obtain ⟨old, begun, stepped⟩ := run_concat_eq_some_iff.mp reached
      have whole : actions = before ++ action :: later := by simp [parts]
      exact preserved before action later old state whole begun (ih _ old whole begun) stepped

theorem Reachable.refl : Reachable step initial initial := ⟨[], rfl⟩

theorem Reachable.invariant (reachable : Reachable step initial state) (holds : σ → Prop)
    (starts : holds initial)
    (preserved : ∀ state action after, holds state → step state action = some after → holds after) :
    holds state :=
  let ⟨_, ran⟩ := reachable
  run_invariant holds preserved starts ran

theorem Reachable.next {action : α} (reachable : Reachable step initial state)
    (stepped : step state action = some after) : Reachable step initial after := by
  obtain ⟨actions, ran⟩ := reachable
  exact ⟨actions ++ [action], run_concat_eq_some_iff.mpr ⟨state, ran, stepped⟩⟩

/-- The same system on schedules whose every action is `allowed`. -/
def restrict (allowed : σ → α → Bool) (step : σ → α → Option σ) (state : σ) (action : α) : Option σ :=
  if allowed state action then step state action else none

theorem restrict_eq_some_iff {allowed : σ → α → Bool} {action : α} :
    restrict allowed step state action = some after ↔
      allowed state action = true ∧ step state action = some after := by
  rw [restrict]
  cases allowed state action <;> simp

end RaceTracker.Lib
