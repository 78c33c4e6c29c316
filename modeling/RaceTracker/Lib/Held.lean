import Mathlib.Order.MinMax
import Mathlib.Data.List.Chain

namespace RaceTracker.Lib

/-! Readings one after another: the flagged ones hold the last that was not, and a running maximum
takes back every fall.
-/

section

variable {α β : Type}

/-- A flagged reading is held back once there is one to hold. -/
def holdFrom (held : Option α) : List (α × Bool) → List α
  | [] => []
  | (value, flagged) :: rest =>
      match flagged, held with
      | true, some held => held :: holdFrom (some held) rest
      | _, _ => value :: holdFrom (some value) rest

/-- The readings that are taken as they are: the first, and whatever is not flagged. -/
def kept : List (α × Bool) → List α
  | [] => []
  | first :: rest => first.1 :: (rest.filter fun reading => !reading.2).map Prod.fst

theorem holdFrom_cons (held : Option α) (value : α) (flagged : Bool) (rest : List (α × Bool)) :
    holdFrom held ((value, flagged) :: rest) =
      (if flagged then held.getD value else value) ::
        holdFrom (some (if flagged then held.getD value else value)) rest := by
  cases flagged <;> cases held <;> rfl

@[simp] theorem length_holdFrom (held : Option α) (readings : List (α × Bool)) :
    (holdFrom held readings).length = readings.length := by
  induction readings generalizing held with
  | nil => rfl
  | cons reading rest ih =>
      obtain ⟨value, flagged⟩ := reading
      rw [holdFrom_cons, List.length_cons, List.length_cons, ih]

theorem holdFrom_map (f : α → β) (held : Option α) (readings : List (α × Bool)) :
    holdFrom (held.map f) (readings.map fun reading => (f reading.1, reading.2)) =
      (holdFrom held readings).map f := by
  induction readings generalizing held with
  | nil => rfl
  | cons reading rest ih =>
      obtain ⟨value, flagged⟩ := reading
      cases flagged <;> cases held <;> simp only [List.map_cons, holdFrom, Option.map_some, Option.map_none]
        <;> exact congrArg _ (ih (some _))

/-- A flagged reading after the first repeats the one before it. -/
theorem holdFrom_flagged {held : Option α} {readings : List (α × Bool)} {index : Nat} {reading : α × Bool}
    (found : readings[index + 1]? = some reading) (flagged : reading.2 = true) :
    (holdFrom held readings)[index + 1]? = (holdFrom held readings)[index]? := by
  induction readings generalizing held index with
  | nil => cases found
  | cons first rest ih =>
      obtain ⟨value, shut⟩ := first
      rw [holdFrom_cons]
      cases index with
      | zero =>
          cases rest with
          | nil => cases found
          | cons second later =>
              obtain ⟨value', shut'⟩ := second
              cases found
              cases flagged
              rw [holdFrom_cons]
              rfl
      | succ index => exact ih found

theorem holdFrom_unflagged {held : Option α} {readings : List (α × Bool)} {index : Nat}
    {reading : α × Bool} (found : readings[index]? = some reading) (clear : reading.2 = false) :
    (holdFrom held readings)[index]? = some reading.1 := by
  induction readings generalizing held index with
  | nil => cases found
  | cons first rest ih =>
      obtain ⟨value, shut⟩ := first
      rw [holdFrom_cons]
      cases index with
      | zero =>
          cases found
          cases clear
          rfl
      | succ index => exact ih found

/-- What holds from each kept reading to the next holds from each held one to the next. -/
theorem holdFrom_chain {R : α → α → Prop} (refl : ∀ value, R value value) {value : α}
    {readings : List (α × Bool)}
    (near : (value :: (readings.filter fun reading => !reading.2).map Prod.fst).IsChain R) :
    (value :: holdFrom (some value) readings).IsChain R := by
  induction readings generalizing value with
  | nil => exact List.isChain_singleton _
  | cons reading rest ih =>
      obtain ⟨next, flagged⟩ := reading
      cases flagged with
      | true => exact List.isChain_cons_cons.mpr ⟨refl value, ih near⟩
      | false =>
          obtain ⟨step, later⟩ := List.isChain_cons_cons.mp near
          exact List.isChain_cons_cons.mpr ⟨step, ih later⟩

theorem held_chain {R : α → α → Prop} (refl : ∀ value, R value value) {readings : List (α × Bool)}
    (near : (kept readings).IsChain R) : (holdFrom none readings).IsChain R := by
  cases readings with
  | nil => exact List.isChain_nil
  | cons first rest =>
      obtain ⟨value, flagged⟩ := first
      cases flagged <;> exact holdFrom_chain refl near

theorem head?_held (readings : List (α × Bool)) : (holdFrom none readings).head? = (kept readings).head? := by
  cases readings with
  | nil => rfl
  | cons first rest =>
      obtain ⟨value, flagged⟩ := first
      cases flagged <;> rfl

end

section

variable {α : Type} [LinearOrder α]

/-- The largest value so far. -/
def runningMaxFrom (top : α) : List α → List α
  | [] => []
  | value :: rest => max top value :: runningMaxFrom (max top value) rest

def runningMax : List α → List α
  | [] => []
  | value :: rest => value :: runningMaxFrom value rest

@[simp] theorem length_runningMaxFrom (top : α) (values : List α) :
    (runningMaxFrom top values).length = values.length := by
  induction values generalizing top with
  | nil => rfl
  | cons value rest ih => rw [runningMaxFrom, List.length_cons, List.length_cons, ih]

@[simp] theorem length_runningMax (values : List α) : (runningMax values).length = values.length := by
  cases values with
  | nil => rfl
  | cons value rest => rw [runningMax, List.length_cons, List.length_cons, length_runningMaxFrom]

theorem runningMaxFrom_chain (top : α) (values : List α) :
    (top :: runningMaxFrom top values).IsChain (· ≤ ·) := by
  induction values generalizing top with
  | nil => exact List.isChain_singleton _
  | cons value rest ih => exact List.isChain_cons_cons.mpr ⟨le_max_left .., ih _⟩

theorem runningMax_sorted (values : List α) : (runningMax values).Pairwise (· ≤ ·) := by
  cases values with
  | nil => exact List.Pairwise.nil
  | cons value rest => exact (runningMaxFrom_chain value rest).pairwise

/-- Values that never fall are their own running maximum. -/
theorem runningMax_eq {values : List α} (rising : values.IsChain (· ≤ ·)) : runningMax values = values := by
  cases values with
  | nil => rfl
  | cons value rest =>
      rw [runningMax]
      induction rest generalizing value with
      | nil => rfl
      | cons next later ih =>
          obtain ⟨step, onward⟩ := List.isChain_cons_cons.mp rising
          rw [runningMaxFrom, max_eq_right step, List.cons_inj_right]
          exact ih next onward

/-- A value that repeats the one before it leaves the maximum where it was. -/
theorem runningMaxFrom_repeat {top : α} {values : List α} {index : Nat}
    (again : values[index + 1]? = values[index]?) :
    (runningMaxFrom top values)[index + 1]? = (runningMaxFrom top values)[index]? := by
  induction values generalizing top index with
  | nil => rfl
  | cons value rest ih =>
      cases index with
      | succ index => exact ih again
      | zero =>
          cases rest with
          | nil => cases again
          | cons next later =>
              cases again
              simp [runningMaxFrom]

theorem runningMax_repeat {values : List α} {index : Nat} (again : values[index + 1]? = values[index]?) :
    (runningMax values)[index + 1]? = (runningMax values)[index]? := by
  cases values with
  | nil => rfl
  | cons value rest =>
      cases index with
      | succ index => exact runningMaxFrom_repeat again
      | zero =>
          cases rest with
          | nil => cases again
          | cons next later =>
              cases again
              simp [runningMax, runningMaxFrom]

end

end RaceTracker.Lib
