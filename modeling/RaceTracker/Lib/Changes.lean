import Mathlib.Data.List.Basic

namespace RaceTracker.Lib

/-! A stream of readings sent as its changes, and what a listener knows. -/

variable {α : Type}

/-- What a listener knows who had `held` and then heard these. -/
def latest (held : Option α) (sent : List (Option α)) : Option α :=
  sent.foldl (fun held value => value.or held) held

@[simp] theorem latest_nil (held : Option α) : latest held [] = held := rfl

@[simp] theorem latest_cons (held value : Option α) (rest : List (Option α)) :
    latest held (value :: rest) = latest (value.or held) rest := rfl

theorem latest_append (held : Option α) (first second : List (Option α)) :
    latest held (first ++ second) = latest (latest held first) second := List.foldl_append

/-- Whoever has heard one reading knows no less than whoever was there before. -/
theorem latest_of_head {value : α} {sent : List (Option α)} (opens : sent.head? = some (some value))
    (held : Option α) : latest held sent = latest none sent := by
  cases sent with
  | nil => cases opens
  | cons first rest =>
      cases opens
      rfl

theorem latest_eq_getLast? (held : Option α) (sent : List (Option α)) :
    latest held sent = (sent.filterMap id).getLast?.or held := by
  induction sent generalizing held with
  | nil => rfl
  | cons value rest ih =>
      rw [latest_cons, ih]
      cases value with
      | none => rfl
      | some value =>
          change _ = (value :: rest.filterMap id).getLast?.or held
          rw [List.getLast?_cons]
          cases (rest.filterMap id).getLast? <;> rfl

theorem latest_silent {sent : List (Option α)} (silent : ∀ value ∈ sent, value = none) (held : Option α) :
    latest held sent = held := by
  induction sent with
  | nil => rfl
  | cons value rest ih =>
      obtain ⟨rfl, later⟩ := List.forall_mem_cons.mp silent
      exact ih later

variable [DecidableEq α]

/-- Of each reading what is sent: the reading itself, unless it is the last one that was. -/
def changes (last : Option α) : List (Option α) → List (Option α)
  | [] => []
  | value :: rest =>
      if value.isSome ∧ value ≠ last then value :: changes value rest else none :: changes last rest

@[simp] theorem length_changes (last : Option α) (values : List (Option α)) :
    (changes last values).length = values.length := by
  induction values generalizing last with
  | nil => rfl
  | cons value rest ih =>
      rw [changes]
      split <;> rw [List.length_cons, List.length_cons, ih]

theorem changes_take (last : Option α) (values : List (Option α)) (count : Nat) :
    (changes last values).take count = changes last (values.take count) := by
  induction values generalizing last count with
  | nil => simp [changes]
  | cons value rest ih =>
      cases count with
      | zero => rfl
      | succ count =>
          rw [List.take_succ_cons, changes, changes]
          split <;> rw [List.take_succ_cons, ih]

/-- The changes tell as much as the readings. -/
theorem latest_changes (last : Option α) (values : List (Option α)) :
    latest last (changes last values) = latest last values := by
  induction values generalizing last with
  | nil => rfl
  | cons value rest ih =>
      rw [changes]
      split
      · rename_i sent
        obtain ⟨reading, rfl⟩ := Option.isSome_iff_exists.mp sent.1
        exact ih (some reading)
      · rename_i silent
        rw [latest_cons, latest_cons, Option.none_or, ih]
        cases value with
        | none => rfl
        | some reading =>
            have same : some reading = last := by
              by_contra different
              exact silent ⟨rfl, different⟩
            rw [← same]
            rfl

theorem changes_silent {values : List (Option α)} (silent : ∀ value ∈ values, value = none) (last : Option α) :
    changes last values = values := by
  induction values with
  | nil => rfl
  | cons value rest ih =>
      obtain ⟨rfl, later⟩ := List.forall_mem_cons.mp silent
      rw [changes, if_neg (by simp), ih later]

/-- Where every reading is known, its changes tell it to whoever hears them from the first one on. -/
theorem latest_take_changes {values : List (Option α)} (known : ∀ value ∈ values, value ≠ none)
    {index : Nat} {value : Option α} (found : values[index]? = some value) (held : Option α) :
    latest held ((changes none values).take (index + 1)) = value := by
  obtain ⟨reading, rfl⟩ := Option.ne_none_iff_exists'.mp (known value (List.mem_of_getElem? found))
  have opens : ∃ first, ((changes none values).take (index + 1)).head? = some (some first) := by
    cases values with
    | nil => cases found
    | cons first rest =>
        obtain ⟨first, rfl⟩ := Option.ne_none_iff_exists'.mp (known first (List.mem_cons_self ..))
        exact ⟨first, by rw [changes, if_pos (by simp)]; rfl⟩
  obtain ⟨first, opens⟩ := opens
  rw [latest_of_head opens, changes_take, latest_changes, List.take_add_one, found, latest_append]
  rfl

end RaceTracker.Lib
