import Mathlib.Data.List.Chain
import Mathlib.Data.List.Destutter
import Mathlib.Data.List.Induction
import RaceTracker.Lib.Rolling

namespace RaceTracker.Lib

/-! Logs that record a value only when it differs from the one recorded last. -/

variable {α : Type} [DecidableEq α]

def appendNew (log : List α) (value : α) : List α :=
  if log.getLast? = some value then log else log ++ [value]

def collapse (values : List α) : List α := values.foldl appendNew []

theorem collapse_concat (values : List α) (value : α) :
    collapse (values ++ [value]) = appendNew (collapse values) value := by
  simp [collapse]

theorem getLast?_appendNew (log : List α) (value : α) : (appendNew log value).getLast? = some value := by
  rw [appendNew]
  split
  · assumption
  · simp

theorem getLast?_collapse (values : List α) : (collapse values).getLast? = values.getLast? := by
  induction values using List.reverseRecOn with
  | nil => rfl
  | append_singleton values value ih => rw [collapse_concat, getLast?_appendNew, List.getLast?_concat]

theorem collapse_apart (values : List α) : (collapse values).IsChain (· ≠ ·) := by
  induction values using List.reverseRecOn with
  | nil => exact List.isChain_nil
  | append_singleton values value ih =>
      rw [collapse_concat, appendNew]
      split
      · exact ih
      · rename_i differs
        rw [List.isChain_append]
        refine ⟨ih, List.isChain_singleton value, ?_⟩
        intro last recorded next same
        rw [List.head?_singleton, Option.mem_some_iff] at same
        subst same
        exact fun equal => differs (equal ▸ recorded)

/-- Values without equal neighbours stand at the end of the log as they came. -/
theorem suffix_collapse (older : List α) {newer : List α} (apart : newer.IsChain (· ≠ ·)) :
    newer <:+ collapse (older ++ newer) := by
  induction newer using List.reverseRecOn with
  | nil => exact List.nil_suffix
  | append_singleton newer value ih =>
      rw [List.isChain_append] at apart
      obtain ⟨front, log⟩ := ih apart.1
      rw [← List.append_assoc, collapse_concat, appendNew]
      split
      · rename_i recorded
        cases last : newer.getLast? with
        | none =>
            rw [List.getLast?_eq_none_iff.mp last] at recorded ⊢
            obtain ⟨front, whole⟩ := List.getLast?_eq_some_iff.mp recorded
            exact ⟨front, whole.symm⟩
        | some previous =>
            rw [getLast?_collapse, List.getLast?_append, last, Option.some_or, Option.some.injEq] at recorded
            exact absurd recorded (apart.2.2 previous last value rfl)
      · exact ⟨front, by rw [← List.append_assoc, log]⟩

theorem length_collapse_le (values : List α) : (collapse values).length ≤ values.length := by
  induction values using List.reverseRecOn with
  | nil => exact le_refl 0
  | append_singleton values value ih =>
      rw [collapse_concat, appendNew, List.length_append]
      split
      · omega
      · simpa using ih

/-- The newest entries are the newest values exactly when no two neighbours among those are equal. -/
theorem keepLast_collapse_iff (cap : Nat) (values : List α) :
    keepLast cap (collapse values) = keepLast cap values ↔ (keepLast cap values).IsChain (· ≠ ·) := by
  constructor
  · intro same
    rw [← same]
    exact (collapse_apart values).drop _
  · intro apart
    have parts : values.take (values.length - cap) ++ keepLast cap values = values :=
      List.take_append_drop _ values
    obtain ⟨front, log⟩ := suffix_collapse (values.take (values.length - cap)) apart
    rw [parts] at log
    have kept := length_keepLast cap values
    by_cases full : cap ≤ values.length
    · rw [← log, keepLast_append_of_full (by omega), keepLast_of_short (by omega)]
    · have lengths := length_collapse_le values
      rw [← log, List.length_append] at lengths
      have nothing : front = [] := List.length_eq_zero_iff.mp (by omega)
      rw [← log, nothing, List.nil_append, keepLast_of_short (by omega)]

theorem collapse_append_replicate (values : List α) (value : α) (count : Nat) :
    collapse (values ++ List.replicate (count + 1) value) = appendNew (collapse values) value := by
  induction count with
  | zero => rw [Nat.zero_add, List.replicate_one, collapse_concat]
  | succ count ih =>
      rw [List.replicate_succ', ← List.append_assoc, collapse_concat, ih, appendNew,
        if_pos (getLast?_appendNew _ value)]

end RaceTracker.Lib
