import Mathlib.Data.List.Basic

namespace RaceTracker.Lib

/-! Rolling buffers: a log of which only the newest `cap` entries are kept. -/

variable {α β : Type}

def keepLast (cap : Nat) (log : List α) : List α := log.drop (log.length - cap)

/-- Append to a rolling buffer.  Nothing new leaves the buffer as it is, untrimmed. -/
def push (cap : Nat) (buffer new : List α) : List α :=
  if new = [] then buffer else keepLast cap (buffer ++ new)

theorem keepLast_of_short {cap : Nat} {log : List α} (short : log.length ≤ cap) :
    keepLast cap log = log := by
  simp [keepLast, Nat.sub_eq_zero_of_le short]

theorem length_keepLast (cap : Nat) (log : List α) :
    (keepLast cap log).length = min cap log.length := by
  simp only [keepLast, List.length_drop]
  omega

theorem getLast?_keepLast {cap : Nat} (room : 0 < cap) (log : List α) :
    (keepLast cap log).getLast? = log.getLast? := by
  rw [keepLast, List.getLast?_drop]
  by_cases empty : log = []
  · simp [empty]
  · have some := List.length_pos_iff.mpr empty
    rw [if_neg (by omega)]

theorem map_keepLast (f : α → β) (cap : Nat) (log : List α) :
    (keepLast cap log).map f = keepLast cap (log.map f) := by
  simp [keepLast, List.map_drop]

/-- What the newest `cap` entries have lost, a longer log would have lost too. -/
theorem keepLast_append_keepLast (cap : Nat) (older newer : List α) :
    keepLast cap (keepLast cap older ++ newer) = keepLast cap (older ++ newer) := by
  have within : older.length - cap ≤ (older ++ newer).length - cap := by
    simp only [List.length_append]
    omega
  have cut : keepLast cap older ++ newer = (older ++ newer).drop (older.length - cap) := by
    rw [keepLast, List.drop_append_of_le_length (by omega)]
  have count : older.length - cap +
      (((older ++ newer).drop (older.length - cap)).length - cap) =
        (older ++ newer).length - cap := by
    simp only [List.length_drop, List.length_append] at within ⊢
    omega
  rw [cut, keepLast, List.drop_drop, count, keepLast]

theorem push_keepLast (cap : Nat) (log new : List α) :
    push cap (keepLast cap log) new = keepLast cap (log ++ new) := by
  rw [push]
  by_cases empty : new = []
  · simp [empty]
  · simp [empty, keepLast_append_keepLast]

theorem keepLast_append_of_full {cap : Nat} {newer : List α} (full : cap ≤ newer.length)
    (older : List α) : keepLast cap (older ++ newer) = keepLast cap newer := by
  have skipped : (older ++ newer).length - cap = older.length + (newer.length - cap) := by
    simp only [List.length_append]
    omega
  rw [keepLast, skipped, ← List.drop_drop, List.drop_left, keepLast]

theorem map_push (f : α → β) (cap : Nat) (buffer new : List α) :
    (push cap buffer new).map f = push cap (buffer.map f) (new.map f) := by
  unfold push
  by_cases empty : new = []
  · simp [empty]
  · simp [empty, map_keepLast]

theorem push_push (cap : Nat) (buffer first second : List α) :
    push cap (push cap buffer first) second = push cap buffer (first ++ second) := by
  unfold push
  by_cases noFirst : first = []
  · simp [noFirst]
  by_cases noSecond : second = []
  · simp [noFirst, noSecond]
  · simp [noFirst, noSecond, keepLast_append_keepLast]

theorem push_eq_nil_iff {cap : Nat} (room : 0 < cap) {buffer new : List α} :
    push cap buffer new = [] ↔ buffer = [] ∧ new = [] := by
  rw [push]
  by_cases empty : new = []
  · simp [empty]
  · simp only [empty, if_false, and_false, iff_false]
    intro nothing
    have kept := length_keepLast cap (buffer ++ new)
    have some := List.length_pos_iff.mpr empty
    rw [nothing, List.length_append, List.length_nil] at kept
    omega

/-- Old entries stop showing exactly when there were none or the new ones fill the buffer. -/
theorem push_eq_push_nil_iff {cap : Nat} (room : 0 < cap) {buffer new : List α} :
    push cap buffer new = push cap [] new ↔ buffer = [] ∨ cap ≤ new.length := by
  unfold push
  by_cases empty : new = []
  · subst empty
    have unfilled : ¬ cap ≤ ([] : List α).length := by
      rw [List.length_nil]
      omega
    simp only [if_true, unfilled, or_false]
  · simp only [empty, if_false, List.nil_append]
    constructor
    · intro same
      have lengths := congrArg List.length same
      simp only [length_keepLast, List.length_append] at lengths
      by_cases full : cap ≤ new.length
      · exact Or.inr full
      · exact Or.inl (List.length_eq_zero_iff.mp (by omega))
    · intro either
      rcases either with rfl | full
      · rfl
      · exact keepLast_append_of_full full buffer

end RaceTracker.Lib
