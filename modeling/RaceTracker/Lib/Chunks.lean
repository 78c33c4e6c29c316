import Mathlib.Data.List.Basic

namespace RaceTracker.Lib

/-! A list worked off in chunks of bounded size. -/

variable {α β : Type} {m : Type → Type} [Monad m]

def chunks (size : Nat) (list : List α) : List (List α) :=
  if size = 0 ∨ list = [] then [] else list.take size :: chunks size (list.drop size)
termination_by list.length
decreasing_by
  rename_i proper
  push Not at proper
  have := List.length_pos_iff.mpr proper.2
  rw [List.length_drop]
  omega

theorem flatten_chunks {size : Nat} (positive : 0 < size) (list : List α) : (chunks size list).flatten = list := by
  fun_induction chunks size list with
  | case1 list ended => exact (ended.resolve_left (Nat.pos_iff_ne_zero.mp positive)).symm
  | case2 list proper ih => rw [List.flatten_cons, ih, List.take_append_drop]

/-- Chunk by chunk, each from left to right, is from left to right. -/
theorem mapM_chunks [LawfulMonad m] (f : α → m β) {size : Nat} (positive : 0 < size) (list : List α) :
    List.flatten <$> (chunks size list).mapM (·.mapM f) = list.mapM f := by
  have flat (parts : List (List α)) : List.flatten <$> parts.mapM (·.mapM f) = parts.flatten.mapM f := by
    induction parts with
    | nil => simp
    | cons part rest ih => simp [List.mapM_append, ← ih]
  rw [flat, flatten_chunks positive]

end RaceTracker.Lib
