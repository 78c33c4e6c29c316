import Mathlib.Data.List.Induction
import Mathlib.Data.List.ReduceOption
import Mathlib.Order.Lattice
import Mathlib.Order.MinMax

namespace RaceTracker.Lib

/-! A running clamp down a column with blanks: a value is raised to the one right above it, and
below a blank the column starts afresh.
-/

variable {α : Type} [LinearOrder α]

/-- What a value becomes under `floor`, the value of the row above if that has one. -/
def raise (floor : Option α) (value : α) : α :=
  match floor with
  | none => value
  | some floor => max value floor

def clamp (floor : Option α) : List (Option α) → List (Option α)
  | [] => []
  | none :: rest => none :: clamp none rest
  | some value :: rest => some (raise floor value) :: clamp (some (raise floor value)) rest

def lastFloor (floor : Option α) (column : List (Option α)) : Option α :=
  ((clamp floor column).getLast?).getD floor

theorem clamp_append (floor : Option α) (above below : List (Option α)) :
    clamp floor (above ++ below) =
      clamp floor above ++ clamp (lastFloor floor above) below := by
  induction above generalizing floor with
  | nil => rfl
  | cons cell rest ih =>
      cases cell with
      | none => simp [clamp, ih, lastFloor, List.getLast?_cons]
      | some value => simp [clamp, ih, lastFloor, List.getLast?_cons]

@[simp] theorem lastFloor_nil (floor : Option α) : lastFloor floor [] = floor := rfl

@[simp] theorem lastFloor_concat_none (floor : Option α) (above : List (Option α)) :
    lastFloor floor (above ++ [none]) = none := by
  simp [lastFloor, clamp_append, clamp]

@[simp] theorem lastFloor_concat_some (floor : Option α) (above : List (Option α)) (value : α) :
    lastFloor floor (above ++ [some value]) = some (raise (lastFloor floor above) value) := by
  simp [lastFloor, clamp_append, clamp]

theorem le_raise (floor : Option α) (value : α) : value ≤ raise floor value := by
  cases floor with
  | none => exact le_refl value
  | some floor => exact le_max_left value floor

theorem raise_some_le {floor value : α} : floor ≤ raise (some floor) value := le_max_right value floor

theorem exists_clamped (floor : Option α) {column : List (Option α)} {value : α}
    (member : some value ∈ column) : ∃ shown, some shown ∈ clamp floor column ∧ value ≤ shown := by
  induction column generalizing floor with
  | nil => cases member
  | cons cell rest ih =>
      rcases List.mem_cons.mp member with rfl | later
      · exact ⟨raise floor value, List.mem_cons_self .., le_raise floor value⟩
      · cases cell with
        | none =>
            obtain ⟨shown, listed, raised⟩ := ih none later
            exact ⟨shown, List.mem_cons_of_mem _ listed, raised⟩
        | some first =>
            obtain ⟨shown, listed, raised⟩ := ih (some (raise floor first)) later
            exact ⟨shown, List.mem_cons_of_mem _ listed, raised⟩

/-- What is shown was read somewhere in the column, or is the floor that its first value met. -/
theorem read_of_clamped {floor : Option α} {column : List (Option α)} {shown : α}
    (member : some shown ∈ clamp floor column) :
    some shown ∈ column ∨ floor = some shown ∧ ∃ first, column.head? = some (some first) := by
  induction column generalizing floor with
  | nil => cases member
  | cons cell rest ih =>
      cases cell with
      | none =>
          rcases List.mem_cons.mp member with same | later
          · cases same
          · rcases ih later with listed | absent
            · exact Or.inl (List.mem_cons_of_mem _ listed)
            · cases absent.1
      | some value =>
          have top (same : shown = raise floor value) :
              some shown ∈ some value :: rest ∨
                floor = some shown ∧ ∃ first, (some value :: rest).head? = some (some first) := by
            cases floor with
            | none => exact Or.inl (by rw [same]; exact List.mem_cons_self ..)
            | some floor =>
                rcases max_choice value floor with own | above
                · exact Or.inl (by rw [same, raise, own]; exact List.mem_cons_self ..)
                · exact Or.inr ⟨by rw [same, raise, above], value, rfl⟩
          rcases List.mem_cons.mp member with same | later
          · exact top (Option.some.inj same)
          · rcases ih later with listed | raised
            · exact Or.inl (List.mem_cons_of_mem _ listed)
            · exact top (Option.some.inj raised.1).symm

theorem floor_le_clamped (floor : α) {first : α} {column : List (Option α)}
    (top : column.head? = some (some first)) :
    ∃ shown, some shown ∈ clamp (some floor) column ∧ floor ≤ shown := by
  obtain ⟨rest, rfl⟩ := List.head?_eq_some_iff.mp top
  exact ⟨raise (some floor) first, List.mem_cons_self .., raise_some_le⟩

/-- A value below the column is raised above all of it, if right below a blank it need not be raised. -/
theorem le_raise_lastFloor {floor : Option α} {column : List (Option α)} {shown value : α}
    (rises : (clamp floor column).reduceOption.Pairwise (· ≤ ·)) (listed : some shown ∈ clamp floor column)
    (resumes : ∀ above, column = above ++ [none] →
      (∀ higher, some higher ∈ above → higher ≤ value) ∧
        ∀ least first, floor = some least → above.head? = some (some first) → least ≤ value) :
    shown ≤ raise (lastFloor floor column) value := by
  rcases List.eq_nil_or_concat' column with rfl | ⟨above, cell, rfl⟩
  · cases listed
  · rw [clamp_append, List.mem_append] at listed
    cases cell with
    | none =>
        rw [lastFloor_concat_none]
        obtain ⟨below_read, below_floor⟩ := resumes above rfl
        rcases listed with read | blank
        · rcases read_of_clamped read with read | ⟨base, first, top⟩
          · exact below_read shown read
          · exact below_floor shown first base top
        · simp [clamp] at blank
    | some read =>
        rw [lastFloor_concat_some]
        apply le_trans _ raise_some_le
        rw [clamp_append, List.reduceOption_append, List.pairwise_append] at rises
        rw [clamp] at listed
        rcases listed with before | own
        · exact rises.2.2 shown (List.reduceOption_mem_iff.mpr before) _ (by simp [clamp])
        · rw [Option.some.inj (List.mem_singleton.mp own)]

/-- The clamped column rises exactly when no value right below a blank is under a value further up,
or under the floor where the first value met it. -/
theorem clamp_rises_iff {floor : Option α} {column : List (Option α)} :
    (clamp floor column).reduceOption.Pairwise (· ≤ ·) ↔
      ∀ above value below, column = above ++ none :: some value :: below →
        (∀ higher, some higher ∈ above → higher ≤ value) ∧
          ∀ least first, floor = some least → above.head? = some (some first) → least ≤ value := by
  constructor
  · intro rises above value below split
    subst split
    rw [clamp_append, List.reduceOption_append, List.pairwise_append] at rises
    have shown_above {shown : α} (listed : some shown ∈ clamp floor above) : shown ≤ value :=
      rises.2.2 shown (List.reduceOption_mem_iff.mpr listed) value
        (List.reduceOption_mem_iff.mpr (by simp [clamp, raise]))
    constructor
    · intro higher member
      obtain ⟨shown, listed, raised⟩ := exists_clamped floor member
      exact le_trans raised (shown_above listed)
    · intro least first base top
      subst base
      obtain ⟨shown, listed, raised⟩ := floor_le_clamped least top
      exact le_trans raised (shown_above listed)
  · induction column using List.reverseRecOn with
    | nil => exact fun _ => List.Pairwise.nil
    | append_singleton column cell ih =>
        intro kept
        have earlier := ih fun above value below split =>
          kept above value (below ++ [cell]) (by rw [split]; simp)
        rw [clamp_append, List.reduceOption_append, List.pairwise_append]
        cases cell with
        | none => exact ⟨earlier, by simp [clamp], by simp [clamp]⟩
        | some value =>
            refine ⟨earlier, by simp [clamp], fun shown listed last same => ?_⟩
            have last_eq : last = raise (lastFloor floor column) value := by simpa [clamp] using same
            rw [last_eq]
            apply le_raise_lastFloor earlier (List.reduceOption_mem_iff.mp listed)
            intro above split
            exact kept above value [] (by rw [split]; simp)

end RaceTracker.Lib
