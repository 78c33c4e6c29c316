import Mathlib.Data.List.Chain
import Mathlib.Data.List.Forall2

namespace RaceTracker.Lib

/-! Going round a list again and again. -/

variable {α β γ : Type} {R : α → β → Prop} {S : β → γ → Prop}

/-- The next `count` elements; each goes to the back when it has had its turn. -/
def cycle : List α → Nat → List α
  | _, 0 => []
  | [], _ + 1 => []
  | item :: rest, count + 1 => item :: cycle (rest ++ [item]) count

theorem cycle_length {items : List α} (nonempty : items ≠ []) (count : Nat) :
    (cycle items count).length = count := by
  induction count generalizing items with
  | zero => simp [cycle]
  | succ count ih =>
      cases items with
      | nil => exact absurd rfl nonempty
      | cons item rest => rw [cycle, List.length_cons, ih (by simp)]

theorem cycle_drop (items : List α) {skipped count : Nat} (within : skipped ≤ items.length) :
    (cycle items (skipped + count)).drop skipped =
      cycle (items.drop skipped ++ items.take skipped) count := by
  induction skipped generalizing items with
  | zero => simp
  | succ skipped ih =>
      cases items with
      | nil => cases within
      | cons item rest =>
          rw [List.length_cons, Nat.add_le_add_iff_right] at within
          rw [Nat.add_right_comm, cycle, List.drop_succ_cons, ih _ (by simp; omega),
            List.drop_append_of_le_length within, List.take_append_of_le_length within,
            List.drop_succ_cons, List.take_succ_cons, List.append_assoc, List.singleton_append]

theorem mem_of_mem_cycle {items : List α} {count : Nat} {item : α} (member : item ∈ cycle items count) :
    item ∈ items := by
  induction count generalizing items with
  | zero => simp [cycle] at member
  | succ count ih =>
      cases items with
      | nil => simp [cycle] at member
      | cons first rest =>
          rcases List.mem_cons.mp member with rfl | later
          · exact List.mem_cons_self ..
          · simpa [or_comm] using ih later

theorem forall₂_cycle {xs : List α} {ys : List β} (each : List.Forall₂ R xs ys) (count : Nat) :
    List.Forall₂ R (cycle xs count) (cycle ys count) := by
  induction count generalizing xs ys with
  | zero =>
      rw [cycle, cycle]
      exact List.Forall₂.nil
  | succ count ih =>
      cases each with
      | nil => exact List.Forall₂.nil
      | cons first rest =>
          exact List.Forall₂.cons first (ih (List.rel_append rest (List.Forall₂.cons first List.Forall₂.nil)))

theorem map_cycle (f : α → β) (items : List α) (count : Nat) :
    (cycle items count).map f = cycle (items.map f) count := by
  induction count generalizing items with
  | zero => simp [cycle]
  | succ count ih =>
      cases items with
      | nil => rfl
      | cons item rest => simp [cycle, ih]

theorem cycle_short (items : List α) {count : Nat} (within : count ≤ items.length) :
    cycle items count = items.take count := by
  have next : ∀ front : List α, cycle (items ++ front) count = items.take count := by
    intro front
    induction count generalizing items front with
    | zero => simp [cycle]
    | succ count ih =>
        cases items with
        | nil => cases within
        | cons item rest =>
            rw [List.length_cons, Nat.add_le_add_iff_right] at within
            rw [List.cons_append, cycle, List.append_assoc, ih rest within, List.take_succ_cons]
  simpa using next []

theorem take_cycle (items : List α) (count more : Nat) :
    (cycle items (count + more)).take count = cycle items count := by
  induction count generalizing items with
  | zero => simp [cycle]
  | succ count ih =>
      rw [Nat.add_right_comm]
      cases items with
      | nil => simp [cycle]
      | cons item rest => rw [cycle, cycle, List.take_succ_cons, ih]

/-- Whole rounds, and the first few elements of the next one. -/
theorem cycle_laps (items : List α) (laps : Nat) {count : Nat} (within : count ≤ items.length) :
    cycle items (laps * items.length + count) =
      (List.replicate laps items).flatten ++ items.take count := by
  induction laps with
  | zero => simpa using cycle_short items within
  | succ laps ih =>
      have again :=
        @cycle_drop _ items items.length (laps * items.length + count) (Nat.le_refl _)
      rw [List.drop_length, List.take_length, List.nil_append, ih] at again
      have opens := take_cycle items items.length (laps * items.length + count)
      rw [cycle_short items (Nat.le_refl _), List.take_length] at opens
      have split : (laps + 1) * items.length + count =
          items.length + (laps * items.length + count) := by
        rw [Nat.succ_mul]
        omega
      rw [split, ← List.take_append_drop items.length (cycle _ _), opens, again, List.replicate_succ,
        List.flatten_cons, List.append_assoc]

theorem head?_cycle {items : List α} {count : Nat} {first : α}
    (head : first ∈ (cycle items count).head?) : first ∈ items.head? := by
  cases count with
  | zero => simp [cycle] at head
  | succ count =>
      cases items with
      | nil => simp [cycle] at head
      | cons item rest => exact head

/-- What holds from each element to the next, and from the last to the first, holds all the way. -/
theorem isChain_cycle {S : α → α → Prop} {items : List α}
    (closed : (items ++ items.head?.toList).IsChain S) (count : Nat) :
    (cycle items count).IsChain S := by
  induction count generalizing items with
  | zero => simp [cycle]
  | succ count ih =>
      cases items with
      | nil => simp [cycle]
      | cons item rest =>
          rw [List.head?_cons, Option.toList_some, List.cons_append] at closed
          obtain ⟨opens, later⟩ := List.isChain_cons.mp closed
          have rotated : ((rest ++ [item]) ++ (rest ++ [item]).head?.toList).IsChain S := by
            refine later.append (by cases (rest ++ [item]).head? <;> simp) ?_
            intro last ends first starts
            rw [List.getLast?_append, List.getLast?_singleton, Option.some_or, Option.mem_some_iff]
              at ends
            rw [Option.head?_toList] at starts
            exact ends ▸ opens first starts
          rw [cycle]
          exact (ih rotated).cons fun first head => opens first (head?_cycle head)

theorem forall₂_through {xs : List α} {ys : List β} {zs : List γ} (one : List.Forall₂ R xs ys)
    (two : List.Forall₂ S ys zs) : List.Forall₂ (fun x z => ∃ y, R x y ∧ S y z) xs zs := by
  induction one generalizing zs with
  | nil =>
      cases two
      exact List.Forall₂.nil
  | cons first _ ih =>
      cases two with
      | cons second rest => exact List.Forall₂.cons ⟨_, first, second⟩ (ih rest)

end RaceTracker.Lib
