import Mathlib.Data.List.Infix
import Mathlib.Order.Lattice

namespace RaceTracker.Lib

/-! Reading a log twice: once as a snapshot of a beginning of it, once entry by entry.

The entries carry strictly increasing keys, and a reader that holds a beginning of
the log takes an entry only if its key is above the last one it holds.  Then the
overlap of the two readings is skipped, and nothing else is.
-/

variable {α κ : Type} [LinearOrder κ] (key : α → κ)

def Ascending (base : κ) : List α → Prop
  | [] => True
  | entry :: rest => base < key entry ∧ Ascending (key entry) rest

def lastKey (base : κ) (log : List α) : κ := log.foldl (fun _ entry => key entry) base

omit [LinearOrder κ] in
@[simp] theorem lastKey_append_singleton (base : κ) (log : List α) (entry : α) :
    lastKey key base (log ++ [entry]) = key entry := by
  simp [lastKey]

theorem ascending_append (base : κ) (first second : List α) :
    Ascending key base (first ++ second) ↔
      Ascending key base first ∧ Ascending key (lastKey key base first) second := by
  induction first generalizing base with
  | nil => simp [Ascending, lastKey]
  | cons entry rest ih => simp [Ascending, lastKey, ih, and_assoc]

variable {key} {base : κ} {log : List α} {entry : α}

theorem Ascending.base_le_lastKey (ascending : Ascending key base log) :
    base ≤ lastKey key base log := by
  induction log generalizing base with
  | nil => exact le_refl base
  | cons entry rest ih => exact ascending.1.le.trans (ih ascending.2)

theorem Ascending.key_le_lastKey (ascending : Ascending key base log) (member : entry ∈ log) :
    key entry ≤ lastKey key base log := by
  induction log generalizing base with
  | nil => cases member
  | cons first rest ih =>
      rcases List.mem_cons.mp member with rfl | later
      · exact ascending.2.base_le_lastKey
      · exact ih ascending.2 later

theorem Ascending.lastKey_lt {rest : List α} (ascending : Ascending key base (log ++ entry :: rest)) :
    lastKey key base log < key entry :=
  ((ascending_append key base log (entry :: rest)).mp ascending).2.1

theorem Ascending.pairwise (ascending : Ascending key base log) :
    log.Pairwise fun first second => key first < key second := by
  induction log generalizing base with
  | nil => exact List.Pairwise.nil
  | cons first rest ih =>
      have above {bound : κ} {list : List α} (climbs : Ascending key bound list) :
          ∀ entry ∈ list, bound < key entry := by
        induction list generalizing bound with
        | nil => exact fun _ member => absurd member List.not_mem_nil
        | cons head tail ih =>
            intro entry member
            rcases List.mem_cons.mp member with rfl | later
            · exact climbs.1
            · exact climbs.1.trans (ih climbs.2 entry later)
      exact List.Pairwise.cons (above ascending.2) (ih ascending.2)

/-- `seed` was read at once, `applied` was taken after it; `read` is how far the
reading entry by entry has come.  Either that reading is still inside the seed,
or both readings have come equally far. -/
def Overlap (seed applied read : List α) : Prop :=
  (applied = [] ∧ read <+: seed) ∨ read = seed ++ applied

theorem overlap_seed {seed read : List α} (behind : read <+: seed) : Overlap seed [] read :=
  Or.inl ⟨rfl, behind⟩

omit [LinearOrder κ] in
theorem behind_cases {seed read rest whole : List α} (behind : read <+: seed)
    (reading : read ++ entry :: rest <+: whole) (seeded : seed <+: whole) :
    read = seed ∨ read ++ [entry] <+: seed := by
  have next : read ++ [entry] <+: whole := by
    obtain ⟨tail, split⟩ := reading
    exact ⟨rest ++ tail, by simpa using split⟩
  rcases Nat.lt_or_ge read.length seed.length with longer | level
  · exact Or.inr (List.prefix_of_prefix_length_le next seeded (by
      rw [List.length_append, List.length_singleton]
      exact longer))
  · exact Or.inl (behind.eq_of_length_le level)

theorem Ascending.lastKey_lt_of_prefix {read rest whole : List α}
    (ascending : Ascending key base whole) (reading : read ++ entry :: rest <+: whole) :
    lastKey key base read < key entry := by
  obtain ⟨tail, split⟩ := reading
  rw [← split, List.append_assoc, List.cons_append] at ascending
  exact ascending.lastKey_lt

/-- An entry at or below the last key held is one the seed holds already. -/
theorem Overlap.skip {seed applied read rest whole : List α} (overlap : Overlap seed applied read)
    (ascending : Ascending key base whole) (reading : read ++ entry :: rest <+: whole)
    (seeded : seed <+: whole) (old : key entry ≤ lastKey key base (seed ++ applied)) :
    entry ∈ seed ∧ Overlap seed applied (read ++ [entry]) := by
  have fresh := ascending.lastKey_lt_of_prefix reading
  rcases overlap with ⟨rfl, behind⟩ | level
  · rcases behind_cases behind reading seeded with level | further
    · rw [List.append_nil, ← level] at old
      exact absurd old fresh.not_ge
    · exact ⟨further.subset (by simp), Or.inl ⟨rfl, further⟩⟩
  · rw [← level] at old
    exact absurd old fresh.not_ge

/-- An entry above the last key held is the first one that is missing. -/
theorem Overlap.take {seed applied read rest whole : List α} (overlap : Overlap seed applied read)
    (ascending : Ascending key base whole) (reading : read ++ entry :: rest <+: whole)
    (seeded : seed <+: whole) (new : ¬ key entry ≤ lastKey key base (seed ++ applied)) :
    Overlap seed (applied ++ [entry]) (read ++ [entry]) := by
  have level : read = seed ++ applied := by
    rcases overlap with ⟨rfl, behind⟩ | level
    · rcases behind_cases behind reading seeded with level | further
      · rw [level, List.append_nil]
      · have climbs : Ascending key base seed := by
          obtain ⟨tail, rfl⟩ := seeded
          exact ((ascending_append key base seed tail).mp ascending).1
        rw [List.append_nil] at new
        exact absurd (climbs.key_le_lastKey (further.subset (by simp))) new
    · exact level
  exact Or.inr (by rw [level, List.append_assoc])

end RaceTracker.Lib
