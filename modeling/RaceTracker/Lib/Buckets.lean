import RaceTracker.Lib.Dict

namespace RaceTracker.Lib

/-! Items put into buckets by a key, each bucket in the order in which they came. -/

section

variable {α κ ν : Type} [DecidableEq κ]

/-- One item more: `buckets.setdefault(key, []).append(value)`. -/
def Dict.collect (buckets : Dict κ (List ν)) (key : κ) (value : ν) : Dict κ (List ν) :=
  buckets.set key ((buckets.get? key).getD [] ++ [value])

variable (key : α → κ) (value : α → ν)

theorem getD_collect (items : List α) (buckets : Dict κ (List ν)) (k : κ) :
    ((items.foldl (fun buckets item => buckets.collect (key item) (value item)) buckets).get?
      k).getD [] =
      (buckets.get? k).getD [] ++ (items.filter fun item => key item = k).map value := by
  induction items generalizing buckets with
  | nil => simp
  | cons item rest ih =>
      rw [List.foldl_cons, ih, Dict.collect, Dict.get?_set]
      by_cases own : key item = k
      · simp [own]
      · simp [own]

end

variable {α : Type} {key : α → Nat} {items : List α}

/-- In a list that ascends by its key the items of one key follow those of the keys below. -/
theorem filter_lt_succ (sorted : items.Pairwise fun first second => key first ≤ key second) (n : Nat) :
    items.filter (fun item => key item < n + 1) =
      items.filter (fun item => key item < n) ++ items.filter (fun item => key item = n) := by
  induction items with
  | nil => rfl
  | cons item rest ih =>
      obtain ⟨above, sorted⟩ := List.pairwise_cons.mp sorted
      simp only [List.filter_cons, decide_eq_true_eq, ih sorted]
      rcases Nat.lt_trichotomy (key item) n with below | same | beyond
      · rw [if_pos (Nat.lt_succ_of_lt below), if_pos below, if_neg (Nat.ne_of_lt below), List.cons_append]
      · have none : rest.filter (fun item => key item < n) = [] := by
          rw [List.filter_eq_nil_iff]
          intro other member low
          have later := above other member
          have less := of_decide_eq_true low
          omega
        rw [if_pos (Nat.lt_succ_of_le (Nat.le_of_eq same)), if_neg (same ▸ Nat.lt_irrefl _), if_pos same,
          none, List.nil_append, List.nil_append]
      · have later : ¬ key item < n + 1 := by omega
        rw [if_neg later, if_neg (Nat.not_lt_of_gt beyond), if_neg (Nat.ne_of_gt beyond)]

theorem flatMap_buckets (sorted : items.Pairwise fun first second => key first ≤ key second) (n : Nat) :
    (List.range n).flatMap (fun k => items.filter fun item => key item = k) =
      items.filter fun item => key item < n := by
  induction n with
  | zero => simp
  | succ n ih => rw [List.range_succ, List.flatMap_append, ih, filter_lt_succ sorted]; simp

end RaceTracker.Lib
