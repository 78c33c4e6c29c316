import Mathlib.Data.List.Basic

namespace RaceTracker.Lib

/-! Stable sorting asks only whether an element may stay before a later one. -/

variable {α : Type} {le le' : α → α → Bool}

theorem zipIdxLE_congr (total : ∀ first second, le first second || le second first)
    (total' : ∀ first second, le' first second || le' second first) {first second : α × Nat}
    (forward : first.2 < second.2 → le first.1 second.1 = le' first.1 second.1)
    (backward : second.2 < first.2 → le second.1 first.1 = le' second.1 first.1)
    (same : first.2 = second.2 → first.1 = second.1) :
    List.zipIdxLE le first second = List.zipIdxLE le' first second := by
  obtain ⟨one, i⟩ := first
  obtain ⟨two, j⟩ := second
  simp only [List.zipIdxLE]
  rcases Nat.lt_trichotomy i j with before | rfl | after
  · rw [forward before]
    simp [Nat.le_of_lt before]
  · obtain rfl : one = two := same rfl
    have kept := total one one
    have kept' := total' one one
    rw [Bool.or_self] at kept kept'
    simp [kept, kept']
  · have either := total one two
    have either' := total' one two
    rw [backward after] at either ⊢
    have stays : ¬ i ≤ j := by omega
    cases swapped : le' two one
    · rw [swapped, Bool.or_false] at either either'
      simp [either, either']
    · simp [stays]

/-- Two orders that agree on every element and a later one sort alike. -/
theorem mergeSort_eq_of_agree (total : ∀ first second, le first second || le second first)
    (total' : ∀ first second, le' first second || le' second first) {items : List α}
    (agree : items.Pairwise fun first second => le first second = le' first second) :
    items.mergeSort le = items.mergeSort le' := by
  have ordered {first second : α × Nat} (one : first ∈ items.zipIdx) (two : second ∈ items.zipIdx)
      (before : first.2 < second.2) : le first.1 second.1 = le' first.1 second.1 := by
    obtain ⟨within, found⟩ := List.getElem?_eq_some_iff.mp (List.mem_zipIdx_iff_getElem?.mp one)
    obtain ⟨within', found'⟩ := List.getElem?_eq_some_iff.mp (List.mem_zipIdx_iff_getElem?.mp two)
    rw [← found, ← found']
    exact List.pairwise_iff_getElem.mp agree _ _ within within' before
  have indexed : items.zipIdx.mergeSort (List.zipIdxLE le) =
      items.zipIdx.mergeSort (List.zipIdxLE le') := by
    have moved := List.map_mergeSort (r := List.zipIdxLE le) (s := List.zipIdxLE le') (f := id)
      (l := items.zipIdx) fun first one second two => zipIdxLE_congr total total' (ordered one two)
        (ordered two one) fun same => by
          have found := List.mem_zipIdx_iff_getElem?.mp one
          have found' := List.mem_zipIdx_iff_getElem?.mp two
          rw [same, found'] at found
          exact (Option.some.inj found).symm
    simpa using moved
  rw [← List.mergeSort_zipIdx, indexed, List.mergeSort_zipIdx]

/-- Of two elements the first stays first exactly when it may. -/
theorem le_iff_sorted_before (le : α → α → Bool)
    (trans : ∀ one two three, le one two → le two three → le one three)
    (total : ∀ first second, le first second || le second first) {items : List α}
    (distinct : items.Nodup) {first second : α} (before : [first, second].Sublist items)
    {i j : Nat} (found : (items.mergeSort le)[i]? = some first)
    (found' : (items.mergeSort le)[j]? = some second) : le first second ↔ i < j := by
  have sorted := List.pairwise_mergeSort trans total items
  have nodup : (items.mergeSort le).Nodup := (List.mergeSort_perm items le).nodup_iff.mpr distinct
  obtain ⟨within, own⟩ := List.getElem?_eq_some_iff.mp found
  obtain ⟨within', own'⟩ := List.getElem?_eq_some_iff.mp found'
  constructor
  · intro stays
    obtain ⟨indices, same, ordered⟩ :=
      List.sublist_eq_map_getElem (List.pair_sublist_mergeSort trans total stays before)
    match indices with
    | [one, two] =>
        simp only [List.map_cons, List.map_nil, List.cons.injEq, and_true] at same
        have here : i = one := (List.getElem?_inj within nodup).mp
          (found.trans ((congrArg some same.1).trans (List.getElem?_eq_getElem one.isLt).symm))
        have there : j = two := (List.getElem?_inj within' nodup).mp
          (found'.trans ((congrArg some same.2).trans (List.getElem?_eq_getElem two.isLt).symm))
        rw [here, there, ← Fin.lt_def]
        simpa using ordered
  · intro earlier
    have kept := List.pairwise_iff_getElem.mp sorted i j within within' earlier
    rwa [own, own'] at kept

theorem filter_mergeSort_of_tied (trans : ∀ one two three, le one two → le two three → le one three)
    (total : ∀ first second, le first second || le second first) {chosen : α → Bool}
    (tied : ∀ first second, chosen first → chosen second → le first second) (items : List α) :
    (items.mergeSort le).filter chosen = items.filter chosen := by
  have ordered : (items.filter chosen).Pairwise fun first second => le first second := by
    rw [List.pairwise_filter]
    exact List.pairwise_of_forall fun first second one two => tied first second one two
  have kept : (items.filter chosen).Sublist ((items.mergeSort le).filter chosen) := by
    have stable := (List.sublist_mergeSort trans total ordered List.filter_sublist).filter chosen
    rwa [List.filter_filter, List.filter_congr fun _ _ => Bool.and_self _] at stable
  exact (kept.eq_of_length ((List.mergeSort_perm items le).filter chosen).length_eq.symm).symm

/-- Sorting has no choice where the comparison is strict. -/
theorem mergeSort_eq_of_ordered {items sorted : List α} (perm : items.Perm sorted)
    (kept : ∀ item ∈ sorted, le item item)
    (ordered : sorted.Pairwise fun first second => le first second ∧ ¬ le second first) :
    items.mergeSort le = sorted := by
  classical
  let place (left right : α) : Bool := sorted.idxOf left ≤ sorted.idxOf right
  have agree {first second : α} (one : first ∈ sorted) (two : second ∈ sorted) :
      le first second = place first second := by
    have there := List.pairwise_iff_getElem.mp ordered
    have within := List.idxOf_lt_length_iff.mpr one
    have within' := List.idxOf_lt_length_iff.mpr two
    rcases Nat.lt_trichotomy (sorted.idxOf first) (sorted.idxOf second) with before | same | after
    · have stays := there _ _ within within' before
      simp only [List.getElem_idxOf] at stays
      simp [place, stays.1, Nat.le_of_lt before]
    · have equal : first = second := (List.idxOf_inj one).mp same
      subst equal
      simp [place, kept first one]
    · have stays := there _ _ within' within after
      simp only [List.getElem_idxOf] at stays
      simp [place, stays.2, after]
  have moved : items.mergeSort le = items.mergeSort place := by
    have mapped := List.map_mergeSort (r := le) (s := place) (f := id) (l := items)
      fun first one second two => agree (perm.mem_iff.mp one) (perm.mem_iff.mp two)
    simpa using mapped
  have placed : sorted.Pairwise fun first second => place first second := by
    apply ordered.imp_of_mem
    intro first second one two before
    rw [← agree one two]
    exact before.1
  have result : (items.mergeSort place).Pairwise fun first second => place first second := by
    apply List.pairwise_mergeSort
    · intro one two three first second
      simp only [place, decide_eq_true_eq] at first second ⊢
      exact Nat.le_trans first second
    · intro first second
      simpa [place] using Nat.le_total (sorted.idxOf first) (sorted.idxOf second)
  rw [moved]
  refine ((List.mergeSort_perm items place).trans perm).eq_of_pairwise ?_ result placed
  intro first second one two before after
  simp only [place, decide_eq_true_eq] at before after
  exact (List.idxOf_inj (perm.mem_iff.mp (List.mem_mergeSort.mp one))).mp (Nat.le_antisymm before after)

/-- The chosen element that sorting puts last: no other is above it, and none after it is level. -/
theorem getLast_chosen (trans : ∀ one two three, le one two → le two three → le one three)
    (total : ∀ first second, le first second || le second first) {chosen : α → Bool} {item : α}
    {before after : List α} (own : chosen item)
    (earlier : ∀ other ∈ before, chosen other → le other item)
    (later : ∀ other ∈ after, chosen other → ¬ le item other) :
    (((before ++ item :: after).mergeSort le).filter chosen).getLast? = some item := by
  induction before with
  | nil =>
      obtain ⟨low, high, whole, rest, below⟩ := List.mergeSort_cons trans total item after
      have sorted := List.pairwise_mergeSort trans total (item :: after)
      rw [whole, List.pairwise_append, List.pairwise_cons] at sorted
      have none : high.filter chosen = [] := by
        rw [List.filter_eq_nil_iff]
        intro other member picked
        have listed : other ∈ after.mergeSort le := rest ▸ List.mem_append_right low member
        exact later other (List.mem_mergeSort.mp listed) picked (sorted.2.1.1 other member)
      rw [List.nil_append, whole, List.filter_append, List.filter_cons_of_pos own, none]
      simp
  | cons first before ih =>
      have last := ih fun other member => earlier other (List.mem_cons_of_mem _ member)
      obtain ⟨low, high, whole, rest, below⟩ :=
        List.mergeSort_cons trans total first (before ++ item :: after)
      rw [rest, List.filter_append] at last
      rw [List.cons_append, whole, List.filter_append]
      by_cases picked : chosen first
      · have above : le first item := earlier first (List.mem_cons_self ..) picked
        have apart : item ∉ low := fun member => by simpa [above] using below item member
        rw [List.filter_cons_of_pos picked]
        cases upper : high.filter chosen with
        | nil =>
            rw [upper, List.append_nil] at last
            exact absurd (List.mem_filter.mp (List.mem_of_getLast? last)).1 apart
        | cons next others =>
            rw [upper] at last
            simpa [List.getLast?_append] using last
      · rw [List.filter_cons_of_neg picked]
        exact last

end RaceTracker.Lib
