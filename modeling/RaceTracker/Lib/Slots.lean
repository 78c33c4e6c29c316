namespace RaceTracker.Lib

/-! Lists as stores: an object keeps its index, and is changed where it stands. -/

variable {α β : Type} {list : List α} {change : α → α} {index : Nat}

theorem map_modify_of_same {view : α → β} (same : ∀ one, view (change one) = view one) :
    (list.modify index change).map view = list.map view := by
  induction list generalizing index with
  | nil => rw [List.modify_nil]
  | cons first rest ih =>
      cases index with
      | zero => simp [same]
      | succ index => simp [ih]

/-- Every object of the changed store is an old one, changed or not. -/
theorem mem_modify {one : α} (member : one ∈ list.modify index change) :
    one ∈ list ∨ ∃ old, list[index]? = some old ∧ one = change old := by
  induction list generalizing index with
  | nil => simp at member
  | cons first rest ih =>
      cases index with
      | zero =>
          rcases List.mem_cons.mp member with rfl | later
          · exact Or.inr ⟨first, rfl, rfl⟩
          · exact Or.inl (List.mem_cons_of_mem first later)
      | succ index =>
          rcases List.mem_cons.mp member with rfl | later
          · exact Or.inl (List.mem_cons_self ..)
          · rcases ih later with old | changed
            · exact Or.inl (List.mem_cons_of_mem first old)
            · exact Or.inr changed

/-- One object less satisfies `holds` once a change has made it fail. -/
theorem countP_modify_lost {holds : α → Bool} {one : α} (found : list[index]? = some one)
    (was : holds one = true) (lost : holds (change one) = false) :
    (list.modify index change).countP holds + 1 = list.countP holds := by
  induction list generalizing index with
  | nil => simp at found
  | cons first rest ih =>
      cases index with
      | zero =>
          cases found
          simp [was, lost]
      | succ index =>
          have rest := ih (by simpa using found : rest[index]? = some one)
          simp only [List.modify_succ_cons, List.countP_cons]
          omega

/-- What a store holds once the object at `index` is replaced. -/
theorem getElem?_set_iff {old new one : α} {other : Nat} (found : list[index]? = some old) :
    (list.set index new)[other]? = some one ↔
      (other = index ∧ one = new) ∨ (other ≠ index ∧ list[other]? = some one) := by
  obtain ⟨within, _⟩ := List.getElem?_eq_some_iff.mp found
  by_cases same : other = index
  · subst same
    simp [List.getElem?_set_self within, eq_comm]
  · rw [List.getElem?_set_ne fun equal => same equal.symm]
    simp [same]

theorem filter_modify_same {holds : α → Bool} {one : α} (found : list[index]? = some one)
    (was : holds one = false) (still : holds (change one) = false) :
    (list.modify index change).filter holds = list.filter holds := by
  induction list generalizing index with
  | nil => simp at found
  | cons first rest ih =>
      cases index with
      | zero =>
          cases found
          simp [was, still]
      | succ index =>
          have rest := ih (by simpa using found : rest[index]? = some one)
          simp only [List.modify_succ_cons, List.filter_cons, rest]

/-- Where a key names an object, changing one out of `holds` filters its key out. -/
theorem filter_modify_lost [DecidableEq β] {key : α → β} {holds : α → Bool} {one : α}
    (distinct : (list.map key).Nodup) (found : list[index]? = some one)
    (lost : holds (change one) = false) :
    (list.modify index change).filter holds =
      (list.filter holds).filter fun other => key other ≠ key one := by
  induction list generalizing index with
  | nil => simp at found
  | cons first rest ih =>
      obtain ⟨fresh, distinct⟩ := List.nodup_cons.mp distinct
      cases index with
      | zero =>
          cases found
          have others : ∀ other ∈ rest.filter holds, key other ≠ key one := by
            intro other member same
            exact fresh (same ▸ List.mem_map_of_mem (List.mem_filter.mp member).1)
          have kept : (rest.filter holds).filter (fun other => key other ≠ key one) =
              rest.filter holds :=
            List.filter_eq_self.mpr fun other member => decide_eq_true (others other member)
          simp only [List.modify_zero_cons, List.filter_cons, lost, Bool.false_eq_true, if_false]
          split
          · rw [List.filter_cons_of_neg (by simp), kept]
          · exact kept.symm
      | succ index =>
          have found : rest[index]? = some one := by simpa using found
          have different : key first ≠ key one := fun same =>
            fresh (same ▸ List.mem_map_of_mem (List.mem_of_getElem? found))
          simp only [List.modify_succ_cons, List.filter_cons, ih distinct found]
          split
          · rw [List.filter_cons_of_pos (by simpa using different)]
          · rfl

/-- An object alone in satisfying `holds` is all that the filter leaves. -/
theorem filter_eq_singleton {holds : α → Bool} {one : α} (found : list[index]? = some one)
    (satisfied : holds one = true)
    (alone : ∀ other object, list[other]? = some object → holds object = true → other = index) :
    list.filter holds = [one] := by
  induction list generalizing index with
  | nil => simp at found
  | cons first rest ih =>
      cases index with
      | zero =>
          cases found
          have none : rest.filter holds = [] := by
            rw [List.filter_eq_nil_iff]
            intro object member held
            obtain ⟨other, listed⟩ := List.mem_iff_getElem?.mp member
            have same := alone (other + 1) object (by simpa using listed) held
            omega
          rw [List.filter_cons_of_pos satisfied, none]
      | succ index =>
          have refused : ¬ holds first = true := by
            intro held
            have same := alone 0 first rfl held
            omega
          rw [List.filter_cons_of_neg refused]
          apply ih (by simpa using found)
          intro other object listed held
          have same := alone (other + 1) object (by simpa using listed) held
          omega

end RaceTracker.Lib
