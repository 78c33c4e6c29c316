import RaceTracker.Lib.Dict

namespace RaceTracker.Lib

/-! A loop that reads a dictionary and writes to a copy of it, made at the first write.  Without a
write the caller gets the dictionary itself back, and can tell.
-/

variable {α κ ν : Type} [DecidableEq κ] {key : α → κ} {written : α → Option ν} {prev : Dict κ ν}

/-- One round of the loop; `none` is a copy not made yet. -/
def writeCopy (key : α → κ) (written : α → Option ν) (prev : Dict κ ν) (next : Option (Dict κ ν))
    (item : α) : Option (Dict κ ν) :=
  match written item with
  | none => next
  | some value => some ((next.getD prev).set (key item) value)

def copied (key : α → κ) (written : α → Option ν) (prev : Dict κ ν) (items : List α) :
    Option (Dict κ ν) :=
  items.foldl (writeCopy key written prev) none

theorem get?_foldl_writeCopy {items : List α} (distinct : (items.map key).Nodup)
    (next : Option (Dict κ ν)) (wanted : κ) :
    ((items.foldl (writeCopy key written prev) next).getD prev).get? wanted =
      ((items.find? fun item => key item = wanted).bind written).or
        ((next.getD prev).get? wanted) := by
  induction items generalizing next with
  | nil => rfl
  | cons item rest ih =>
      rw [List.map_cons, List.nodup_cons] at distinct
      rw [List.foldl_cons, ih distinct.2, List.find?_cons]
      by_cases named : key item = wanted
      · have absent : (rest.find? fun other => key other = wanted) = none := by
          rw [List.find?_eq_none]
          intro other member same
          have repeated : key item = key other := named.trans (of_decide_eq_true same).symm
          exact distinct.1 (repeated ▸ List.mem_map_of_mem member)
        rw [absent]
        cases value : written item with
        | none => simp [writeCopy, named, value]
        | some value => simp [writeCopy, named, value]
      · cases value : written item with
        | none => simp [writeCopy, named, value]
        | some value => simp [writeCopy, named, value, Dict.get?_set]

/-- With one item for a key, that item is what is written under it. -/
theorem get?_copied {items : List α} (distinct : (items.map key).Nodup) (wanted : κ) :
    ((copied key written prev items).getD prev).get? wanted =
      ((items.find? fun item => key item = wanted).bind written).or (prev.get? wanted) :=
  get?_foldl_writeCopy distinct none wanted

theorem foldl_writeCopy_some (next : Dict κ ν) (items : List α) :
    (items.foldl (writeCopy key written prev) (some next)).isSome := by
  induction items generalizing next with
  | nil => rfl
  | cons item rest ih =>
      rw [List.foldl_cons, writeCopy]
      cases written item with
      | none => exact ih next
      | some value => exact ih _

theorem copied_eq_none {items : List α} :
    copied key written prev items = none ↔ ∀ item ∈ items, written item = none := by
  rw [copied]
  induction items with
  | nil => simp
  | cons item rest ih =>
      rw [List.foldl_cons, List.forall_mem_cons, writeCopy]
      cases value : written item with
      | none => simpa using ih
      | some value =>
          simp only [reduceCtorEq, false_and, iff_false]
          exact Option.isSome_iff_ne_none.mp (foldl_writeCopy_some _ rest)

end RaceTracker.Lib
