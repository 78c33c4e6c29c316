import Mathlib.Data.List.Nodup
import RaceTracker.Lib.StableSort

namespace RaceTracker.Lib

/-! Rows put in the order of a list of keys, with the rows that no key names after them. -/

section

variable {α κ : Type} [DecidableEq κ] (key : α → κ) {items : List α} {order : List κ}

def named (items : List α) (order : List κ) : List α :=
  order.filterMap fun wanted => items.find? fun item => key item = wanted

def unnamed (items : List α) (order : List κ) : List α := items.filter fun item => key item ∉ order

def inOrder (items : List α) (order : List κ) : List α := named key items order ++ unnamed key items order

variable {key}

theorem find?_key_iff (distinct : (items.map key).Nodup) {wanted : κ} {item : α} :
    (items.find? fun item => key item = wanted) = some item ↔ item ∈ items ∧ key item = wanted := by
  constructor
  · intro found
    exact ⟨List.mem_of_find?_eq_some found, by simpa using List.find?_some found⟩
  · rintro ⟨member, rfl⟩
    cases found : items.find? fun other => key other = key item with
    | none => exact absurd (decide_eq_true rfl) (List.find?_eq_none.mp found item member)
    | some other =>
        have same : key other = key item := by simpa using List.find?_some found
        rw [List.inj_on_of_nodup_map distinct (List.mem_of_find?_eq_some found) member same]

theorem mem_named (distinct : (items.map key).Nodup) {item : α} :
    item ∈ named key items order ↔ item ∈ items ∧ key item ∈ order := by
  rw [named, List.mem_filterMap]
  constructor
  · rintro ⟨wanted, listed, found⟩
    obtain ⟨member, rfl⟩ := (find?_key_iff distinct).mp found
    exact ⟨member, listed⟩
  · rintro ⟨member, listed⟩
    exact ⟨key item, listed, (find?_key_iff distinct).mpr ⟨member, rfl⟩⟩

theorem mem_unnamed {item : α} : item ∈ unnamed key items order ↔ item ∈ items ∧ key item ∉ order := by
  simp [unnamed]

/-- Keys give the rows an order without losing or repeating one. -/
theorem inOrder_perm (distinct : (items.map key).Nodup) (once : order.Nodup) :
    (inOrder key items order).Perm items := by
  have rows : items.Nodup := distinct.of_map
  have apart : (inOrder key items order).Nodup := by
    refine List.nodup_append.mpr ⟨?_, rows.filter _, ?_⟩
    · apply once.filterMap
      intro first second item one two
      rw [Option.mem_def, find?_key_iff distinct] at one two
      exact one.2.symm.trans two.2
    · intro item one other two same
      subst same
      exact (mem_unnamed.mp two).2 ((mem_named distinct).mp one).2
  rw [List.perm_ext_iff_of_nodup apart rows]
  intro item
  rw [inOrder, List.mem_append, mem_named distinct, mem_unnamed]
  tauto

theorem map_named (distinct : (items.map key).Nodup) :
    (named key items order).map key = order.filter (· ∈ items.map key) := by
  induction order with
  | nil => rfl
  | cons wanted rest ih =>
      rw [named, List.filterMap_cons]
      cases found : items.find? fun item => key item = wanted with
      | none =>
          have absent : wanted ∉ items.map key := by
            intro present
            obtain ⟨item, member, own⟩ := List.mem_map.mp present
            exact List.find?_eq_none.mp found item member (decide_eq_true own)
          rw [List.filter_cons_of_neg (by simpa using absent)]
          exact ih
      | some item =>
          obtain ⟨member, own⟩ := (find?_key_iff distinct).mp found
          have present : wanted ∈ items.map key := List.mem_map.mpr ⟨item, member, own⟩
          rw [List.filter_cons_of_pos (by simpa using present), List.map_cons, own]
          exact congrArg (wanted :: ·) ih

/-- A sort that puts the named rows first, by their place among the keys, and leaves the others
as they stand. -/
theorem mergeSort_eq_inOrder {le : α → α → Bool} (distinct : (items.map key).Nodup) (once : order.Nodup)
    (kept : ∀ item, le item item)
    (ranked : ∀ first second, first ∈ items → second ∈ items → ∀ i j : Nat, i < j →
      order[i]? = some (key first) → order[j]? = some (key second) → le first second ∧ ¬ le second first)
    (ahead : ∀ first second, first ∈ items → second ∈ items → key first ∈ order → key second ∉ order →
      le first second ∧ ¬ le second first)
    (stable : items.Pairwise fun first second => key first ∉ order → key second ∉ order →
      le first second ∧ ¬ le second first) : items.mergeSort le = inOrder key items order := by
  apply mergeSort_eq_of_ordered (inOrder_perm distinct once).symm fun item _ => kept item
  refine List.pairwise_append.mpr ⟨?_, ?_, ?_⟩
  · rw [named, List.pairwise_filterMap, List.pairwise_iff_getElem]
    intro i j within within' before first one second two
    rw [find?_key_iff distinct] at one two
    apply ranked first second one.1 two.1 i j before
    · rw [List.getElem?_eq_getElem within, one.2]
    · rw [List.getElem?_eq_getElem within', two.2]
  · rw [unnamed, List.pairwise_filter]
    apply stable.imp
    intro first second strict one two
    exact strict (of_decide_eq_true one) (of_decide_eq_true two)
  · intro first one second two
    rw [mem_named distinct] at one
    rw [mem_unnamed] at two
    exact ahead first second one.1 two.1 one.2 two.2

omit [DecidableEq κ] in
theorem eq_of_map_eq {other : List α} (distinct : (items.map key).Nodup) (among : other ⊆ items)
    (keys : other.map key = items.map key) : other = items := by
  have lengths : other.length = items.length := by simpa using congrArg List.length keys
  apply List.ext_getElem lengths
  intro index within within'
  apply List.inj_on_of_nodup_map distinct (among (List.getElem_mem within)) (List.getElem_mem within')
  simpa [within, within'] using congrArg (fun list => list[index]?) keys

def keysInOrder (keys order : List κ) : List κ := order.filter (· ∈ keys) ++ keys.filter (· ∉ order)

/-- The keys of an order that are there head the others already. -/
def Heads (order keys : List κ) : Prop := order.filter (· ∈ keys) <+: keys

theorem map_inOrder (distinct : (items.map key).Nodup) :
    (inOrder key items order).map key = keysInOrder (items.map key) order := by
  rw [inOrder, keysInOrder, List.map_append, map_named distinct, unnamed, List.filter_map]
  rfl

theorem keysInOrder_of_heads {keys : List κ} (distinct : keys.Nodup) (heads : Heads order keys) :
    keysInOrder keys order = keys := by
  obtain ⟨rest, front⟩ := heads
  have apart := distinct
  rw [← front, List.nodup_append] at apart
  have gone : (order.filter (· ∈ keys)).filter (· ∉ order) = [] := by
    rw [List.filter_eq_nil_iff]
    intro wanted listed
    simpa using (List.mem_filter.mp listed).1
  have others : rest.filter (· ∉ order) = rest := by
    rw [List.filter_eq_self]
    intro wanted listed
    have present : wanted ∈ keys := front ▸ List.mem_append_right _ listed
    simp only [decide_eq_true_eq]
    intro named
    exact apart.2.2 wanted (List.mem_filter.mpr ⟨named, decide_eq_true present⟩) wanted listed rfl
  calc keysInOrder keys order
      = order.filter (· ∈ keys) ++ (order.filter (· ∈ keys) ++ rest).filter (· ∉ order) := by
        rw [keysInOrder, front]
    _ = order.filter (· ∈ keys) ++ rest := by rw [List.filter_append, gone, List.nil_append, others]
    _ = keys := front

theorem keysInOrder_perm {keys : List κ} (distinct : keys.Nodup) (once : order.Nodup) :
    (keysInOrder keys order).Perm keys := by
  have apart : (keys.map id).Nodup := by simpa using distinct
  have shown : (inOrder id keys order).map id = keysInOrder (keys.map id) order := map_inOrder apart
  rw [List.map_id, List.map_id] at shown
  rw [← shown]
  exact inOrder_perm apart once

theorem heads_of_keysInOrder {keys : List κ} (unmoved : keysInOrder keys order = keys) :
    Heads order keys :=
  ⟨_, unmoved⟩

theorem inOrder_of_heads (distinct : (items.map key).Nodup) (once : order.Nodup)
    (heads : Heads order (items.map key)) : inOrder key items order = items := by
  apply eq_of_map_eq distinct (inOrder_perm distinct once).subset
  rw [map_inOrder distinct, keysInOrder_of_heads distinct heads]

section

variable {κ' : Type} [DecidableEq κ'] {f : κ → κ'}

theorem filter_mem_map (injective : Function.Injective f) (keys order : List κ) :
    (order.map f).filter (· ∈ keys.map f) = (order.filter (· ∈ keys)).map f := by
  rw [List.filter_map]
  apply congrArg (List.map f)
  apply List.filter_congr
  intro wanted _
  simp only [Function.comp_apply, List.mem_map_of_injective injective]

theorem keysInOrder_map (injective : Function.Injective f) (keys order : List κ) :
    keysInOrder (keys.map f) (order.map f) = (keysInOrder keys order).map f := by
  have others : (keys.map f).filter (· ∉ order.map f) = (keys.filter (· ∉ order)).map f := by
    rw [List.filter_map]
    apply congrArg (List.map f)
    apply List.filter_congr
    intro wanted _
    simp only [Function.comp_apply, List.mem_map_of_injective injective]
  rw [keysInOrder, keysInOrder, filter_mem_map injective, others, List.map_append]

theorem Heads.map (injective : Function.Injective f) {keys order : List κ} (heads : Heads order keys) :
    Heads (order.map f) (keys.map f) := by
  rw [Heads, filter_mem_map injective]
  exact List.IsPrefix.map f heads

end

end

theorem map_named_map {α β κ : Type} [DecidableEq κ] (view : β → α) (key : α → κ) (items : List β)
    (order : List κ) :
    (inOrder (key ∘ view) items order).map view = inOrder key (items.map view) order := by
  rw [inOrder, inOrder, List.map_append, named, named, unnamed, unnamed, List.map_filterMap,
    List.filter_map]
  simp only [List.find?_map, Function.comp_def]

end RaceTracker.Lib
