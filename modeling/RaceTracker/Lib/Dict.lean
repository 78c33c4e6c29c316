import Mathlib.Data.List.Nodup

namespace RaceTracker.Lib

/-! Insertion-ordered dictionaries.

JavaScript objects and Python dicts both keep the order in which keys were first
written and replace a value in place.  `Dict` is that structure: a key list
without repetitions travels with the entries, so a lookup never has to choose
between two values.
-/

structure Dict (κ ν : Type) where
  entries : List (κ × ν)
  distinct : (entries.map Prod.fst).Nodup
deriving Repr, DecidableEq

namespace Dict

variable {κ κ' ν ν' : Type} [DecidableEq κ] [DecidableEq κ']

/-- Overwrite the value of `key` where it stands, or append a new entry. -/
def putEntry (key : κ) (value : ν) : List (κ × ν) → List (κ × ν)
  | [] => [(key, value)]
  | (found, old) :: rest =>
      if found = key then (key, value) :: rest
      else (found, old) :: putEntry key value rest

def findEntry (key : κ) : List (κ × ν) → Option ν
  | [] => none
  | (found, value) :: rest => if found = key then some value else findEntry key rest

theorem putEntry_keys (key : κ) (value : ν) (entries : List (κ × ν)) :
    (putEntry key value entries).map Prod.fst =
      if key ∈ entries.map Prod.fst then entries.map Prod.fst
      else entries.map Prod.fst ++ [key] := by
  induction entries with
  | nil => rfl
  | cons entry rest ih =>
      obtain ⟨found, old⟩ := entry
      by_cases same : found = key
      · simp [putEntry, same]
      · have different : key ≠ found := fun equal => same equal.symm
        simp only [putEntry, same, if_false, List.map_cons, ih, List.mem_cons, different, false_or]
        split <;> simp

theorem putEntry_distinct (key : κ) (value : ν) {entries : List (κ × ν)}
    (distinct : (entries.map Prod.fst).Nodup) :
    ((putEntry key value entries).map Prod.fst).Nodup := by
  rw [putEntry_keys]
  split
  · exact distinct
  · rename_i absent
    refine List.nodup_append.mpr ⟨distinct, List.nodup_singleton key, ?_⟩
    intro old member new single same
    rw [same, List.mem_singleton.mp single] at member
    exact absent member

def empty : Dict κ ν := ⟨[], List.nodup_nil⟩

instance : Inhabited (Dict κ ν) := ⟨empty⟩

def get? (dict : Dict κ ν) (key : κ) : Option ν := findEntry key dict.entries

def set (dict : Dict κ ν) (key : κ) (value : ν) : Dict κ ν :=
  ⟨putEntry key value dict.entries, putEntry_distinct key value dict.distinct⟩

def keys (dict : Dict κ ν) : List κ := dict.entries.map Prod.fst

/-- Write the members one after the other; the last value of a repeated key wins. -/
def ofMembers (members : List (κ × ν)) : Dict κ ν :=
  members.foldl (fun dict member => dict.set member.1 member.2) empty

omit [DecidableEq κ] in
theorem ext {left right : Dict κ ν} (same : left.entries = right.entries) : left = right := by
  cases left; cases right; cases same; rfl

@[simp] theorem get?_empty (key : κ) : (empty : Dict κ ν).get? key = none := rfl

theorem findEntry_putEntry (key other : κ) (value : ν) (entries : List (κ × ν)) :
    findEntry other (putEntry key value entries) =
      if key = other then some value else findEntry other entries := by
  induction entries with
  | nil => simp [putEntry, findEntry]
  | cons entry rest ih =>
      obtain ⟨found, old⟩ := entry
      by_cases same : found = key
      · subst same
        simp only [putEntry, if_true, findEntry]
        split <;> rfl
      · simp only [putEntry, same, if_false, findEntry, ih]
        by_cases atFound : found = other
        · have notKey : ¬ key = other := fun equal => same (atFound.trans equal.symm)
          simp [atFound, notKey]
        · simp [atFound]

theorem findEntry_map (f : ν → ν') (key : κ) (entries : List (κ × ν)) :
    findEntry key (entries.map fun entry => (entry.1, f entry.2)) = (findEntry key entries).map f := by
  induction entries with
  | nil => rfl
  | cons entry rest ih =>
      obtain ⟨found, value⟩ := entry
      by_cases same : found = key <;> simp [findEntry, same, ih]

theorem findEntry_eq_none {key : κ} {entries : List (κ × ν)}
    (absent : key ∉ entries.map Prod.fst) : findEntry key entries = none := by
  induction entries with
  | nil => rfl
  | cons entry rest ih =>
      simp only [List.map_cons, List.mem_cons, not_or] at absent
      simp [findEntry, Ne.symm absent.1, ih absent.2]

theorem mem_of_get? {dict : Dict κ ν} {key : κ} {value : ν} (found : dict.get? key = some value) :
    (key, value) ∈ dict.entries := by
  obtain ⟨entries, distinct⟩ := dict
  rw [get?] at found
  simp only at found
  induction entries with
  | nil => cases found
  | cons entry rest ih =>
      obtain ⟨other, old⟩ := entry
      by_cases same : other = key
      · simp only [findEntry, same, if_true] at found
        cases found
        exact same ▸ List.mem_cons_self ..
      · simp only [findEntry, same, if_false] at found
        exact List.mem_cons_of_mem _ (ih (List.nodup_cons.mp distinct).2 found)

theorem get?_of_mem {dict : Dict κ ν} {key : κ} {value : ν} (member : (key, value) ∈ dict.entries) :
    dict.get? key = some value := by
  obtain ⟨entries, distinct⟩ := dict
  rw [get?]
  simp only at member ⊢
  induction entries with
  | nil => cases member
  | cons entry rest ih =>
      rw [List.map_cons, List.nodup_cons] at distinct
      rcases List.mem_cons.mp member with rfl | later
      · simp [findEntry]
      · have other : entry.1 ≠ key := fun same =>
          distinct.1 (same ▸ List.mem_map_of_mem (f := Prod.fst) later)
        simp only [findEntry, other, if_false]
        exact ih distinct.2 later

theorem get?_set (dict : Dict κ ν) (key other : κ) (value : ν) :
    (dict.set key value).get? other = if key = other then some value else dict.get? other :=
  findEntry_putEntry key other value dict.entries

@[simp] theorem get?_set_self (dict : Dict κ ν) (key : κ) (value : ν) :
    (dict.set key value).get? key = some value := by
  simp [get?_set]

/-- The value last written under a key, or what stood there before. -/
theorem get?_foldl_set {α : Type} (key : α → κ) (value : α → ν) (list : List α) (dict : Dict κ ν)
    (found : κ) :
    (list.foldl (fun dict item => dict.set (key item) (value item)) dict).get? found =
      ((list.filter fun item => key item = found).getLast?.map value).or (dict.get? found) := by
  induction list generalizing dict with
  | nil => rfl
  | cons item rest ih =>
      rw [List.foldl_cons, ih, get?_set, List.filter_cons]
      by_cases same : key item = found
      · cases last : (rest.filter fun item => key item = found).getLast? <;>
          simp [same, List.getLast?_cons, last]
      · simp [same]

theorem mem_keys_set (dict : Dict κ ν) (key other : κ) (value : ν) :
    other ∈ (dict.set key value).keys ↔ other = key ∨ other ∈ dict.keys := by
  change other ∈ (putEntry key value dict.entries).map Prod.fst ↔ _
  rw [putEntry_keys]
  split
  · rename_i present
    constructor
    · exact Or.inr
    · intro either
      rcases either with rfl | member
      · exact present
      · exact member
  · simp [keys, or_comm]

theorem putEntry_of_fresh {key : κ} (value : ν) {entries : List (κ × ν)}
    (fresh : key ∉ entries.map Prod.fst) :
    putEntry key value entries = entries ++ [(key, value)] := by
  induction entries with
  | nil => rfl
  | cons entry rest ih =>
      obtain ⟨found, old⟩ := entry
      simp only [List.map_cons, List.mem_cons, not_or] at fresh
      have different : ¬ found = key := fun equal => fresh.1 equal.symm
      simp [putEntry, different, ih fresh.2]

theorem mem_putEntry {key : κ} {value : ν} {entries : List (κ × ν)} {entry : κ × ν}
    (member : entry ∈ putEntry key value entries) : entry = (key, value) ∨ entry ∈ entries := by
  induction entries with
  | nil => exact Or.inl (List.mem_singleton.mp member)
  | cons first rest ih =>
      obtain ⟨found, old⟩ := first
      rw [putEntry] at member
      split at member
      · rcases List.mem_cons.mp member with new | later
        · exact Or.inl new
        · exact Or.inr (List.mem_cons_of_mem _ later)
      · rcases List.mem_cons.mp member with rfl | later
        · exact Or.inr (List.mem_cons_self ..)
        · exact (ih later).imp_right (List.mem_cons_of_mem _)

theorem putEntry_values_nodup (key : κ) {value : ν} {entries : List (κ × ν)}
    (fresh : value ∉ entries.map Prod.snd) (apart : (entries.map Prod.snd).Nodup) :
    ((putEntry key value entries).map Prod.snd).Nodup := by
  induction entries with
  | nil => exact List.nodup_singleton value
  | cons first rest ih =>
      obtain ⟨found, old⟩ := first
      simp only [List.map_cons, List.mem_cons, not_or] at fresh
      rw [List.map_cons, List.nodup_cons] at apart
      rw [putEntry]
      split
      · exact List.nodup_cons.mpr ⟨fresh.2, apart.2⟩
      · refine List.nodup_cons.mpr ⟨?_, ih fresh.2 apart.2⟩
        intro again
        obtain ⟨entry, member, same⟩ := List.mem_map.mp again
        rcases mem_putEntry member with rfl | listed
        · exact fresh.1 same
        · exact apart.1 (List.mem_map.mpr ⟨entry, listed, same⟩)

theorem foldl_set_entries (start : Dict κ ν) (members : List (κ × ν))
    (distinct : ((start.entries ++ members).map Prod.fst).Nodup) :
    (members.foldl (fun dict member => dict.set member.1 member.2) start).entries =
      start.entries ++ members := by
  induction members generalizing start with
  | nil => simp
  | cons member rest ih =>
      have fresh : member.1 ∉ start.entries.map Prod.fst := by
        intro present
        rw [List.map_append, List.map_cons] at distinct
        exact (List.nodup_append.mp distinct).2.2 member.1 present member.1 (by simp) rfl
      have next : (start.set member.1 member.2).entries = start.entries ++ [member] :=
        putEntry_of_fresh member.2 fresh
      rw [List.foldl_cons, ih _ (by rw [next]; simpa using distinct), next]
      simp

theorem ofMembers_entries (dict : Dict κ ν) : ofMembers dict.entries = dict := by
  apply ext
  have written := foldl_set_entries empty dict.entries (by simpa [empty] using dict.distinct)
  simpa [ofMembers, empty] using written

def rename (name : κ → κ') (injective : Function.Injective name) (f : ν → ν')
    (dict : Dict κ ν) : Dict κ' ν' :=
  ⟨dict.entries.map fun entry => (name entry.1, f entry.2), by
    have keys : (dict.entries.map fun entry => (name entry.1, f entry.2)).map Prod.fst =
        (dict.entries.map Prod.fst).map name := by simp [List.map_map, Function.comp_def]
    rw [keys]
    exact dict.distinct.map injective⟩

theorem rename_set (name : κ → κ') (injective : Function.Injective name) (f : ν → ν')
    (dict : Dict κ ν) (key : κ) (value : ν) :
    (dict.set key value).rename name injective f =
      (dict.rename name injective f).set (name key) (f value) := by
  apply ext
  change (putEntry key value dict.entries).map _ = putEntry (name key) (f value) (dict.entries.map _)
  induction dict.entries with
  | nil => rfl
  | cons entry rest ih =>
      obtain ⟨found, old⟩ := entry
      by_cases same : found = key
      · simp [putEntry, same]
      · have renamed : name found ≠ name key := fun equal => same (injective equal)
        simp [putEntry, same, renamed, ih]

end Dict

end RaceTracker.Lib
