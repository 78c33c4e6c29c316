import RaceTracker.Lib.Dict
import RaceTracker.Lib.Double

namespace RaceTracker.Lib

/-! JSON texts, after lexing.

Numbers keep their exact value; `plain` records whether the literal was an
integer without fraction or exponent, which Go's integer decoding insists on.
Object members keep the order and the repetitions of the text.
-/

structure Number where
  value : Rat
  plain : Bool
deriving DecidableEq, Repr

inductive Json where
  | null
  | bool (value : Bool)
  | num (number : Number)
  | str (text : String)
  | arr (items : List Json)
  | obj (members : List (String × Json))

namespace Json

def int (value : Int) : Json := .num ⟨value, true⟩

/-- The value a reader of the whole object sees under `name`: the last one written. -/
def lookup {ν : Type} (name : String) : List (String × ν) → Option ν
  | [] => none
  | (found, value) :: rest => (lookup name rest).or (if found = name then some value else none)

def get? (name : String) : Json → Option Json
  | obj members => lookup name members
  | _ => none

theorem lookup_map {ν ν' : Type} (name : String) (f : ν → ν') (members : List (String × ν)) :
    lookup name (members.map fun member => (member.1, f member.2)) = (lookup name members).map f := by
  induction members with
  | nil => rfl
  | cons member rest ih =>
      simp only [List.map_cons, lookup, ih]
      cases lookup name rest <;> by_cases same : member.1 = name <;> simp [same]

theorem lookup_eq_none {ν : Type} {name : String} {members : List (String × ν)}
    (absent : name ∉ members.map Prod.fst) : lookup name members = none := by
  induction members with
  | nil => rfl
  | cons member rest ih =>
      simp only [List.map_cons, List.mem_cons, not_or] at absent
      simp [lookup, ih absent.2, Ne.symm absent.1]

theorem lookup_append {ν : Type} (name : String) (first second : List (String × ν)) :
    lookup name (first ++ second) = (lookup name second).or (lookup name first) := by
  induction first with
  | nil => simp [lookup]
  | cons member rest ih => rw [List.cons_append, lookup, lookup, ih, Option.or_assoc]

theorem lookup_isSome {ν : Type} {name : String} {members : List (String × ν)} :
    (lookup name members).isSome ↔ name ∈ members.map Prod.fst := by
  induction members with
  | nil => simp [lookup]
  | cons member rest ih =>
      rw [lookup, Option.isSome_or, Bool.or_eq_true, ih, List.map_cons, List.mem_cons, or_comm]
      by_cases same : member.1 = name
      · simp [same]
      · simp [same, Ne.symm same]

/-- A function of the member whole sees the name that was looked up. -/
theorem lookup_map_member {ν ν' : Type} (name : String) (f : String → ν → ν')
    (members : List (String × ν)) :
    lookup name (members.map fun member => (member.1, f member.1 member.2)) =
      (lookup name members).map (f name) := by
  induction members with
  | nil => rfl
  | cons member rest ih =>
      simp only [List.map_cons, lookup, ih]
      cases lookup name rest <;> by_cases same : member.1 = name <;> simp [same]

theorem get?_foldl_set {ν : Type} (name : String) (members : List (String × ν))
    (start : Dict String ν) :
    (members.foldl (fun dict member => dict.set member.1 member.2) start).get? name =
      (lookup name members).or (start.get? name) := by
  induction members generalizing start with
  | nil => rfl
  | cons member rest ih =>
      rw [List.foldl_cons, ih, Dict.get?_set, lookup, Option.or_assoc]
      split <;> rfl

theorem get?_ofMembers {ν : Type} (name : String) (members : List (String × ν)) :
    (Dict.ofMembers members).get? name = lookup name members := by
  have whole := get?_foldl_set name members .empty
  rwa [Dict.get?_empty, Option.or_none] at whole

/-- Change what stands under `name`, wherever it is written. -/
def adjust (name : String) (f : Json → Json) (members : List (String × Json)) :
    List (String × Json) :=
  members.map fun member => if member.1 = name then (member.1, f member.2) else member

/-- An object without the member `name`; other JSON as it is. -/
def without (name : String) : Json → Json
  | obj members => obj (members.filter fun member => member.1 ≠ name)
  | json => json

theorem lookup_adjust (name : String) (f : Json → Json) (members : List (String × Json)) :
    lookup name (adjust name f members) = (lookup name members).map f := by
  induction members with
  | nil => rfl
  | cons member rest ih =>
      have tail : adjust name f (member :: rest) =
        (if member.1 = name then (member.1, f member.2) else member) :: adjust name f rest := rfl
      rw [tail]
      by_cases here : member.1 = name <;> cases found : lookup name rest <;>
        simp [lookup, ih, here, found]

mutual
def mapNumbers (f : Number → Number) : Json → Json
  | null => null
  | bool value => bool value
  | num number => num (f number)
  | str text => str text
  | arr items => arr (mapItems f items)
  | obj members => obj (mapMembers f members)

def mapItems (f : Number → Number) : List Json → List Json
  | [] => []
  | item :: rest => mapNumbers f item :: mapItems f rest

def mapMembers (f : Number → Number) : List (String × Json) → List (String × Json)
  | [] => []
  | (name, value) :: rest => (name, mapNumbers f value) :: mapMembers f rest
end

/-- What a text says, however its numbers are written. -/
def value : Json → Json := mapNumbers fun number => ⟨number.value, true⟩

/-- What JavaScript's `JSON.parse` builds: every number becomes the nearest double. -/
def parsed : Json → Json := mapNumbers fun number => ⟨nearest number.value, true⟩

theorem mapItems_eq_map (f : Number → Number) (items : List Json) :
    mapItems f items = items.map (mapNumbers f) := by
  induction items with
  | nil => rfl
  | cons item rest ih => simp [mapItems, ih]

theorem mapMembers_eq_map (f : Number → Number) (members : List (String × Json)) :
    mapMembers f members = members.map fun member => (member.1, mapNumbers f member.2) := by
  induction members with
  | nil => rfl
  | cons member rest ih => simp [mapMembers, ih]

theorem get?_mapNumbers (f : Number → Number) (name : String) (json : Json) :
    (json.mapNumbers f).get? name = (json.get? name).map (mapNumbers f) := by
  cases json with
  | obj members => simp only [mapNumbers, mapMembers_eq_map, get?, lookup_map]
  | _ => rfl

theorem get?_parsed (name : String) (json : Json) :
    json.parsed.get? name = (json.get? name).map parsed :=
  get?_mapNumbers _ name json

theorem parsed_obj (members : List (String × Json)) :
    (obj members).parsed = obj (members.map fun member => (member.1, member.2.parsed)) := by
  simp only [parsed, mapNumbers, mapMembers_eq_map]

theorem parsed_arr (items : List Json) : (arr items).parsed = arr (items.map parsed) := by
  simp only [parsed, mapNumbers, mapItems_eq_map]

end Json

end RaceTracker.Lib
