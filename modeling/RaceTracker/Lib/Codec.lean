import Mathlib.Data.List.Nodup
import RaceTracker.Lib.Json

namespace RaceTracker.Lib

/-! How a Go type travels through `encoding/json`.

A `Codec` writes a value and reads one back into a variable that already holds
something, because Go decodes in place: a key that is absent leaves its field
alone, and a repeated key is decoded over the earlier one.  The law every codec
carries is about a fresh variable: what was written is what is read.
-/

structure Codec (τ : Type) where
  zero : τ
  /-- The values `omitempty` leaves out. -/
  isEmpty : τ → Bool
  marshal : τ → Json
  /-- Decode into a variable holding the first argument; `none` is a type error. -/
  unmarshal : τ → Json → Option τ
  roundTrip : ∀ value, unmarshal zero (marshal value) = some value
  isEmpty_zero : ∀ value, isEmpty value = true → value = zero

namespace Codec

variable {τ : Type}

def readInt64 (number : Number) : Option Int64 :=
  if number.plain ∧ number.value.den = 1 ∧ Int64.minValue.toInt ≤ number.value.num ∧
      number.value.num ≤ Int64.maxValue.toInt then
    some (Int64.ofInt number.value.num)
  else none

theorem readInt64_int (value : Int64) : readInt64 ⟨(value.toInt : Rat), true⟩ = some value := by
  have low : Int64.minValue.toInt ≤ value.toInt := Int64.minValue_le_toInt value
  have high : value.toInt ≤ Int64.maxValue.toInt := Int64.toInt_le value
  simp only [readInt64, Rat.den_intCast, Rat.num_intCast, low, high, and_self, if_true,
    Int64.ofInt_toInt]

theorem readInt64_eq_some {number : Number} {value : Int64}
    (read : readInt64 number = some value) : value.toInt = number.value.num := by
  unfold readInt64 at read
  split at read
  · rename_i fits
    cases read
    have low := fits.2.2.1
    have high := fits.2.2.2
    rw [Int64.toInt_minValue] at low
    rw [Int64.toInt_maxValue] at high
    exact Int64.toInt_ofInt_of_le low (by omega)
  · cases read

def int64 : Codec Int64 where
  zero := 0
  isEmpty value := value == 0
  marshal value := .int value.toInt
  unmarshal old
    | .null => some old
    | .num number => readInt64 number
    | _ => none
  roundTrip := readInt64_int
  isEmpty_zero _ empty := eq_of_beq empty

def string : Codec String where
  zero := ""
  isEmpty value := value == ""
  marshal := .str
  unmarshal old
    | .null => some old
    | .str text => some text
    | _ => none
  roundTrip _ := rfl
  isEmpty_zero _ empty := eq_of_beq empty

def bool : Codec Bool where
  zero := false
  isEmpty value := !value
  marshal := .bool
  unmarshal old
    | .null => some old
    | .bool value => some value
    | _ => none
  roundTrip _ := rfl
  isEmpty_zero := by decide

def readFloat64 (number : Number) : Option F64 :=
  if finite : (nearest number.value).num.natAbs ≤ maxDouble * (nearest number.value).den then
    some ⟨nearest number.value, nearest_idempotent number.value, finite⟩
  else none

theorem readFloat64_value (value : F64) (plain : Bool) :
    readFloat64 ⟨value.value, plain⟩ = some value := by
  obtain ⟨value, double, finite⟩ := value
  simp [readFloat64, double, finite]

def float64 : Codec F64 where
  zero := ⟨0, by decide, Nat.zero_le _⟩
  isEmpty value := value.value == 0
  marshal value := .num ⟨value.value, value.value.den = 1 ∧ value.value.num.natAbs < 10 ^ 21⟩
  unmarshal old
    | .null => some old
    | .num number => readFloat64 number
    | _ => none
  roundTrip value := readFloat64_value value _
  isEmpty_zero value empty := by
    obtain ⟨value, double, finite⟩ := value
    simp only [beq_iff_eq] at empty
    simp [empty]

/-- Decode the elements of an array over the elements already there. -/
def unmarshalItems (codec : Codec τ) : List τ → List Json → Option (List τ)
  | _, [] => some []
  | old, item :: rest => do
      let value ← codec.unmarshal (old.headD codec.zero) item
      let values ← unmarshalItems codec old.tail rest
      some (value :: values)

theorem unmarshalItems_marshal (codec : Codec τ) (values : List τ) :
    codec.unmarshalItems [] (values.map codec.marshal) = some values := by
  induction values with
  | nil => rfl
  | cons value rest ih => simp [unmarshalItems, codec.roundTrip, ih]

theorem unmarshalItems_eq_some_iff (codec : Codec τ) {items : List Json} {values : List τ} :
    codec.unmarshalItems [] items = some values ↔
      List.Forall₂ (fun item value => codec.unmarshal codec.zero item = some value) items values := by
  induction items generalizing values with
  | nil => simp [unmarshalItems, eq_comm]
  | cons item rest ih =>
      simp only [unmarshalItems, List.headD_nil, List.tail_nil, bind, Option.bind_eq_some_iff,
        Option.some.injEq, List.forall₂_cons_left_iff, ih]
      constructor
      · intro read
        obtain ⟨value, first, others, later, same⟩ := read
        exact ⟨value, others, first, later, same.symm⟩
      · intro read
        obtain ⟨value, others, first, later, same⟩ := read
        exact ⟨value, first, others, later, same.symm⟩

/-- A slice behind `omitempty`: nil and empty are written alike. -/
def list (codec : Codec τ) : Codec (List τ) where
  zero := []
  isEmpty values := values.isEmpty
  marshal values := .arr (values.map codec.marshal)
  unmarshal old
    | .null => some []
    | .arr items => codec.unmarshalItems old items
    | _ => none
  roundTrip := codec.unmarshalItems_marshal
  isEmpty_zero _ empty := List.isEmpty_iff.mp empty

/-- A slice that is always written, nil as `null`. -/
def slice (codec : Codec τ) : Codec (Option (List τ)) where
  zero := none
  isEmpty values := values.isNone
  marshal
    | none => .null
    | some values => .arr (values.map codec.marshal)
  unmarshal old
    | .null => some none
    | .arr items => (codec.unmarshalItems (old.getD []) items).map some
    | _ => none
  roundTrip
    | none => rfl
    | some values => by simp [codec.unmarshalItems_marshal]
  isEmpty_zero _ empty := Option.isNone_iff_eq_none.mp empty

/-- An integer map key, as `strconv.ParseInt` reads it. -/
def parseKey (text : String) : Option Int64 := do
  let value ← parseDecimal text
  readInt64 ⟨value, true⟩

def keyText (key : Int64) : String := decimal key.toInt

theorem parseKey_keyText (key : Int64) : parseKey (keyText key) = some key := by
  simp [parseKey, keyText, parseDecimal_decimal, readInt64_int]

theorem keyText_injective : Function.Injective keyText := by
  intro left right same
  have parsed := congrArg parseKey same
  simpa only [parseKey_keyText, Option.some.injEq] using parsed

def unmarshalMembers (codec : Codec τ) :
    Dict Int64 τ → List (String × Json) → Option (Dict Int64 τ)
  | old, [] => some old
  | old, (name, json) :: rest => do
      let key ← parseKey name
      let value ← codec.unmarshal codec.zero json
      unmarshalMembers codec (old.set key value) rest

def marshalMembers (codec : Codec τ) (dict : Dict Int64 τ) : List (String × Json) :=
  dict.entries.map fun entry => (keyText entry.1, codec.marshal entry.2)

theorem unmarshalMembers_marshal (codec : Codec τ) (dict : Dict Int64 τ) :
    codec.unmarshalMembers .empty (codec.marshalMembers dict) = some dict := by
  have written (entries : List (Int64 × τ)) (start : Dict Int64 τ) :
      codec.unmarshalMembers start (entries.map fun entry => (keyText entry.1, codec.marshal entry.2)) =
        some (entries.foldl (fun dict entry => dict.set entry.1 entry.2) start) := by
    induction entries generalizing start with
    | nil => rfl
    | cons entry rest ih =>
        simp [unmarshalMembers, parseKey_keyText, codec.roundTrip, ih]
  rw [marshalMembers, written]
  exact congrArg some (Dict.ofMembers_entries dict)

/-- Members named by distinct decimal integers decode entry by entry. -/
theorem get?_unmarshalMembers (codec : Codec τ) {members : List (String × Json)}
    {old dict : Dict Int64 τ} (keyed : ∀ member ∈ members, ∃ key, member.1 = keyText key)
    (distinct : (members.map Prod.fst).Nodup) (read : codec.unmarshalMembers old members = some dict)
    (key : Int64) :
    dict.get? key = (Dict.findEntry (keyText key) members).elim (old.get? key)
      (codec.unmarshal codec.zero) := by
  induction members generalizing old with
  | nil =>
      cases read
      rfl
  | cons member rest ih =>
      obtain ⟨name, json⟩ := member
      obtain ⟨own, rfl⟩ := keyed _ (List.mem_cons_self ..)
      rw [List.map_cons, List.nodup_cons] at distinct
      simp only [unmarshalMembers, parseKey_keyText, bind, Option.bind_some,
        Option.bind_eq_some_iff] at read
      obtain ⟨value, decoded, read⟩ := read
      rw [ih (fun member listed => keyed member (List.mem_cons_of_mem _ listed)) distinct.2 read,
        Dict.findEntry]
      by_cases same : own = key
      · subst same
        simp [Dict.findEntry_eq_none distinct.1, decoded]
      · have other : keyText own ≠ keyText key := fun equal => same (keyText_injective equal)
        simp [other, Dict.get?_set, same]

theorem unmarshalMembers_isSome_iff (codec : Codec τ) {members : List (String × Json)}
    (keyed : ∀ member ∈ members, ∃ key, member.1 = keyText key) (old : Dict Int64 τ) :
    (codec.unmarshalMembers old members).isSome ↔
      ∀ member ∈ members, (codec.unmarshal codec.zero member.2).isSome := by
  induction members generalizing old with
  | nil => simp [unmarshalMembers]
  | cons member rest ih =>
      obtain ⟨name, json⟩ := member
      obtain ⟨own, rfl⟩ := keyed _ (List.mem_cons_self ..)
      have others := fun old => ih (fun member listed => keyed member (List.mem_cons_of_mem _ listed)) old
      simp only [unmarshalMembers, parseKey_keyText, bind, Option.bind_some, List.forall_mem_cons]
      cases decoded : codec.unmarshal codec.zero json with
      | none => simp
      | some value => simpa using others _

/-- A map behind `omitempty`. -/
def dict (codec : Codec τ) : Codec (Dict Int64 τ) where
  zero := .empty
  isEmpty value := value.entries.isEmpty
  marshal value := .obj (codec.marshalMembers value)
  unmarshal old
    | .null => some .empty
    | .obj members => codec.unmarshalMembers old members
    | _ => none
  roundTrip := codec.unmarshalMembers_marshal
  isEmpty_zero _ empty := Dict.ext (List.isEmpty_iff.mp empty)

/-- A map that is always written, nil as `null`. -/
def mapping (codec : Codec τ) : Codec (Option (Dict Int64 τ)) where
  zero := none
  isEmpty value := value.isNone
  marshal
    | none => .null
    | some value => .obj (codec.marshalMembers value)
  unmarshal old
    | .null => some none
    | .obj members => (codec.unmarshalMembers (old.getD .empty) members).map some
    | _ => none
  roundTrip
    | none => rfl
    | some value => by simp [codec.unmarshalMembers_marshal]
  isEmpty_zero _ empty := Option.isNone_iff_eq_none.mp empty

def pointer (codec : Codec τ) (present : ∀ value, codec.marshal value ≠ .null) :
    Codec (Option τ) where
  zero := none
  isEmpty value := value.isNone
  marshal
    | none => .null
    | some value => codec.marshal value
  unmarshal old
    | .null => some none
    | json => (codec.unmarshal (old.getD codec.zero) json).map some
  roundTrip
    | none => rfl
    | some value => by
        have read := codec.roundTrip value
        cases written : codec.marshal value with
        | null => exact absurd written (present value)
        | _ =>
            rw [written] at read
            simp [written, read]
  isEmpty_zero _ empty := Option.isNone_iff_eq_none.mp empty

/-- `encoding/json` matches keys to fields up to Unicode case folding; against an
ASCII field name that is ASCII case, the Kelvin sign and the long s. -/
def foldChar (char : Char) : Char :=
  if char = '\u212a' then 'k' else if char = '\u017f' then 's' else char.toLower

def foldName (name : String) : List Char := name.toList.map foldChar

def members (entries : List (String × Option Json)) : List (String × Json) :=
  entries.filterMap fun entry => entry.2.map (entry.1, ·)

/-- Decode every member that matches the field's name, in the order of the text. -/
def field (codec : Codec τ) (name : String) : List (String × Json) → τ → Option τ
  | [], old => some old
  | (found, json) :: rest, old =>
      if foldName found = foldName name then (codec.unmarshal old json).bind (field codec name rest)
      else field codec name rest old

theorem field_of_fresh (codec : Codec τ) {name : String} {entries : List (String × Option Json)}
    (fresh : foldName name ∉ entries.map fun entry => foldName entry.1) (old : τ) :
    codec.field name (members entries) old = some old := by
  induction entries with
  | nil => rfl
  | cons entry rest ih =>
      obtain ⟨found, json⟩ := entry
      simp only [List.map_cons, List.mem_cons, not_or] at fresh
      have tail : codec.field name (members rest) old = some old := ih fresh.2
      cases json with
      | none => simpa [members] using tail
      | some json => simpa [members, field, Ne.symm fresh.1] using tail

theorem field_skip (codec : Codec τ) {name other : String}
    (different : foldName other ≠ foldName name) (before after : List (String × Option Json))
    (json : Option Json) (old : τ) :
    codec.field name (members (before ++ (other, json) :: after)) old =
      codec.field name (members (before ++ after)) old := by
  induction before generalizing old with
  | nil =>
      cases json with
      | none => rfl
      | some json => exact if_neg different
  | cons entry rest ih =>
      obtain ⟨found, written⟩ := entry
      cases written with
      | none => exact ih old
      | some written =>
          change codec.field name ((found, written) :: members (rest ++ (other, json) :: after)) old =
            codec.field name ((found, written) :: members (rest ++ after)) old
          rw [field, field, ih, funext ih]

/-- A struct's own field is decoded from the field's own entry and no other. -/
theorem field_entry (codec : Codec τ) {name : String} {json : Option Json}
    {entries : List (String × Option Json)}
    (distinct : (entries.map fun entry => foldName entry.1).Nodup)
    (member : (name, json) ∈ entries) (old : τ) :
    codec.field name (members entries) old = json.elim (some old) (codec.unmarshal old) := by
  induction entries with
  | nil => cases member
  | cons entry rest ih =>
      obtain ⟨found, written⟩ := entry
      simp only [List.map_cons, List.nodup_cons] at distinct
      rcases List.mem_cons.mp member with same | inRest
      · cases same
        have tail (old : τ) : codec.field name (members rest) old = some old :=
          codec.field_of_fresh distinct.1 old
        cases json with
        | none => simpa [members] using tail old
        | some json =>
            change codec.field name ((name, json) :: members rest) old = codec.unmarshal old json
            have kept : (codec.field name (members rest)) = some := funext tail
            simp [field, kept]
      · have other : foldName found ≠ foldName name := by
          intro same
          rw [same] at distinct
          exact distinct.1 (List.mem_map.mpr ⟨(name, json), inRest, rfl⟩)
        have tail := ih distinct.2 inRest
        cases written with
        | none => simpa [members] using tail
        | some json => simpa [members, field, other] using tail

theorem names_distinct {entries : List (String × Option Json)}
    (distinct : (entries.map fun entry => foldName entry.1).Nodup) :
    (entries.map Prod.fst).Nodup := by
  have folded : ((entries.map Prod.fst).map foldName).Nodup := by
    rw [List.map_map]
    exact distinct
  exact folded.of_map

theorem name_of_members {name : String} {entries : List (String × Option Json)}
    (present : name ∈ (members entries).map Prod.fst) : name ∈ entries.map Prod.fst := by
  obtain ⟨member, written, rfl⟩ := List.mem_map.mp present
  obtain ⟨entry, listed, value⟩ := List.mem_filterMap.mp written
  obtain ⟨_, _, rfl⟩ := Option.map_eq_some_iff.mp value
  exact List.mem_map_of_mem listed

/-- What a reader of the whole object sees under an entry's key. -/
theorem lookup_members {name : String} {json : Option Json} {entries : List (String × Option Json)}
    (distinct : (entries.map Prod.fst).Nodup) (member : (name, json) ∈ entries) :
    Json.lookup name (members entries) = json := by
  induction entries with
  | nil => cases member
  | cons entry rest ih =>
      obtain ⟨found, written⟩ := entry
      simp only [List.map_cons, List.nodup_cons] at distinct
      rcases List.mem_cons.mp member with same | inRest
      · cases same
        have later : Json.lookup name (members rest) = none :=
          Json.lookup_eq_none fun present => distinct.1 (name_of_members present)
        cases json with
        | none => exact later
        | some json =>
            change Json.lookup name ((name, json) :: members rest) = some json
            simp [Json.lookup, later]
      · have tail := ih distinct.2 inRest
        cases written with
        | none => exact tail
        | some json =>
            have other : found ≠ name := by
              intro same
              subst same
              exact distinct.1 (List.mem_map_of_mem (f := Prod.fst) inRest)
            change Json.lookup name ((found, json) :: members rest) = _
            simp [Json.lookup, other, tail]

end Codec

/-- The fields of a struct in declaration order, as a nested tuple. -/
structure Record (ρ : Type) where
  zero : ρ
  names : List String
  entries : ρ → List (String × Option Json)
  entries_names : ∀ values, (entries values).map Prod.fst = names
  read : List (String × Json) → ρ → Option ρ
  /-- The fields are read back even when other fields stand beside them. -/
  read_entries : ∀ values whole, (whole.map fun entry => Codec.foldName entry.1).Nodup →
    entries values ⊆ whole → read (Codec.members whole) zero = some values

namespace Record

variable {τ ρ σ : Type}

def nil : Record Unit where
  zero := ()
  names := []
  entries _ := []
  entries_names _ := rfl
  read _ _ := some ()
  read_entries _ _ _ _ := rfl

/-- Prepend a field that is written as `write` says. -/
def field (name : String) (codec : Codec τ) (write : τ → Option Json)
    (reads : ∀ value, (write value).elim (some codec.zero) (codec.unmarshal codec.zero) = some value)
    (rest : Record ρ) : Record (τ × ρ) where
  zero := (codec.zero, rest.zero)
  names := name :: rest.names
  entries values := (name, write values.1) :: rest.entries values.2
  entries_names values := by simp [rest.entries_names]
  read members old := do
    let value ← codec.field name members old.1
    let values ← rest.read members old.2
    some (value, values)
  read_entries values whole distinct sub := by
    have own : codec.field name (Codec.members whole) codec.zero = some values.1 :=
      (codec.field_entry distinct (sub (List.mem_cons_self ..)) _).trans (reads values.1)
    have others : rest.read (Codec.members whole) rest.zero = some values.2 :=
      rest.read_entries values.2 whole distinct fun _ member => sub (List.mem_cons_of_mem _ member)
    simp [own, others]

def always (name : String) (codec : Codec τ) (rest : Record ρ) : Record (τ × ρ) :=
  field name codec (fun value => some (codec.marshal value)) codec.roundTrip rest

def omitempty (name : String) (codec : Codec τ) (rest : Record ρ) : Record (τ × ρ) :=
  field name codec (fun value => if codec.isEmpty value then none else some (codec.marshal value))
    (fun value => by
      cases empty : codec.isEmpty value with
      | true => simp [codec.isEmpty_zero value empty]
      | false => simp [codec.roundTrip value])
    rest

@[simp] theorem read_always {name : String} {codec : Codec τ} {rest : Record ρ}
    {members : List (String × Json)} {old values : τ × ρ} :
    (always name codec rest).read members old = some values ↔
      codec.field name members old.1 = some values.1 ∧ rest.read members old.2 = some values.2 := by
  obtain ⟨value, others⟩ := values
  simp [always, field, Option.bind_eq_some_iff]

@[simp] theorem read_omitempty {name : String} {codec : Codec τ} {rest : Record ρ}
    {members : List (String × Json)} {old values : τ × ρ} :
    (omitempty name codec rest).read members old = some values ↔
      codec.field name members old.1 = some values.1 ∧ rest.read members old.2 = some values.2 := by
  obtain ⟨value, others⟩ := values
  simp [omitempty, field, Option.bind_eq_some_iff]

def toObject (record : Record ρ) (values : ρ) : Json := .obj (Codec.members (record.entries values))

theorem entries_distinct (record : Record ρ) (distinct : (record.names.map Codec.foldName).Nodup)
    (values : ρ) : ((record.entries values).map fun entry => Codec.foldName entry.1).Nodup := by
  rw [← record.entries_names values, List.map_map] at distinct
  exact distinct

theorem read_toObject (record : Record ρ) (distinct : (record.names.map Codec.foldName).Nodup)
    (values : ρ) : record.read (Codec.members (record.entries values)) record.zero = some values :=
  record.read_entries values _ (record.entries_distinct distinct values) (List.Subset.refl _)

def written? (record : Record ρ) (values : ρ) (name : String) : Option Json :=
  ((record.entries values).find? fun entry => entry.1 = name).bind Prod.snd

theorem get?_toObject (record : Record ρ) (distinct : (record.names.map Codec.foldName).Nodup)
    (values : ρ) (name : String) : (record.toObject values).get? name = record.written? values name := by
  have names : ((record.entries values).map Prod.fst).Nodup := by
    rw [record.entries_names]
    exact distinct.of_map
  change Json.lookup name (Codec.members (record.entries values)) = _
  cases found : (record.entries values).find? fun entry => entry.1 = name with
  | some entry =>
      have own : entry.1 = name := by simpa using List.find?_some found
      rw [written?, found, Option.bind_some]
      exact Codec.lookup_members names (own ▸ List.mem_of_find?_eq_some found)
  | none =>
      rw [written?, found, Option.bind_none]
      apply Json.lookup_eq_none
      intro present
      obtain ⟨entry, listed, same⟩ := List.mem_map.mp (Codec.name_of_members present)
      exact List.find?_eq_none.mp found entry listed (by simpa using same)

/-- A struct whose fields are the record's, `view` and `build` going back and forth. -/
def codec (record : Record ρ) (distinct : (record.names.map Codec.foldName).Nodup)
    (view : σ → ρ) (build : ρ → σ) (inverse : ∀ struct, build (view struct) = struct)
    (fresh : view (build record.zero) = record.zero) : Codec σ where
  zero := build record.zero
  isEmpty _ := false
  marshal struct := record.toObject (view struct)
  unmarshal old
    | .null => some old
    | .obj members => (record.read members (view old)).map build
    | _ => none
  roundTrip struct := by
    change (record.read (Codec.members (record.entries (view struct)))
      (view (build record.zero))).map build = some struct
    rw [fresh, record.read_toObject distinct, Option.map_some, inverse]
  isEmpty_zero _ empty := by cases empty

/-- An object decodes to the struct whose fields are read from it. -/
theorem unmarshal_obj_iff {record : Record ρ} {distinct : (record.names.map Codec.foldName).Nodup}
    {view : σ → ρ} {build : ρ → σ} {inverse : ∀ struct, build (view struct) = struct}
    {fresh : view (build record.zero) = record.zero} (onto : ∀ values, view (build values) = values)
    {old struct : σ} {members : List (String × Json)} :
    (record.codec distinct view build inverse fresh).unmarshal old (.obj members) = some struct ↔
      record.read members (view old) = some (view struct) := by
  refine Option.map_eq_some_iff.trans ⟨?_, ?_⟩
  · intro read
    obtain ⟨values, read, rfl⟩ := read
    rw [onto]
    exact read
  · intro read
    exact ⟨_, read, inverse struct⟩

theorem codec_ne_null {record : Record ρ} {distinct : (record.names.map Codec.foldName).Nodup}
    {view : σ → ρ} {build : ρ → σ} {inverse : ∀ struct, build (view struct) = struct}
    {fresh : view (build record.zero) = record.zero} (struct : σ) :
    (record.codec distinct view build inverse fresh).marshal struct ≠ .null := by
  intro same
  cases same

end Record

end RaceTracker.Lib
