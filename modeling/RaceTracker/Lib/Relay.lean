import RaceTracker.Lib.Codec

namespace RaceTracker.Lib

/-! What survives a relay: an object decoded into a struct, written again, and parsed
by a reader whose numbers are doubles.

A field that was there must be there again with the same value, and one that was
missing must still be missing.  Fields are relayed one by one, so an object is kept
exactly when each field is.
-/

namespace Codec

variable {τ : Type}

/-- Decoded into a fresh variable and written again, the field is what was sent. -/
def Keeps (codec : Codec τ) (write : τ → Option Json) (sent : Option Json) : Prop :=
  ∃ value, sent.elim (some codec.zero) (codec.unmarshal codec.zero) = some value ∧
    (write value).map Json.parsed = sent.map Json.value

def KeepsAlways (codec : Codec τ) (sent : Option Json) : Prop :=
  codec.Keeps (fun value => some (codec.marshal value)) sent

def KeepsOmitempty (codec : Codec τ) (sent : Option Json) : Prop :=
  codec.Keeps (fun value => if codec.isEmpty value then none else some (codec.marshal value)) sent

theorem keepsAlways_none (codec : Codec τ) : ¬ codec.KeepsAlways none := by
  intro keeps
  obtain ⟨_, _, written⟩ := keeps
  cases written

theorem keepsAlways_some (codec : Codec τ) (json : Json) :
    codec.KeepsAlways (some json) ↔
      ∃ value, codec.unmarshal codec.zero json = some value ∧
        (codec.marshal value).parsed = json.value := by
  simp only [KeepsAlways, Keeps, Option.elim_some, Option.map_some, Option.some.injEq]

theorem keepsOmitempty_none (codec : Codec τ) (empty : codec.isEmpty codec.zero = true) :
    codec.KeepsOmitempty none :=
  ⟨codec.zero, rfl, by simp [empty]⟩

theorem keepsOmitempty_some (codec : Codec τ) (json : Json) :
    codec.KeepsOmitempty (some json) ↔
      ∃ value, codec.unmarshal codec.zero json = some value ∧ codec.isEmpty value = false ∧
        (codec.marshal value).parsed = json.value := by
  constructor
  · intro keeps
    obtain ⟨value, read, written⟩ := keeps
    cases empty : codec.isEmpty value with
    | true => simp [empty] at written
    | false => exact ⟨value, read, empty, by simpa [empty] using written⟩
  · intro kept
    obtain ⟨value, read, full, written⟩ := kept
    exact ⟨value, read, by simp [full, written]⟩

/-- An integer that a Go `int` and a double both hold. -/
def Fits (value : Int) : Prop :=
  Int64.minValue.toInt ≤ value ∧ value ≤ Int64.maxValue.toInt ∧ roundInt value = value

instance (value : Int) : Decidable (Fits value) := inferInstanceAs (Decidable (_ ∧ _))

theorem parsed_int (value : Int) : (Json.int value).parsed = .int (roundInt value) := by
  simp [Json.int, Json.parsed, Json.mapNumbers]

theorem value_int (value : Int) : (Json.int value).value = .int value := by
  simp [Json.int, Json.value, Json.mapNumbers]

theorem int_inj {left right : Int} : Json.int left = Json.int right ↔ left = right := by
  simp [Json.int]

theorem unmarshal_int {value : Int} {read : Int64} :
    int64.unmarshal int64.zero (.int value) = some read ↔
      Int64.minValue.toInt ≤ value ∧ value ≤ Int64.maxValue.toInt ∧ read.toInt = value := by
  change readInt64 ⟨value, true⟩ = some read ↔ _
  constructor
  · intro result
    have exact := readInt64_eq_some result
    have low := Int64.minValue_le_toInt read
    have high := Int64.toInt_le read
    rw [Rat.num_intCast] at exact
    rw [exact] at low high
    exact ⟨low, high, exact⟩
  · intro held
    obtain ⟨_, _, rfl⟩ := held
    exact readInt64_int read

theorem fits_iff (value : Int) :
    Fits value ↔ ∃ read, int64.unmarshal int64.zero (.int value) = some read ∧
      (int64.marshal read).parsed = (Json.int value).value := by
  constructor
  · intro fits
    have low := fits.1
    have high := fits.2.1
    rw [Int64.toInt_minValue] at low
    rw [Int64.toInt_maxValue] at high
    have same := Int64.toInt_ofInt_of_le low (by omega)
    refine ⟨Int64.ofInt value, unmarshal_int.mpr ⟨fits.1, fits.2.1, same⟩, ?_⟩
    simp only [int64, same, parsed_int, value_int, fits.2.2]
  · intro kept
    obtain ⟨read, result, written⟩ := kept
    obtain ⟨low, high, same⟩ := unmarshal_int.mp result
    simp only [int64, same, parsed_int, value_int, int_inj] at written
    exact ⟨low, high, written⟩

theorem int64_keepsAlways (sent : Option Int) :
    int64.KeepsAlways (sent.map .int) ↔ ∃ value, sent = some value ∧ Fits value := by
  cases sent with
  | none => simp [keepsAlways_none]
  | some value => simp [keepsAlways_some, ← fits_iff]

theorem int64_keepsOmitempty (sent : Option Int) :
    int64.KeepsOmitempty (sent.map .int) ↔ ∀ value, sent = some value → value ≠ 0 ∧ Fits value := by
  cases sent with
  | none => simp [keepsOmitempty_none int64 rfl]
  | some value =>
      have zero (read : Int64) : int64.isEmpty read = false ↔ read.toInt ≠ 0 := by
        rw [Bool.eq_false_iff]
        exact not_congr (beq_iff_eq.trans Int64.toInt_inj.symm)
      simp only [Option.map_some, keepsOmitempty_some, Option.some.injEq, forall_eq', fits_iff]
      constructor
      · intro kept
        obtain ⟨read, result, full, written⟩ := kept
        exact ⟨(unmarshal_int.mp result).2.2 ▸ (zero read).mp full, read, result, written⟩
      · intro kept
        obtain ⟨nonzero, read, result, written⟩ := kept
        exact ⟨read, result, (zero read).mpr ((unmarshal_int.mp result).2.2.symm ▸ nonzero), written⟩

theorem string_keepsAlways (sent : Json) :
    string.KeepsAlways (some sent) ↔ ∃ text, sent = .str text := by
  rw [keepsAlways_some]
  constructor
  · intro kept
    obtain ⟨read, result, written⟩ := kept
    cases sent with
    | str text => exact ⟨text, rfl⟩
    | null => cases written
    | _ => cases result
  · intro text
    obtain ⟨text, rfl⟩ := text
    exact ⟨text, rfl, rfl⟩

theorem string_keepsOmitempty (sent : Option String) :
    string.KeepsOmitempty (sent.map .str) ↔ sent ≠ some "" := by
  cases sent with
  | none => simp [keepsOmitempty_none string rfl]
  | some text =>
      rw [Option.map_some, keepsOmitempty_some]
      constructor
      · intro kept empty
        obtain ⟨read, result, full, _⟩ := kept
        cases result
        cases empty
        cases full
      · intro nonempty
        refine ⟨text, rfl, ?_, rfl⟩
        rw [Bool.eq_false_iff]
        intro empty
        exact nonempty (congrArg some (eq_of_beq empty))

theorem bool_keepsOmitempty (sent : Option Bool) :
    bool.KeepsOmitempty (sent.map .bool) ↔ sent ≠ some false := by
  cases sent with
  | none => simp [keepsOmitempty_none bool rfl]
  | some value =>
      rw [Option.map_some, keepsOmitempty_some]
      cases value with
      | true => exact ⟨fun _ => by simp, fun _ => ⟨true, rfl, rfl, rfl⟩⟩
      | false =>
          constructor
          · intro kept
            obtain ⟨read, result, full, _⟩ := kept
            cases result
            cases full
          · intro different
            exact absurd rfl different

end Codec

namespace Record

variable {τ ρ : Type}

/-- Decoded into a fresh struct and written again, every field is what was sent. -/
def Relays (record : Record ρ) (whole : List (String × Option Json)) : Prop :=
  ∃ values, record.read (Codec.members whole) record.zero = some values ∧
    ∀ name ∈ record.names, (record.written? values name).map Json.parsed =
      (Json.lookup name (Codec.members whole)).map Json.value

variable {whole : List (String × Option Json)}

theorem relays_nil : nil.Relays whole :=
  ⟨(), rfl, fun _ member => by cases member⟩

theorem field_lookup (codec : Codec τ) {name : String}
    (distinct : (whole.map fun entry => Codec.foldName entry.1).Nodup)
    (known : name ∈ whole.map Prod.fst) (old : τ) :
    codec.field name (Codec.members whole) old =
      (Json.lookup name (Codec.members whole)).elim (some old) (codec.unmarshal old) := by
  obtain ⟨⟨_, json⟩, member, rfl⟩ := List.mem_map.mp known
  rw [codec.field_entry distinct member, Codec.lookup_members (Codec.names_distinct distinct) member]

theorem relays_field {name : String} {codec : Codec τ} {write : τ → Option Json}
    {reads : ∀ value, (write value).elim (some codec.zero) (codec.unmarshal codec.zero) = some value}
    {rest : Record ρ} (distinct : (whole.map fun entry => Codec.foldName entry.1).Nodup)
    (known : name ∈ whole.map Prod.fst) (fresh : name ∉ rest.names) :
    (field name codec write reads rest).Relays whole ↔
      codec.Keeps write (Json.lookup name (Codec.members whole)) ∧ rest.Relays whole := by
  have own (values : τ × ρ) :
      (field name codec write reads rest).written? values name = write values.1 := by
    simp [written?, field]
  have others (values : τ × ρ) (other : String) (member : other ∈ rest.names) :
      (field name codec write reads rest).written? values other = rest.written? values.2 other := by
    have different : name ≠ other := fun same => fresh (same ▸ member)
    simp [written?, field, different]
  have split (values : τ × ρ) :
      (field name codec write reads rest).read (Codec.members whole)
          (field name codec write reads rest).zero = some values ↔
        codec.field name (Codec.members whole) codec.zero = some values.1 ∧
          rest.read (Codec.members whole) rest.zero = some values.2 := by
    obtain ⟨value, later⟩ := values
    simp [field, Option.bind_eq_some_iff]
  constructor
  · intro relays
    obtain ⟨values, read, same⟩ := relays
    obtain ⟨first, later⟩ := (split values).mp read
    refine ⟨⟨values.1, (field_lookup codec distinct known _).symm.trans first, ?_⟩,
      values.2, later, ?_⟩
    · rw [← own values]
      exact same name (List.mem_cons_self ..)
    · intro other member
      rw [← others values other member]
      exact same other (List.mem_cons_of_mem _ member)
  · intro relays
    obtain ⟨⟨value, first, kept⟩, values, later, same⟩ := relays
    refine ⟨(value, values), (split _).mpr
      ⟨(field_lookup codec distinct known _).trans first, later⟩, ?_⟩
    intro other member
    rcases List.mem_cons.mp member with rfl | inRest
    · rw [own]
      exact kept
    · rw [others _ other inRest]
      exact same other inRest

theorem relays_always {name : String} {codec : Codec τ} {rest : Record ρ}
    (distinct : (whole.map fun entry => Codec.foldName entry.1).Nodup)
    (known : name ∈ whole.map Prod.fst) (fresh : name ∉ rest.names) :
    (always name codec rest).Relays whole ↔
      codec.KeepsAlways (Json.lookup name (Codec.members whole)) ∧ rest.Relays whole :=
  relays_field distinct known fresh

theorem relays_omitempty {name : String} {codec : Codec τ} {rest : Record ρ}
    (distinct : (whole.map fun entry => Codec.foldName entry.1).Nodup)
    (known : name ∈ whole.map Prod.fst) (fresh : name ∉ rest.names) :
    (omitempty name codec rest).Relays whole ↔
      codec.KeepsOmitempty (Json.lookup name (Codec.members whole)) ∧ rest.Relays whole :=
  relays_field distinct known fresh

/-- Outside the record's own names neither side has anything to compare. -/
theorem alike_iff (record : Record ρ) (distinct : (record.names.map Codec.foldName).Nodup)
    (known : whole.map Prod.fst ⊆ record.names) (values : ρ) :
    (∀ name, (record.toObject values).parsed.get? name =
        (Json.lookup name (Codec.members whole)).map Json.value) ↔
      ∀ name ∈ record.names, (record.written? values name).map Json.parsed =
        (Json.lookup name (Codec.members whole)).map Json.value := by
  have received (name : String) : (record.toObject values).parsed.get? name =
      (record.written? values name).map Json.parsed := by
    rw [Json.get?_parsed, record.get?_toObject distinct]
  constructor
  · intro alike name _
    rw [← received, alike]
  · intro alike name
    rw [received]
    by_cases own : name ∈ record.names
    · exact alike name own
    · have unsent : name ∉ (Codec.members whole).map Prod.fst :=
        fun present => own (known (Codec.name_of_members present))
      have unwritten : (record.entries values).find? (fun entry => entry.1 = name) = none := by
        rw [List.find?_eq_none]
        intro entry listed same
        have named : entry.1 = name := by simpa using same
        rw [← record.entries_names values] at own
        exact own (named ▸ List.mem_map_of_mem listed)
      rw [written?, unwritten, Json.lookup_eq_none unsent]
      rfl

end Record

end RaceTracker.Lib
