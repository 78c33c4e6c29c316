import Mathlib.Data.List.Basic

namespace RaceTracker.Lib

/-! Query strings as browsers read and write them: percent-encoding over UTF-8, and lists of names
and values.
-/

abbrev Text := List Char

/-- A decoder between two bytes: what it has of a code point, how many bytes are to come, and the
range of the next one. -/
structure Utf8State where
  codePoint : Nat
  needed : Nat
  lower : Nat
  upper : Nat

def Utf8State.idle : Utf8State := ⟨0, 0, 0x80, 0xBF⟩

def replacement : Char := Char.ofNat 0xFFFD

/-- A byte that starts a code point. -/
def leadByte (byte : Nat) : Text × Utf8State :=
  if byte ≤ 0x7F then ([Char.ofNat byte], .idle)
  else if 0xC2 ≤ byte ∧ byte ≤ 0xDF then ([], ⟨byte % 0x20, 1, 0x80, 0xBF⟩)
  else if 0xE0 ≤ byte ∧ byte ≤ 0xEF then
    ([], ⟨byte % 0x10, 2, if byte = 0xE0 then 0xA0 else 0x80, if byte = 0xED then 0x9F else 0xBF⟩)
  else if 0xF0 ≤ byte ∧ byte ≤ 0xF4 then
    ([], ⟨byte % 0x08, 3, if byte = 0xF0 then 0x90 else 0x80, if byte = 0xF4 then 0x8F else 0xBF⟩)
  else ([replacement], .idle)

def decodeByte (state : Utf8State) (byte : Nat) : Text × Utf8State :=
  if state.needed = 0 then leadByte byte
  else if state.lower ≤ byte ∧ byte ≤ state.upper then
    let codePoint := state.codePoint * 0x40 + byte % 0x40
    if state.needed = 1 then ([Char.ofNat codePoint], .idle)
    else ([], ⟨codePoint, state.needed - 1, 0x80, 0xBF⟩)
  -- A byte out of range ends the code point with an error and is read again.
  else (replacement :: (leadByte byte).1, (leadByte byte).2)

/-- Bytes that are no UTF-8 leave replacement characters. -/
def decodeUtf8 (state : Utf8State) : List UInt8 → Text
  | [] => if state.needed = 0 then [] else [replacement]
  | byte :: rest =>
      (decodeByte state byte.toNat).1 ++ decodeUtf8 (decodeByte state byte.toNat).2 rest

def hexValue (byte : UInt8) : Option UInt8 :=
  if 0x30 ≤ byte ∧ byte ≤ 0x39 then some (byte - 0x30)
  else if 0x41 ≤ byte ∧ byte ≤ 0x46 then some (byte - 0x37)
  else if 0x61 ≤ byte ∧ byte ≤ 0x66 then some (byte - 0x57)
  else none

/-- A percent sign without two hexadecimal digits after it stands for itself. -/
def percentDecode : List UInt8 → List UInt8
  | 0x25 :: high :: low :: rest =>
      match hexValue high, hexValue low with
      | some high, some low => (high * 0x10 + low) :: percentDecode rest
      | _, _ => 0x25 :: percentDecode (high :: low :: rest)
  | byte :: rest => byte :: percentDecode rest
  | [] => []

def formDecode (text : Text) : Text :=
  decodeUtf8 .idle (percentDecode ((text.map fun c => if c = '+' then ' ' else c).flatMap String.utf8EncodeChar))

/-- What stands before and after the first `c`. -/
def cutAt (c : Char) : Text → Option (Text × Text)
  | [] => none
  | d :: rest => if d = c then some ([], rest) else (cutAt c rest).map fun parts => (d :: parts.1, parts.2)

def withoutQuestion : Text → Text
  | '?' :: rest => rest
  | query => query

/-- `new URLSearchParams(query)` -/
def searchParams (query : Text) : List (Text × Text) :=
  (((withoutQuestion query).splitOn '&').filter (· ≠ [])).map fun piece =>
    match cutAt '=' piece with
    | some (name, value) => (formDecode name, formDecode value)
    | none => (formDecode piece, [])

/-- `params.get(name)`; `none` is null. -/
def getParam (params : List (Text × Text)) (name : Text) : Option Text :=
  (params.find? fun pair => pair.1 = name).map Prod.snd

/-- What `encodeURIComponent` writes as it is. -/
def isUnreserved (c : Char) : Bool :=
  c.isAlphanum || c ∈ ['-', '_', '.', '!', '~', '*', '(', ')'] || c.toNat = 0x27

def hexDigit (value : Nat) : Char := Char.ofNat (if value < 10 then 0x30 + value else 0x37 + value)

def encodeURIComponent (text : Text) : Text :=
  text.flatMap fun c =>
    if isUnreserved c then [c]
    else (String.utf8EncodeChar c).flatMap fun byte =>
      ['%', hexDigit (byte.toNat / 0x10), hexDigit (byte.toNat % 0x10)]

/-- Pairs written one after the other, as they are. -/
def writeParams (pairs : List (Text × Text)) : Text :=
  ['&'].intercalate (pairs.map fun pair => pair.1 ++ '=' :: pair.2)

def Plain (c : Char) : Prop := c.toNat < 128 ∧ c ≠ '%' ∧ c ≠ '+'

instance (c : Char) : Decidable (Plain c) := inferInstanceAs (Decidable (_ ∧ _ ∧ _))

theorem encode_ascii {c : Char} (ascii : c.toNat < 128) :
    String.utf8EncodeChar c = [UInt8.ofNat c.toNat] := by
  have one : c.val.toNat ≤ 0x7F := Nat.le_of_lt_succ ascii
  rw [String.utf8EncodeChar]
  exact if_pos one

theorem percentDecode_cons {byte : UInt8} (other : byte ≠ 0x25) (rest : List UInt8) :
    percentDecode (byte :: rest) = byte :: percentDecode rest := by
  rcases rest with _ | ⟨second, _ | ⟨third, rest⟩⟩
  · rw [percentDecode]
    nofun
  · rw [percentDecode]
    nofun
  · rw [percentDecode]
    intro high low _ percent
    exact absurd percent other

theorem formDecode_plain {text : Text} (plain : ∀ c ∈ text, Plain c) : formDecode text = text := by
  rw [formDecode]
  induction text with
  | nil => rfl
  | cons c rest ih =>
      obtain ⟨ascii, percent, plus⟩ := plain c (List.mem_cons_self ..)
      have value : (UInt8.ofNat c.toNat).toNat = c.toNat := by
        rw [UInt8.toNat_ofNat']
        omega
      have other : UInt8.ofNat c.toNat ≠ 0x25 := by
        intro same
        rw [← UInt8.toNat_inj, value] at same
        exact percent (Char.toNat_inj.mp same)
      have single : decodeByte .idle (UInt8.ofNat c.toNat).toNat = ([c], .idle) := by
        have idle : Utf8State.idle.needed = 0 := rfl
        rw [value, decodeByte, if_pos idle, leadByte, if_pos (Nat.le_of_lt_succ ascii), Char.ofNat_toNat]
      rw [List.map_cons, if_neg plus, List.flatMap_cons, encode_ascii ascii, List.singleton_append,
        percentDecode_cons other, decodeUtf8, single,
        ih fun other member => plain other (List.mem_cons_of_mem _ member)]
      rfl

theorem encodeURIComponent_unreserved {text : Text} (unreserved : ∀ c ∈ text, isUnreserved c) :
    encodeURIComponent text = text := by
  induction text with
  | nil => rfl
  | cons c rest ih =>
      rw [encodeURIComponent, List.flatMap_cons, if_pos (unreserved c (List.mem_cons_self ..))]
      exact congrArg (c :: ·) (ih fun other member => unreserved other (List.mem_cons_of_mem _ member))

theorem cutAt_append {c : Char} {front : Text} (absent : c ∉ front) (back : Text) :
    cutAt c (front ++ c :: back) = some (front, back) := by
  induction front with
  | nil => simp [cutAt]
  | cons d rest ih =>
      rw [List.mem_cons, not_or] at absent
      rw [List.cons_append, cutAt, if_neg (Ne.symm absent.1), ih absent.2]
      rfl

theorem cutAt_eq_none {c : Char} {text : Text} (absent : c ∉ text) : cutAt c text = none := by
  induction text with
  | nil => rfl
  | cons d rest ih =>
      rw [List.mem_cons, not_or] at absent
      rw [cutAt, if_neg (Ne.symm absent.1), ih absent.2]
      rfl

theorem mem_intercalate {c separator : Char} {pieces : List Text}
    (member : c ∈ [separator].intercalate pieces) : c = separator ∨ ∃ piece ∈ pieces, c ∈ piece := by
  induction pieces with
  | nil => cases member
  | cons first rest ih =>
      cases rest with
      | nil =>
          rw [List.intercalate_singleton] at member
          exact Or.inr ⟨first, List.mem_cons_self .., member⟩
      | cons second others =>
          rw [List.intercalate_cons_cons, List.append_assoc, List.mem_append, List.mem_append,
            List.mem_singleton] at member
          rcases member with own | same | later
          · exact Or.inr ⟨first, List.mem_cons_self .., own⟩
          · exact Or.inl same
          · rcases ih later with same | ⟨piece, listed, own⟩
            · exact Or.inl same
            · exact Or.inr ⟨piece, List.mem_cons_of_mem _ listed, own⟩

structure SafePair (pair : Text × Text) : Prop where
  name : ∀ c ∈ pair.1, Plain c ∧ c ≠ '&' ∧ c ≠ '=' ∧ c ≠ '?'
  value : ∀ c ∈ pair.2, Plain c ∧ c ≠ '&'

theorem SafePair.no_ampersand {pair : Text × Text} (safe : SafePair pair) :
    '&' ∉ pair.1 ++ '=' :: pair.2 := by
  intro member
  rcases List.mem_append.mp member with name | rest
  · exact (safe.name _ name).2.1 rfl
  · rcases List.mem_cons.mp rest with same | value
    · exact absurd same (by decide)
    · exact (safe.value _ value).2 rfl

theorem writeParams_cons (first : Text × Text) (others : List (Text × Text)) :
    ∃ rest, writeParams (first :: others) = first.1 ++ '=' :: rest := by
  cases others with
  | nil => exact ⟨first.2, by simp [writeParams]⟩
  | cons second others =>
      refine ⟨first.2 ++ '&' :: writeParams (second :: others), ?_⟩
      simp [writeParams, List.intercalate_cons_cons]

theorem searchParams_writeParams {pairs : List (Text × Text)} (safe : ∀ pair ∈ pairs, SafePair pair)
    (some : pairs ≠ []) : searchParams (writeParams pairs) = pairs := by
  have pieces : (writeParams pairs).splitOn '&' = pairs.map fun pair => pair.1 ++ '=' :: pair.2 := by
    apply List.splitOn_intercalate
    · intro piece member
      obtain ⟨pair, listed, rfl⟩ := List.mem_map.mp member
      exact (safe pair listed).no_ampersand
    · simpa using some
  have query : withoutQuestion (writeParams pairs) = writeParams pairs := by
    obtain ⟨first, others, rfl⟩ := List.exists_cons_of_ne_nil some
    obtain ⟨rest, written⟩ := writeParams_cons first others
    have name := (safe first (List.mem_cons_self ..)).name
    rw [written]
    cases own : first.1 with
    | nil => rfl
    | cons c front =>
        rw [List.cons_append, withoutQuestion]
        intro other same
        exact (name c (own ▸ List.mem_cons_self ..)).2.2.2 (List.cons.inj same).1
  have kept : (pairs.map fun pair => pair.1 ++ '=' :: pair.2).filter (· ≠ []) =
      pairs.map fun pair => pair.1 ++ '=' :: pair.2 := by
    rw [List.filter_eq_self]
    intro piece member
    obtain ⟨pair, -, rfl⟩ := List.mem_map.mp member
    simp
  rw [searchParams, query, pieces, kept, List.map_map]
  conv_rhs => rw [← List.map_id pairs]
  apply List.map_congr_left
  intro pair listed
  have equals : '=' ∉ pair.1 := fun member => ((safe pair listed).name _ member).2.2.1 rfl
  simp only [Function.comp_apply, cutAt_append equals, id_eq]
  rw [formDecode_plain fun c member => ((safe pair listed).name c member).1,
    formDecode_plain fun c member => ((safe pair listed).value c member).1]

end RaceTracker.Lib
