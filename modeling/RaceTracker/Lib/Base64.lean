import Mathlib.Data.List.Basic

namespace RaceTracker.Lib

/-! Python's `base64.urlsafe_b64decode`.

The decoder underneath skips what is no digit and stops once a group is padded to four.  It fails
at the end of a text that leaves a group incomplete.
-/

/-- The value of a digit; either spelling of the last two is accepted. -/
def sextet (c : Char) : Option Nat :=
  if 65 ≤ c.toNat ∧ c.toNat ≤ 90 then some (c.toNat - 65)
  else if 97 ≤ c.toNat ∧ c.toNat ≤ 122 then some (c.toNat - 71)
  else if 48 ≤ c.toNat ∧ c.toNat ≤ 57 then some (c.toNat + 4)
  else if c = '-' ∨ c = '+' then some 62
  else if c = '_' ∨ c = '/' then some 63
  else none

/-- `binascii.a2b_base64`: `left` holds the bits of the group that no byte has taken yet. -/
def a2bBase64 (pos left pads : Nat) : List Char → Option (List UInt8)
  | [] => if pos = 0 then some [] else none
  | c :: rest =>
      if c = '=' then
        if 2 ≤ pos then
          if 4 ≤ pos + (pads + 1) then some [] else a2bBase64 pos left (pads + 1) rest
        else a2bBase64 pos left pads rest
      else match sextet c with
        | none => a2bBase64 pos left pads rest
        | some digit =>
            if pos = 0 then a2bBase64 1 digit 0 rest
            else if pos = 1 then
              (a2bBase64 2 (digit % 16) 0 rest).map (UInt8.ofNat (left * 4 + digit / 16) :: ·)
            else if pos = 2 then
              (a2bBase64 3 (digit % 4) 0 rest).map (UInt8.ofNat (left * 16 + digit / 4) :: ·)
            else (a2bBase64 0 0 0 rest).map (UInt8.ofNat (left * 64 + digit) :: ·)

inductive Base64Error where
  | notAscii
  | invalid
deriving DecidableEq

def urlsafeB64decode (text : List Char) : Except Base64Error (List UInt8) :=
  if text.all (fun c => c.toNat < 128) then
    match a2bBase64 0 0 0 text with
    | some bytes => .ok bytes
    | none => .error .invalid
  else .error .notAscii

def b64digit (value : Nat) : Char :=
  if value < 26 then Char.ofNat (value + 65)
  else if value < 52 then Char.ofNat (value + 71)
  else if value < 62 then Char.ofNat (value - 4)
  else if value = 62 then '-'
  else '_'

/-- The digits of some bytes, without padding. -/
def urlsafeB64encode : List UInt8 → List Char
  | [] => []
  | [a] => [b64digit (a.toNat / 4), b64digit (a.toNat % 4 * 16)]
  | [a, b] => [b64digit (a.toNat / 4), b64digit (a.toNat % 4 * 16 + b.toNat / 16),
      b64digit (b.toNat % 16 * 4)]
  | a :: b :: c :: rest => b64digit (a.toNat / 4) :: b64digit (a.toNat % 4 * 16 + b.toNat / 16) ::
      b64digit (b.toNat % 16 * 4 + c.toNat / 64) :: b64digit (c.toNat % 64) :: urlsafeB64encode rest

/-- As many equals signs as the last group lacks. -/
def padded (text : List Char) : List Char :=
  text ++ List.replicate ((-(text.length : Int)) % 4).toNat '='

section

variable {value pos left pads : Nat}

theorem b64digit_facts (small : value < 64) : sextet (b64digit value) = some value ∧
    b64digit value ≠ '=' ∧ (b64digit value).toNat < 128 := by
  have all : (List.range 64).all (fun value => sextet (b64digit value) = some value ∧
      b64digit value ≠ '=' ∧ (b64digit value).toNat < 128) = true := by decide +kernel
  exact of_decide_eq_true (List.all_eq_true.mp all value (List.mem_range.mpr small))

theorem a2bBase64_digit (small : value < 64) (rest : List Char) :
    a2bBase64 pos left pads (b64digit value :: rest) =
      if pos = 0 then a2bBase64 1 value 0 rest
      else if pos = 1 then
        (a2bBase64 2 (value % 16) 0 rest).map (UInt8.ofNat (left * 4 + value / 16) :: ·)
      else if pos = 2 then
        (a2bBase64 3 (value % 4) 0 rest).map (UInt8.ofNat (left * 16 + value / 4) :: ·)
      else (a2bBase64 0 0 0 rest).map (UInt8.ofNat (left * 64 + value) :: ·) := by
  obtain ⟨digit, other, -⟩ := b64digit_facts small
  rw [a2bBase64, if_neg other]
  simp only [digit]

end

theorem ofNat_eq_byte {a : UInt8} {value : Nat} (same : value = a.toNat) : UInt8.ofNat value = a := by
  rw [same, UInt8.ofNat_toNat]

theorem a2bBase64_group (a b c : UInt8) (rest : List Char) :
    a2bBase64 0 0 0 (b64digit (a.toNat / 4) :: b64digit (a.toNat % 4 * 16 + b.toNat / 16) ::
        b64digit (b.toNat % 16 * 4 + c.toNat / 64) :: b64digit (c.toNat % 64) :: rest) =
      (a2bBase64 0 0 0 rest).map fun bytes => a :: b :: c :: bytes := by
  have first := a.toNat_lt
  have second := b.toNat_lt
  have third := c.toNat_lt
  rw [a2bBase64_digit (by omega), if_pos rfl, a2bBase64_digit (by omega), if_neg (by decide),
    if_pos rfl, a2bBase64_digit (by omega), if_neg (by decide), if_neg (by decide), if_pos rfl,
    a2bBase64_digit (by omega), if_neg (by decide), if_neg (by decide), if_neg (by decide),
    ofNat_eq_byte (a := a) (by omega), ofNat_eq_byte (a := b) (by omega),
    ofNat_eq_byte (a := c) (by omega)]
  cases a2bBase64 0 0 0 rest <;> rfl

theorem a2bBase64_padded (bytes : List UInt8) :
    a2bBase64 0 0 0 (padded (urlsafeB64encode bytes)) = some bytes := by
  fun_induction urlsafeB64encode bytes with
  | case1 => rfl
  | case2 a =>
      have range := a.toNat_lt
      rw [padded, List.cons_append, a2bBase64_digit (by omega), if_pos rfl, List.cons_append,
        a2bBase64_digit (by omega), if_neg (by decide), if_pos rfl, ofNat_eq_byte (a := a) (by omega)]
      rfl
  | case3 a b =>
      have first := a.toNat_lt
      have second := b.toNat_lt
      rw [padded, List.cons_append, a2bBase64_digit (by omega), if_pos rfl, List.cons_append,
        a2bBase64_digit (by omega), if_neg (by decide), if_pos rfl, List.cons_append,
        a2bBase64_digit (by omega), if_neg (by decide), if_neg (by decide), if_pos rfl,
        ofNat_eq_byte (a := a) (by omega), ofNat_eq_byte (a := b) (by omega)]
      rfl
  | case4 a b c rest ih =>
      have missing : ((-((urlsafeB64encode rest).length + 4 : Nat) : Int)) % 4 =
          (-((urlsafeB64encode rest).length : Int)) % 4 := by omega
      rw [padded, List.cons_append, List.cons_append, List.cons_append, List.cons_append,
        a2bBase64_group]
      simp only [List.length_cons, missing]
      rw [← padded, ih]
      rfl

theorem mem_urlsafeB64encode {bytes : List UInt8} {c : Char} (member : c ∈ urlsafeB64encode bytes) :
    ∃ value < 64, c = b64digit value := by
  fun_induction urlsafeB64encode bytes with
  | case1 => cases member
  | case2 a =>
      have range := a.toNat_lt
      simp only [List.mem_cons, List.not_mem_nil, or_false] at member
      rcases member with rfl | rfl <;> exact ⟨_, by omega, rfl⟩
  | case3 a b =>
      have first := a.toNat_lt
      have second := b.toNat_lt
      simp only [List.mem_cons, List.not_mem_nil, or_false] at member
      rcases member with rfl | rfl | rfl <;> exact ⟨_, by omega, rfl⟩
  | case4 a b c rest ih =>
      have first := a.toNat_lt
      have second := b.toNat_lt
      have third := c.toNat_lt
      simp only [List.mem_cons] at member
      rcases member with rfl | rfl | rfl | rfl | later
      · exact ⟨_, by omega, rfl⟩
      · exact ⟨_, by omega, rfl⟩
      · exact ⟨_, by omega, rfl⟩
      · exact ⟨_, by omega, rfl⟩
      · exact ih later

/-- What is no digit is not written. -/
theorem notMem_urlsafeB64encode {c : Char} (other : sextet c = none) (bytes : List UInt8) :
    c ∉ urlsafeB64encode bytes := by
  intro member
  obtain ⟨value, small, rfl⟩ := mem_urlsafeB64encode member
  cases other.symm.trans (b64digit_facts small).1

/-- Bytes come back from their digits once these are padded. -/
theorem urlsafeB64decode_encode (bytes : List UInt8) :
    urlsafeB64decode (padded (urlsafeB64encode bytes)) = .ok bytes := by
  have ascii : (padded (urlsafeB64encode bytes)).all (fun c => c.toNat < 128) = true := by
    rw [padded, List.all_append, Bool.and_eq_true]
    constructor
    · refine List.all_eq_true.mpr fun c member => ?_
      obtain ⟨value, small, rfl⟩ := mem_urlsafeB64encode member
      exact decide_eq_true (b64digit_facts small).2.2
    · rw [List.all_replicate]
      split <;> rfl
  rw [urlsafeB64decode, if_pos ascii, a2bBase64_padded]

end RaceTracker.Lib
