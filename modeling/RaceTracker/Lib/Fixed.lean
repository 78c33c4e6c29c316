import Mathlib.Data.Rat.Floor
import RaceTracker.Lib.Floats
import RaceTracker.Lib.NumberText

namespace RaceTracker.Lib

/-! JavaScript's `toFixed` and `padStart`, and reading padded digits back. -/

/-- Digits with a point before the last `places` of them. -/
def pointed (places scaled : Nat) : List Char :=
  let digits := (Nat.toDigits 10 scaled).leftpad (places + 1) '0'
  if places = 0 then digits
  else digits.take (digits.length - places) ++ '.' :: digits.drop (digits.length - places)

/-- The decimal nearest to the exact value of the double, the larger magnitude on a tie. -/
def toFixed (places : Nat) : Binary64 → String
  | .nan => "NaN"
  | .infinite negative => if negative then "-Infinity" else "Infinity"
  | .finite number =>
      let magnitude := |number.value|
      let body :=
        if 10 ^ 21 ≤ magnitude then (numberToString magnitude).toList
        else pointed places ⌊magnitude * 10 ^ places + 1 / 2⌋.toNat
      String.ofList (if number.value < 0 then '-' :: body else body)

def padStart (width : Nat) (fill : Char) (text : String) : String :=
  String.ofList (text.toList.leftpad width fill)

theorem parseDigits_leftpad (width magnitude : Nat) :
    parseDigits ((Nat.toDigits 10 magnitude).leftpad width '0') = some magnitude := by
  have digits : (Nat.toDigits 10 magnitude).all Char.isDigit = true :=
    List.all_eq_true.mpr fun _ member => Nat.isDigit_of_mem_toDigits (by decide) (by decide) member
  have zeros (count : Nat) : (List.replicate count '0').all Char.isDigit = true := by
    rw [List.all_replicate]
    split <;> rfl
  rw [List.leftpad, parseDigits, if_pos ⟨by simp, by rw [List.all_append, zeros, digits]; rfl⟩,
    Nat.ofDigitChars_append, Nat.ofDigitChars_replicate_zero, Nat.mul_zero,
    Nat.ofDigitChars_ten_toDigits]

theorem parseDigits_digitChar {digit : Nat} (small : digit < 10) :
    parseDigits [digit.digitChar] = some digit := by
  rw [← Nat.toDigits_of_lt_base small, parseDigits_toDigits]

theorem pointed_one (scaled : Nat) :
    pointed 1 scaled = Nat.toDigits 10 (scaled / 10) ++ ['.', (scaled % 10).digitChar] := by
  rw [pointed, Nat.toDigits_eq_if (by decide) (n := scaled)]
  by_cases single : scaled < 10
  · rw [if_pos single, Nat.div_eq_of_lt single, Nat.mod_eq_of_lt single]
    rfl
  · rw [if_neg single]
    have long := Nat.length_toDigits_pos (b := 10) (n := scaled / 10)
    have full : 1 - (Nat.toDigits 10 (scaled / 10)).length = 0 := by omega
    simp [List.leftpad, full]

theorem toFixed_of_nonneg {places : Nat} {number : Binary64} {value : Rat} (known : number.Is value)
    (nonneg : 0 ≤ value) (small : value < 10 ^ 21) :
    (toFixed places number).toList = pointed places ⌊value * 10 ^ places + 1 / 2⌋.toNat := by
  obtain ⟨finite, rfl⟩ := known
  cases number with
  | finite number =>
      change 0 ≤ number.value at nonneg
      change number.value < 10 ^ 21 at small
      simp only [toFixed, String.toList_ofList, abs_of_nonneg nonneg, if_neg (not_lt.mpr nonneg),
        if_neg (not_le.mpr small)]
      rfl
  | infinite _ | nan => exact finite.elim

/-- Padding on the left only sees the length. -/
theorem leftpad_append {α : Type} (width : Nat) (fill : α) (front back : List α) :
    (front ++ back).leftpad (width + back.length) fill = front.leftpad width fill ++ back := by
  have missing : width + back.length - (front ++ back).length = width - front.length := by
    rw [List.length_append]
    omega
  rw [List.leftpad, List.leftpad, missing, List.append_assoc]

theorem leftpad_two {magnitude : Nat} (small : magnitude < 100) :
    ∃ ten one, (Nat.toDigits 10 magnitude).leftpad 2 '0' = [ten, one] := by
  have short : (Nat.toDigits 10 magnitude).length ≤ 2 :=
    (Nat.length_toDigits_le_iff (by decide) (by decide)).mpr small
  exact List.length_eq_two.mp (by rw [List.length_leftpad]; omega)

end RaceTracker.Lib
