import Mathlib.Data.Int.Notation
import Mathlib.Logic.Function.Basic

namespace RaceTracker.Lib

/-! Decimal integers as text, and back.

`decimal` is how Go's `strconv.FormatInt` and JavaScript's number-to-string write
an integer; `parseDecimal` reads what `strconv.ParseInt` accepts in base ten.
-/

def decimalChars (value : Int) : List Char :=
  if value < 0 then '-' :: Nat.toDigits 10 value.natAbs else Nat.toDigits 10 value.natAbs

def decimal (value : Int) : String := String.ofList (decimalChars value)

/-- The magnitude of a nonempty all-digit text. -/
def parseDigits (chars : List Char) : Option Nat :=
  if chars ≠ [] ∧ chars.all Char.isDigit then some (Nat.ofDigitChars 10 chars 0) else none

def parseDecimalChars : List Char → Option Int
  | [] => none
  | sign :: rest =>
      if sign = '-' then (parseDigits rest).map fun magnitude => -(magnitude : Int)
      else if sign = '+' then (parseDigits rest).map fun magnitude => (magnitude : Int)
      else (parseDigits (sign :: rest)).map fun magnitude => (magnitude : Int)

def parseDecimal (text : String) : Option Int := parseDecimalChars text.toList

theorem parseDigits_toDigits (magnitude : Nat) :
    parseDigits (Nat.toDigits 10 magnitude) = some magnitude := by
  have digits : (Nat.toDigits 10 magnitude).all Char.isDigit = true :=
    List.all_eq_true.mpr fun _ member => Nat.isDigit_of_mem_toDigits (by decide) (by decide) member
  simp [parseDigits, digits]

theorem parseDecimalChars_toDigits (magnitude : Nat) :
    parseDecimalChars (Nat.toDigits 10 magnitude) = some (magnitude : Int) := by
  have parsed := parseDigits_toDigits magnitude
  cases digits : Nat.toDigits 10 magnitude with
  | nil => exact absurd digits Nat.toDigits_ne_nil
  | cons first rest =>
      have digit : first.isDigit = true := Nat.isDigit_of_mem_toDigits (b := 10) (n := magnitude)
        (by decide) (by decide) (by simp [digits])
      -- A digit is neither of the two signs, so only the unsigned reading applies.
      have notMinus : first ≠ '-' := fun same => absurd (same ▸ digit) (by decide)
      have notPlus : first ≠ '+' := fun same => absurd (same ▸ digit) (by decide)
      rw [digits] at parsed
      simp [parseDecimalChars, notMinus, notPlus, parsed]

theorem parseDecimal_decimal (value : Int) : parseDecimal (decimal value) = some value := by
  unfold parseDecimal decimal decimalChars
  rw [String.toList_ofList]
  split
  · rename_i negative
    have magnitude : -(value.natAbs : Int) = value := by omega
    simp only [parseDecimalChars, parseDigits_toDigits]
    exact congrArg some magnitude
  · rw [parseDecimalChars_toDigits]
    congr 1
    omega

theorem underscore_notMem_decimalChars (value : Int) : '_' ∉ decimalChars value := by
  rw [decimalChars]
  split <;> simp [Nat.underscore_not_in_toDigits]

theorem decimal_injective : Function.Injective decimal := by
  intro left right same
  have parsed := congrArg parseDecimal same
  simpa only [parseDecimal_decimal, Option.some.injEq] using parsed

end RaceTracker.Lib
