import Mathlib.Data.List.DropRight
import RaceTracker.Lib.Double

namespace RaceTracker.Lib

/-! Different integers are written differently, as property names have to be. -/

theorem toDigits_injective : Function.Injective (Nat.toDigits 10) := by
  intro left right same
  have parsed := congrArg parseDigits same
  simpa only [parseDigits_toDigits, Option.some.injEq] using parsed

/-- The length and what is left of the digits tell all of them. -/
theorem stripTrailingZeros_append (digits : List Char) :
    stripTrailingZeros digits ++
      List.replicate (digits.length - (stripTrailingZeros digits).length) '0' = digits := by
  have parts : stripTrailingZeros digits ++ digits.rtakeWhile (· = '0') = digits :=
    List.rdropWhile_append_rtakeWhile ..
  have zeros : digits.rtakeWhile (· = '0') =
      List.replicate (digits.rtakeWhile (· = '0')).length '0' := by
    rw [List.eq_replicate_iff]
    refine ⟨rfl, fun digit member => ?_⟩
    simpa using List.mem_rtakeWhile_imp member
  have count : digits.length - (stripTrailingZeros digits).length =
      (digits.rtakeWhile (· = '0')).length := by
    have lengths := congrArg List.length parts
    rw [List.length_append] at lengths
    omega
  rw [count, ← zeros]
  exact parts

/-- The significant digits of an integer too long to be written out. -/
def mantissa (digits : List Char) : List Char :=
  digits.take 1 ++ if digits.length = 1 then [] else '.' :: digits.drop 1

theorem filter_mantissa {digits : List Char} (clean : '.' ∉ digits) :
    (mantissa digits).filter (· ≠ '.') = digits := by
  have kept : digits.filter (· ≠ '.') = digits := by
    rw [List.filter_eq_self]
    intro digit member
    simp only [ne_eq, decide_not, Bool.not_eq_true', decide_eq_false_iff_not]
    intro same
    exact clean (same ▸ member)
  rw [mantissa]
  split
  · rename_i single
    rw [List.append_nil, List.take_of_length_le single.le, kept]
  · rw [List.filter_append, List.filter_cons_of_neg (by simp), ← List.filter_append,
      List.take_append_drop, kept]

theorem layout_large (digits : List Char) {length : Nat} (long : 21 < length) :
    layout digits length = mantissa digits ++ 'e' :: '+' :: Nat.toDigits 10 (length - 1) := by
  have exponent : ((length : Int) - 1).natAbs = length - 1 := by omega
  have positive : ¬ (length : Int) < 1 := by omega
  rw [layout, if_neg (by omega), if_neg (by omega), if_neg (by omega), exponent, if_neg positive]
  rfl

theorem notMem_mantissa {digits : List Char} {other : Char} (dot : other ≠ '.')
    (clean : other ∉ digits) : other ∉ mantissa digits := by
  have taken : other ∉ digits.take 1 := fun member => clean (List.mem_of_mem_take member)
  have dropped : other ∉ digits.drop 1 := fun member => clean (List.mem_of_mem_drop member)
  rw [mantissa]
  split
  · rwa [List.append_nil]
  · simpa only [List.mem_append, List.mem_cons, taken, dropped, or_false, false_or] using dot

/-- An integer too long to be written out, without its sign. -/
def scientific (magnitude : Nat) : List Char :=
  let digits := Nat.toDigits 10 magnitude
  mantissa (stripTrailingZeros digits) ++ 'e' :: '+' :: Nat.toDigits 10 (digits.length - 1)

theorem notMem_digits {other : Char} (sign : other.isDigit = false) (magnitude : Nat) :
    other ∉ Nat.toDigits 10 magnitude := by
  intro member
  have digit : other.isDigit = true :=
    Nat.isDigit_of_mem_toDigits (by decide) (by decide) member
  rw [sign] at digit
  cases digit

theorem notMem_stripped {other : Char} (sign : other.isDigit = false) (magnitude : Nat) :
    other ∉ stripTrailingZeros (Nat.toDigits 10 magnitude) := by
  intro member
  exact notMem_digits sign magnitude
    (List.mem_reverse.mp ((List.dropWhile_sublist _).subset (List.mem_reverse.mp member)))

theorem numberToString_large {value : Int} (large : 10 ^ 21 ≤ value.natAbs) :
    numberToString (value : Rat) = String.ofList
      (if value < 0 then '-' :: scientific value.natAbs else scientific value.natAbs) := by
  have places : decimalPlaces (value : Rat) = 0 := by
    have short : Nat.log2 1 = 0 := by decide
    simp [decimalPlaces, Rat.den_intCast, short]
  have long : 21 < (Nat.toDigits 10 value.natAbs).length := by
    rw [← not_le, Nat.length_toDigits_le_iff (by decide) (by decide)]
    omega
  rw [numberToString]
  rw [if_neg (by simp; omega)]
  simp only [places, Rat.den_intCast, Rat.num_intCast, pow_zero, mul_one, Nat.div_one,
    Int.cast_lt_zero, Nat.cast_zero, sub_zero, layout_large _ long]
  rfl

theorem scientific_injective : Function.Injective scientific := by
  intro left right same
  have after : 'e' ∉ '+' :: Nat.toDigits 10 ((Nat.toDigits 10 left).length - 1) := by
    rw [List.mem_cons, not_or]
    exact ⟨by decide, notMem_digits (by decide) _⟩
  have before := notMem_mantissa (by decide : 'e' ≠ '.') (notMem_stripped (by decide) left)
  obtain ⟨front, -, exponent⟩ := (List.append_cons_inj_of_notMem before after).mp same
  have stripped := congrArg (List.filter (· ≠ '.')) front
  rw [filter_mantissa (notMem_stripped (by decide) left),
    filter_mantissa (notMem_stripped (by decide) right)] at stripped
  have lengths := toDigits_injective (List.cons.inj exponent).2
  have long : 0 < (Nat.toDigits 10 left).length := Nat.length_toDigits_pos
  have long' : 0 < (Nat.toDigits 10 right).length := Nat.length_toDigits_pos
  apply toDigits_injective
  rw [← stripTrailingZeros_append (Nat.toDigits 10 left),
    ← stripTrailingZeros_append (Nat.toDigits 10 right), stripped]
  congr 2
  omega

theorem minus_notMem_scientific (magnitude : Nat) : '-' ∉ scientific magnitude := by
  have before := notMem_mantissa (by decide : '-' ≠ '.') (notMem_stripped (by decide) magnitude)
  have after := notMem_digits (by decide : '-'.isDigit = false)
    ((Nat.toDigits 10 magnitude).length - 1)
  simp [scientific, before, after]

theorem e_notMem_decimalChars (value : Int) : 'e' ∉ decimalChars value := by
  have digits := notMem_digits (by decide : 'e'.isDigit = false) value.natAbs
  rw [decimalChars]
  split <;> simp [digits]

theorem numberToString_intCast_ne {small large : Int} (short : small.natAbs < 10 ^ 21)
    (long : 10 ^ 21 ≤ large.natAbs) : numberToString (small : Rat) ≠ numberToString (large : Rat) := by
  intro same
  rw [numberToString_intCast short, numberToString_large long, decimal] at same
  have exponent : 'e' ∈ decimalChars small := by
    rw [String.ofList_injective same]
    split <;> simp [scientific]
  exact e_notMem_decimalChars small exponent

theorem numberToString_intCast_injective :
    Function.Injective fun value : Int => numberToString (value : Rat) := by
  intro left right same
  by_cases short : left.natAbs < 10 ^ 21
  · by_cases short' : right.natAbs < 10 ^ 21
    · exact decimal_injective ((numberToString_intCast short).symm.trans
        (same.trans (numberToString_intCast short')))
    · exact absurd same (numberToString_intCast_ne short (not_lt.mp short'))
  by_cases short' : right.natAbs < 10 ^ 21
  · exact absurd same.symm (numberToString_intCast_ne short' (not_lt.mp short))
  have texts := String.ofList_injective ((numberToString_large (not_lt.mp short)).symm.trans
    (same.trans (numberToString_large (not_lt.mp short'))))
  have bodies {one two : Nat} (same : scientific one = '-' :: scientific two) : False :=
    minus_notMem_scientific one (same ▸ List.mem_cons_self ..)
  split at texts <;> split at texts
  · have magnitudes := scientific_injective (List.cons.inj texts).2
    omega
  · exact (bodies texts.symm).elim
  · exact (bodies texts).elim
  · have magnitudes := scientific_injective texts
    omega

end RaceTracker.Lib
