import RaceTracker.Lib.Fixed
import RaceTracker.Web.TimingHelpers

namespace RaceTracker.Web

open RaceTracker.Lib

/-! What a gap label prints, and what a reader makes of a long gap.

The minutes are split off before the seconds are rounded, so a rest that rounds up to a whole
minute is printed as sixty seconds.  Both quotients are doubles, and of a very long gap the minutes
can be rounded up as well.
-/

/-- The remainder has the sign of the dividend. -/
def remainder (dividend divisor : Rat) : Rat :=
  let quotient := dividend / divisor
  dividend - divisor * ((if quotient < 0 then ⌈quotient⌉ else ⌊quotient⌋ : Int) : Rat)

def laps (count : Rat) : String :=
  "+" ++ numberToString count ++ " LAP" ++ if 1 < count then "S" else ""

/-- A gap is a number of JavaScript, that is the exact value of a double. -/
def GapLabel.text : GapLabel → String
  | .leader => "LEADER"
  | .dash => "—"
  | .laps count => RaceTracker.Web.laps count
  | .estimate ms => "+" ++ toFixed 1 (.ofRat (ms / 1000))
  | .long ms =>
      let m := ⌊toDouble (ms / 60000)⌋
      let s := Binary64.ofRat (remainder ms 60000 / 1000)
      "+" ++ numberToString m ++ ":" ++ padStart 4 '0' (toFixed 1 s)

/-- A text of the form `+m:ss.s`, read digit by digit. -/
structure GapReading where
  minutes : Nat
  seconds : Nat
  tenths : Nat
deriving DecidableEq

def GapReading.ms (reading : GapReading) : Nat :=
  reading.minutes * 60000 + reading.seconds * 1000 + reading.tenths * 100

def readGap (text : String) : Option GapReading :=
  match text.toList with
  | '+' :: rest =>
      match rest.dropWhile (· ≠ ':') with
      | [':', ten, one, '.', tenth] => do
          let minutes ← parseDigits (rest.takeWhile (· ≠ ':'))
          let seconds ← parseDigits [ten, one]
          let tenths ← parseDigits [tenth]
          return ⟨minutes, seconds, tenths⟩
      | _ => none
  | _ => none

/-- The text has the right form, its seconds stay below a minute, and it says what `ms` is to
the nearest tenth of a second. -/
def Faithful (text : String) (ms : Int) : Prop :=
  ∃ reading, readGap text = some reading ∧ reading.seconds < 60 ∧ 2 * |(reading.ms : Int) - ms| ≤ 100

theorem remainder_intCast {dividend : Int} (nonneg : 0 ≤ dividend) (divisor : Nat) :
    remainder dividend divisor = ((dividend % divisor : Int) : Rat) := by
  have quotient : ⌊(dividend : Rat) / divisor⌋ = dividend / divisor :=
    Rat.floor_intCast_div_natCast dividend divisor
  have up : ¬ (dividend : Rat) / divisor < 0 := not_lt.mpr (by positivity)
  rw [remainder, if_neg up, quotient, Int.emod_def]
  push_cast
  rfl

/-- The tenths of a second that `rest` milliseconds are printed as. -/
def restTenths (rest : Int) : Int := ⌊toDouble (rest / 1000) * 10 + 1 / 2⌋

section Rest

variable {rest : Int}

/-- Below a minute the division by 1000 is off by less than anything that is printed. -/
theorem seconds_near (nonneg : 0 ≤ rest) (small : rest < 60000) :
    |toDouble ((rest : Rat) / 1000) - rest / 1000| ≤ 1 / 2 ^ 48 := by
  have below : (rest : Rat) < 60000 := by exact_mod_cast small
  have least : (0 : Rat) ≤ (rest : Rat) / 1000 := by positivity
  have minute : (rest : Rat) / 1000 < 2 ^ (6 : Int) := by
    norm_num
    linarith
  have near := roundMagnitude_near_of_lt least minute (by decide)
  rw [toDouble_of_nonneg least]
  exact near.trans (by norm_num)

theorem restTenths_near (nonneg : 0 ≤ rest) (small : rest < 60000) :
    |restTenths rest * 100 - rest| ≤ 50 := by
  have near := abs_le.mp (seconds_near nonneg small)
  have low := Int.floor_le (toDouble ((rest : Rat) / 1000) * 10 + 1 / 2)
  have high := Int.lt_floor_add_one (toDouble ((rest : Rat) / 1000) * 10 + 1 / 2)
  have above : ((restTenths rest * 100 - rest : Int) : Rat) < 51 := by
    push_cast
    rw [restTenths]
    linarith
  have below : (-51 : Rat) < ((restTenths rest * 100 - rest : Int) : Rat) := by
    push_cast
    rw [restTenths]
    linarith
  have most : restTenths rest * 100 - rest < 51 := by exact_mod_cast above
  have least : -51 < restTenths rest * 100 - rest := by exact_mod_cast below
  exact abs_le.mpr ⟨by omega, by omega⟩

/-- The double next to 59.95 lies above it. -/
theorem restTenths_minute (nonneg : 0 ≤ rest) (small : rest < 60000) :
    restTenths rest < 600 ↔ rest < 59950 := by
  rw [restTenths, Int.floor_lt]
  push_cast
  constructor
  · intro below
    by_contra late
    have above : (59950 : Rat) ≤ rest := by exact_mod_cast not_lt.mp late
    have mono := toDouble_mono (show (59950 : Rat) / 1000 ≤ rest / 1000 by linarith)
    have rounded : (1199 : Rat) / 20 ≤ toDouble (59950 / 1000) := by decide +kernel
    linarith
  · intro early
    have below : (rest : Rat) ≤ 59949 := by exact_mod_cast Int.le_of_lt_add_one early
    have near := (abs_le.mp (seconds_near nonneg small)).2
    linarith

theorem restTenths_nonneg (nonneg : 0 ≤ rest) : 0 ≤ restTenths rest := by
  have least := toDouble_nonneg (show (0 : Rat) ≤ rest / 1000 by positivity)
  exact Int.floor_nonneg.mpr (by linarith)

theorem toFixed_rest (nonneg : 0 ≤ rest) (small : rest < 60000) :
    (toFixed 1 (.ofRat ((rest : Rat) / 1000))).toList = pointed 1 (restTenths rest).toNat := by
  have below : (rest : Rat) < 60000 := by exact_mod_cast small
  have least : (0 : Rat) ≤ (rest : Rat) / 1000 := by positivity
  have near := abs_le.mp (seconds_near nonneg small)
  have known := Binary64.ofRat_is (small_bounded least (by linarith))
  have text := @toFixed_of_nonneg 1 _ _ known (toDouble_nonneg least) (by linarith)
  rwa [pow_one] at text

theorem padStart_rest (nonneg : 0 ≤ rest) (small : rest < 60000) :
    ∃ ten one, (padStart 4 '0' (toFixed 1 (.ofRat ((rest : Rat) / 1000)))).toList =
        [ten, one, '.', ((restTenths rest).toNat % 10).digitChar] ∧
      parseDigits [ten, one] = some ((restTenths rest).toNat / 10) := by
  have near := abs_le.mp (restTenths_near nonneg small)
  have wide : (restTenths rest).toNat / 10 < 100 := by omega
  obtain ⟨ten, one, padded⟩ := leftpad_two wide
  refine ⟨ten, one, ?_, ?_⟩
  · rw [padStart, String.toList_ofList, toFixed_rest nonneg small, pointed_one]
    exact (leftpad_append 2 '0' _ ['.', _]).trans (by rw [padded]; rfl)
  · rw [← padded, parseDigits_leftpad]

end Rest

theorem readGap_plus {minutes : List Char} {ten one tenth : Char} (clean : ':' ∉ minutes) :
    readGap (String.ofList ('+' :: minutes ++ [':', ten, one, '.', tenth])) = (do
      let minutes ← parseDigits minutes
      let seconds ← parseDigits [ten, one]
      let tenths ← parseDigits [tenth]
      return ⟨minutes, seconds, tenths⟩) := by
  have kept : ∀ char ∈ minutes, decide (char ≠ ':') = true := by
    intro char member
    exact decide_eq_true fun same => clean (same ▸ member)
  have taken : (minutes ++ [':', ten, one, '.', tenth]).takeWhile (· ≠ ':') = minutes := by
    rw [List.takeWhile_append_of_pos kept]
    simp
  have dropped : (minutes ++ [':', ten, one, '.', tenth]).dropWhile (· ≠ ':') =
      [':', ten, one, '.', tenth] := by
    rw [List.dropWhile_append_of_pos kept]
    rfl
  simp only [readGap, String.toList_ofList, List.cons_append, dropped, taken]

theorem parseDigits_minutes {minutes : Int} (nonneg : 0 ≤ minutes) (short : minutes < 10 ^ 21) :
    ':' ∉ (numberToString (minutes : Rat)).toList ∧
      parseDigits (numberToString (minutes : Rat)).toList = some minutes.toNat := by
  have digits : (numberToString (minutes : Rat)).toList = Nat.toDigits 10 minutes.toNat := by
    rw [numberToString_intCast (by omega), decimal, String.toList_ofList, decimalChars,
      if_neg (by omega)]
    congr 1
    omega
  rw [digits]
  exact ⟨notMem_digits (by decide) _, parseDigits_toDigits _⟩

/-- The quotient stays more than half a last place below the next whole minute. -/
def StaysInMinute (ms : Int) : Prop :=
  60000 * 2 ^ (ms / 60000).toNat.log2 < 2 ^ 53 * (60000 - ms % 60000)

instance (ms : Int) : Decidable (StaysInMinute ms) := inferInstanceAs (Decidable (_ < _))

section Minutes

variable {ms : Int}

/-- The quotient, its whole minutes and their binade. -/
theorem quotient_binade (long : 60000 ≤ ms) (short : ms < 60000 * 2 ^ 52) :
    (ms : Rat) / 60000 = (ms / 60000 : Int) + (ms % 60000 : Int) / 60000 ∧
      (ms / 60000).toNat.log2 < 52 ∧ lastPlace ((ms : Rat) / 60000) = (ms / 60000).toNat.log2 - 52 := by
  have some : (ms / 60000).toNat ≠ 0 := by omega
  have whole : (ms : Rat) / 60000 = (ms / 60000 : Int) + (ms % 60000 : Int) / 60000 := by
    have split : ((60000 * (ms / 60000) + ms % 60000 : Int) : Rat) = ms := by
      rw [Int.mul_ediv_add_emod]
    push_cast at split
    linarith
  have binade : (ms / 60000).toNat.log2 < 52 := (Nat.log2_lt some).mpr (by omega)
  refine ⟨whole, binade, ?_⟩
  have low := Nat.log2_self_le some
  have high := @Nat.lt_log2_self (ms / 60000).toNat
  generalize (ms / 60000).toNat.log2 = exponent at *
  have least : ((2 ^ exponent : Nat) : Int) ≤ ms / 60000 := by omega
  have most : ms / 60000 + 1 ≤ ((2 ^ (exponent + 1) : Nat) : Int) := by omega
  have rest : ((ms % 60000 : Int) : Rat) < 60000 := by exact_mod_cast Int.emod_lt_of_pos ms (by decide)
  have positive : (0 : Rat) ≤ ((ms % 60000 : Int) : Rat) := by
    exact_mod_cast Int.emod_nonneg ms (by decide)
  have above : (2 : Rat) ^ exponent ≤ ((ms / 60000 : Int) : Rat) := by exact_mod_cast least
  have below : ((ms / 60000 : Int) : Rat) + 1 ≤ 2 ^ (exponent + 1) := by exact_mod_cast most
  apply lastPlace_of_binade (by omega)
  · rw [zpow_natCast, whole]
    have share : (0 : Rat) ≤ ((ms % 60000 : Int) : Rat) / 60000 := by positivity
    linarith
  · rw [show ((exponent : Int) + 1) = ((exponent + 1 : Nat) : Int) by omega, zpow_natCast, whole]
    have share : ((ms % 60000 : Int) : Rat) / 60000 < 1 := by
      rw [div_lt_one (by norm_num)]
      exact rest
    linarith

/-- The next whole minute is an even number of last places, so a tie goes up to it. -/
theorem toDouble_lt_minute (long : 60000 ≤ ms) (short : ms < 60000 * 2 ^ 52) :
    toDouble ((ms : Rat) / 60000) < (ms / 60000 : Int) + 1 ↔ StaysInMinute ms := by
  obtain ⟨whole, binade, place⟩ := quotient_binade long short
  have nonneg : (0 : Rat) ≤ (ms : Rat) / 60000 := by
    have positive : (0 : Rat) ≤ ms := by exact_mod_cast (by omega : 0 ≤ ms)
    positivity
  have unit := place_pos ((ms : Rat) / 60000)
  rw [StaysInMinute, toDouble_of_nonneg nonneg, roundMagnitude]
  rw [place] at unit ⊢
  generalize (ms / 60000).toNat.log2 = exponent at *
  obtain ⟨scale, joined⟩ : ∃ scale : Nat, scale = 52 - exponent ∧ scale ≠ 0 := ⟨_, rfl, by omega⟩
  have raised : (2 : Rat) ^ exponent = 2 ^ 52 * 2 ^ ((exponent : Int) - 52) := by
    rw [← zpow_natCast, ← zpow_natCast, ← zpow_add₀ (by norm_num)]
    congr 1
    omega
  have one : (1 : Rat) = 2 ^ scale * 2 ^ ((exponent : Int) - 52) := by
    rw [← zpow_natCast, ← zpow_add₀ (by norm_num), ← zpow_zero (2 : Rat)]
    congr 1
    omega
  generalize (2 : Rat) ^ ((exponent : Int) - 52) = place at *
  have minute : ((ms / 60000 : Int) : Rat) + 1 = ((((ms / 60000) + 1) * 2 ^ scale : Int) : Rat) * place := by
    push_cast
    rw [mul_assoc, ← one, mul_one]
  have even : ((ms / 60000) + 1) * 2 ^ scale % 2 = 0 :=
    Int.emod_eq_zero_of_dvd (Dvd.dvd.mul_left (dvd_pow_self 2 joined.2) _)
  have rounded := @le_roundHalfEven_iff ((ms : Rat) / 60000 / place) _ even
  have ints : 60000 * 2 ^ exponent < 2 ^ 53 * (60000 - ms % 60000) ↔
      60000 * (2 : Rat) ^ exponent < 2 ^ 53 * (60000 - ((ms % 60000 : Int) : Rat)) := by
    exact_mod_cast Iff.rfl
  rw [minute, mul_lt_mul_iff_left₀ unit, Int.cast_lt, ← not_le, rounded, not_le, div_lt_iff₀ unit, sub_mul,
    ← minute, whole, ints, raised]
  constructor <;> intro bound <;> linarith

theorem floor_minutes (long : 60000 ≤ ms) (short : ms < 60000 * 2 ^ 52) :
    ⌊toDouble ((ms : Rat) / 60000)⌋ = if StaysInMinute ms then ms / 60000 else ms / 60000 + 1 := by
  obtain ⟨whole, -, -⟩ := quotient_binade long short
  have minutes {count : Int} (nonneg : 0 ≤ count) (small : count ≤ 2 ^ 53) :
      toDouble (count : Rat) = count := by
    have exact := toDouble_natCast (show count.toNat ≤ 2 ^ 53 by omega)
    have cast : ((count.toNat : Nat) : Rat) = count := by exact_mod_cast Int.toNat_of_nonneg nonneg
    rwa [cast] at exact
  have rest := Int.emod_lt_of_pos ms (show (0 : Int) < 60000 by decide)
  have positive := Int.emod_nonneg ms (show (60000 : Int) ≠ 0 by decide)
  have start : (0 : Rat) ≤ ((ms % 60000 : Int) : Rat) / 60000 := by positivity
  have stop : ((ms % 60000 : Int) : Rat) / 60000 ≤ 1 := by
    rw [div_le_one (by norm_num)]
    exact_mod_cast rest.le
  have low := toDouble_mono (show ((ms / 60000 : Int) : Rat) ≤ (ms : Rat) / 60000 by linarith)
  have high := toDouble_mono (show (ms : Rat) / 60000 ≤ ((ms / 60000 + 1 : Int) : Rat) by push_cast; linarith)
  rw [minutes (by omega) (by omega)] at low high
  rw [Int.floor_eq_iff]
  by_cases stays : StaysInMinute ms
  · rw [if_pos stays]
    exact ⟨low, (toDouble_lt_minute long short).mpr stays⟩
  · rw [if_neg stays]
    have reached := not_lt.mp fun below => stays ((toDouble_lt_minute long short).mp below)
    push_cast at high ⊢
    exact ⟨reached, by linarith⟩

end Minutes

/-- What is read off a long gap: the whole minutes of the quotient, and the tenths of the rest. -/
def longReading (ms : Int) : GapReading :=
  let tenths := (restTenths (ms % 60000)).toNat
  ⟨⌊toDouble ((ms : Rat) / 60000)⌋.toNat, tenths / 10, tenths % 10⟩

theorem longReading_ms (ms : Int) : (longReading ms).ms =
    ⌊toDouble ((ms : Rat) / 60000)⌋.toNat * 60000 + (restTenths (ms % 60000)).toNat * 100 := by
  have together (tenths : Nat) : tenths / 10 * 1000 + tenths % 10 * 100 = tenths * 100 := by omega
  simp only [GapReading.ms, longReading, Nat.add_assoc, together]

theorem readGap_long {ms : Int} (long : 60000 ≤ ms) (short : ms < 60000 * 2 ^ 52) :
    readGap (fmtLongGap (some (ms : Rat))).text = some (longReading ms) := by
  have low : ¬ (ms : Rat) < 60000 := by exact_mod_cast not_lt.mpr long
  have positive : ¬ (ms : Rat) ≤ 0 := fun nonpos => low (nonpos.trans_lt (by norm_num))
  have rest : remainder (ms : Rat) 60000 = ((ms % 60000 : Int) : Rat) :=
    remainder_intCast (by omega) 60000
  have whole := floor_minutes long short
  obtain ⟨ten, one, padded, seconds⟩ :=
    padStart_rest (Int.emod_nonneg ms (by decide)) (Int.emod_lt_of_pos ms (by decide))
  have bounds : 0 ≤ ⌊toDouble ((ms : Rat) / 60000)⌋ ∧ ⌊toDouble ((ms : Rat) / 60000)⌋ < 10 ^ 21 := by
    rw [whole]
    split <;> omega
  obtain ⟨clean, read⟩ := parseDigits_minutes bounds.1 bounds.2
  have laidOut : (fmtLongGap (some (ms : Rat))).text =
      String.ofList ('+' :: (numberToString (⌊toDouble ((ms : Rat) / 60000)⌋ : Rat)).toList ++
        [':', ten, one, '.', ((restTenths (ms % 60000)).toNat % 10).digitChar]) := by
    rw [← String.toList_inj, String.toList_ofList]
    simp only [fmtLongGap, if_neg positive, if_neg low, GapLabel.text, rest, String.toList_append, padded]
    simp
  rw [laidOut, readGap_plus clean, read, seconds, parseDigits_digitChar (Nat.mod_lt _ (by decide))]
  rfl

/-- Below 2^43 minutes a half of a last place is less than a twentieth of a second. -/
theorem staysInMinute_of_short {ms : Int} (long : 60000 ≤ ms) (short : ms < 60000 * 2 ^ 43)
    (early : ms % 60000 < 59950) : StaysInMinute ms := by
  have binade : (ms / 60000).toNat.log2 < 43 := (Nat.log2_lt (by omega)).mpr (by omega)
  have power : (2 : Int) ^ (ms / 60000).toNat.log2 ≤ 2 ^ 42 :=
    pow_le_pow_right₀ (by decide) (Nat.le_of_lt_succ binade)
  rw [StaysInMinute]
  omega

theorem faithful_iff {ms : Int} (long : 60000 ≤ ms) (short : ms < 60000 * 2 ^ 52) :
    Faithful (fmtLongGap (some (ms : Rat))).text ms ↔ ms % 60000 < 59950 ∧ StaysInMinute ms := by
  have start := Int.emod_nonneg ms (show (60000 : Int) ≠ 0 by decide)
  have stop := Int.emod_lt_of_pos ms (show (0 : Int) < 60000 by decide)
  have near := abs_le.mp (restTenths_near start stop)
  have nonneg := restTenths_nonneg start
  have minute := restTenths_minute start stop
  have whole := floor_minutes long short
  rw [Faithful, readGap_long long short]
  simp only [Option.some.injEq, exists_eq_left', longReading_ms, whole]
  have seconds : (longReading ms).seconds < 60 ↔ ms % 60000 < 59950 := by
    rw [← minute]
    change (restTenths (ms % 60000)).toNat / 10 < 60 ↔ _
    omega
  rw [seconds]
  refine and_congr_right fun early => ?_
  have tenth (distance : Int) : 2 * |distance| ≤ 100 ↔ -50 ≤ distance ∧ distance ≤ 50 := by
    rw [← abs_le]
    omega
  rw [tenth]
  by_cases stays : StaysInMinute ms
  · simp only [stays, if_true, iff_true]
    omega
  · -- The rest is read with a minute too many.
    simp only [stays, if_false, iff_false]
    omega

/-- A long gap is printed well exactly when neither what is left of the minute nor the quotient
rounds up to the next one; up to 2^43 minutes only the first can. -/
theorem fmtLongGap_faithful (ms : Int) (long : 60000 ≤ ms) (short : ms < 60000 * 2 ^ 52) :
    (Faithful (fmtLongGap (some (ms : Rat))).text ms ↔ ms % 60000 < 59950 ∧ StaysInMinute ms) ∧
      (ms < 60000 * 2 ^ 43 → (Faithful (fmtLongGap (some (ms : Rat))).text ms ↔ ms % 60000 < 59950)) := by
  refine ⟨faithful_iff long short, fun safe => ?_⟩
  rw [faithful_iff long short]
  exact ⟨And.left, fun early => ⟨early, staysInMinute_of_short long safe early⟩⟩

theorem fmtLongGap_faithful_lapped :
    Faithful (fmtLongGap (some ((643581 : Int) : Rat))).text 643581 :=
  ((fmtLongGap_faithful 643581 (by decide) (by decide)).2 (by decide)).mpr (by decide)

/-- Just short of two minutes is printed as one minute and sixty seconds. -/
theorem fmtLongGap_carry : ¬ ∀ ms : Int, 60000 ≤ ms →
    Faithful (fmtLongGap (some (ms : Rat))).text ms := by
  intro faithful
  obtain ⟨reading, read, seconds, -⟩ := faithful 119999 (by decide)
  rw [readGap_long (by decide) (by decide)] at read
  have sixty : longReading 119999 = reading := Option.some.inj read
  rw [← sixty] at seconds
  exact absurd seconds (by decide +kernel)

example : (fmtLongGap (some 119999)).text = "+1:60.0" := by decide +kernel

end RaceTracker.Web
