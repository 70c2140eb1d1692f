import Mathlib.Algebra.Order.Floor.Semifield
import QuotaGate.Proofs.Number.Rounding
import QuotaGate.Quota.Report

/-!
# The end of a window as a calendar time

A server may say when a window ends in seconds since 1970, as a floating-point number. The whole
seconds are taken from the number. The fraction is multiplied by a thousand million and rounded, and
of what is rounded the whole part counts. A fraction of 53 bits stays so far below one that its
product is never rounded up to a whole second, and rounding keeps the order; so calendar times come
in the order of the numbers, and none is a nanosecond away from its number.

Results:
1. `Timestamp.ofBinary64?_eq`: the calendar time of a number by whole part and fraction.
2. `Timestamp.nanosOf_lt`, `Timestamp.isTimeOf_timeOf`: the fraction never makes a second.
3. `Timestamp.timeOf_mono`: calendar times come in the order of their numbers.
4. `Report.reset_of_number`: the calendar time of a report.
-/

namespace QuotaGate

/-- The exact value of a finite number. -/
def Binary64.value? : Binary64 → Option ℚ
  | finite negative significand exponent =>
    some ((if negative then -1 else 1) * (significand * 2 ^ exponent))
  | nan | infinite _ => none

namespace Timestamp

open Binary64 (ratio nearest)

/-- The seconds since 1970. -/
def value (time : Timestamp) : ℚ := time.seconds + time.nanos / Duration.second

/-- A calendar time is the one of a number of seconds: it has exactly the whole seconds of the
number and less than a second in nanoseconds, and is less than a nanosecond away from the number. -/
structure IsTimeOf (time : Timestamp) (value : ℚ) : Prop where
  seconds : (time.seconds : Int) = ⌊value⌋
  nanos : time.nanos ≤ 999999999
  near : |time.value - value| < 1 / Duration.second

/-- No later than another time. -/
def IsBy (time other : Timestamp) : Prop :=
  time.seconds < other.seconds ∨ time.seconds = other.seconds ∧ time.nanos ≤ other.nanos

/-! ## Whole part and fraction -/

section Parts

variable (significand : Nat) (exponent : Int)

/-- What is left of a number beside its whole part, over the second part of the number's ratio. -/
def restOf : Nat := (ratio significand exponent).1 % (ratio significand exponent).2

/-- The nanoseconds of the fraction. -/
def nanosOf : Nat :=
  ⌊nearest (restOf significand exponent * Duration.second) (ratio significand exponent).2⌋₊

/-- The calendar time of a number that is not negative. -/
def timeOf : Timestamp :=
  ⟨(ratio significand exponent).1 / (ratio significand exponent).2, nanosOf significand exponent⟩

theorem seconds_timeOf :
    ((timeOf significand exponent).seconds : Int) = ⌊(significand : ℚ) * 2 ^ exponent⌋ := by
  rw [← Binary64.ratio_div, Rat.floor_natCast_div_natCast]
  rfl

/-- Whole part and fraction make the number. -/
theorem seconds_add_rest : ((timeOf significand exponent).seconds : ℚ) +
    restOf significand exponent / (ratio significand exponent).2 = significand * 2 ^ exponent := by
  rw [← Binary64.ratio_div, div_eq_whole_add_rest (ratio significand exponent).1
    (Binary64.ratio_pos significand exponent)]
  rfl

/-- The product of the fraction and a thousand million. -/
theorem product_eq : ((restOf significand exponent * Duration.second : Nat) : ℚ) /
    (ratio significand exponent).2 =
      restOf significand exponent / (ratio significand exponent).2 * Duration.second := by
  rw [Nat.cast_mul, mul_div_right_comm]

variable {significand}

theorem restOf_lt (fits : significand < 2 ^ 53) : restOf significand exponent < 2 ^ 53 := by
  unfold restOf ratio Binary64.scaleDown
  split
  · exact (Nat.mod_le _ _).trans_lt fits
  · dsimp only
    rw [Nat.mod_one]
    decide

/-- A fraction has 53 bits at most, so it stays below one by one unit of them at least. -/
theorem rest_div_le (fits : significand < 2 ^ 53) :
    (restOf significand exponent : ℚ) / (ratio significand exponent).2 ≤ 1 - 1 / 2 ^ 53 := by
  have positive := Binary64.ratio_pos significand exponent
  have below : restOf significand exponent < (ratio significand exponent).2 := Nat.mod_lt _ positive
  have few := restOf_lt exponent fits
  generalize restOf significand exponent = rest at below few
  generalize (ratio significand exponent).2 = denominator at positive below
  have above : (0 : ℚ) < denominator := by exact_mod_cast positive
  -- Up to 53 bits the rest is short of the denominator by one, and beyond by what it cannot have.
  have crossed : rest * 2 ^ 53 + denominator ≤ denominator * 2 ^ 53 := by
    rcases Nat.le_total denominator (2 ^ 53) with short | long
    · omega
    · omega
  have bound : (rest : ℚ) * 2 ^ 53 + denominator ≤ denominator * 2 ^ 53 := by
    exact_mod_cast crossed
  rw [div_le_iff₀ above]
  linarith

theorem product_le (fits : significand < 2 ^ 53) :
    ((restOf significand exponent * Duration.second : Nat) : ℚ) / (ratio significand exponent).2 ≤
      (1 - 1 / 2 ^ 53) * Duration.second := by
  rw [product_eq]
  exact mul_le_mul_of_nonneg_right (rest_div_le exponent fits) (Nat.cast_nonneg _)

/-- Below `2 ^ 30` a number of 53 bits has its last bit at `2 ^ -23` or lower. -/
theorem product_lt (fits : significand < 2 ^ 53) :
    ((restOf significand exponent * Duration.second : Nat) : ℚ) / (ratio significand exponent).2 <
      2 ^ ((53 : Int) + -23) := by
  refine (product_le exponent fits).trans_lt ?_
  norm_num [Duration.second]

/-- The product is less than a second, and so far less that it is not rounded up to one. -/
theorem nearest_product_lt (fits : significand < 2 ^ 53) :
    nearest (restOf significand exponent * Duration.second) (ratio significand exponent).2 <
      Duration.second := by
  have positive := Binary64.ratio_pos significand exponent
  have product := product_le exponent fits
  have missed := (abs_le.1
    (Binary64.abs_nearest_sub_le positive (by decide) (product_lt exponent fits))).2
  -- Half of the last bit is less than what a fraction lacks to one.
  have gap : (1 - 1 / 2 ^ 53) * (Duration.second : ℚ) + 1 / 2 * 2 ^ (-23 : Int) <
      Duration.second := by
    norm_num [Duration.second]
  linarith

theorem nanosOf_lt (fits : significand < 2 ^ 53) :
    nanosOf significand exponent < Duration.second := by
  unfold nanosOf
  rw [Nat.floor_lt (Binary64.nearest_nonneg _ _)]
  exact nearest_product_lt exponent fits

/-- The calendar time of a number is less than a nanosecond away from it. -/
theorem isTimeOf_timeOf (fits : significand < 2 ^ 53) :
    (timeOf significand exponent).IsTimeOf (significand * 2 ^ exponent) where
  seconds := seconds_timeOf significand exponent
  nanos := Nat.le_of_lt_succ (nanosOf_lt exponent fits)
  near := by
    have positive := Binary64.ratio_pos significand exponent
    have second : (0 : ℚ) < Duration.second := by norm_num [Duration.second]
    have bounded := (product_lt exponent fits).le.trans
      (zpow_le_zpow_right₀ one_le_two (by decide : (53 : Int) + -23 ≤ (52 : Nat)))
    rw [zpow_natCast] at bounded
    have close := Binary64.abs_floor_nearest_sub_lt positive bounded
    -- The whole seconds are exact, so all that differs is in the fraction.
    have difference : (timeOf significand exponent).value - significand * 2 ^ exponent =
        (nanosOf significand exponent - restOf significand exponent /
          (ratio significand exponent).2 * Duration.second) / Duration.second := by
      rw [← seconds_add_rest, value, sub_div, mul_div_cancel_right₀ _ second.ne']
      show _ + (nanosOf significand exponent : ℚ) / _ - _ = _
      ring
    rw [difference, abs_div, abs_of_pos second, ← product_eq]
    exact div_lt_div_of_pos_right close second

/-- Calendar times come in the order of their numbers. -/
theorem timeOf_mono {significand significand' : Nat} {exponent exponent' : Int}
    (ordered : (significand : ℚ) * 2 ^ exponent ≤ significand' * 2 ^ exponent') :
    (timeOf significand exponent).IsBy (timeOf significand' exponent') := by
  have wholes := Int.floor_le_floor ordered
  rw [← seconds_timeOf, ← seconds_timeOf, Nat.cast_le] at wholes
  rcases wholes.lt_or_eq with earlier | same
  · exact .inl earlier
  · -- Within one second the fractions are in order, and rounding and the whole part keep it.
    refine .inr ⟨same, Nat.floor_le_floor (Binary64.nearest_mono
      (Binary64.ratio_pos significand exponent) (Binary64.ratio_pos significand' exponent') ?_)⟩
    rw [← seconds_add_rest, ← seconds_add_rest, same, add_le_add_iff_left] at ordered
    rw [product_eq, product_eq]
    exact mul_le_mul_of_nonneg_right ordered (Nat.cast_nonneg _)

/-- The calendar time of a number that is not negative, if the calendar has it. -/
theorem ofBinary64?_eq {negative : Bool} (unsigned : negative = true → significand = 0)
    (fits : significand < 2 ^ 53) :
    ofBinary64? (.finite negative significand exponent) =
      if (timeOf significand exponent).seconds ≤ lastSecond then
        some (timeOf significand exponent)
      else none := by
  obtain ⟨rounded, scale, product, value, -⟩ := Binary64.exists_ofRatio_near false
    (Binary64.ratio_pos significand exponent) (by decide) (by decide) (product_lt exponent fits)
  have whole : (ratio rounded scale).1 / (ratio rounded scale).2 =
      nanosOf significand exponent := by
    rw [nanosOf, ← value, ← Binary64.ratio_div, Nat.floor_div_eq_div]
  have positive : ¬(negative = true ∧ significand ≠ 0) := fun both => both.2 (unsigned both.1)
  unfold restOf at product
  simp only [ofBinary64?, if_neg positive, product, whole]
  rfl

end Parts

theorem ofBinary64?_of_neg {significand : Nat} (nonzero : significand ≠ 0) (exponent : Int) :
    ofBinary64? (.finite true significand exponent) = none := by
  unfold ofBinary64?
  exact if_pos ⟨rfl, nonzero⟩

/-- A finite number is negative and no calendar time, or it has the time of its magnitude if the
calendar has that. Of the two zeros neither is negative. -/
theorem ofBinary64?_cases {number : Binary64} (fits : number.Fits) {value : ℚ}
    (valued : value ∈ number.value?) :
    value < 0 ∧ ofBinary64? number = none ∨
      ∃ (significand : Nat) (exponent : Int),
        significand < 2 ^ 53 ∧ value = significand * 2 ^ exponent ∧
        ofBinary64? number =
          if (timeOf significand exponent).seconds ≤ lastSecond then
            some (timeOf significand exponent)
          else none := by
  cases number with
  | nan | infinite negative => cases valued
  | finite negative significand exponent =>
    cases Option.mem_some.1 valued
    by_cases unsigned : negative = true → significand = 0
    · refine .inr ⟨significand, exponent, fits.1, ?_, ofBinary64?_eq exponent unsigned fits.1⟩
      cases negative with
      | false => simp
      | true => simp [unsigned rfl]
    · obtain ⟨isNegative, nonzero⟩ := Classical.not_imp.1 unsigned
      refine .inl ⟨?_, isNegative ▸ ofBinary64?_of_neg nonzero exponent⟩
      rw [if_pos isNegative, neg_one_mul, neg_lt_zero]
      have positive := Nat.pos_of_ne_zero nonzero
      positivity

theorem ofBinary64?_of_value?_eq_none {number : Binary64} (valueless : number.value? = none) :
    ofBinary64? number = none := by
  cases number with
  | nan | infinite negative => rfl
  | finite negative significand exponent => cases valueless

variable {number : Binary64} {value : ℚ}

theorem exists_isTimeOf (fits : number.Fits) (valued : value ∈ number.value?) (nonneg : 0 ≤ value)
    (within : ⌊value⌋ ≤ lastSecond) :
    ∃ time, ofBinary64? number = some time ∧ time.IsTimeOf value := by
  rcases ofBinary64?_cases fits valued with
    ⟨negative, -⟩ | ⟨significand, exponent, few, rfl, found⟩
  · exact absurd nonneg (not_le.2 negative)
  · rw [← seconds_timeOf, Nat.cast_le] at within
    rw [found, if_pos within]
    exact ⟨_, rfl, isTimeOf_timeOf exponent few⟩

theorem ofBinary64?_eq_none (fits : number.Fits)
    (outside : ∀ value ∈ number.value?, value < 0 ∨ lastSecond < ⌊value⌋) :
    ofBinary64? number = none := by
  cases isValue : number.value? with
  | none => exact ofBinary64?_of_value?_eq_none isValue
  | some value =>
    rcases ofBinary64?_cases fits isValue with ⟨-, none⟩ | ⟨significand, exponent, -, rfl, found⟩
    · exact none
    · rcases outside _ isValue with negative | beyond
      · exact absurd negative (not_lt.2 (by positivity))
      · rw [← seconds_timeOf, Nat.cast_lt] at beyond
        rw [found, if_neg (not_le.2 beyond)]

theorem isBy_of_le (fits : number.Fits) (valued : value ∈ number.value?) {greater : Binary64}
    {bound : ℚ} (fitsToo : greater.Fits) (bounding : bound ∈ greater.value?)
    (ordered : value ≤ bound) {time later : Timestamp} (isTime : ofBinary64? number = some time)
    (isLater : ofBinary64? greater = some later) : time.IsBy later := by
  rcases ofBinary64?_cases fits valued with ⟨-, none⟩ | ⟨significand, exponent, -, rfl, found⟩
  · rw [none] at isTime
    cases isTime
  rcases ofBinary64?_cases fitsToo bounding with
    ⟨-, none⟩ | ⟨significand', exponent', -, rfl, found'⟩
  · rw [none] at isLater
    cases isLater
  rw [found] at isTime
  rw [found'] at isLater
  obtain ⟨-, same⟩ := Option.ite_none_right_eq_some.1 isTime
  obtain ⟨-, sameToo⟩ := Option.ite_none_right_eq_some.1 isLater
  cases same
  cases sameToo
  exact timeOf_mono ordered

end Timestamp

namespace Report

open Timestamp (lastSecond)

/-- A response gives a number as the end of its window. -/
def GivesReset (headers : Http.Headers) (number : Binary64) : Prop :=
  ∃ text, headers.text? resetName = some text ∧
    NumberText.float? (Text.trimChars text.toList) = some number

variable {headers : Http.Headers} {number : Binary64}

theorem reset_of_givesReset (given : GivesReset headers number) :
    (ofHeaders headers).reset = Timestamp.ofBinary64? number ∧ number.Fits := by
  obtain ⟨text, found, read⟩ := given
  refine ⟨?_, NumberText.fits_float? read⟩
  show (headers.text? resetName).bind Timestamp.ofText? = _
  rw [found, Option.bind_some, Timestamp.ofText?, read, Option.bind_some]

/-- Where a response gives a number as the end of its window, the report has the calendar time of
the number if the number is finite, not negative and within the calendar, and no time otherwise.
Numbers in order give times in order. -/
theorem reset_of_number (given : GivesReset headers number) :
    (∀ value ∈ number.value?, 0 ≤ value → ⌊value⌋ ≤ lastSecond →
      ∃ time, (ofHeaders headers).reset = some time ∧ time.IsTimeOf value) ∧
    ((∀ value ∈ number.value?, value < 0 ∨ lastSecond < ⌊value⌋) →
      (ofHeaders headers).reset = none) ∧
    ∀ {others : Http.Headers} {greater : Binary64}, GivesReset others greater →
      ∀ value ∈ number.value?, ∀ bound ∈ greater.value?, value ≤ bound →
        ∀ time ∈ (ofHeaders headers).reset, ∀ later ∈ (ofHeaders others).reset,
          time.IsBy later := by
  obtain ⟨read, fits⟩ := reset_of_givesReset given
  rw [read]
  refine ⟨fun value valued => Timestamp.exists_isTimeOf fits valued,
    Timestamp.ofBinary64?_eq_none fits, ?_⟩
  intro others greater givenToo value valued bound bounding ordered time isTime later isLater
  obtain ⟨readToo, fitsToo⟩ := reset_of_givesReset givenToo
  rw [readToo] at isLater
  exact Timestamp.isBy_of_le fits valued fitsToo bounding ordered isTime isLater

/-- A response whose window ends at so many seconds. -/
def endingAt (text : String) : Http.Headers := [(resetName, ⟨Utf8.encode text, false⟩)]

/-- The greatest number below two has the last nanosecond of its second, and two has the next. -/
theorem reset_of_number_below_two :
    (ofHeaders (endingAt "1.9999999999999998")).reset = some ⟨1, 999999999⟩ ∧
      (⟨1, 999999999⟩ : Timestamp).IsTimeOf ((2 ^ 53 - 1) / 2 ^ 52) ∧
      (⟨1, 999999999⟩ : Timestamp).IsBy ⟨2, 0⟩ := by
  have given : GivesReset (endingAt "1.9999999999999998") (.finite false (2 ^ 53 - 1) (-52)) :=
    ⟨"1.9999999999999998", by decide +kernel, by decide +kernel⟩
  have givenToo : GivesReset (endingAt "2") (.finite false (2 ^ 52) (-51)) :=
    ⟨"2", by decide +kernel, by decide +kernel⟩
  have read : (ofHeaders (endingAt "1.9999999999999998")).reset = some ⟨1, 999999999⟩ := by
    decide +kernel
  have readToo : (ofHeaders (endingAt "2")).reset = some ⟨2, 0⟩ := by decide +kernel
  have valued : (2 ^ 53 - 1) / 2 ^ 52 ∈ (Binary64.finite false (2 ^ 53 - 1) (-52)).value? := by
    norm_num [Binary64.value?]
  have valuedToo : 2 ∈ (Binary64.finite false (2 ^ 52) (-51)).value? := by
    norm_num [Binary64.value?]
  have whole : ⌊((2 ^ 53 - 1) / 2 ^ 52 : ℚ)⌋ ≤ lastSecond :=
    (Int.floor_le_floor (by norm_num : ((2 ^ 53 - 1) / 2 ^ 52 : ℚ) ≤ (2 : Nat))).trans
      ((Int.floor_natCast 2).le.trans (by decide))
  obtain ⟨times, -, inOrder⟩ := reset_of_number given
  obtain ⟨time, found, isTime⟩ := times _ valued (by norm_num) whole
  rw [read] at found
  cases found
  exact ⟨read, isTime, inOrder givenToo _ valued _ valuedToo (by norm_num) _ read _ readToo⟩

end Report

end QuotaGate
