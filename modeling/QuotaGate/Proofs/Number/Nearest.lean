import Mathlib.Algebra.Order.Field.Power
import Mathlib.Algebra.Order.Field.Basic
import Mathlib.Data.Rat.Cast.Defs
import Mathlib.Tactic.Linarith
import Mathlib.Tactic.NormNum
import Mathlib.Tactic.Positivity
import Mathlib.Tactic.Ring
import QuotaGate.Number.Binary64

/-!
# How near a rounded number is

The quotient of two naturals is brought to a scale at which it has 53 bits before the point and is
rounded to a whole number there. What the rounding misses is half a unit of that scale at most, and
a bound on the quotient is a bound on the scale.

Results:
1. `abs_roundHalfEven_sub_le`, `roundHalfEven_eq`: rounding misses at most a half, and whatever
   lies nearer than a half to a whole number is rounded to it.
2. `div_lt_of_exponentOf`, `two_zpow_exponentOf_le`: the scale of a quotient.
3. `exists_ofRatio_near`: a rounded quotient.
-/

namespace QuotaGate

variable {numerator denominator : Nat}

/-! ## Rounding to a whole number -/

theorem roundHalfEven_cases (numerator denominator : Nat) :
    roundHalfEven numerator denominator = numerator / denominator ∧
        2 * (numerator % denominator) ≤ denominator ∨
      roundHalfEven numerator denominator = numerator / denominator + 1 ∧
        denominator ≤ 2 * (numerator % denominator) := by
  unfold roundHalfEven
  dsimp only
  split
  · next less => exact .inl ⟨rfl, less.le⟩
  · next notLess =>
    split
    · next more => exact .inr ⟨rfl, more.le⟩
    · next notMore =>
      split
      · exact .inl ⟨rfl, Nat.le_of_not_lt notMore⟩
      · exact .inr ⟨rfl, Nat.le_of_not_lt notLess⟩

theorem div_eq_whole_add_rest (numerator : Nat) (positive : 0 < denominator) :
    (numerator : ℚ) / denominator =
      (numerator / denominator : Nat) + (numerator % denominator : Nat) / (denominator : ℚ) := by
  have above : (0 : ℚ) < denominator := by exact_mod_cast positive
  have parts : (numerator : ℚ) =
      denominator * (numerator / denominator : Nat) + (numerator % denominator : Nat) := by
    exact_mod_cast (Nat.div_add_mod numerator denominator).symm
  rw [div_eq_iff above.ne', add_mul, div_mul_cancel₀ _ above.ne', mul_comm]
  exact parts

theorem abs_roundHalfEven_sub_le (numerator : Nat) (positive : 0 < denominator) :
    |(roundHalfEven numerator denominator : ℚ) - numerator / denominator| ≤ 1 / 2 := by
  have above : (0 : ℚ) < denominator := by exact_mod_cast positive
  have least : (0 : ℚ) ≤ (numerator % denominator : Nat) / (denominator : ℚ) := by positivity
  have most : ((numerator % denominator : Nat) : ℚ) / denominator < 1 := by
    rw [div_lt_one above]
    exact_mod_cast Nat.mod_lt numerator positive
  rw [div_eq_whole_add_rest numerator positive, abs_le]
  rcases roundHalfEven_cases numerator denominator with ⟨rounded, half⟩ | ⟨rounded, half⟩
  · have small : ((numerator % denominator : Nat) : ℚ) / denominator ≤ 1 / 2 := by
      rw [div_le_div_iff₀ above two_pos]
      exact_mod_cast (by omega : numerator % denominator * 2 ≤ 1 * denominator)
    rw [rounded]
    constructor
    · linarith
    · linarith
  · have large : 1 / 2 ≤ ((numerator % denominator : Nat) : ℚ) / denominator := by
      rw [div_le_div_iff₀ two_pos above]
      exact_mod_cast (by omega : 1 * denominator ≤ numerator % denominator * 2)
    rw [rounded, Nat.cast_succ]
    constructor
    · linarith
    · linarith

/-- What lies nearer than a half to a whole number is rounded to it. -/
theorem roundHalfEven_eq {whole : Nat} (positive : 0 < denominator)
    (near : |(numerator : ℚ) / denominator - whole| < 1 / 2) :
    roundHalfEven numerator denominator = whole := by
  have missed := abs_roundHalfEven_sub_le numerator positive
  have apart : |(roundHalfEven numerator denominator : ℚ) - whole| < 1 := by
    calc |(roundHalfEven numerator denominator : ℚ) - whole|
        ≤ |(roundHalfEven numerator denominator : ℚ) - numerator / denominator| +
            |(numerator : ℚ) / denominator - whole| := abs_sub_le _ _ _
      _ < 1 / 2 + 1 / 2 := add_lt_add_of_le_of_lt missed near
      _ = 1 := by norm_num
  have none : |((roundHalfEven numerator denominator : Int) - whole : Int)| < 1 := by
    exact_mod_cast apart
  have same := sub_eq_zero.1 (Int.abs_lt_one_iff.1 none)
  exact_mod_cast same

namespace Binary64

/-! ## The scale of a quotient -/

theorem scaleDown_pos (numerator : Nat) (positive : 0 < denominator) (exponent : Int) :
    0 < (scaleDown numerator denominator exponent).2 := by
  unfold scaleDown
  split
  · exact Nat.mul_pos positive (Nat.two_pow_pos _)
  · exact positive

theorem scaleDown_div (numerator denominator : Nat) (exponent : Int) :
    ((scaleDown numerator denominator exponent).1 : ℚ) /
      (scaleDown numerator denominator exponent).2 = numerator / denominator / 2 ^ exponent := by
  unfold scaleDown
  split
  · next nonneg =>
    have power : (2 : ℚ) ^ exponent = ((2 ^ exponent.toNat : Nat) : ℚ) := by
      rw [Nat.cast_pow, Nat.cast_two, ← zpow_natCast, Int.toNat_of_nonneg nonneg]
    show (numerator : ℚ) / ((denominator * 2 ^ exponent.toNat : Nat) : ℚ) = _
    rw [power, Nat.cast_mul, div_div]
  · next negative =>
    have power : (2 : ℚ) ^ exponent = (((2 ^ (-exponent).toNat : Nat) : ℚ))⁻¹ := by
      rw [Nat.cast_pow, Nat.cast_two, ← zpow_natCast, ← zpow_neg,
        Int.toNat_of_nonneg (by omega), neg_neg]
    show ((numerator * 2 ^ (-exponent).toNat : Nat) : ℚ) / (denominator : ℚ) = _
    rw [power, Nat.cast_mul, div_inv_eq_mul, mul_div_right_comm]

theorem ratio_pos (significand : Nat) (exponent : Int) : 0 < (ratio significand exponent).2 :=
  scaleDown_pos significand Nat.one_pos (-exponent)

theorem ratio_div (significand : Nat) (exponent : Int) :
    ((ratio significand exponent).1 : ℚ) / (ratio significand exponent).2 =
      significand * 2 ^ exponent := by
  unfold ratio
  rw [scaleDown_div, Nat.cast_one, div_one, zpow_neg, div_inv_eq_mul]

/-- The logarithms of the parts bound a quotient from below. -/
theorem two_zpow_lt_div (positive : 0 < denominator) (nonzero : numerator ≠ 0) :
    (2 : ℚ) ^ ((numerator.log2 : Int) - denominator.log2 - 1) < numerator / denominator := by
  have above : (0 : ℚ) < denominator := by exact_mod_cast positive
  have least : (2 : ℚ) ^ (numerator.log2 : Int) ≤ numerator := by
    rw [zpow_natCast]
    exact_mod_cast Nat.log2_self_le nonzero
  have most : (denominator : ℚ) < 2 ^ ((denominator.log2 : Int) + 1) := by
    rw [← Nat.cast_succ, zpow_natCast]
    exact_mod_cast Nat.lt_log2_self
  rw [lt_div_iff₀ above]
  calc (2 : ℚ) ^ ((numerator.log2 : Int) - denominator.log2 - 1) * denominator
      < 2 ^ ((numerator.log2 : Int) - denominator.log2 - 1) * 2 ^ ((denominator.log2 : Int) + 1) :=
        mul_lt_mul_of_pos_left most (by positivity)
    _ = 2 ^ (numerator.log2 : Int) := by
        rw [← zpow_add₀ two_ne_zero]
        congr 1
        omega
    _ ≤ numerator := least

/-- The logarithms of the parts bound a quotient from above. -/
theorem div_lt_two_zpow (numerator : Nat) (positive : 0 < denominator) :
    (numerator : ℚ) / denominator < 2 ^ ((numerator.log2 : Int) - denominator.log2 + 1) := by
  have above : (0 : ℚ) < denominator := by exact_mod_cast positive
  have most : (numerator : ℚ) < 2 ^ ((numerator.log2 : Int) + 1) := by
    rw [← Nat.cast_succ, zpow_natCast]
    exact_mod_cast Nat.lt_log2_self
  have least : (2 : ℚ) ^ (denominator.log2 : Int) ≤ denominator := by
    rw [zpow_natCast]
    exact_mod_cast Nat.log2_self_le positive.ne'
  rw [div_lt_iff₀ above]
  calc (numerator : ℚ) < 2 ^ ((numerator.log2 : Int) + 1) := most
    _ = 2 ^ ((numerator.log2 : Int) - denominator.log2 + 1) * 2 ^ (denominator.log2 : Int) := by
        rw [← zpow_add₀ two_ne_zero]
        congr 1
        omega
    _ ≤ 2 ^ ((numerator.log2 : Int) - denominator.log2 + 1) * denominator :=
        mul_le_mul_of_nonneg_left least (by positivity)

/-- So many bits of a unit. -/
theorem two_zpow_bits (bits : Nat) (exponent : Int) :
    (2 : ℚ) ^ ((bits : Int) + exponent) = (2 ^ bits : Nat) * 2 ^ exponent := by
  rw [zpow_add₀ two_ne_zero, zpow_natCast, Nat.cast_pow, Nat.cast_two]

/-- The test that lowers the guess compares the quotient with a power of two. -/
theorem scaleDown_lt_iff (numerator : Nat) (positive : 0 < denominator) (guess : Int) :
    (scaleDown numerator denominator guess).1 <
        Nat.pow 2 52 * (scaleDown numerator denominator guess).2 ↔
      (numerator : ℚ) / denominator < 2 ^ (52 + guess) := by
  have aboveZero : (0 : ℚ) < (scaleDown numerator denominator guess).2 := by
    exact_mod_cast scaleDown_pos numerator positive guess
  have unit : (0 : ℚ) < 2 ^ guess := by positivity
  have power : (2 : ℚ) ^ (52 + guess) = (Nat.pow 2 52 : Nat) * 2 ^ guess := two_zpow_bits 52 guess
  rw [power, ← div_lt_iff₀ unit, ← scaleDown_div, div_lt_iff₀ aboveZero]
  exact_mod_cast Iff.rfl

/-- At its exponent a quotient has 53 bits at most. -/
theorem div_lt_of_exponentOf (numerator : Nat) (positive : 0 < denominator) :
    (numerator : ℚ) / denominator < 2 ^ (53 + exponentOf numerator denominator) := by
  unfold exponentOf
  dsimp only
  have bound := div_lt_two_zpow numerator positive
  generalize isGuess : (numerator.log2 : Int) - denominator.log2 - 52 = guess
  have guessed : (numerator.log2 : Int) - denominator.log2 + 1 = 53 + guess := by omega
  rw [guessed] at bound
  split
  · next lowered =>
    refine ((scaleDown_lt_iff numerator positive guess).1 lowered).trans_le ?_
    exact zpow_le_zpow_right₀ one_le_two (by omega)
  · exact bound.trans_le (zpow_le_zpow_right₀ one_le_two (by omega))

/-- At its exponent a quotient has 53 bits at least, unless the exponent is the least one. -/
theorem two_zpow_exponentOf_le (positive : 0 < denominator) (nonzero : numerator ≠ 0)
    (above : leastExponent < exponentOf numerator denominator) :
    (2 : ℚ) ^ (52 + exponentOf numerator denominator) ≤ numerator / denominator := by
  unfold exponentOf at above ⊢
  dsimp only at above ⊢
  have bound := two_zpow_lt_div positive nonzero
  generalize isGuess : (numerator.log2 : Int) - denominator.log2 - 52 = guess at above ⊢
  have guessed : (numerator.log2 : Int) - denominator.log2 - 1 = 52 + (guess - 1) := by omega
  rw [guessed] at bound
  split at above
  · next lowered =>
    rw [if_pos lowered, max_eq_right (by omega)]
    exact bound.le
  · next kept =>
    rw [if_neg kept, max_eq_right (by omega)]
    exact not_lt.1 fun small => kept ((scaleDown_lt_iff numerator positive guess).2 small)

/-- A quotient below `2 ^ (53 + exponent)` has its 53 bits at this exponent or a smaller one. -/
theorem exponentOf_le {exponent : Int} (positive : 0 < denominator) (nonzero : numerator ≠ 0)
    (least : leastExponent ≤ exponent)
    (small : (numerator : ℚ) / denominator < 2 ^ (53 + exponent)) :
    exponentOf numerator denominator ≤ exponent := by
  by_contra above
  have filled := two_zpow_exponentOf_le positive nonzero (least.trans_lt (not_le.1 above))
  have between := filled.trans_lt small
  rw [zpow_lt_zpow_iff_right₀ one_lt_two] at between
  omega

/-! ## A rounded quotient -/

/-- The magnitude of a rounded quotient that is not too large. -/
def nearest (numerator denominator : Nat) : ℚ :=
  roundHalfEven (scaleDown numerator denominator (exponentOf numerator denominator)).1
      (scaleDown numerator denominator (exponentOf numerator denominator)).2 *
    2 ^ exponentOf numerator denominator

theorem nearest_zero (positive : 0 < denominator) : nearest 0 denominator = 0 := by
  have none : (scaleDown 0 denominator (exponentOf 0 denominator)).1 = 0 := by
    unfold scaleDown
    split
    · rfl
    · exact Nat.zero_mul _
  have rounded : roundHalfEven 0 (scaleDown 0 denominator (exponentOf 0 denominator)).2 = 0 := by
    have above := scaleDown_pos 0 positive (exponentOf 0 denominator)
    simp [roundHalfEven, above]
  rw [nearest, none, rounded, Nat.cast_zero, zero_mul]

/-- The value of a rounded quotient: where the significand gets a bit too many it moves on by one
power of two. -/
theorem exists_ofRatio (negative : Bool) (positive : 0 < denominator)
    (notLarge : numerator ≠ 0 → exponentOf numerator denominator < greatestExponent) :
    ∃ significand scale, ofRatio negative numerator denominator =
        finite negative significand scale ∧
      (significand : ℚ) * 2 ^ scale = nearest numerator denominator := by
  by_cases isZero : numerator = 0
  · subst isZero
    refine ⟨0, leastExponent, rfl, ?_⟩
    rw [nearest_zero positive, Nat.cast_zero, zero_mul]
  specialize notLarge isZero
  unfold ofRatio nearest
  rw [if_neg isZero]
  dsimp only
  generalize exponentOf numerator denominator = exponent at notLarge
  generalize roundHalfEven (scaleDown numerator denominator exponent).1
    (scaleDown numerator denominator exponent).2 = rounded
  by_cases carries : rounded = Nat.pow 2 53
  · rw [if_pos carries]
    refine ⟨Nat.pow 2 52, exponent + 1, if_neg (not_lt.2 (Int.add_one_le_of_lt notLarge)), ?_⟩
    have twice : ((Nat.pow 2 53 : Nat) : ℚ) = (Nat.pow 2 52 : Nat) * 2 := by
      exact_mod_cast (by decide : Nat.pow 2 53 = Nat.pow 2 52 * 2)
    rw [carries, twice, zpow_add_one₀ two_ne_zero]
    ring
  · rw [if_neg carries]
    exact ⟨rounded, exponent, if_neg (not_lt.2 notLarge.le), rfl⟩

/-- A quotient below `2 ^ (53 + exponent)` is missed by half of `2 ^ exponent` at most. -/
theorem abs_nearest_sub_le {exponent : Int} (positive : 0 < denominator)
    (least : leastExponent ≤ exponent)
    (small : (numerator : ℚ) / denominator < 2 ^ (53 + exponent)) :
    |nearest numerator denominator - numerator / denominator| ≤ 1 / 2 * 2 ^ exponent := by
  by_cases isZero : numerator = 0
  · rw [isZero, nearest_zero positive, Nat.cast_zero, zero_div, sub_zero, abs_zero]
    positivity
  have scaleLe := exponentOf_le positive isZero least small
  unfold nearest
  generalize exponentOf numerator denominator = fine at scaleLe
  have missed := abs_roundHalfEven_sub_le (scaleDown numerator denominator fine).1
    (scaleDown_pos numerator positive fine)
  rw [scaleDown_div] at missed
  have unit : (0 : ℚ) < 2 ^ fine := by positivity
  have whole : (numerator : ℚ) / denominator = numerator / denominator / 2 ^ fine * 2 ^ fine :=
    (div_mul_cancel₀ _ unit.ne').symm
  rw [whole, ← sub_mul, abs_mul, abs_of_pos unit]
  calc _ ≤ 1 / 2 * (2 : ℚ) ^ fine := mul_le_mul_of_nonneg_right missed unit.le
    _ ≤ 1 / 2 * 2 ^ exponent := by
      have finer : (2 : ℚ) ^ fine ≤ 2 ^ exponent := zpow_le_zpow_right₀ one_le_two scaleLe
      linarith

/-- A quotient below `2 ^ (53 + exponent)` is rounded to a number that misses it by half of
`2 ^ exponent` at most. -/
theorem exists_ofRatio_near {exponent : Int} (negative : Bool) (positive : 0 < denominator)
    (least : leastExponent ≤ exponent) (most : exponent < greatestExponent)
    (small : (numerator : ℚ) / denominator < 2 ^ (53 + exponent)) :
    ∃ significand scale, ofRatio negative numerator denominator =
        finite negative significand scale ∧
      (significand : ℚ) * 2 ^ scale = nearest numerator denominator ∧
      |(significand : ℚ) * 2 ^ scale - numerator / denominator| ≤ 1 / 2 * 2 ^ exponent := by
  obtain ⟨significand, scale, rounded, value⟩ := exists_ofRatio negative positive
    fun nonzero => (exponentOf_le positive nonzero least small).trans_lt most
  refine ⟨significand, scale, rounded, value, ?_⟩
  rw [value]
  exact abs_nearest_sub_le positive least small

end Binary64

end QuotaGate
