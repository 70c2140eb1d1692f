import Mathlib.Data.Rat.Floor
import QuotaGate.Number.Decimal
import QuotaGate.Proofs.Number.Nearest

/-!
# Rounding keeps the order

A quotient is rounded at its own scale, so larger quotients are rounded more coarsely. The order is
kept all the same: at one scale because rounding to a whole number keeps it, and from one scale to
the next because the power of two between them is a number at both. Whole numbers of at most 53 bits
are rounded to themselves, so a quotient between two of them is not rounded past either.

Results:
1. `roundHalfEven_mono`, `Binary64.nearest_mono`: rounding keeps the order.
2. `Binary64.nearest_natCast`: small whole numbers are rounded to themselves.
3. `Binary64.abs_floor_nearest_sub_lt`: the whole part of what is rounded.
4. `Binary64.fits_ofRatio`, `NumberText.fits_float?`: what rounding or reading gives has 64 bits.
-/

namespace QuotaGate

variable {numerator denominator numerator' denominator' : Nat}

/-! ## To a whole number -/

theorem roundHalfEven_eq_succ_iff (numerator denominator : Nat) :
    roundHalfEven numerator denominator = numerator / denominator + 1 ↔
      denominator < 2 * (numerator % denominator) ∨
        2 * (numerator % denominator) = denominator ∧ numerator / denominator % 2 = 1 := by
  unfold roundHalfEven
  dsimp only
  split
  · omega
  · split
    · omega
    · split <;> omega

/-- Quotients in order have their whole parts in order, and their rests where these agree. -/
theorem div_le_div_of_crossed (positive : 0 < denominator) (positive' : 0 < denominator')
    (crossed : numerator * denominator' ≤ numerator' * denominator) :
    numerator / denominator ≤ numerator' / denominator' ∧
      (numerator / denominator = numerator' / denominator' →
        numerator % denominator * denominator' ≤ numerator' % denominator' * denominator) := by
  constructor
  · rw [Nat.le_div_iff_mul_le positive']
    refine Nat.le_of_mul_le_mul_right ?_ positive
    calc numerator / denominator * denominator' * denominator
        = numerator / denominator * denominator * denominator' := Nat.mul_right_comm ..
      _ ≤ numerator * denominator' := Nat.mul_le_mul_right _ (Nat.div_mul_le_self ..)
      _ ≤ numerator' * denominator := crossed
  · intro same
    have parts := Nat.div_add_mod numerator denominator
    have parts' := Nat.div_add_mod numerator' denominator'
    rw [← same] at parts'
    rw [← parts, ← parts', add_mul, add_mul, mul_right_comm, mul_right_comm denominator'] at crossed
    rw [mul_comm denominator denominator'] at crossed
    exact Nat.le_of_add_le_add_left crossed

theorem roundHalfEven_mono (positive : 0 < denominator) (positive' : 0 < denominator')
    (ordered : (numerator : ℚ) / denominator ≤ numerator' / denominator') :
    roundHalfEven numerator denominator ≤ roundHalfEven numerator' denominator' := by
  have crossed : numerator * denominator' ≤ numerator' * denominator := by
    rw [div_le_div_iff₀ (by exact_mod_cast positive) (by exact_mod_cast positive')] at ordered
    exact_mod_cast ordered
  obtain ⟨wholes, rests⟩ := div_le_div_of_crossed positive positive' crossed
  have cases := roundHalfEven_cases numerator denominator
  have cases' := roundHalfEven_cases numerator' denominator'
  rcases wholes.lt_or_eq with less | same
  · omega
  · -- With one whole part, what is rounded up is the larger rest.
    specialize rests same
    have up := roundHalfEven_eq_succ_iff numerator denominator
    have up' := roundHalfEven_eq_succ_iff numerator' denominator'
    have doubled : 2 * (numerator % denominator) * denominator' ≤
        2 * (numerator' % denominator') * denominator := by
      rw [Nat.mul_assoc, Nat.mul_assoc]
      exact Nat.mul_le_mul_left 2 rests
    have above : denominator < 2 * (numerator % denominator) →
        denominator' < 2 * (numerator' % denominator') := fun more => by
      refine Nat.lt_of_mul_lt_mul_right (a := denominator) (lt_of_lt_of_le ?_ doubled)
      rw [Nat.mul_comm denominator' denominator]
      exact Nat.mul_lt_mul_of_pos_right more positive'
    have half : 2 * (numerator % denominator) = denominator →
        denominator' ≤ 2 * (numerator' % denominator') := fun tie => by
      refine Nat.le_of_mul_le_mul_right (le_of_eq_of_le ?_ doubled) positive
      rw [tie, Nat.mul_comm]
    omega

theorem roundHalfEven_one (whole : Nat) : roundHalfEven whole 1 = whole := by
  simp [roundHalfEven, Nat.mod_one]

namespace Binary64

/-! ## To a number -/

theorem nearest_nonneg (numerator denominator : Nat) : 0 ≤ nearest numerator denominator := by
  unfold nearest
  positivity

/-- A quotient that fits a whole number of units is rounded to a whole number of units. -/
theorem roundHalfEven_scaleDown_le {whole : Nat} (positive : 0 < denominator) {exponent : Int}
    (below : (numerator : ℚ) / denominator ≤ whole * 2 ^ exponent) :
    roundHalfEven (scaleDown numerator denominator exponent).1
      (scaleDown numerator denominator exponent).2 ≤ whole := by
  rw [← roundHalfEven_one whole]
  refine roundHalfEven_mono (scaleDown_pos numerator positive exponent) Nat.one_pos ?_
  rwa [scaleDown_div, Nat.cast_one, div_one, div_le_iff₀ (by positivity)]

theorem le_roundHalfEven_scaleDown {whole : Nat} (positive : 0 < denominator) {exponent : Int}
    (above : whole * 2 ^ exponent ≤ (numerator : ℚ) / denominator) :
    whole ≤ roundHalfEven (scaleDown numerator denominator exponent).1
      (scaleDown numerator denominator exponent).2 := by
  rw [← roundHalfEven_one whole]
  refine roundHalfEven_mono Nat.one_pos (scaleDown_pos numerator positive exponent) ?_
  rwa [scaleDown_div, Nat.cast_one, div_one, le_div_iff₀ (by positivity)]

theorem leastExponent_le_exponentOf (numerator denominator : Nat) :
    leastExponent ≤ exponentOf numerator denominator :=
  le_max_left _ _

/-- A larger quotient has no smaller scale. -/
theorem exponentOf_mono (positive : 0 < denominator) (positive' : 0 < denominator')
    (nonzero : numerator ≠ 0)
    (ordered : (numerator : ℚ) / denominator ≤ numerator' / denominator') :
    exponentOf numerator denominator ≤ exponentOf numerator' denominator' :=
  exponentOf_le positive nonzero (leastExponent_le_exponentOf ..)
    (ordered.trans_lt (div_lt_of_exponentOf numerator' positive'))

theorem nearest_le (numerator : Nat) (positive : 0 < denominator) :
    nearest numerator denominator ≤ 2 ^ (53 + exponentOf numerator denominator) := by
  have filled : (2 : ℚ) ^ (53 + exponentOf numerator denominator) =
      (2 ^ 53 : Nat) * 2 ^ exponentOf numerator denominator := two_zpow_bits 53 _
  have below := (div_lt_of_exponentOf numerator positive).le
  rw [filled] at below ⊢
  refine mul_le_mul_of_nonneg_right ?_ (by positivity)
  exact_mod_cast roundHalfEven_scaleDown_le positive below

theorem le_nearest (positive : 0 < denominator) (nonzero : numerator ≠ 0)
    (above : leastExponent < exponentOf numerator denominator) :
    2 ^ (52 + exponentOf numerator denominator) ≤ nearest numerator denominator := by
  have filled : (2 : ℚ) ^ (52 + exponentOf numerator denominator) =
      (2 ^ 52 : Nat) * 2 ^ exponentOf numerator denominator := two_zpow_bits 52 _
  have least := two_zpow_exponentOf_le positive nonzero above
  rw [filled] at least ⊢
  refine mul_le_mul_of_nonneg_right ?_ (by positivity)
  exact_mod_cast le_roundHalfEven_scaleDown positive least

theorem ne_zero_of_le (positive : 0 < denominator) (nonzero : numerator ≠ 0)
    (ordered : (numerator : ℚ) / denominator ≤ numerator' / denominator') : numerator' ≠ 0 := by
  rintro rfl
  rw [Nat.cast_zero, zero_div] at ordered
  have above : (0 : ℚ) < numerator / denominator := by
    have := Nat.pos_of_ne_zero nonzero
    positivity
  exact absurd ordered (not_le.2 above)

/-- Rounding keeps the order. -/
theorem nearest_mono (positive : 0 < denominator) (positive' : 0 < denominator')
    (ordered : (numerator : ℚ) / denominator ≤ numerator' / denominator') :
    nearest numerator denominator ≤ nearest numerator' denominator' := by
  by_cases nonzero : numerator = 0
  · rw [nonzero, nearest_zero positive]
    exact nearest_nonneg _ _
  rcases (exponentOf_mono positive positive' nonzero ordered).lt_or_eq with finer | same
  · -- A power of two lies between the scales, and neither quotient is rounded past it.
    calc nearest numerator denominator
        ≤ 2 ^ (53 + exponentOf numerator denominator) := nearest_le numerator positive
      _ ≤ 2 ^ (52 + exponentOf numerator' denominator') :=
        zpow_le_zpow_right₀ one_le_two (by omega)
      _ ≤ nearest numerator' denominator' :=
        le_nearest positive' (ne_zero_of_le positive nonzero ordered)
          ((leastExponent_le_exponentOf ..).trans_lt finer)
  · unfold nearest
    rw [same]
    refine mul_le_mul_of_nonneg_right (Nat.cast_le.2 ?_) (by positivity)
    refine roundHalfEven_mono (scaleDown_pos _ positive _) (scaleDown_pos _ positive' _) ?_
    rw [scaleDown_div, scaleDown_div]
    exact div_le_div_of_nonneg_right ordered (by positivity)

/-- Whole numbers of at most 53 bits are rounded to themselves. -/
theorem nearest_natCast {whole : Nat} (small : whole < 2 ^ 53) : nearest whole 1 = whole := by
  by_cases nonzero : whole = 0
  · rw [nonzero, nearest_zero Nat.one_pos, Nat.cast_zero]
  have bound : (whole : ℚ) / (1 : Nat) < 2 ^ (53 + (0 : Int)) := by
    rw [Nat.cast_one, div_one]
    exact_mod_cast small
  have fine := exponentOf_le Nat.one_pos nonzero (by decide) bound
  -- At this scale the number is a whole number of units.
  have units : (whole : ℚ) / (1 : Nat) =
      (whole * 2 ^ (-exponentOf whole 1).toNat : Nat) * 2 ^ exponentOf whole 1 := by
    have power : (2 : ℚ) ^ exponentOf whole 1 = ((2 : ℚ) ^ (-exponentOf whole 1).toNat)⁻¹ := by
      rw [← zpow_natCast, ← zpow_neg, Int.toNat_of_nonneg (by omega), neg_neg]
    rw [power, Nat.cast_mul, Nat.cast_pow, Nat.cast_two, Nat.cast_one, div_one,
      mul_inv_cancel_right₀ (by positivity)]
  have rounded := Nat.le_antisymm (roundHalfEven_scaleDown_le Nat.one_pos units.le)
    (le_roundHalfEven_scaleDown Nat.one_pos units.ge)
  rw [nearest, rounded, ← units, Nat.cast_one, div_one]

/-- The whole part of a rounded quotient is less than one away from the quotient: the quotient is
not rounded past the whole numbers on both sides of it. -/
theorem abs_floor_nearest_sub_lt (positive : 0 < denominator)
    (small : (numerator : ℚ) / denominator ≤ 2 ^ 52) :
    |(⌊nearest numerator denominator⌋₊ : ℚ) - numerator / denominator| < 1 := by
  generalize isQuotient : (numerator : ℚ) / denominator = quotient at small ⊢
  have nonneg : 0 ≤ quotient := by
    rw [← isQuotient]
    positivity
  have below := Nat.floor_le nonneg
  have above := Nat.le_ceil quotient
  have ceiling : ⌈quotient⌉₊ ≤ 2 ^ 52 := Nat.ceil_le.2 (by exact_mod_cast small)
  have floorLe := (Nat.floor_le_ceil quotient).trans ceiling
  have least : (⌊quotient⌋₊ : ℚ) ≤ nearest numerator denominator := by
    rw [← nearest_natCast (floorLe.trans_lt (by decide))]
    refine nearest_mono Nat.one_pos positive ?_
    rwa [isQuotient, Nat.cast_one, div_one]
  have most : nearest numerator denominator ≤ ⌈quotient⌉₊ := by
    rw [← nearest_natCast (ceiling.trans_lt (by decide))]
    refine nearest_mono positive Nat.one_pos ?_
    rwa [isQuotient, Nat.cast_one, div_one]
  have leastFloor : (⌊quotient⌋₊ : ℚ) ≤ ⌊nearest numerator denominator⌋₊ :=
    Nat.cast_le.2 (Nat.le_floor least)
  have mostFloor : (⌊nearest numerator denominator⌋₊ : ℚ) ≤ ⌈quotient⌉₊ :=
    (Nat.floor_le (nearest_nonneg _ _)).trans most
  have next := Nat.lt_floor_add_one quotient
  have previous := Nat.ceil_lt_add_one nonneg
  rw [abs_lt]
  constructor
  · linarith
  · linarith

/-! ## Numbers of 64 bits -/

/-- Whether a number has 64 bits: finite ones have a significand of at most 53 bits and an exponent
between the least and the greatest. -/
def Fits : Binary64 → Prop
  | finite _ significand exponent =>
    significand < 2 ^ 53 ∧ leastExponent ≤ exponent ∧ exponent ≤ greatestExponent
  | nan | infinite _ => True

theorem fits_zero (negative : Bool) : (zero negative).Fits :=
  ⟨by decide, by decide, by decide⟩

theorem fits_ofRatio (negative : Bool) (numerator : Nat) (positive : 0 < denominator) :
    (ofRatio negative numerator denominator).Fits := by
  unfold ofRatio
  split
  · exact fits_zero negative
  have least := leastExponent_le_exponentOf numerator denominator
  have filled : (numerator : ℚ) / denominator ≤
      (2 ^ 53 : Nat) * 2 ^ exponentOf numerator denominator :=
    (div_lt_of_exponentOf numerator positive).le.trans_eq (two_zpow_bits 53 _)
  have rounded := roundHalfEven_scaleDown_le positive filled
  dsimp only
  generalize exponentOf numerator denominator = exponent at least rounded
  generalize roundHalfEven _ _ = significand at rounded
  -- A significand that is rounded up to 54 bits passes one of them to the exponent.
  by_cases carries : significand = Nat.pow 2 53
  · rw [if_pos carries]
    dsimp only
    split
    · trivial
    · next inRange => exact ⟨by decide, by omega, not_lt.1 inRange⟩
  · rw [if_neg carries]
    dsimp only
    split
    · trivial
    · next inRange => exact ⟨lt_of_le_of_ne rounded carries, least, not_lt.1 inRange⟩

theorem fits_ofDecimal (negative : Bool) (coefficient : Nat) (exponent : Int) :
    (ofDecimal negative coefficient exponent).Fits := by
  unfold ofDecimal
  split
  · exact fits_zero negative
  · split
    · trivial
    · split
      · exact fits_zero negative
      · split
        · exact fits_ofRatio _ _ Nat.one_pos
        · exact fits_ofRatio _ _ (Nat.pow_pos (by decide))

end Binary64

namespace NumberText

open Binary64 (Fits)

theorem fits_unsignedFloat? {negative : Bool} {chars : List Char} {number : Binary64}
    (read : unsignedFloat? negative chars = some number) : number.Fits := by
  unfold unsignedFloat? at read
  dsimp only at read
  split at read
  · cases read
    trivial
  · split at read
    · cases read
      trivial
    · obtain ⟨⟨coefficient, exponent⟩, -, rfl⟩ := Option.map_eq_some_iff.1 read
      exact Binary64.fits_ofDecimal negative coefficient exponent

/-- What a text is read as has 64 bits. -/
theorem fits_float? {chars : List Char} {number : Binary64} (read : float? chars = some number) :
    number.Fits := by
  unfold float? at read
  split at read <;> exact fits_unsignedFloat? read

end NumberText

end QuotaGate
