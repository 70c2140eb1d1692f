/-!
# Binary floating-point numbers

A finite number is `± significand · 2 ^ exponent` with a significand of at most 53 bits and an
exponent of at least -1074. Every operation rounds its exact result to the nearest such number; a
tie goes to the even significand, and a result too large becomes infinite.
-/

namespace QuotaGate

/-- The nearest whole number to a quotient; a tie goes to the even one. -/
def roundHalfEven (numerator denominator : Nat) : Nat :=
  let quotient := numerator / denominator
  let rest := numerator % denominator
  if 2 * rest < denominator then quotient
  else if denominator < 2 * rest then quotient + 1
  else if quotient % 2 = 0 then quotient else quotient + 1

/-- A floating-point number of 64 bits. -/
inductive Binary64 where
  | nan
  | infinite (negative : Bool)
  | finite (negative : Bool) (significand : Nat) (exponent : Int)
  deriving DecidableEq, Repr

namespace Binary64

/-- The least exponent of a finite number. -/
def leastExponent : Int := -1074

/-- The greatest exponent of a finite number. -/
def greatestExponent : Int := 971

def zero (negative : Bool) : Binary64 := finite negative 0 leastExponent

/-- A quotient of naturals divided by a power of two, again as a quotient of naturals. -/
def scaleDown (numerator denominator : Nat) (exponent : Int) : Nat × Nat :=
  if 0 ≤ exponent then (numerator, denominator * Nat.pow 2 exponent.toNat)
  else (numerator * Nat.pow 2 (-exponent).toNat, denominator)

/-- The exponent under which a positive quotient has a significand of 53 bits, or the least
exponent if that is larger. -/
def exponentOf (numerator denominator : Nat) : Int :=
  let guess : Int := (numerator.log2 : Int) - denominator.log2 - 52
  let scaled := scaleDown numerator denominator guess
  let exact := if scaled.1 < Nat.pow 2 52 * scaled.2 then guess - 1 else guess
  max leastExponent exact

def ofRatio (negative : Bool) (numerator denominator : Nat) : Binary64 :=
  if numerator = 0 then zero negative
  else
    let exponent := exponentOf numerator denominator
    let scaled := scaleDown numerator denominator exponent
    let significand := roundHalfEven scaled.1 scaled.2
    let (significand, exponent) :=
      if significand = Nat.pow 2 53 then (Nat.pow 2 52, exponent + 1) else (significand, exponent)
    if greatestExponent < exponent then infinite negative
    else finite negative significand exponent

/-- The number nearest to `coefficient · 10 ^ exponent`. Beyond 400 powers of ten the outcome is
known without the exact quotient. -/
def ofDecimal (negative : Bool) (coefficient : Nat) (exponent : Int) : Binary64 :=
  if coefficient = 0 then zero negative
  else if 400 < exponent then infinite negative
  else if exponent + (coefficient.log2 + 1) < -400 then zero negative
  else if 0 ≤ exponent then ofRatio negative (coefficient * Nat.pow 10 exponent.toNat) 1
  else ofRatio negative coefficient (Nat.pow 10 (-exponent).toNat)

def ofNat (value : Nat) : Binary64 := ofRatio false value 1

/-- The magnitude of `significand · 2 ^ exponent` as a quotient of naturals. -/
def ratio (significand : Nat) (exponent : Int) : Nat × Nat := scaleDown significand 1 (-exponent)

def mul : Binary64 → Binary64 → Binary64
  | finite negative significand exponent, finite negative' significand' exponent' =>
    let left := ratio significand exponent
    let right := ratio significand' exponent'
    ofRatio (negative != negative') (left.1 * right.1) (left.2 * right.2)
  | infinite negative, finite negative' significand _ =>
    if significand = 0 then nan else infinite (negative != negative')
  | finite negative significand _, infinite negative' =>
    if significand = 0 then nan else infinite (negative != negative')
  | infinite negative, infinite negative' => infinite (negative != negative')
  | nan, _ | _, nan => nan

def div : Binary64 → Binary64 → Binary64
  | finite negative significand exponent, finite negative' significand' exponent' =>
    if significand' = 0 then
      if significand = 0 then nan else infinite (negative != negative')
    else
      let left := ratio significand exponent
      let right := ratio significand' exponent'
      ofRatio (negative != negative') (left.1 * right.2) (left.2 * right.1)
  | infinite negative, finite negative' _ _ => infinite (negative != negative')
  | finite negative _ _, infinite negative' => zero (negative != negative')
  | infinite _, infinite _ => nan
  | nan, _ | _, nan => nan

def neg : Binary64 → Binary64
  | nan => nan
  | infinite negative => infinite !negative
  | finite negative significand exponent => finite (!negative) significand exponent

/-- Whether a number is less than zero. Negative zero is not. -/
def isNegative : Binary64 → Bool
  | nan => false
  | infinite negative => negative
  | finite negative significand _ => negative && significand != 0

def isFinite : Binary64 → Bool
  | finite .. => true
  | _ => false

/-- The number rounded to a whole number, halves away from zero, and brought into the range from
zero to `most`. What is not a number counts as zero. -/
def clampToNat (most : Nat) : Binary64 → Nat
  | nan => 0
  | infinite negative => if negative then 0 else most
  | finite negative significand exponent =>
    let magnitude := ratio significand exponent
    if negative then 0
    else min most ((2 * magnitude.1 + magnitude.2) / (2 * magnitude.2))

end Binary64

end QuotaGate
