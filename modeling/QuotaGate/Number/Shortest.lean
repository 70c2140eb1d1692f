import QuotaGate.Number.Binary64

/-!
# The shortest decimal text of a number

Of the decimals that round to a number, the shortest are those with the fewest digits; the nearest
of them is the number's decimal form. A decimal rounds to a number when it lies within half a step
of it, the half step itself included when the significand is even.
-/

namespace QuotaGate.Binary64

/-- The decimals that round to a positive finite number: those between the two bounds, which are
numerators over one common denominator. -/
structure Basin where
  low : Nat
  value : Nat
  high : Nat
  denominator : Nat
  closed : Bool

/-- The decimals that round to `significand · 2 ^ exponent`. Below a power of two the step is half
as wide. -/
def basin (significand : Nat) (exponent : Int) : Basin :=
  let quarter := scaleDown 1 1 (2 - exponent)
  let below := if significand = Nat.pow 2 52 ∧ leastExponent < exponent then 1 else 2
  { low := (4 * significand - below) * quarter.1
    value := 4 * significand * quarter.1
    high := (4 * significand + 2) * quarter.1
    denominator := quarter.2
    closed := significand % 2 = 0 }

/-- Whether `digits · 10 ^ exponent` lies in a basin. -/
def Basin.holds (basin : Basin) (digits : Nat) (exponent : Int) : Bool :=
  let scaled :=
    if 0 ≤ exponent then (digits * Nat.pow 10 exponent.toNat * basin.denominator, 1)
    else (digits * basin.denominator, Nat.pow 10 (-exponent).toNat)
  if basin.closed then basin.low * scaled.2 ≤ scaled.1 && scaled.1 ≤ basin.high * scaled.2
  else basin.low * scaled.2 < scaled.1 && scaled.1 < basin.high * scaled.2

/-- Twice the distance from `digits · 10 ^ exponent` to the value is at most one unit of the last
digit exactly when the digits are the nearer of two neighbours. Compares the rest of the value
above the lower neighbour with half a unit. -/
def Basin.nearerBelow (basin : Basin) (digits : Nat) (exponent : Int) : Bool :=
  if 0 ≤ exponent then
    let unit := Nat.pow 10 exponent.toNat * basin.denominator
    2 * (basin.value - digits * unit) ≤ unit
  else
    let scale := Nat.pow 10 (-exponent).toNat
    2 * (basin.value * scale - digits * basin.denominator) ≤ basin.denominator

/-- The greatest multiple of `10 ^ exponent` that is at most the value, in units of that power. -/
def Basin.floorAt (basin : Basin) (exponent : Int) : Nat :=
  if 0 ≤ exponent then basin.value / (Nat.pow 10 exponent.toNat * basin.denominator)
  else basin.value * Nat.pow 10 (-exponent).toNat / basin.denominator

/-- A decimal with the given last place that rounds to the number: of the value's two neighbours
the nearer one that does. -/
def Basin.decimalAt? (basin : Basin) (exponent : Int) : Option Nat :=
  let below := basin.floorAt exponent
  match basin.holds below exponent, basin.holds (below + 1) exponent with
  | true, true => some (if basin.nearerBelow below exponent then below else below + 1)
  | true, false => some below
  | false, true => some (below + 1)
  | false, false => none

/-- Tries the places from a given one downwards. -/
def Basin.search (basin : Basin) : Nat → Int → Nat × Int
  | 0, exponent => (basin.floorAt exponent, exponent)
  | fuel + 1, exponent =>
    match basin.decimalAt? exponent with
    | some digits => (digits, exponent)
    | none => basin.search fuel (exponent - 1)

/-- Drops the zeros at the end of the digits. -/
def dropZeros : Nat → Nat → Int → Nat × Int
  | 0, digits, exponent => (digits, exponent)
  | fuel + 1, digits, exponent =>
    if digits ≠ 0 ∧ digits % 10 = 0 then dropZeros fuel (digits / 10) (exponent + 1)
    else (digits, exponent)

/-- The shortest decimal form of a finite number: digits that do not end in zero, and the power of
ten of the last one. No number reaches `10 ^ 309`, and none needs a place below `10 ^ -1100`. -/
def shortest (significand : Nat) (exponent : Int) : Nat × Int :=
  if significand = 0 then (0, 0)
  else
    let found := (basin significand exponent).search 1500 309
    dropZeros 400 found.1 found.2

/-- Places a decimal point `places` digits from the end of the digits. -/
def pointed (digits : List Char) (places : Nat) : List Char :=
  let padded := List.replicate (places + 1 - digits.length) '0' ++ digits
  padded.take (padded.length - places) ++ '.' :: padded.drop (padded.length - places)

def digitsOf (value : Nat) : List Char := Nat.toDigits 10 value

/-- The text of a number without an exponent: all digits before the point and as many after it as
the shortest form has, and no point where there are none. -/
def plainText : Binary64 → String
  | nan => "NaN"
  | infinite negative => if negative then "-inf" else "inf"
  | finite negative significand exponent =>
    let (digits, place) := shortest significand exponent
    let body :=
      if 0 ≤ place then digitsOf digits ++ List.replicate place.toNat '0'
      else pointed (digitsOf digits) (-place).toNat
    String.ofList (if negative then '-' :: body else body)

/-- The text of a finite number as a JSON number that has a point or an exponent: the exponent
appears where the first digit stands more than sixteen places before the point or more than five
after it. -/
def jsonText (negative : Bool) (significand : Nat) (exponent : Int) : String :=
  let (value, place) := shortest significand exponent
  let digits := digitsOf value
  let first : Int := digits.length + place
  let body :=
    if 0 ≤ place ∧ first ≤ 16 then digits ++ List.replicate place.toNat '0' ++ ['.', '0']
    else if place < 0 ∧ -5 < first ∧ first ≤ 16 then pointed digits (-place).toNat
    else
      let mantissa :=
        match digits with
        | [] => []
        | [digit] => [digit]
        | digit :: rest => digit :: '.' :: rest
      mantissa ++ 'e' :: (toString (first - 1)).toList
  String.ofList (if negative then '-' :: body else body)

end QuotaGate.Binary64
