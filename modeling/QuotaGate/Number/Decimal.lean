import QuotaGate.Number.Binary64

/-!
# Numbers in text

Whole numbers are an optional plus sign and decimal digits. Floating-point numbers are an
optional sign and either a decimal numeral or one of the words `inf`, `infinity` and `nan` in any
case. A numeral has digits with at most one point among them, at least one digit, and an optional
exponent.
-/

namespace QuotaGate.NumberText

/-- The digits at the head of a text, and what follows them. -/
def spanDigits (chars : List Char) : List Char × List Char :=
  (chars.takeWhile Char.isDigit, chars.dropWhile Char.isDigit)

/-- The number that decimal digits stand for. -/
def digitsValue (digits : List Char) : Nat :=
  digits.foldl (fun value digit => 10 * value + (digit.toNat - '0'.toNat)) 0

/-- The value of a digit in a base of at most sixteen. -/
def digitIn? (base : Nat) (c : Char) : Option Nat :=
  let value :=
    if c.isDigit then some (c.toNat - '0'.toNat)
    else if 'a' ≤ c && c ≤ 'f' then some (c.toNat - 'a'.toNat + 10)
    else if 'A' ≤ c && c ≤ 'F' then some (c.toNat - 'A'.toNat + 10)
    else none
  value.filter (· < base)

/-- The number that the digits of a base stand for; at least one digit is needed. -/
def digitsIn? (base : Nat) (digits : List Char) : Option Nat :=
  if digits.isEmpty then none
  else digits.foldlM (fun value digit => (digitIn? base digit).map (base * value + ·)) 0

def dropPlus : List Char → List Char
  | '+' :: rest => rest
  | chars => chars

/-- Reads a whole number from zero to `most`: an optional plus sign and decimal digits. -/
def nat? (most : Nat) (chars : List Char) : Option Nat :=
  (digitsIn? 10 (dropPlus chars)).filter (· ≤ most)

/-- Reads a whole number in a base, with an optional sign, from `least` to `most`. -/
def intIn? (base : Nat) (least most : Int) (chars : List Char) : Option Int :=
  let value :=
    match chars with
    | '-' :: digits => (digitsIn? base digits).map fun value => -(value : Int)
    | _ => (digitsIn? base (dropPlus chars)).map Int.ofNat
  value.filter fun value => decide (least ≤ value ∧ value ≤ most)

/-- Reads a whole number with an optional sign, from `least` to `most`. -/
def int? (least most : Int) (chars : List Char) : Option Int := intIn? 10 least most chars

/-- The least and the greatest signed number of 64 bits. -/
def leastInt64 : Int := -(UInt64.size / 2 : Nat)
def greatestInt64 : Int := (UInt64.size / 2 : Nat) - 1

/-- The greatest unsigned numbers of 32 and of 64 bits. -/
def greatestNat32 : Nat := UInt32.size - 1
def greatestNat64 : Nat := UInt64.size - 1

/-- Reads the part of a numeral after its digits: nothing, or an exponent. -/
def exponent? : List Char → Option Int
  | [] => some 0
  | mark :: rest =>
    if mark = 'e' ∨ mark = 'E' then
      match rest with
      | '-' :: digits => (decimalDigits? digits).map fun value => -(value : Int)
      | _ => (decimalDigits? (dropPlus rest)).map Int.ofNat
    else none
where
  decimalDigits? (digits : List Char) : Option Nat := digitsIn? 10 digits

/-- Reads a decimal numeral without a sign as a coefficient and a power of ten. -/
def decimal? (chars : List Char) : Option (Nat × Int) :=
  let (whole, rest) := spanDigits chars
  let (fraction, rest) :=
    match rest with
    | '.' :: rest => spanDigits rest
    | _ => ([], rest)
  if whole.isEmpty && fraction.isEmpty then none
  else (exponent? rest).map fun exponent =>
    (digitsValue (whole ++ fraction), exponent - fraction.length)

/-- Reads a floating-point number without a sign. -/
def unsignedFloat? (negative : Bool) (chars : List Char) : Option Binary64 :=
  let word := String.ofList (chars.map Char.toLower)
  if word = "inf" ∨ word = "infinity" then some (.infinite negative)
  else if word = "nan" then some .nan
  else (decimal? chars).map fun (coefficient, exponent) =>
    .ofDecimal negative coefficient exponent

/-- Reads a floating-point number: the nearest to the number that the text stands for. -/
def float? (chars : List Char) : Option Binary64 :=
  match chars with
  | '-' :: rest => unsignedFloat? true rest
  | _ => unsignedFloat? false (dropPlus chars)

end QuotaGate.NumberText
