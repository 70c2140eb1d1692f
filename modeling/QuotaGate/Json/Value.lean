import QuotaGate.Json.Written
import QuotaGate.Number.Decimal
import QuotaGate.Number.Shortest

/-!
# JSON values

A written document becomes a value when its strings are valid text, its numbers are finite and it
is nested at most 127 deep. Whole numbers of 64 bits stay whole; every other number becomes a
floating-point number. Of members with one name the last counts, and members are kept in the order
of their names.
-/

namespace QuotaGate.Json

/-- A number: a whole number of 64 bits, signed or unsigned, or a floating-point number. -/
inductive Number where
  | whole (value : Int)
  | float (value : Binary64)
  deriving DecidableEq, Repr

/-- A value. -/
inductive Value where
  | null
  | bool (value : Bool)
  | number (value : Number)
  | text (value : String)
  | array (items : List Value)
  | object (members : List (String × Value))
  deriving Repr

namespace Numeral

/-- Appends digits to a significand while it fits 64 bits; the second result counts the digits
left over. -/
def extend (significand : Nat) : List Nat → Nat × Nat
  | [] => (significand, 0)
  | digit :: rest =>
    if significand * 10 + digit ≤ NumberText.greatestNat64 then
      extend (significand * 10 + digit) rest
    else (significand, rest.length + 1)

/-- The number nearest to a power of ten. -/
def powerOfTen (exponent : Nat) : Binary64 := .ofDecimal false 1 exponent

/-- Divides by a power of ten in steps of at most 308. The first two steps leave nothing of a
significand of 64 bits. -/
def scaleDown : Nat → Binary64 → Nat → Binary64
  | 0, value, _ => value
  | fuel + 1, value, places =>
    if places ≤ 308 then value.div (powerOfTen places)
    else scaleDown fuel (value.div (powerOfTen 308)) (places - 308)

/-- A rounded significand times a rounded power of ten, rounded once more. Too large a product is
no number. -/
def scale? (significand : Nat) (exponent : Int) : Option Binary64 :=
  let value := Binary64.ofNat significand
  if exponent < 0 then some (scaleDown 4 value (-exponent).toNat)
  else if exponent ≤ 308 then
    (some (value.mul (powerOfTen exponent.toNat))).filter Binary64.isFinite
  else if significand = 0 then some value
  else none

/-- The number that a list of digits stands for. -/
def digitsValue (digits : List Nat) : Nat := digits.foldl (fun value digit => value * 10 + digit) 0

/-- The floating-point number of a numeral: of its digits only those count that fit a significand
of 64 bits. -/
def float? (numeral : Numeral) : Option Binary64 :=
  let (significand, dropped) := extend 0 numeral.whole
  let (significand, unused) := extend significand numeral.fraction
  let places : Int := dropped - (numeral.fraction.length - unused : Nat)
  let exponent : Int :=
    match numeral.exponent with
    | none => places
    | some (negative, digits) =>
      if negative then places - digitsValue digits else places + digitsValue digits
  (scale? significand exponent).map fun value => if numeral.negative then value.neg else value

/-- The number of a numeral: whole when it has neither point nor exponent, fits 64 bits and is not
negative zero. -/
def number? (numeral : Numeral) : Option Number :=
  let whole := digitsValue numeral.whole
  if numeral.hasFraction ∨ numeral.exponent.isSome then numeral.float?.map .float
  else if numeral.negative then
    if 0 < whole ∧ whole ≤ UInt64.size / 2 then some (.whole (-whole))
    else numeral.float?.map .float
  else if whole ≤ NumberText.greatestNat64 then some (.whole whole)
  else numeral.float?.map .float

end Numeral

namespace Number

/-- The number as a floating-point number. -/
def toBinary64 : Number → Binary64
  | .whole value => .ofRatio (value < 0) value.natAbs 1
  | .float value => value

end Number

namespace Value

/-- Puts a member in its place by name; a member of the same name gives way. -/
def insert (name : String) (value : Value) : List (String × Value) → List (String × Value)
  | [] => [(name, value)]
  | (other, held) :: rest =>
    if name = other then (name, value) :: rest
    else if name < other then (name, value) :: (other, held) :: rest
    else (other, held) :: insert name value rest

mutual

/-- The value of a written document nested at most `depth` deep. -/
def ofWritten? (depth : Nat) : Written → Option Value
  | .null => some .null
  | .bool value => some (.bool value)
  | .number numeral => numeral.number?.map .number
  | .text pieces => (Piece.text? pieces).map .text
  | .array items => if depth = 0 then none else (itemsOf? (depth - 1) items).map .array
  | .object members =>
    if depth = 0 then none else (membersOf? (depth - 1) [] members).map .object

def itemsOf? (depth : Nat) : List Written → Option (List Value)
  | [] => some []
  | item :: rest => do
    let item ← ofWritten? depth item
    let rest ← itemsOf? depth rest
    some (item :: rest)

def membersOf? (depth : Nat) (found : List (String × Value)) :
    List (List Piece × Written) → Option (List (String × Value))
  | [] => some found
  | (name, written) :: rest => do
    let name ← Piece.text? name
    let value ← ofWritten? depth written
    membersOf? depth (insert name value found) rest

end

/-- How deep arrays and objects may be nested. -/
def mostNested : Nat := 127

/-- Reads a value from the bytes of a document. -/
def ofBytes? (bytes : Bytes) : Option Value :=
  (Written.ofBytes? bytes).bind (ofWritten? mostNested)

def ofString? (text : String) : Option Value := ofBytes? (Utf8.encode text)

def member? (name : String) : Value → Option Value
  | .object members => members.lookup name
  | _ => none

/-! ## Text of a value -/

def escape (c : Char) : List Char :=
  if c = '"' then ['\\', '"']
  else if c = '\\' then ['\\', '\\']
  else if c.toNat = 0x08 then ['\\', 'b']
  else if c.toNat = 0x0C then ['\\', 'f']
  else if c = '\n' then ['\\', 'n']
  else if c = '\r' then ['\\', 'r']
  else if c = '\t' then ['\\', 't']
  else if c.toNat < 0x20 then
    ['\\', 'u', '0', '0', Nat.digitChar (c.toNat / 16), Nat.digitChar (c.toNat % 16)]
  else [c]

def quote (text : String) : List Char := '"' :: (text.toList.flatMap escape ++ ['"'])

def numberText : Number → String
  | .whole value => toString value
  | .float (.finite negative significand exponent) =>
    Binary64.jsonText negative significand exponent
  | .float _ => "null"

mutual

/-- The characters of a value, without blanks. -/
def chars : Value → List Char
  | .null => "null".toList
  | .bool value => (if value then "true" else "false").toList
  | .number value => (numberText value).toList
  | .text value => quote value
  | .array items => '[' :: itemChars items
  | .object members => '\x7b' :: memberChars members

def itemChars : List Value → List Char
  | [] => [']']
  | [item] => chars item ++ [']']
  | item :: rest => chars item ++ ',' :: itemChars rest

def memberChars : List (String × Value) → List Char
  | [] => ['\x7d']
  | [(name, value)] => quote name ++ ':' :: (chars value ++ ['\x7d'])
  | (name, value) :: rest => quote name ++ ':' :: (chars value ++ ',' :: memberChars rest)

end

def render (value : Value) : String := String.ofList (chars value)

end Value

end QuotaGate.Json
