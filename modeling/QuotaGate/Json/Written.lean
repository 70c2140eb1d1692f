import QuotaGate.Text.Utf8

/-!
# JSON documents as written

A document is read byte by byte into the form in which it was written: numbers keep their digits
and strings their escapes, so that a part nobody asks for need not make sense as a number or as a
text. Between tokens stand blanks, tabs and line ends; nothing follows the one value.
-/

namespace QuotaGate.Json

/-- A number as written: its sign, the digits before the point, those after it, and the exponent
with its sign. -/
structure Numeral where
  negative : Bool
  whole : List Nat
  fraction : List Nat
  hasFraction : Bool
  exponent : Option (Bool × List Nat)
  deriving DecidableEq, Repr

/-- A piece of a string as written. -/
inductive Piece where
  /-- A byte that stands for itself. -/
  | byte (value : UInt8)
  /-- A backslash and four hexadecimal digits: one UTF-16 unit. -/
  | unit (code : Nat)
  deriving DecidableEq, Repr

/-- A value as written. -/
inductive Written where
  | null
  | bool (value : Bool)
  | number (numeral : Numeral)
  | text (pieces : List Piece)
  | array (items : List Written)
  | object (members : List (List Piece × Written))
  deriving Repr

namespace Written

def ascii (word : String) : Bytes := word.toList.map fun c => UInt8.ofNat c.toNat

def isSpace (byte : UInt8) : Bool := byte == 0x20 || byte == 0x09 || byte == 0x0A || byte == 0x0D

def skipSpace (bytes : Bytes) : Bytes := bytes.dropWhile isSpace

def isDigit (byte : UInt8) : Bool := 0x30 ≤ byte && byte ≤ 0x39

def digitValue (byte : UInt8) : Nat := byte.toNat - 0x30

def hexValue? (byte : UInt8) : Option Nat :=
  if isDigit byte then some (digitValue byte)
  else if 0x61 ≤ byte && byte ≤ 0x66 then some (byte.toNat - 0x61 + 10)
  else if 0x41 ≤ byte && byte ≤ 0x46 then some (byte.toNat - 0x41 + 10)
  else none

def digits? (bytes : Bytes) : Option (List Nat × Bytes) :=
  match bytes.takeWhile isDigit with
  | [] => none
  | digits => some (digits.map digitValue, bytes.dropWhile isDigit)

/-- Reads the digits before the point. Zero is not followed by another digit. -/
def whole? : Bytes → Option (List Nat × Bytes)
  | 0x30 :: rest => some ([0], rest)
  | bytes => digits? bytes

/-- Reads a point and the digits after it, if there is a point. -/
def fraction? : Bytes → Option (Option (List Nat) × Bytes)
  | 0x2E :: rest => (digits? rest).map fun (digits, rest) => (some digits, rest)
  | bytes => some (none, bytes)

def exponent? : Bytes → Option (Option (Bool × List Nat) × Bytes)
  | mark :: rest =>
    if mark = 0x65 ∨ mark = 0x45 then
      let (negative, rest) :=
        match rest with
        | 0x2B :: rest => (false, rest)
        | 0x2D :: rest => (true, rest)
        | _ => (false, rest)
      (digits? rest).map fun (digits, rest) => (some (negative, digits), rest)
    else some (none, mark :: rest)
  | [] => some (none, [])

def numeral? (bytes : Bytes) : Option (Numeral × Bytes) := do
  let (negative, bytes) :=
    match bytes with
    | 0x2D :: rest => (true, rest)
    | _ => (false, bytes)
  let (whole, bytes) ← whole? bytes
  let (fraction, bytes) ← fraction? bytes
  let (exponent, bytes) ← exponent? bytes
  some (⟨negative, whole, fraction.getD [], fraction.isSome, exponent⟩, bytes)

/-- The byte that a one-letter escape stands for. -/
def escaped? (letter : UInt8) : Option UInt8 :=
  if letter = 0x22 ∨ letter = 0x5C ∨ letter = 0x2F then some letter
  else if letter = 0x62 then some 0x08
  else if letter = 0x66 then some 0x0C
  else if letter = 0x6E then some 0x0A
  else if letter = 0x72 then some 0x0D
  else if letter = 0x74 then some 0x09
  else none

/-- Reads a string after its opening quote. Control characters need an escape. -/
def pieces? : Bytes → Option (List Piece × Bytes)
  | [] => none
  | 0x22 :: rest => some ([], rest)
  | 0x5C :: 0x75 :: a :: b :: c :: d :: rest => do
    let a ← hexValue? a
    let b ← hexValue? b
    let c ← hexValue? c
    let d ← hexValue? d
    let (pieces, rest) ← pieces? rest
    some (.unit (((a * 16 + b) * 16 + c) * 16 + d) :: pieces, rest)
  | 0x5C :: letter :: rest => do
    let byte ← escaped? letter
    let (pieces, rest) ← pieces? rest
    some (.byte byte :: pieces, rest)
  | byte :: rest =>
    if byte < 0x20 ∨ byte = 0x5C then none
    else (pieces? rest).map fun (pieces, rest) => (.byte byte :: pieces, rest)

def word? (word : String) (bytes : Bytes) : Option Bytes :=
  if (ascii word).isPrefixOf bytes then some (bytes.drop (ascii word).length) else none

mutual

/-- Reads a value, blanks before it included. -/
def value? : Nat → Bytes → Option (Written × Bytes)
  | 0, _ => none
  | fuel + 1, bytes =>
    match skipSpace bytes with
    | [] => none
    | 0x5B :: rest =>
      match skipSpace rest with
      | 0x5D :: rest => some (.array [], rest)
      | rest => (items? fuel rest).map fun (items, rest) => (.array items, rest)
    | 0x7B :: rest =>
      match skipSpace rest with
      | 0x7D :: rest => some (.object [], rest)
      | rest => (members? fuel rest).map fun (members, rest) => (.object members, rest)
    | 0x22 :: rest => (pieces? rest).map fun (pieces, rest) => (.text pieces, rest)
    | 0x6E :: rest => (word? "ull" rest).map fun rest => (.null, rest)
    | 0x74 :: rest => (word? "rue" rest).map fun rest => (.bool true, rest)
    | 0x66 :: rest => (word? "alse" rest).map fun rest => (.bool false, rest)
    | bytes => (numeral? bytes).map fun (numeral, rest) => (.number numeral, rest)

/-- Reads one or more values separated by commas, and the closing bracket. -/
def items? : Nat → Bytes → Option (List Written × Bytes)
  | 0, _ => none
  | fuel + 1, bytes => do
    let (item, rest) ← value? fuel bytes
    match skipSpace rest with
    | 0x5D :: rest => some ([item], rest)
    | 0x2C :: rest => (items? fuel rest).map fun (items, rest) => (item :: items, rest)
    | _ => none

/-- Reads one or more members separated by commas, and the closing brace. -/
def members? : Nat → Bytes → Option (List (List Piece × Written) × Bytes)
  | 0, _ => none
  | fuel + 1, bytes =>
    match skipSpace bytes with
    | 0x22 :: rest => do
      let (name, rest) ← pieces? rest
      match skipSpace rest with
      | 0x3A :: rest => do
        let (value, rest) ← value? fuel rest
        match skipSpace rest with
        | 0x7D :: rest => some ([(name, value)], rest)
        | 0x2C :: rest =>
          (members? fuel rest).map fun (members, rest) => ((name, value) :: members, rest)
        | _ => none
      | _ => none
    | _ => none

end

/-- Reads a document: one value, with nothing but blanks around it. Each call on a nested value
follows at least one byte of its own, so twice the length of the text is enough fuel. -/
def ofBytes? (bytes : Bytes) : Option Written := do
  let (value, rest) ← value? (2 * bytes.length + 2) bytes
  if (skipSpace rest).isEmpty then some value else none

end Written

namespace Piece

/-- The character of a pair of UTF-16 units. -/
def pairChar (high low : Nat) : Char :=
  Char.ofNat (0x10000 + (high - 0xD800) * 0x400 + (low - 0xDC00))

/-- The bytes that pieces stand for. A unit that is half of a pair must be followed by the other
half. -/
def bytes? : List Piece → Option Bytes
  | [] => some []
  | .byte value :: rest => (bytes? rest).map (value :: ·)
  | .unit high :: .unit low :: rest =>
    if 0xD800 ≤ high ∧ high < 0xDC00 then
      if 0xDC00 ≤ low ∧ low < 0xE000 then
        (bytes? rest).map (String.utf8EncodeChar (pairChar high low) ++ ·)
      else none
    else if 0xDC00 ≤ high ∧ high < 0xE000 then none
    else (bytes? (.unit low :: rest)).map (String.utf8EncodeChar (Char.ofNat high) ++ ·)
  | .unit code :: rest =>
    if 0xD800 ≤ code ∧ code < 0xE000 then none
    else (bytes? rest).map (String.utf8EncodeChar (Char.ofNat code) ++ ·)

/-- The text that pieces stand for, if they are valid throughout. -/
def text? (pieces : List Piece) : Option String := (bytes? pieces).bind Utf8.decode?

end Piece

end QuotaGate.Json
