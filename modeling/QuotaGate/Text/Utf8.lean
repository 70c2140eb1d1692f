/-!
# UTF-8

Bytes are read as UTF-8 either strictly or with every maximal invalid piece replaced by U+FFFD.
A maximal invalid piece is the longest start of a well-formed sequence that goes no further, or
one byte that starts none.
-/

namespace QuotaGate

abbrev Bytes := List UInt8

namespace Utf8

/-- What the first byte of a sequence says: the bits it contributes, how many bytes follow, and
the bounds of the first that follows. -/
structure Lead where
  bits : Nat
  following : Nat
  low : UInt8
  high : UInt8

def lead? (byte : UInt8) : Option Lead :=
  if byte < 0x80 then some ⟨byte.toNat, 0, 0x80, 0xBF⟩
  else if byte < 0xC2 then none
  else if byte < 0xE0 then some ⟨byte.toNat - 0xC0, 1, 0x80, 0xBF⟩
  else if byte = 0xE0 then some ⟨0, 2, 0xA0, 0xBF⟩
  else if byte = 0xED then some ⟨0xD, 2, 0x80, 0x9F⟩
  else if byte < 0xF0 then some ⟨byte.toNat - 0xE0, 2, 0x80, 0xBF⟩
  else if byte = 0xF0 then some ⟨0, 3, 0x90, 0xBF⟩
  else if byte < 0xF4 then some ⟨byte.toNat - 0xF0, 3, 0x80, 0xBF⟩
  else if byte = 0xF4 then some ⟨4, 3, 0x80, 0x8F⟩
  else none

/-- Reads the following bytes of a sequence. Where they break off, the rest begins at the first
byte that does not belong to it. -/
def following : Nat → UInt8 → UInt8 → Nat → Bytes → Option Nat × Bytes
  | 0, _, _, bits, rest => (some bits, rest)
  | _ + 1, _, _, _, [] => (none, [])
  | count + 1, low, high, bits, byte :: rest =>
    if low ≤ byte ∧ byte ≤ high then
      following count 0x80 0xBF (bits * 64 + (byte.toNat - 0x80)) rest
    else (none, byte :: rest)

/-- Reads one character, or one maximal invalid piece as `none`. -/
def next (byte : UInt8) (rest : Bytes) : Option Char × Bytes :=
  match lead? byte with
  | none => (none, rest)
  | some lead =>
    let (bits, rest) := following lead.following lead.low lead.high lead.bits rest
    (bits.map Char.ofNat, rest)

theorem length_following (count : Nat) (low high : UInt8) (bits : Nat) (bytes : Bytes) :
    (following count low high bits bytes).2.length ≤ bytes.length := by
  induction count generalizing low high bits bytes with
  | zero => simp [following]
  | succ count ih =>
    cases bytes with
    | nil => simp [following]
    | cons byte rest =>
      simp only [following]
      split
      · exact Nat.le_succ_of_le (ih _ _ _ _)
      · exact Nat.le_refl _

theorem length_next (byte : UInt8) (rest : Bytes) : (next byte rest).2.length ≤ rest.length := by
  simp only [next]
  split
  · exact Nat.le_refl _
  · exact length_following _ _ _ _ _

/-- Reads all bytes; each invalid piece is `none`. -/
def scalars : Bytes → List (Option Char)
  | [] => []
  | byte :: rest => (next byte rest).1 :: scalars (next byte rest).2
termination_by bytes => bytes.length
decreasing_by exact Nat.lt_succ_of_le (length_next byte rest)

/-- The text that the bytes encode, if they are valid throughout. -/
def decode? (bytes : Bytes) : Option String :=
  ((scalars bytes).mapM id).map String.ofList

/-- The text that the bytes encode, with U+FFFD for each maximal invalid piece. -/
def decodeLossy (bytes : Bytes) : String :=
  String.ofList ((scalars bytes).map fun scalar => scalar.getD (Char.ofNat 0xFFFD))

def encode (text : String) : Bytes := text.toList.flatMap String.utf8EncodeChar

end Utf8

end QuotaGate
