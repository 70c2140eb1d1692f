import QuotaGate.Json.Written
import QuotaGate.Proofs.Text.Runs

/-!
# Spaces, numbers and strings of a document

How the smallest parts of a document are spelled, said without the reader: spaces, digits, numbers
and strings. A number has no sign but a minus, its digits before the point do not begin with zero
unless they are zero, and what has a point or an exponent has digits after it. A string has an
escape for every quote, backslash and control character.

The reader takes each part for what it is and leaves the rest alone. A number ends where no digit,
point or exponent follows it, so what it is read as depends on what stands behind it; a string ends
with its quote.

Results:
1. `numeral?_of_spells`, `spells_of_numeral?`: exactly the spelled numbers are read.
2. `pieces?_of_spells`, `spells_of_pieces?`: exactly the spelled strings are read.
-/

namespace QuotaGate.Json

/-! ## Spaces -/

/-- Bytes that may stand between two tokens. -/
def IsSpace (bytes : Bytes) : Prop := ∀ byte ∈ bytes, Written.isSpace byte = true

namespace Written

theorem isSpace_nil : IsSpace [] := fun _ member => nomatch member

theorem skipSpace_append {space : Bytes} (blank : IsSpace space) (rest : Bytes) :
    skipSpace (space ++ rest) = skipSpace rest := by
  unfold skipSpace
  exact List.dropWhile_append_of_pos blank

/-- What is skipped is space. -/
theorem exists_space (bytes : Bytes) :
    ∃ space, IsSpace space ∧ bytes = space ++ skipSpace bytes :=
  ⟨bytes.takeWhile isSpace, of_mem_takeWhile, List.takeWhile_append_dropWhile.symm⟩

end Written

/-- What follows a value in a document: space, the comma or bracket that ends an item, or nothing.
It does not prolong a number. -/
def EndsValue (rest : Bytes) : Prop :=
  ∀ byte ∈ rest.head?, Written.isSpace byte = true ∨ byte = 0x2C ∨ byte = 0x5D ∨ byte = 0x7D

section EndsValue

variable {space rest : Bytes} {byte : UInt8}

theorem endsValue_nil : EndsValue [] := fun _ first => nomatch first

theorem endsValue_comma (rest : Bytes) : EndsValue (0x2C :: rest) := by
  intro byte first
  exact .inr (.inl (Option.mem_some.1 first).symm)

theorem endsValue_bracket (rest : Bytes) : EndsValue (0x5D :: rest) := by
  intro byte first
  exact .inr (.inr (.inl (Option.mem_some.1 first).symm))

theorem endsValue_brace (rest : Bytes) : EndsValue (0x7D :: rest) := by
  intro byte first
  exact .inr (.inr (.inr (Option.mem_some.1 first).symm))

theorem endsValue_append (blank : IsSpace space) (ends : EndsValue rest) :
    EndsValue (space ++ rest) := by
  cases space with
  | nil => exact ends
  | cons byte space =>
    intro first isFirst
    cases Option.mem_some.1 isFirst
    exact .inl (blank byte List.mem_cons_self)

/-- A byte that ends a value is none that goes on with a number. -/
theorem EndsValue.prolongs_not (ends : EndsValue (byte :: rest)) :
    Written.isDigit byte = false ∧ byte ≠ 0x2E ∧ ¬(byte = 0x65 ∨ byte = 0x45) := by
  have first := ends byte rfl
  simp only [Written.isSpace, Bool.or_eq_true, beq_iff_eq] at first
  rcases first with (((rfl | rfl) | rfl) | rfl) | rfl | rfl | rfl
  all_goals decide

end EndsValue

/-! ## Digits -/

/-- The bytes of decimal digits. -/
def digitBytes (digits : List Nat) : Bytes := digits.map fun digit => UInt8.ofNat (0x30 + digit)

/-- One or more decimal digits. -/
structure AreDigits (digits : List Nat) : Prop where
  nonempty : digits ≠ []
  small : ∀ digit ∈ digits, digit < 10

namespace Written

variable {digits : List Nat} {bytes rest : Bytes}

theorem isDigit_iff {byte : UInt8} :
    isDigit byte = true ↔ ∃ digit, digit < 10 ∧ byte = UInt8.ofNat (0x30 + digit) := by
  unfold isDigit
  simp only [Bool.and_eq_true, decide_eq_true_eq, UInt8.le_iff_toNat_le]
  constructor
  · intro both
    have least : 0x30 ≤ byte.toNat := both.1
    have most : byte.toNat ≤ 0x39 := both.2
    refine ⟨byte.toNat - 0x30, by omega, ?_⟩
    rw [Nat.add_sub_cancel' least, UInt8.ofNat_toNat]
  · rintro ⟨digit, small, rfl⟩
    rw [UInt8.toNat_ofNat', Nat.mod_eq_of_lt (by omega)]
    exact ⟨Nat.le_add_right _ _, Nat.add_le_add_left (Nat.le_of_lt_succ small) _⟩

theorem digitValue_ofNat {digit : Nat} (small : digit < 10) :
    digitValue (UInt8.ofNat (0x30 + digit)) = digit := by
  unfold digitValue
  rw [UInt8.toNat_ofNat', Nat.mod_eq_of_lt (by omega), Nat.add_sub_cancel_left]

theorem isDigit_of_mem_digitBytes (are : AreDigits digits) :
    ∀ byte ∈ digitBytes digits, isDigit byte = true := by
  intro byte member
  obtain ⟨digit, among, rfl⟩ := List.mem_map.1 member
  exact isDigit_iff.2 ⟨digit, are.small digit among, rfl⟩

theorem map_digitValue_digitBytes (are : AreDigits digits) :
    (digitBytes digits).map digitValue = digits := by
  unfold digitBytes
  rw [List.map_map]
  have each : ∀ digit ∈ digits,
      (digitValue ∘ fun digit => UInt8.ofNat (0x30 + digit)) digit = digit :=
    fun digit member => digitValue_ofNat (are.small digit member)
  rw [List.map_congr_left each, List.map_id']

theorem digitBytes_map_digitValue (all : ∀ byte ∈ bytes, isDigit byte = true) :
    digitBytes (bytes.map digitValue) = bytes := by
  unfold digitBytes
  rw [List.map_map]
  have each : ∀ byte ∈ bytes,
      ((fun digit => UInt8.ofNat (0x30 + digit)) ∘ digitValue) byte = byte := by
    intro byte member
    obtain ⟨digit, small, rfl⟩ := isDigit_iff.1 (all byte member)
    show UInt8.ofNat (0x30 + digitValue (UInt8.ofNat (0x30 + digit))) = _
    rw [digitValue_ofNat small]
  rw [List.map_congr_left each, List.map_id']

theorem stops_isDigit (ends : EndsValue rest) : Stops isDigit rest := by
  cases rest with
  | nil => exact stops_nil
  | cons byte rest => exact stops_cons_iff.2 ends.prolongs_not.1

theorem digits?_of_areDigits (are : AreDigits digits) (ends : Stops isDigit rest) :
    digits? (digitBytes digits ++ rest) = some (digits, rest) := by
  have all := isDigit_of_mem_digitBytes are
  unfold digits?
  rw [takeWhile_run all ends, dropWhile_run all ends]
  split
  · next none => exact absurd (List.map_eq_nil_iff.1 none) are.nonempty
  · rw [map_digitValue_digitBytes are]

theorem areDigits_of_digits? (found : digits? bytes = some (digits, rest)) :
    AreDigits digits ∧ bytes = digitBytes digits ++ rest := by
  unfold digits? at found
  split at found
  · exact nomatch found
  · next some =>
    obtain ⟨rfl, rfl⟩ := Prod.mk.inj (Option.some.inj found)
    have all : ∀ byte ∈ bytes.takeWhile isDigit, isDigit byte = true := of_mem_takeWhile
    refine ⟨⟨fun none => some (List.map_eq_nil_iff.1 none), ?_⟩, ?_⟩
    · intro digit member
      obtain ⟨byte, among, rfl⟩ := List.mem_map.1 member
      obtain ⟨value, small, rfl⟩ := isDigit_iff.1 (all byte among)
      rwa [digitValue_ofNat small]
    · rw [digitBytes_map_digitValue all]
      exact List.takeWhile_append_dropWhile.symm

end Written

/-! ## Numbers -/

/-- The digits before the point: zero alone, or digits of which the first is not zero. -/
inductive IsWhole : List Nat → Prop
  | zero : IsWhole [0]
  | digits {first : Nat} {others : List Nat} :
      AreDigits (first :: others) → first ≠ 0 → IsWhole (first :: others)

/-- The point with the digits after it, if there is one. -/
inductive SpellsFraction : Option (List Nat) → Bytes → Prop
  | none : SpellsFraction none []
  | point {digits : List Nat} :
      AreDigits digits → SpellsFraction (some digits) (0x2E :: digitBytes digits)

/-- The exponent, if there is one. The flag says whether it is negative. -/
inductive SpellsExponent : Option (Bool × List Nat) → Bytes → Prop
  | none : SpellsExponent none []
  | plain {mark : UInt8} {digits : List Nat} : mark = 0x65 ∨ mark = 0x45 → AreDigits digits →
      SpellsExponent (some (false, digits)) (mark :: digitBytes digits)
  | plus {mark : UInt8} {digits : List Nat} : mark = 0x65 ∨ mark = 0x45 → AreDigits digits →
      SpellsExponent (some (false, digits)) (mark :: 0x2B :: digitBytes digits)
  | minus {mark : UInt8} {digits : List Nat} : mark = 0x65 ∨ mark = 0x45 → AreDigits digits →
      SpellsExponent (some (true, digits)) (mark :: 0x2D :: digitBytes digits)

/-- A number without its sign. -/
inductive SpellsUnsigned (negative : Bool) : Numeral → Bytes → Prop
  | intro {whole : List Nat} {fraction : Option (List Nat)} {exponent : Option (Bool × List Nat)}
      {point power : Bytes} :
      IsWhole whole → SpellsFraction fraction point → SpellsExponent exponent power →
      SpellsUnsigned negative ⟨negative, whole, fraction.getD [], fraction.isSome, exponent⟩
        (digitBytes whole ++ (point ++ power))

/-- A number. -/
inductive SpellsNumeral : Numeral → Bytes → Prop
  | plain {numeral : Numeral} {bytes : Bytes} :
      SpellsUnsigned false numeral bytes → SpellsNumeral numeral bytes
  | minus {numeral : Numeral} {bytes : Bytes} :
      SpellsUnsigned true numeral bytes → SpellsNumeral numeral (0x2D :: bytes)

theorem IsWhole.areDigits {digits : List Nat} (whole : IsWhole digits) : AreDigits digits := by
  cases whole with
  | zero =>
    refine ⟨List.cons_ne_nil 0 [], ?_⟩
    intro digit member
    cases List.mem_singleton.1 member
    decide
  | digits are _ => exact are

/-- Digits begin with a digit. -/
theorem AreDigits.exists_first {digits : List Nat} (are : AreDigits digits) :
    ∃ byte after, Written.isDigit byte = true ∧ digitBytes digits = byte :: after := by
  cases digits with
  | nil => exact absurd rfl are.nonempty
  | cons digit others =>
    exact ⟨_, _, Written.isDigit_iff.2 ⟨digit, are.small digit List.mem_cons_self, rfl⟩, rfl⟩

namespace Written

variable {bytes rest : Bytes}

theorem whole?_of_isWhole {digits : List Nat} (whole : IsWhole digits) (ends : Stops isDigit rest) :
    whole? (digitBytes digits ++ rest) = some (digits, rest) := by
  cases whole with
  | zero => rfl
  | @digits first others are positive =>
    have small := are.small first List.mem_cons_self
    unfold whole?
    split
    · next after same =>
      have zero := congrArg digitValue (List.cons.inj same).1
      rw [digitValue_ofNat small] at zero
      exact absurd zero positive
    · exact digits?_of_areDigits are ends

theorem isWhole_of_whole? {digits : List Nat} (found : whole? bytes = some (digits, rest)) :
    IsWhole digits ∧ bytes = digitBytes digits ++ rest := by
  unfold whole? at found
  split at found
  · obtain ⟨rfl, rfl⟩ := Prod.mk.inj (Option.some.inj found)
    exact ⟨.zero, rfl⟩
  · next other =>
    obtain ⟨are, rfl⟩ := areDigits_of_digits? found
    cases digits with
    | nil => exact absurd rfl are.nonempty
    | cons first others =>
      refine ⟨.digits are ?_, rfl⟩
      rintro rfl
      exact other _ rfl

theorem fraction?_of_spells {fraction : Option (List Nat)} {point : Bytes}
    (spells : SpellsFraction fraction point) (ends : Stops isDigit rest)
    (pointless : ∀ after, rest ≠ 0x2E :: after) :
    fraction? (point ++ rest) = some (fraction, rest) := by
  cases spells with
  | none =>
    unfold fraction?
    rw [List.nil_append]
    split
    · next after => exact absurd rfl (pointless after)
    · rfl
  | point are =>
    unfold fraction?
    rw [List.cons_append]
    show (digits? _).map _ = _
    rw [digits?_of_areDigits are ends]
    rfl

theorem spells_of_fraction? {fraction : Option (List Nat)}
    (found : fraction? bytes = some (fraction, rest)) :
    ∃ point, SpellsFraction fraction point ∧ bytes = point ++ rest := by
  unfold fraction? at found
  split at found
  · obtain ⟨⟨digits, after⟩, read, same⟩ := Option.map_eq_some_iff.1 found
    obtain ⟨rfl, rfl⟩ := Prod.mk.inj same
    obtain ⟨are, rfl⟩ := areDigits_of_digits? read
    exact ⟨_, .point are, rfl⟩
  · obtain ⟨rfl, rfl⟩ := Prod.mk.inj (Option.some.inj found)
    exact ⟨[], .none, rfl⟩

/-- The sign of an exponent: whether it is negative, and what follows the sign. -/
def exponentSign (bytes : Bytes) : Bool × Bytes :=
  match bytes with
  | 0x2B :: rest => (false, rest)
  | 0x2D :: rest => (true, rest)
  | _ => (false, bytes)

theorem exponentSign_plus (rest : Bytes) : exponentSign (0x2B :: rest) = (false, rest) := rfl

theorem exponentSign_minus (rest : Bytes) : exponentSign (0x2D :: rest) = (true, rest) := rfl

theorem exponentSign_of_isDigit {byte : UInt8} (digit : isDigit byte = true) :
    exponentSign (byte :: rest) = (false, byte :: rest) := by
  unfold exponentSign
  split
  · next same =>
    cases (List.cons.inj same).1
    exact absurd digit (by decide)
  · next same =>
    cases (List.cons.inj same).1
    exact absurd digit (by decide)
  · rfl

theorem exponentSign_cases (bytes : Bytes) :
    bytes = 0x2B :: (exponentSign bytes).2 ∧ (exponentSign bytes).1 = false ∨
      bytes = 0x2D :: (exponentSign bytes).2 ∧ (exponentSign bytes).1 = true ∨
      bytes = (exponentSign bytes).2 ∧ (exponentSign bytes).1 = false := by
  unfold exponentSign
  split
  · exact .inl ⟨rfl, rfl⟩
  · exact .inr (.inl ⟨rfl, rfl⟩)
  · exact .inr (.inr ⟨rfl, rfl⟩)

theorem exponent?_of_mark {mark : UInt8} (isMark : mark = 0x65 ∨ mark = 0x45) :
    exponent? (mark :: rest) = (digits? (exponentSign rest).2).map fun (digits, after) =>
      (some ((exponentSign rest).1, digits), after) := by
  unfold exponent?
  dsimp only
  rw [if_pos isMark]
  rfl

theorem exponent?_of_spells {exponent : Option (Bool × List Nat)} {power : Bytes}
    (spells : SpellsExponent exponent power) (ends : EndsValue rest) :
    exponent? (power ++ rest) = some (exponent, rest) := by
  have read {digits : List Nat} (are : AreDigits digits) :=
    digits?_of_areDigits are (stops_isDigit ends)
  cases spells with
  | none =>
    cases rest with
    | nil => rfl
    | cons byte rest =>
      exact if_neg ends.prolongs_not.2.2
  | @plain mark digits isMark are =>
    have signless :
        exponentSign (digitBytes digits ++ rest) = (false, digitBytes digits ++ rest) := by
      obtain ⟨byte, after, digit, same⟩ := are.exists_first
      rw [same, List.cons_append, exponentSign_of_isDigit digit]
    rw [List.cons_append, exponent?_of_mark isMark, signless, read are]
    rfl
  | plus isMark are =>
    rw [List.cons_append, List.cons_append, exponent?_of_mark isMark, exponentSign_plus, read are]
    rfl
  | minus isMark are =>
    rw [List.cons_append, List.cons_append, exponent?_of_mark isMark, exponentSign_minus, read are]
    rfl

theorem spells_of_exponent? {exponent : Option (Bool × List Nat)}
    (found : exponent? bytes = some (exponent, rest)) :
    ∃ power, SpellsExponent exponent power ∧ bytes = power ++ rest := by
  cases bytes with
  | nil =>
    obtain ⟨rfl, rfl⟩ := Prod.mk.inj (Option.some.inj found)
    exact ⟨[], .none, rfl⟩
  | cons mark bytes =>
    by_cases isMark : mark = 0x65 ∨ mark = 0x45
    · rw [exponent?_of_mark isMark] at found
      obtain ⟨⟨digits, after⟩, read, same⟩ := Option.map_eq_some_iff.1 found
      obtain ⟨rfl, rfl⟩ := Prod.mk.inj same
      obtain ⟨are, split⟩ := areDigits_of_digits? read
      rcases exponentSign_cases bytes with ⟨begins, sign⟩ | ⟨begins, sign⟩ | ⟨begins, sign⟩
      · rw [sign, begins, split]
        exact ⟨_, .plus isMark are, rfl⟩
      · rw [sign, begins, split]
        exact ⟨_, .minus isMark are, rfl⟩
      · rw [sign, begins, split]
        exact ⟨_, .plain isMark are, rfl⟩
    · unfold exponent? at found
      dsimp only at found
      rw [if_neg isMark] at found
      obtain ⟨rfl, rfl⟩ := Prod.mk.inj (Option.some.inj found)
      exact ⟨[], .none, rfl⟩

/-- Reads a number after its sign. -/
def unsigned? (negative : Bool) (bytes : Bytes) : Option (Numeral × Bytes) := do
  let (whole, bytes) ← whole? bytes
  let (fraction, bytes) ← fraction? bytes
  let (exponent, bytes) ← exponent? bytes
  some (⟨negative, whole, fraction.getD [], fraction.isSome, exponent⟩, bytes)

theorem numeral?_minus (rest : Bytes) : numeral? (0x2D :: rest) = unsigned? true rest := rfl

theorem numeral?_plain (signless : ∀ rest, bytes ≠ 0x2D :: rest) :
    numeral? bytes = unsigned? false bytes := by
  unfold numeral?
  split
  · next same =>
    split at same
    · next rest => exact absurd rfl (signless rest)
    · cases same
      rfl

/-- What follows the digits before the point is no digit. -/
theorem stops_of_spells {fraction : Option (List Nat)} {exponent : Option (Bool × List Nat)}
    {point power : Bytes} (spellsFraction : SpellsFraction fraction point)
    (spellsExponent : SpellsExponent exponent power) (ends : EndsValue rest) :
    Stops isDigit (point ++ (power ++ rest)) := by
  have markStops {mark : UInt8} {after : Bytes} (isMark : mark = 0x65 ∨ mark = 0x45) :
      Stops isDigit (mark :: after) := by
    refine stops_cons_iff.2 ?_
    rcases isMark with rfl | rfl
    · rfl
    · rfl
  cases spellsFraction with
  | none =>
    cases spellsExponent with
    | none => exact stops_isDigit ends
    | plain isMark _ => exact markStops isMark
    | plus isMark _ => exact markStops isMark
    | minus isMark _ => exact markStops isMark
  | point _ => exact stops_cons_iff.2 rfl

theorem unsigned?_of_spells {negative : Bool} {numeral : Numeral} {spelled : Bytes}
    (spells : SpellsUnsigned negative numeral spelled) (ends : EndsValue rest) :
    unsigned? negative (spelled ++ rest) = some (numeral, rest) := by
  cases spells with
  | @intro whole fraction exponent point power isWhole spellsFraction spellsExponent =>
    have readWhole := whole?_of_isWhole isWhole (stops_of_spells spellsFraction spellsExponent ends)
    have pointless : ∀ after, power ++ rest ≠ 0x2E :: after := by
      intro after same
      cases spellsExponent with
      | none =>
        rw [List.nil_append] at same
        rw [same] at ends
        exact ends.prolongs_not.2.1 rfl
      | plain isMark _ | plus isMark _ | minus isMark _ =>
        rw [(List.cons.inj same).1] at isMark
        exact absurd isMark (by decide)
    have digitless : Stops isDigit (power ++ rest) := stops_of_spells .none spellsExponent ends
    have readFraction := fraction?_of_spells spellsFraction digitless pointless
    have readExponent := exponent?_of_spells spellsExponent ends
    unfold unsigned?
    rw [List.append_assoc, List.append_assoc, readWhole, Option.bind_eq_bind, Option.bind_some]
    dsimp only
    rw [readFraction, Option.bind_eq_bind, Option.bind_some]
    dsimp only
    rw [readExponent]
    rfl

theorem spells_of_unsigned? {negative : Bool} {numeral : Numeral}
    (found : unsigned? negative bytes = some (numeral, rest)) :
    ∃ spelled, SpellsUnsigned negative numeral spelled ∧ bytes = spelled ++ rest := by
  unfold unsigned? at found
  obtain ⟨⟨whole, afterWhole⟩, readWhole, found⟩ := Option.bind_eq_some_iff.1 found
  obtain ⟨⟨fraction, afterFraction⟩, readFraction, found⟩ := Option.bind_eq_some_iff.1 found
  obtain ⟨⟨exponent, afterExponent⟩, readExponent, found⟩ := Option.bind_eq_some_iff.1 found
  obtain ⟨rfl, rfl⟩ := Prod.mk.inj (Option.some.inj found)
  obtain ⟨isWhole, rfl⟩ := isWhole_of_whole? readWhole
  obtain ⟨point, spellsFraction, rfl⟩ := spells_of_fraction? readFraction
  obtain ⟨power, spellsExponent, rfl⟩ := spells_of_exponent? readExponent
  refine ⟨_, .intro isWhole spellsFraction spellsExponent, ?_⟩
  rw [List.append_assoc, List.append_assoc]

/-- A spelled number is read as what it is, whatever stands behind its end. -/
theorem numeral?_of_spells {numeral : Numeral} {spelled : Bytes}
    (spells : SpellsNumeral numeral spelled) (ends : EndsValue rest) :
    numeral? (spelled ++ rest) = some (numeral, rest) := by
  cases spells with
  | minus unsigned =>
    rw [List.cons_append, numeral?_minus, unsigned?_of_spells unsigned ends]
  | plain unsigned =>
    have signless : ∀ after, spelled ++ rest ≠ 0x2D :: after := by
      intro after same
      cases unsigned with
      | intro isWhole _ _ =>
        obtain ⟨byte, others, digit, begins⟩ := isWhole.areDigits.exists_first
        rw [begins, List.cons_append, List.cons_append] at same
        rw [(List.cons.inj same).1] at digit
        exact absurd digit (by decide)
    rw [numeral?_plain signless, unsigned?_of_spells unsigned ends]

theorem spells_of_numeral? {numeral : Numeral} (found : numeral? bytes = some (numeral, rest)) :
    ∃ spelled, SpellsNumeral numeral spelled ∧ bytes = spelled ++ rest := by
  by_cases signed : ∃ after, bytes = 0x2D :: after
  · obtain ⟨after, rfl⟩ := signed
    rw [numeral?_minus] at found
    obtain ⟨spelled, unsigned, rfl⟩ := spells_of_unsigned? found
    exact ⟨_, .minus unsigned, rfl⟩
  · have signless : ∀ after, bytes ≠ 0x2D :: after := fun after same => signed ⟨after, same⟩
    rw [numeral?_plain signless] at found
    obtain ⟨spelled, unsigned, rfl⟩ := spells_of_unsigned? found
    exact ⟨_, .plain unsigned, rfl⟩

/-- A number begins with a minus or a digit. -/
theorem exists_first_of_spellsNumeral {numeral : Numeral} {spelled : Bytes}
    (spells : SpellsNumeral numeral spelled) :
    ∃ byte after, (byte = 0x2D ∨ isDigit byte = true) ∧ spelled = byte :: after := by
  cases spells with
  | minus _ => exact ⟨_, _, .inl rfl, rfl⟩
  | plain unsigned =>
    cases unsigned with
    | intro isWhole _ _ =>
      obtain ⟨byte, others, digit, begins⟩ := isWhole.areDigits.exists_first
      rw [begins]
      exact ⟨byte, _, .inr digit, rfl⟩

end Written

/-! ## Strings -/

/-- One piece of a string: a byte that stands for itself, an escape of one letter, or an escape of
four hexadecimal digits. -/
inductive SpellsPiece : Piece → Bytes → Prop
  | byte {value : UInt8} : 0x20 ≤ value → value ≠ 0x22 → value ≠ 0x5C →
      SpellsPiece (.byte value) [value]
  | escape {letter value : UInt8} : Written.escaped? letter = some value →
      SpellsPiece (.byte value) [0x5C, letter]
  | unit {first second third fourth : UInt8} {a b c d : Nat} :
      Written.hexValue? first = some a → Written.hexValue? second = some b →
      Written.hexValue? third = some c → Written.hexValue? fourth = some d →
      SpellsPiece (.unit (((a * 16 + b) * 16 + c) * 16 + d))
        [0x5C, 0x75, first, second, third, fourth]

/-- A string between its quotes. -/
inductive SpellsPieces : List Piece → Bytes → Prop
  | nil : SpellsPieces [] []
  | cons {piece : Piece} {pieces : List Piece} {spelled others : Bytes} :
      SpellsPiece piece spelled → SpellsPieces pieces others →
      SpellsPieces (piece :: pieces) (spelled ++ others)

namespace Written

variable {bytes rest : Bytes}

theorem pieces?_unit {first second third fourth : UInt8} {a b c d : Nat}
    (one : hexValue? first = some a) (two : hexValue? second = some b)
    (three : hexValue? third = some c) (four : hexValue? fourth = some d) (rest : Bytes) :
    pieces? (0x5C :: 0x75 :: first :: second :: third :: fourth :: rest) =
      (pieces? rest).map fun read =>
        (.unit (((a * 16 + b) * 16 + c) * 16 + d) :: read.1, read.2) := by
  rw [pieces?, one, two, three, four]
  cases pieces? rest with
  | none => rfl
  | some read => rfl

theorem pieces?_escape {letter value : UInt8} (read : escaped? letter = some value)
    (rest : Bytes) :
    pieces? (0x5C :: letter :: rest) =
      (pieces? rest).map fun read => (.byte value :: read.1, read.2) := by
  rw [pieces?, read]
  · cases pieces? rest with
    | none => rfl
    | some read => rfl
  · rintro _ _ _ _ _ rfl _
    have none : escaped? 0x75 = none := by decide
    exact nomatch none.symm.trans read

theorem pieces?_byte {value : UInt8} (least : 0x20 ≤ value) (noQuote : value ≠ 0x22)
    (noBackslash : value ≠ 0x5C) (rest : Bytes) :
    pieces? (value :: rest) =
      (pieces? rest).map fun read => (.byte value :: read.1, read.2) := by
  have plain : ¬(value < 0x20 ∨ value = 0x5C) := by
    rintro (control | backslash)
    · exact absurd control (UInt8.not_lt.2 least)
    · exact noBackslash backslash
  rw [pieces?, if_neg plain]
  · exact noQuote
  · exact fun _ _ _ _ _ backslash _ => noBackslash backslash
  · exact fun _ _ backslash _ => noBackslash backslash

/-- A spelled string is read up to its quote. -/
theorem pieces?_of_spells {pieces : List Piece} {spelled : Bytes}
    (spells : SpellsPieces pieces spelled) (rest : Bytes) :
    pieces? (spelled ++ 0x22 :: rest) = some (pieces, rest) := by
  induction spells with
  | nil => rfl
  | @cons piece pieces spelled others one more ih =>
    rw [List.append_assoc]
    cases one with
    | byte least noQuote noBackslash =>
      rw [List.singleton_append, pieces?_byte least noQuote noBackslash, ih]
      rfl
    | escape read =>
      rw [List.cons_append, List.singleton_append, pieces?_escape read, ih]
      rfl
    | unit one two three four =>
      simp only [List.cons_append, List.nil_append]
      rw [pieces?_unit one two three four, ih]
      rfl

theorem spells_of_pieces? {pieces : List Piece} (found : pieces? bytes = some (pieces, rest)) :
    ∃ spelled, SpellsPieces pieces spelled ∧ bytes = spelled ++ 0x22 :: rest := by
  fun_induction pieces? bytes generalizing pieces with
  | case1 => exact nomatch found
  | case2 after =>
    obtain ⟨rfl, rfl⟩ := Prod.mk.inj (Option.some.inj found)
    exact ⟨[], .nil, rfl⟩
  | case3 first second third fourth after ih =>
    simp only [Option.bind_eq_bind, Option.bind_eq_some_iff] at found
    obtain ⟨a, one, b, two, c, three, d, four, ⟨others, remaining⟩, read, same⟩ := found
    obtain ⟨rfl, rfl⟩ := Prod.mk.inj (Option.some.inj same)
    obtain ⟨spelled, spells, rfl⟩ := ih read
    exact ⟨_, .cons (.unit one two three four) spells, rfl⟩
  | case4 letter after _ ih =>
    simp only [Option.bind_eq_bind, Option.bind_eq_some_iff] at found
    obtain ⟨value, escape, ⟨others, remaining⟩, read, same⟩ := found
    obtain ⟨rfl, rfl⟩ := Prod.mk.inj (Option.some.inj same)
    obtain ⟨spelled, spells, rfl⟩ := ih read
    exact ⟨_, .cons (.escape escape) spells, rfl⟩
  | case5 => exact nomatch found
  | case6 byte after noQuote _ _ plain ih =>
    obtain ⟨⟨others, remaining⟩, read, same⟩ := Option.map_eq_some_iff.1 found
    obtain ⟨rfl, rfl⟩ := Prod.mk.inj same
    obtain ⟨spelled, spells, rfl⟩ := ih read
    have least : 0x20 ≤ byte := UInt8.not_lt.1 fun control => plain (.inl control)
    exact ⟨_, .cons (.byte least noQuote fun backslash => plain (.inr backslash)) spells, rfl⟩

end Written

end QuotaGate.Json
