import Mathlib.Data.Nat.Digits.Lemmas
import Mathlib.Tactic.FieldSimp
import QuotaGate.Proofs.Number.Nearest
import QuotaGate.Proofs.Text.Runs
import QuotaGate.Quota.Report

/-!
# Exact seconds

A duration on the wire is a decimal number of seconds. It is read as the nearest floating-point
number, and that number is rounded to the nearest nanosecond. Below `2 ^ 23` seconds the
floating-point numbers lie at most `2 ^ -30` seconds apart, so the first rounding misses by at most
`2 ^ -31` seconds. That is less than half a nanosecond, and so the second rounding undoes the first
where the number has no more than nine digits after the point.

Results:
1. `DecimalSeconds.float?_chars`: how the number is read.
2. `Duration.ofBinary64?_eq`: when a floating-point number is the duration that is meant.
3. `DecimalSeconds.read_exactly`: durations on the wire are read exactly.
-/

namespace QuotaGate

/-- A decimal number of seconds as it is written: a plus or none, the digits before the point, and
the point with the digits after it or none. There is at least one digit. -/
structure DecimalSeconds where
  plus : Bool
  whole : List (Fin 10)
  fraction : Option (List (Fin 10))
  hasDigit : whole ≠ [] ∨ fraction.getD [] ≠ []

/-- The character of a digit. -/
def digitChar (digit : Fin 10) : Char := Nat.digitChar digit

/-- The number that digits stand for, the last one being the units. -/
def digitsNumber (digits : List (Fin 10)) : Nat := Nat.ofDigits 10 (digits.reverse.map Fin.val)

namespace DecimalSeconds

/-- The digits after the point. -/
def places (decimal : DecimalSeconds) : List (Fin 10) := decimal.fraction.getD []

/-- The characters from the point on. -/
def pointChars : Option (List (Fin 10)) → List Char
  | none => []
  | some digits => '.' :: digits.map digitChar

/-- The characters without the plus. -/
def unsignedChars (decimal : DecimalSeconds) : List Char :=
  decimal.whole.map digitChar ++ pointChars decimal.fraction

def chars (decimal : DecimalSeconds) : List Char :=
  if decimal.plus then '+' :: decimal.unsignedChars else decimal.unsignedChars

/-- The text of a value that holds the number with other characters around it. -/
def textBetween (decimal : DecimalSeconds) (before after : List Char) : String :=
  String.ofList (before ++ (decimal.chars ++ after))

/-- The number of seconds that is meant. -/
def value (decimal : DecimalSeconds) : ℚ :=
  digitsNumber decimal.whole + digitsNumber decimal.places / 10 ^ decimal.places.length

end DecimalSeconds

/-! ## Digits -/

theorem isDigit_digitChar (digit : Fin 10) : (digitChar digit).isDigit = true := by
  revert digit
  decide

theorem toNat_digitChar (digit : Fin 10) : (digitChar digit).toNat - '0'.toNat = digit := by
  revert digit
  decide

theorem digitsNumber_append (digits others : List (Fin 10)) :
    digitsNumber (digits ++ others) =
      digitsNumber digits * 10 ^ others.length + digitsNumber others := by
  unfold digitsNumber
  rw [List.reverse_append, List.map_append, Nat.ofDigits_append, List.length_map,
    List.length_reverse, Nat.add_comm, Nat.mul_comm]

theorem digitsNumber_singleton (digit : Fin 10) : digitsNumber [digit] = digit :=
  Nat.ofDigits_singleton

theorem digitsValue_map_digitChar (digits : List (Fin 10)) :
    NumberText.digitsValue (digits.map digitChar) = digitsNumber digits := by
  induction digits using List.reverseRecOn with
  | nil => rfl
  | append_singleton digits digit ih =>
    unfold NumberText.digitsValue at ih ⊢
    rw [List.map_append, List.foldl_append, ih, digitsNumber_append, digitsNumber_singleton,
      List.length_singleton, pow_one, Nat.mul_comm]
    show 10 * _ + ((digitChar digit).toNat - '0'.toNat) = _
    rw [toNat_digitChar]

theorem isDigit_of_mem_map {digits : List (Fin 10)} :
    ∀ c ∈ digits.map digitChar, c.isDigit = true := by
  intro c member
  obtain ⟨digit, _, rfl⟩ := List.mem_map.1 member
  exact isDigit_digitChar digit

namespace DecimalSeconds

variable (decimal : DecimalSeconds)

/-! ## How the number is read -/

/-- The characters of which the number is made. -/
def IsSymbol (c : Char) : Prop := c = '+' ∨ c = '.' ∨ ∃ digit, c = digitChar digit

theorem isBlank_of_isSymbol {c : Char} (symbol : IsSymbol c) : Text.isBlank c = false := by
  rcases symbol with rfl | rfl | ⟨digit, rfl⟩
  · decide
  · decide
  · revert digit
    decide

theorem isSymbol_of_mem_unsignedChars :
    ∀ c ∈ decimal.unsignedChars, c = '.' ∨ ∃ digit, c = digitChar digit := by
  intro c member
  rcases List.mem_append.1 member with inWhole | inPoint
  · obtain ⟨digit, _, rfl⟩ := List.mem_map.1 inWhole
    exact .inr ⟨digit, rfl⟩
  · cases fraction : decimal.fraction with
    | none =>
      rw [fraction] at inPoint
      exact nomatch inPoint
    | some digits =>
      rw [fraction] at inPoint
      rcases List.mem_cons.1 inPoint with rfl | inPlaces
      · exact .inl rfl
      · obtain ⟨digit, _, rfl⟩ := List.mem_map.1 inPlaces
        exact .inr ⟨digit, rfl⟩

theorem isSymbol_of_mem_chars : ∀ c ∈ decimal.chars, IsSymbol c := by
  intro c member
  unfold chars at member
  split at member
  · rcases List.mem_cons.1 member with rfl | inUnsigned
    · exact .inl rfl
    · exact .inr (decimal.isSymbol_of_mem_unsignedChars c inUnsigned)
  · exact .inr (decimal.isSymbol_of_mem_unsignedChars c member)

/-- The blanks around a number are dropped. -/
theorem trimChars_chars {before after : List Char}
    (blankBefore : ∀ c ∈ before, Text.isBlank c = true)
    (blankAfter : ∀ c ∈ after, Text.isBlank c = true) :
    Text.trimChars (before ++ (decimal.chars ++ after)) = decimal.chars := by
  refine Text.trimChars_padded blankBefore blankAfter ?_ ?_
  · intro c first
    exact isBlank_of_isSymbol (decimal.isSymbol_of_mem_chars c (List.mem_of_mem_head? first))
  · intro c last
    have member := List.mem_reverse.1 (List.mem_of_mem_head? last)
    exact isBlank_of_isSymbol (decimal.isSymbol_of_mem_chars c member)

/-- The number has a first character, which is no sign and begins no word. -/
theorem exists_first : ∃ c rest, decimal.unsignedChars = c :: rest ∧ c ≠ '-' ∧ c ≠ '+' ∧
    c.toLower ≠ 'i' ∧ c.toLower ≠ 'n' := by
  have plainDigit : ∀ digit : Fin 10, digitChar digit ≠ '-' ∧ digitChar digit ≠ '+' ∧
      (digitChar digit).toLower ≠ 'i' ∧ (digitChar digit).toLower ≠ 'n' := by decide
  have plain : ∀ c ∈ decimal.unsignedChars,
      c ≠ '-' ∧ c ≠ '+' ∧ c.toLower ≠ 'i' ∧ c.toLower ≠ 'n' := by
    intro c member
    rcases decimal.isSymbol_of_mem_unsignedChars c member with rfl | ⟨digit, rfl⟩
    · decide
    · exact plainDigit digit
  cases characters : decimal.unsignedChars with
  | nil =>
    obtain ⟨noWhole, noPoint⟩ := List.append_eq_nil_iff.1 characters
    rcases decimal.hasDigit with digits | digits
    · exact absurd (List.map_eq_nil_iff.1 noWhole) digits
    · cases fraction : decimal.fraction with
      | none =>
        rw [fraction] at digits
        exact absurd rfl digits
      | some places =>
        rw [fraction] at noPoint
        exact nomatch noPoint
  | cons c rest =>
    rw [characters] at plain
    exact ⟨c, rest, rfl, plain c List.mem_cons_self⟩

theorem stops_pointChars (fraction : Option (List (Fin 10))) :
    Stops Char.isDigit (pointChars fraction) := by
  cases fraction with
  | none => exact stops_nil
  | some digits => exact stops_cons_iff.2 rfl

theorem spanDigits_unsignedChars :
    NumberText.spanDigits decimal.unsignedChars =
      (decimal.whole.map digitChar, pointChars decimal.fraction) := by
  have stops := stops_pointChars decimal.fraction
  unfold NumberText.spanDigits unsignedChars
  rw [takeWhile_run isDigit_of_mem_map stops, dropWhile_run isDigit_of_mem_map stops]

theorem spanDigits_map (digits : List (Fin 10)) :
    NumberText.spanDigits (digits.map digitChar) = (digits.map digitChar, []) := by
  have all : ∀ c ∈ digits.map digitChar, c.isDigit = true := isDigit_of_mem_map
  have taken := takeWhile_run all stops_nil
  have dropped := dropWhile_run all stops_nil
  rw [List.append_nil] at taken dropped
  unfold NumberText.spanDigits
  rw [taken, dropped]

/-- The digits after a point, if one comes, and what follows them. -/
def spanFraction (chars : List Char) : List Char × List Char :=
  match chars with
  | '.' :: rest => NumberText.spanDigits rest
  | _ => ([], chars)

theorem spanFraction_pointChars (fraction : Option (List (Fin 10))) :
    spanFraction (pointChars fraction) = ((fraction.getD []).map digitChar, []) := by
  cases fraction with
  | none => rfl
  | some digits => exact spanDigits_map digits

theorem decimal?_eq (chars : List Char) :
    NumberText.decimal? chars =
      if (NumberText.spanDigits chars).1.isEmpty &&
          (spanFraction (NumberText.spanDigits chars).2).1.isEmpty then none
      else (NumberText.exponent? (spanFraction (NumberText.spanDigits chars).2).2).map
        fun exponent =>
          (NumberText.digitsValue ((NumberText.spanDigits chars).1 ++
            (spanFraction (NumberText.spanDigits chars).2).1),
          exponent - ((spanFraction (NumberText.spanDigits chars).2).1.length : Int)) := rfl

/-- The digits are read as one whole number, the places after the point as a power of ten. -/
theorem decimal?_unsignedChars :
    NumberText.decimal? decimal.unsignedChars =
      some (digitsNumber (decimal.whole ++ decimal.places), 0 - (decimal.places.length : Int)) := by
  have someDigit :
      ¬((decimal.whole.map digitChar).isEmpty && (decimal.places.map digitChar).isEmpty) =
        true := by
    rw [Bool.and_eq_true, List.isEmpty_iff, List.isEmpty_iff, List.map_eq_nil_iff,
      List.map_eq_nil_iff]
    rintro ⟨noWhole, noPlaces⟩
    rcases decimal.hasDigit with digits | digits
    · exact digits noWhole
    · exact digits noPlaces
  rw [decimal?_eq, spanDigits_unsignedChars]
  dsimp only
  rw [spanFraction_pointChars]
  show (if ((decimal.whole.map digitChar).isEmpty && (decimal.places.map digitChar).isEmpty) = true
    then none else some (NumberText.digitsValue (decimal.whole.map digitChar ++
      decimal.places.map digitChar), (0 : Int) - (decimal.places.map digitChar).length)) = _
  rw [if_neg someDigit, ← List.map_append, digitsValue_map_digitChar, List.length_map]

theorem dropPlus_chars : NumberText.dropPlus decimal.chars = decimal.unsignedChars := by
  obtain ⟨c, rest, first, _, notPlus, _⟩ := decimal.exists_first
  unfold chars
  split
  · rfl
  · rw [first]
    unfold NumberText.dropPlus
    split
    · next same => exact absurd (List.cons.inj same).1 notPlus
    · rfl

/-- The characters are read as the floating-point number nearest to a quotient. -/
theorem float?_chars :
    NumberText.float? decimal.chars =
      some (.ofDecimal false (digitsNumber (decimal.whole ++ decimal.places))
        (0 - (decimal.places.length : Int))) := by
  obtain ⟨c, rest, first, notMinus, notPlus, notI, notN⟩ := decimal.exists_first
  have signless : ∀ rest, decimal.chars ≠ '-' :: rest := by
    intro others same
    unfold chars at same
    split at same
    · exact absurd (List.cons.inj same).1 (by decide)
    · rw [first] at same
      exact notMinus (List.cons.inj same).1
  -- The words for what is not finite begin with a letter.
  have word {text : String} {letter : Char} {letters : List Char}
      (begins : text.toList = letter :: letters) (other : c.toLower ≠ letter) :
      String.ofList (decimal.unsignedChars.map Char.toLower) ≠ text := by
    rintro rfl
    rw [String.toList_ofList, first, List.map_cons] at begins
    exact other (List.cons.inj begins).1
  unfold NumberText.float?
  split
  · next others same => exact absurd same (signless others)
  · rw [dropPlus_chars]
    unfold NumberText.unsignedFloat?
    dsimp only
    rw [if_neg, if_neg (word rfl notN), decimal?_unsignedChars]
    · rfl
    · rintro (inf | infinity)
      · exact word rfl notI inf
      · exact word rfl notI infinity

end DecimalSeconds

/-! ## How the number is rounded -/

namespace Binary64

/-- With at most nine places a decimal is read as the quotient that it is. -/
theorem ofDecimal_places (coefficient : Nat) {places : Nat} (few : places ≤ 9) :
    ofDecimal false coefficient (0 - (places : Int)) =
      ofRatio false coefficient (10 ^ places) := by
  unfold ofDecimal
  by_cases isZero : coefficient = 0
  · rw [if_pos isZero, isZero]
    rfl
  · rw [if_neg isZero, if_neg (by omega), if_neg (by omega)]
    split
    · have none : places = 0 := by omega
      subst none
      show ofRatio false (coefficient * 1) 1 = ofRatio false coefficient 1
      rw [Nat.mul_one]
    · show ofRatio false coefficient (10 ^ (-(0 - (places : Int))).toNat) = _
      rw [zero_sub, neg_neg, Int.toNat_natCast]

end Binary64

/-- A floating-point number that lies nearer than half a nanosecond to a duration is rounded to
it. -/
theorem Duration.ofBinary64?_eq {significand : Nat} {exponent : Int} {nanos : Duration}
    (small : (significand : ℚ) * 2 ^ exponent < 2 ^ 64)
    (near : |(significand : ℚ) * 2 ^ exponent * second - nanos| < 1 / 2) :
    ofBinary64? (.finite false significand exponent) = some nanos := by
  have positive := Binary64.ratio_pos significand exponent
  have above : (0 : ℚ) < (Binary64.ratio significand exponent).2 := by exact_mod_cast positive
  rw [← Binary64.ratio_div] at small near
  have fits : ¬UInt64.size * (Binary64.ratio significand exponent).2 ≤
      (Binary64.ratio significand exponent).1 := by
    rw [div_lt_iff₀ above] at small
    rw [not_le]
    exact_mod_cast small
  have rounded : roundHalfEven ((Binary64.ratio significand exponent).1 * second)
      (Binary64.ratio significand exponent).2 = nanos := by
    refine roundHalfEven_eq positive ?_
    rw [Nat.cast_mul, mul_div_right_comm]
    exact near
  unfold ofBinary64?
  dsimp only
  rw [if_neg fun both => Bool.false_ne_true both.1, if_neg fits, rounded]

namespace DecimalSeconds

variable (decimal : DecimalSeconds)

theorem value_eq_div : decimal.value =
    (digitsNumber (decimal.whole ++ decimal.places) : ℚ) / (10 ^ decimal.places.length : Nat) := by
  have power : (0 : ℚ) < 10 ^ decimal.places.length := by positivity
  unfold value
  rw [digitsNumber_append, Nat.cast_add, Nat.cast_mul, Nat.cast_pow, Nat.cast_ofNat, add_div,
    mul_div_cancel_right₀ _ power.ne']

/-- With at most nine places the number is a whole number of nanoseconds. -/
theorem exists_nanos (few : decimal.places.length ≤ 9) :
    ∃ nanos : Duration, (nanos : ℚ) = decimal.value * Duration.second := by
  refine ⟨digitsNumber decimal.whole * Duration.second +
    digitsNumber decimal.places * 10 ^ (9 - decimal.places.length), ?_⟩
  have power : (0 : ℚ) < 10 ^ decimal.places.length := by positivity
  have parts : (Duration.second : ℚ) =
      10 ^ (9 - decimal.places.length) * 10 ^ decimal.places.length := by
    rw [← pow_add, Nat.sub_add_cancel few]
    norm_num [Duration.second]
  unfold value
  push_cast
  rw [add_mul, parts]
  field_simp

/-- Below `2 ^ 23` seconds both roundings together miss nothing. -/
theorem ofBinary64?_ofDecimal (few : decimal.places.length ≤ 9) (small : decimal.value < 2 ^ 23)
    {nanos : Duration} (exact : (nanos : ℚ) = decimal.value * Duration.second) :
    Duration.ofBinary64? (.ofDecimal false (digitsNumber (decimal.whole ++ decimal.places))
      (0 - (decimal.places.length : Int))) = some nanos := by
  -- Below `2 ^ 23` a significand of 53 bits has its last bit at `2 ^ -30` or lower.
  have within : (digitsNumber (decimal.whole ++ decimal.places) : ℚ) /
      (10 ^ decimal.places.length : Nat) < 2 ^ ((53 : Int) + -30) := by
    rw [← value_eq_div]
    exact small
  obtain ⟨significand, scale, rounded, -, missed⟩ :=
    Binary64.exists_ofRatio_near false (Nat.pow_pos (by decide)) (by decide) (by decide) within
  rw [← value_eq_div] at missed
  rw [Binary64.ofDecimal_places _ few, rounded]
  have half : |(significand : ℚ) * 2 ^ scale - decimal.value| ≤ 1 / 2 ^ 31 := by
    refine missed.trans_eq ?_
    norm_num
  refine Duration.ofBinary64?_eq ?_ ?_
  · have upper := (abs_le.1 half).2
    calc (significand : ℚ) * 2 ^ scale ≤ decimal.value + 1 / 2 ^ 31 := by linarith
      _ < 2 ^ 23 + 1 / 2 ^ 31 := by linarith
      _ < 2 ^ 64 := by norm_num
  · rw [exact, ← sub_mul, abs_mul, Nat.abs_cast]
    calc |(significand : ℚ) * 2 ^ scale - decimal.value| * Duration.second
        ≤ 1 / 2 ^ 31 * Duration.second := mul_le_mul_of_nonneg_right half (Nat.cast_nonneg _)
      _ < 1 / 2 := by norm_num [Duration.second]

/-- A duration below `2 ^ 23` seconds with at most nine places is read to the nanosecond, blanks
around it dropped; so are the hint and the time to the end of the window. -/
theorem read_exactly (before after : List Char) (blankBefore : ∀ c ∈ before, Text.isBlank c = true)
    (blankAfter : ∀ c ∈ after, Text.isBlank c = true) (few : decimal.places.length ≤ 9)
    (small : decimal.value < 2 ^ 23) :
    ∃ nanos : Duration, (nanos : ℚ) = decimal.value * Duration.second ∧
      Duration.ofText? (decimal.textBetween before after) = some nanos ∧
      ∀ headers : Http.Headers,
        (headers.text? Report.retryAfterName = some (decimal.textBetween before after) →
          (Report.ofHeaders headers).retryAfter = some nanos) ∧
        (headers.text? Report.resetAfterName = some (decimal.textBetween before after) →
          (Report.ofHeaders headers).resetAfter = some nanos) := by
  obtain ⟨nanos, exact⟩ := decimal.exists_nanos few
  have read : Duration.ofText? (decimal.textBetween before after) = some nanos := by
    unfold Duration.ofText? textBetween
    rw [String.toList_ofList, decimal.trimChars_chars blankBefore blankAfter, float?_chars,
      Option.bind_some]
    exact decimal.ofBinary64?_ofDecimal few small exact
  refine ⟨nanos, exact, read, ?_⟩
  intro headers
  constructor
  · intro hint
    show (headers.text? Report.retryAfterName).bind Duration.ofText? = _
    rw [hint]
    exact read
  · intro resetAfter
    show (headers.text? Report.resetAfterName).bind Duration.ofText? = _
    rw [resetAfter]
    exact read

/-- A second and a nanosecond, with a plus and zeros in front. -/
def padded : DecimalSeconds where
  plus := true
  whole := [0, 0, 1]
  fraction := some [0, 0, 0, 0, 0, 0, 0, 0, 1]
  hasDigit := .inl (List.cons_ne_nil 0 [0, 1])

theorem read_exactly_padded :
    Duration.ofText? (padded.textBetween [' '] ['\t', ' ']) = some 1000000001 := by
  have isValue : padded.value = 1 + 1 / 10 ^ 9 := by
    have whole : digitsNumber padded.whole = 1 := by decide
    have places : digitsNumber padded.places = 1 := by decide
    unfold value
    rw [whole, places]
    norm_num [DecimalSeconds.places, padded]
  have small : padded.value < 2 ^ 23 := by
    rw [isValue]
    norm_num
  have blankBefore : ∀ c ∈ [' '], Text.isBlank c = true := List.forall_mem_singleton.2 rfl
  have blankAfter : ∀ c ∈ ['\t', ' '], Text.isBlank c = true :=
    List.forall_mem_cons.2 ⟨rfl, List.forall_mem_singleton.2 rfl⟩
  obtain ⟨nanos, exact, read, _⟩ :=
    padded.read_exactly [' '] ['\t', ' '] blankBefore blankAfter (by decide) small
  have same : nanos = 1000000001 := by
    have rational : (nanos : ℚ) = (1000000001 : Nat) := by
      rw [exact, isValue]
      norm_num [Duration.second]
    exact_mod_cast rational
  rw [read, same]

/-- From `2 ^ 23` seconds on the nanoseconds are not always exact. -/
example : Duration.ofText? "8388608.000000001" = some 8388608000000002 := by decide +kernel

end DecimalSeconds

end QuotaGate
