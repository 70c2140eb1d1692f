import QuotaGate.Proofs.Number.Nearest
import QuotaGate.Proofs.Number.Plain
import QuotaGate.Proofs.Report.Seconds
import QuotaGate.Proofs.Settings.Parts
import QuotaGate.Settings.Layers

/-!
# Numerals in two readings

A numeral of a document is read as a number where a number is wanted, or it is first taken for a
value of a tree: a whole number of 64 bits with a sign, or a floating-point number, or a text. So
great numbers are rounded, and numerals of another base are numbers only in part.

Results:
1. `Binary64.clampToNat_ofDecimal_iff`: the great numbers that are not rounded.
2. `Tree.ofPlain?_of_digits`, `Tree.ofPlain?_of_based`: what a numeral stands for in a tree.
3. `Tree.nat64?_ofPlain?_iff`: the numerals that are the same number for both readings.
-/

namespace QuotaGate

open NumberText

/-! ## Great numbers -/

namespace Binary64

/-- A number that is whole is not rounded. -/
theorem clampToNat_of_whole {significand : Nat} {exponent : Int} {value : Nat}
    (whole : (significand : ℚ) * 2 ^ exponent = value) (most : Nat) :
    (finite false significand exponent).clampToNat most = min most value := by
  have positive := ratio_pos significand exponent
  have above : ((ratio significand exponent).2 : ℚ) ≠ 0 := by exact_mod_cast positive.ne'
  rw [← ratio_div, div_eq_iff above] at whole
  have parts : (ratio significand exponent).1 = value * (ratio significand exponent).2 := by
    exact_mod_cast whole
  change min most ((2 * (ratio significand exponent).1 + (ratio significand exponent).2) /
    (2 * (ratio significand exponent).2)) = _
  generalize (ratio significand exponent).2 = denominator at positive parts ⊢
  rw [parts, ← Nat.mul_assoc, Nat.mul_comm 2 value, Nat.mul_assoc,
    Nat.mul_comm value, Nat.mul_add_div (Nat.mul_pos two_pos positive),
    Nat.div_eq_of_lt (by omega), Nat.add_zero]

/-- A great number of 64 bits is brought to the nearest multiple of 2048. -/
theorem clampToNat_ofRatio {value : Nat} (least : 2 ^ 63 ≤ value) (most : value < 2 ^ 64) :
    (ofRatio false value 1).clampToNat NumberText.greatestNat64 =
      min NumberText.greatestNat64 (roundHalfEven value 2048 * 2048) := by
  have nonzero : value ≠ 0 := by omega
  have log : value.log2 = 63 := (Nat.log2_eq_iff nonzero).2 ⟨least, most⟩
  have exponent : exponentOf value 1 = 11 := by
    have large : ¬(scaleDown value 1 11).1 < Nat.pow 2 52 * (scaleDown value 1 11).2 :=
      not_lt.2 least
    unfold exponentOf
    rw [log]
    change max leastExponent (if (scaleDown value 1 11).1 < Nat.pow 2 52 * (scaleDown value 1 11).2
      then (10 : Int) else 11) = 11
    rw [if_neg large]
    rfl
  obtain ⟨significand, scale, rounded, whole⟩ :=
    exists_ofRatio false Nat.one_pos
      fun _ => (exponent ▸ by decide : exponentOf value 1 < greatestExponent)
  rw [rounded]
  refine clampToNat_of_whole ?_ _
  rw [whole, nearest, exponent, Nat.cast_mul]
  rfl

theorem clampToNat_ofDecimal_iff {value : Nat} (least : 2 ^ 63 ≤ value)
    (most : value ≤ NumberText.greatestNat64) :
    (ofDecimal false value 0).clampToNat NumberText.greatestNat64 = value ↔
      2048 ∣ value ∨ value = NumberText.greatestNat64 := by
  have whole : ofDecimal false value 0 = ofRatio false value 1 :=
    ofDecimal_places value (Nat.zero_le 9)
  rw [whole, clampToNat_ofRatio least (Nat.lt_succ_of_le most)]
  have greatest : NumberText.greatestNat64 = 2 ^ 64 - 1 := rfl
  rw [greatest] at most ⊢
  rcases roundHalfEven_cases value 2048 with ⟨rounded, half⟩ | ⟨rounded, half⟩
  · rw [rounded]
    omega
  · rw [rounded]
    omega

end Binary64

namespace NumberText

theorem exists_digits {chars : List Char} (all : ∀ c ∈ chars, c.isDigit = true) :
    ∃ digits : List (Fin 10), digits.map digitChar = chars := by
  induction chars with
  | nil => exact ⟨[], rfl⟩
  | cons first rest ih =>
    obtain ⟨digits, same⟩ := ih fun c member => all c (List.mem_cons_of_mem _ member)
    obtain ⟨own, small⟩ := toDigits_digit (all first List.mem_cons_self)
    rw [Nat.toDigits_of_lt_base small] at own
    refine ⟨⟨_, small⟩ :: digits, ?_⟩
    rw [List.map_cons, same]
    exact congrArg (· :: rest) (List.singleton_inj.1 own)

/-- Decimal digits are read as the floating-point number nearest to their number. -/
theorem float?_of_digits {chars : List Char} {value : Nat}
    (read : digitsIn? 10 (dropPlus chars) = some value) :
    float? chars = some (.ofDecimal false value 0) := by
  obtain ⟨nonempty, all, number⟩ := digitsIn?_ten read
  obtain ⟨digits, same⟩ := exists_digits all
  have someDigit : digits ≠ [] := by
    rintro rfl
    exact nonempty same.symm
  have signed : ∃ plus, chars = (⟨plus, digits, none, .inl someDigit⟩ : DecimalSeconds).chars := by
    unfold dropPlus at same
    split at same
    · exact ⟨true, by rw [← same]; simp [DecimalSeconds.chars, DecimalSeconds.unsignedChars,
        DecimalSeconds.pointChars]⟩
    · exact ⟨false, by rw [← same]; simp [DecimalSeconds.chars, DecimalSeconds.unsignedChars,
        DecimalSeconds.pointChars]⟩
  have value' : digitsNumber digits = value := by
    rw [← digitsValue_map_digitChar, same, ← number, Nat.ofDigitChars_eq_foldl]
    rfl
  obtain ⟨plus, rfl⟩ := signed
  rw [DecimalSeconds.float?_chars]
  simp only [DecimalSeconds.places, Option.getD_none, List.append_nil, List.length_nil, value']
  rfl

/-- Digits begin with no sign. -/
theorem unsigned_of_digitsIn? {base value : Nat} {chars : List Char}
    (read : digitsIn? base chars = some value) :
    ∀ sign ∈ ['+', '-'], ∀ rest, chars ≠ sign :: rest := by
  rintro sign listed rest rfl
  have none : digitIn? base sign = none := by
    simp only [List.mem_cons, List.not_mem_nil, or_false] at listed
    rcases listed with rfl | rfl <;> rfl
  unfold digitsIn? at read
  rw [List.isEmpty_cons, if_neg Bool.false_ne_true, List.foldlM_cons, none] at read
  exact nomatch read

theorem dropPlus_of_head? {chars : List Char} (unsigned : chars.head? ≠ some '+') :
    dropPlus chars = chars := by
  unfold dropPlus
  split
  · exact absurd rfl unsigned
  · rfl

theorem dropPlus_of_digitsIn? {base value : Nat} {chars : List Char}
    (read : digitsIn? base chars = some value) : dropPlus chars = chars := by
  refine dropPlus_of_head? fun plus => ?_
  obtain ⟨rest, signed⟩ := List.head?_eq_some_iff.1 plus
  exact unsigned_of_digitsIn? read '+' (by decide) rest signed

theorem mem_of_mem_dropPlus {c : Char} {chars : List Char} (present : c ∈ dropPlus chars) :
    c ∈ chars := by
  unfold dropPlus at present
  split at present
  · exact List.mem_cons_of_mem _ present
  · exact present

end NumberText

namespace Yaml.Node

/-- The signs of the bases of a number. -/
def bases : List (Char × Nat) := [('x', 16), ('o', 8), ('b', 2)]

theorem eq_of_mem_bases {mark : Char} {base : Nat} (marked : (mark, base) ∈ bases) :
    mark = 'x' ∧ base = 16 ∨ mark = 'o' ∧ base = 8 ∨ mark = 'b' ∧ base = 2 := by
  simpa [bases] using marked

theorem base_unique {mark : Char} {base other : Nat} (marked : (mark, base) ∈ bases)
    (markedToo : (mark, other) ∈ bases) : base = other := by
  rcases eq_of_mem_bases marked with ⟨rfl, rfl⟩ | ⟨rfl, rfl⟩ | ⟨rfl, rfl⟩ <;>
    simpa [bases, eq_comm] using markedToo

theorem natOfText?_eq_some {most value : Nat} {text : String}
    (read : natOfText? most text = some value) :
    value ≤ most ∧ (digitsIn? 10 (dropPlus text.toList) = some value ∨
      ∃ mark base digits, (mark, base) ∈ bases ∧ dropPlus text.toList = '0' :: mark :: digits ∧
        digitsIn? base digits = some value) := by
  unfold natOfText? at read
  obtain ⟨found, small⟩ := Option.filter_eq_some_iff.1 read
  refine ⟨of_decide_eq_true small, ?_⟩
  split at found
  · next digits form => exact .inr ⟨'x', 16, digits, by decide, form, found⟩
  · next digits form => exact .inr ⟨'o', 8, digits, by decide, form, found⟩
  · next digits form => exact .inr ⟨'b', 2, digits, by decide, form, found⟩
  · split at found
    · exact nomatch found
    · exact .inl found

end Yaml.Node

namespace Tree

/-- Digits are read as a number if it is not too great. -/
theorem wholeIn?_of_digits {base value : Nat} {chars : List Char}
    (read : digitsIn? base (dropPlus chars) = some value) :
    wholeIn? base chars = if (value : Int) ≤ greatestInt64 then some (value : Int) else none := by
  unfold wholeIn? intIn?
  split
  · exact absurd rfl (unsigned_of_digitsIn? read '-' (by decide) _)
  · have least : leastInt64 ≤ (value : Int) := Int.le_trans (by decide) (Int.natCast_nonneg value)
    rw [read, Option.map_some, Option.filter_some]
    by_cases small : (value : Int) ≤ greatestInt64
    · rw [if_pos (decide_eq_true ⟨least, small⟩), if_pos small]
      rfl
    · rw [if_neg fun both => small (of_decide_eq_true both).2, if_neg small]

theorem fraction?_of_digit {text : String} {c : Char} (present : c ∈ text.toList)
    (digit : c.isDigit = true) : fraction? text = float? text.toList := by
  unfold fraction?
  rw [if_pos (List.any_eq_true.2 ⟨c, present, digit⟩)]

/-- A scalar with a digit is a number if it can be read as one, and else a text. -/
theorem ofPlain?_of_digit {text : String} {c : Char} (present : c ∈ text.toList)
    (digit : c.isDigit = true) :
    ofPlain? text = some (((markedWhole? text.toList).or (wholeIn? 10 text.toList)).elim
      ((float? text.toList).elim (.text text) .fraction) .whole) := by
  have absent : ∀ word ∈ nullWords ++ trueWords ++ falseWords ++ specialNumbers,
      word.toList.any Char.isDigit = false := by decide
  have unlisted : text ∉ nullWords ++ trueWords ++ falseWords ++ specialNumbers := fun listed =>
    Bool.false_ne_true ((absent text listed).symm.trans (List.any_eq_true.2 ⟨c, present, digit⟩))
  rw [List.mem_append, List.mem_append, List.mem_append, not_or, not_or, not_or] at unlisted
  obtain ⟨⟨⟨null, true⟩, false⟩, special⟩ := unlisted
  unfold ofPlain?
  rw [if_neg (mt List.contains_iff_mem.1 null), if_neg (mt List.contains_iff_mem.1 true),
    if_neg (mt List.contains_iff_mem.1 false), if_neg (mt List.contains_iff_mem.1 special),
    fraction?_of_digit present digit]
  cases markedWhole? text.toList with
  | some value => rfl
  | none =>
    cases wholeIn? 10 text.toList with
    | some value => rfl
    | none => cases float? text.toList <;> rfl


/-- Decimal digits are a whole number, or a fraction if it is too great. -/
theorem ofPlain?_of_digits {text : String} {value : Nat}
    (read : digitsIn? 10 (dropPlus text.toList) = some value) :
    ofPlain? text = some (if (value : Int) ≤ greatestInt64 then .whole value
      else .fraction (.ofDecimal false value 0)) := by
  obtain ⟨nonempty, digits, -⟩ := digitsIn?_ten read
  have first := digits _ (List.head_mem nonempty)
  have marked : markedWhole? text.toList = none ∨
      markedWhole? text.toList = wholeIn? 10 text.toList := by
    unfold markedWhole?
    split
    · next rest form =>
      rw [form] at digits
      exact absurd (digits 'x' (by simp [dropPlus])) (by decide)
    · next rest form =>
      rw [form] at digits
      exact absurd (digits 'o' (by simp [dropPlus])) (by decide)
    · next rest form =>
      rw [form] at read ⊢
      have inner : digitsIn? 10 rest = some value := read
      have innerToo : digitsIn? 10 (dropPlus rest) = some value := by
        rw [dropPlus_of_digitsIn? inner, inner]
      exact .inr ((wholeIn?_of_digits innerToo).trans (wholeIn?_of_digits read).symm)
    · exact .inl rfl
  have whole : (markedWhole? text.toList).or (wholeIn? 10 text.toList) =
      if (value : Int) ≤ greatestInt64 then some (value : Int) else none := by
    rw [← wholeIn?_of_digits read]
    rcases marked with none | same
    · rw [none, Option.none_or]
    · rw [same, Option.or_self]
  rw [ofPlain?_of_digit (mem_of_mem_dropPlus (List.head_mem nonempty)) first, whole,
    float?_of_digits read]
  split <;> rfl

/-- A numeral with a sign of its base is no number of base ten. -/
theorem digitsIn?_ten_of_based {chars digits : List Char} {mark : Char} {base : Nat}
    (marked : (mark, base) ∈ Yaml.Node.bases) (form : chars = '0' :: mark :: digits) :
    digitsIn? 10 chars = none := by
  have letter : mark.isDigit = false := by
    rcases Yaml.Node.eq_of_mem_bases marked with ⟨rfl, -⟩ | ⟨rfl, -⟩ | ⟨rfl, -⟩ <;> rfl
  cases read : digitsIn? 10 chars with
  | none => rfl
  | some value =>
    have digit := (digitsIn?_ten read).2.1 mark (form ▸ by simp)
    exact absurd (letter.symm.trans digit) Bool.false_ne_true

theorem wholeIn?_ten_of_based {chars digits : List Char} {mark : Char} {base : Nat}
    (marked : (mark, base) ∈ Yaml.Node.bases) (form : dropPlus chars = '0' :: mark :: digits) :
    wholeIn? 10 chars = none := by
  cases read : wholeIn? 10 chars with
  | none => rfl
  | some value =>
    obtain ⟨-, ⟨rest, _, rfl, -⟩ | ⟨-, magnitude, digitsRead, -⟩⟩ := intIn?_eq_some read
    · exact absurd (List.cons.inj form).1 (by decide)
    · exact nomatch (digitsIn?_ten_of_based marked form).symm.trans digitsRead

theorem float?_of_based {chars digits : List Char} {mark : Char} {base : Nat}
    (marked : (mark, base) ∈ Yaml.Node.bases)
    (form : dropPlus chars = '0' :: mark :: digits) : float? chars = none := by
  have started : ∀ word ∈ ["inf", "infinity", "nan"],
      String.ofList (('0' :: mark :: digits).map Char.toLower) ≠ word := by
    rintro word listed rfl
    have first : ∀ word ∈ ["inf", "infinity", "nan"], word.toList.head? ≠ some '0' := by decide
    exact first _ listed (by rw [String.toList_ofList]; rfl)
  have unread : decimal? ('0' :: mark :: digits) = none := by
    rcases Yaml.Node.eq_of_mem_bases marked with ⟨rfl, -⟩ | ⟨rfl, -⟩ | ⟨rfl, -⟩ <;> rfl
  unfold float?
  split
  · exact absurd (List.cons.inj form).1 (by decide)
  · rw [form]
    unfold unsignedFloat?
    dsimp only
    rw [if_neg (not_or.2 ⟨started _ (by decide), started _ (by decide)⟩),
      if_neg (started _ (by decide)), unread]
    rfl

/-- A numeral with a sign of its base is read if there is no plus sign, the base is not two, and it
is not too great. -/
theorem markedWhole?_of_based {chars digits : List Char} {mark : Char} {base value : Nat}
    (marked : (mark, base) ∈ Yaml.Node.bases) (form : dropPlus chars = '0' :: mark :: digits)
    (read : digitsIn? base digits = some value) :
    markedWhole? chars =
      if base ≠ 2 ∧ chars.head? ≠ some '+' ∧ (value : Int) ≤ greatestInt64 then some (value : Int)
      else none := by
  by_cases plus : chars.head? = some '+'
  · obtain ⟨rest, rfl⟩ := List.head?_eq_some_iff.1 plus
    have inner : dropPlus rest = '0' :: mark :: digits := by
      change rest = _ at form
      rw [form]
      rfl
    rw [if_neg fun all => all.2.1 plus]
    exact wholeIn?_ten_of_based marked inner
  · have unsigned : chars = '0' :: mark :: digits := (dropPlus_of_head? plus).symm.trans form
    have whole : markedWhole? chars = if base ≠ 2 then wholeIn? base digits else none := by
      rw [unsigned]
      rcases Yaml.Node.eq_of_mem_bases marked with ⟨rfl, rfl⟩ | ⟨rfl, rfl⟩ | ⟨rfl, rfl⟩ <;> rfl
    have readToo : digitsIn? base (dropPlus digits) = some value := by
      rw [dropPlus_of_digitsIn? read, read]
    rw [whole, wholeIn?_of_digits readToo, ← ite_and]
    simp only [ne_eq, plus, not_false_eq_true, true_and]

theorem ofPlain?_of_based {text : String} {mark : Char} {base value : Nat} {digits : List Char}
    (marked : (mark, base) ∈ Yaml.Node.bases) (form : dropPlus text.toList = '0' :: mark :: digits)
    (read : digitsIn? base digits = some value) :
    ofPlain? text =
      some (if base ≠ 2 ∧ text.toList.head? ≠ some '+' ∧ (value : Int) ≤ greatestInt64
        then .whole value else .text text) := by
  have zero : '0' ∈ text.toList := mem_of_mem_dropPlus (form ▸ List.mem_cons_self)
  rw [ofPlain?_of_digit zero rfl, markedWhole?_of_based marked form read,
    wholeIn?_ten_of_based marked form, float?_of_based marked form, Option.or_none]
  split <;> rfl

/-- A digit is its own lower case. -/
theorem mem_lower_of_digit {text : String} {c : Char} (present : c ∈ text.toList)
    (digit : c.isDigit = true) : c ∈ (Text.lower text).toList := by
  have lowered : Text.lowerChar c = [c] := by
    obtain ⟨least, most⟩ : 48 ≤ c.toNat ∧ c.toNat ≤ 57 := Char.isDigit_iff_toNat.1 digit
    have small : ¬c.isUpper = true := by
      intro upper
      have least : 65 ≤ c.toNat := UInt32.le_iff_toNat_le.1 (of_decide_eq_true upper).1
      omega
    have notKelvin : ¬(c.toNat == 0x212A) = true := by
      rw [beq_iff_eq]
      omega
    have notDotted : ¬(c.toNat == 0x130) = true := by
      rw [beq_iff_eq]
      omega
    unfold Text.lowerChar
    rw [if_neg notKelvin, if_neg notDotted, Char.toLower_eq_of_not_isUpper small]
  rw [Text.lower, String.toList_ofList]
  exact List.mem_flatMap.2 ⟨c, present, lowered ▸ List.mem_singleton_self c⟩

/-- A text with a digit is no word for a number. -/
theorem natOfText?_of_digit {text : String} {c : Char} (present : c ∈ text.toList)
    (digit : c.isDigit = true) : natOfText? text = nat? greatestNat64 text.toList := by
  have absent : ∀ word ∈ oneWords ++ zeroWords, word.toList.any Char.isDigit = false := by decide
  have unlisted : Text.lower text ∉ oneWords ++ zeroWords := fun listed =>
    Bool.false_ne_true ((absent _ listed).symm.trans
      (List.any_eq_true.2 ⟨c, mem_lower_of_digit present digit, digit⟩))
  rw [List.mem_append, not_or] at unlisted
  unfold natOfText?
  dsimp only
  rw [if_neg (mt List.contains_iff_mem.1 unlisted.1),
    if_neg (mt List.contains_iff_mem.1 unlisted.2)]

theorem natOfText?_of_digits {text : String} {value : Nat}
    (read : digitsIn? 10 (dropPlus text.toList) = some value) (most : value ≤ greatestNat64) :
    natOfText? text = some value := by
  obtain ⟨nonempty, digits, -⟩ := digitsIn?_ten read
  rw [natOfText?_of_digit (mem_of_mem_dropPlus (List.head_mem nonempty))
    (digits _ (List.head_mem nonempty)), nat?, read]
  exact Option.filter_some_pos (decide_eq_true most)

theorem natOfText?_of_based {text : String} {mark : Char} {base : Nat} {digits : List Char}
    (marked : (mark, base) ∈ Yaml.Node.bases)
    (form : dropPlus text.toList = '0' :: mark :: digits) :
    natOfText? text = none := by
  rw [natOfText?_of_digit (mem_of_mem_dropPlus (form ▸ List.mem_cons_self)) rfl, nat?,
    digitsIn?_ten_of_based marked form]
  rfl

theorem nat64?_whole (value : Nat) : (whole value).nat64? = some value := by
  change (if (value : Int) < 0 then none else some (value : Int).toNat) = some value
  rw [if_neg (not_lt.2 (Int.natCast_nonneg value)), Int.toNat_natCast]

/-- That a numeral is the same number for both readings: one of base ten that is not rounded, or
one of base sixteen or eight with no plus sign that is not too great. -/
inductive IsCount (text : String) : Prop
  | decimal {value : Nat} : digitsIn? 10 (dropPlus text.toList) = some value →
      (value : Int) ≤ greatestInt64 ∨ 2048 ∣ value ∨ value = greatestNat64 → IsCount text
  | based {mark : Char} {base value : Nat} {digits : List Char} :
      (mark, base) ∈ Yaml.Node.bases → base ≠ 2 → text.toList = '0' :: mark :: digits →
      digitsIn? base digits = some value → (value : Int) ≤ greatestInt64 → IsCount text

theorem isCount_iff_of_digits {text : String} {value : Nat}
    (read : digitsIn? 10 (dropPlus text.toList) = some value) :
    IsCount text ↔ (value : Int) ≤ greatestInt64 ∨ 2048 ∣ value ∨ value = greatestNat64 := by
  refine ⟨fun count => ?_, .decimal read⟩
  cases count with
  | decimal readToo exact =>
    rw [Option.some.inj (read.symm.trans readToo)]
    exact exact
  | based marked _ form =>
    rw [form] at read
    exact nomatch (digitsIn?_ten_of_based marked rfl).symm.trans read

theorem isCount_iff_of_based {text : String} {mark : Char} {base value : Nat} {digits : List Char}
    (marked : (mark, base) ∈ Yaml.Node.bases) (form : dropPlus text.toList = '0' :: mark :: digits)
    (read : digitsIn? base digits = some value) :
    IsCount text ↔ base ≠ 2 ∧ text.toList.head? ≠ some '+' ∧ (value : Int) ≤ greatestInt64 := by
  constructor
  · intro count
    cases count with
    | decimal ten => exact nomatch (digitsIn?_ten_of_based marked form).symm.trans ten
    | based markedToo notTwo formToo readToo small =>
      rw [formToo] at form ⊢
      obtain ⟨-, rest⟩ := List.cons.inj form
      obtain ⟨rfl, rfl⟩ := List.cons.inj rest
      rw [Yaml.Node.base_unique marked markedToo] at read ⊢
      rw [Option.some.inj (read.symm.trans readToo)]
      exact ⟨notTwo, by simp, small⟩
  · rintro ⟨notTwo, noPlus, small⟩
    exact .based marked notTwo ((dropPlus_of_head? noPlus).symm.trans form) read small

/-- A number is the same in a tree exactly if its numeral is. -/
theorem nat64?_ofPlain?_iff {text : String} {value : Nat}
    (read : Yaml.Node.natOfText? greatestNat64 text = some value) :
    (ofPlain? text).bind nat64? = some value ↔ IsCount text := by
  obtain ⟨most, digits | ⟨mark, base, digits, marked, form, based⟩⟩ :=
    Yaml.Node.natOfText?_eq_some read
  · rw [ofPlain?_of_digits digits, isCount_iff_of_digits digits, Option.bind_some]
    by_cases small : (value : Int) ≤ greatestInt64
    · rw [if_pos small, nat64?_whole]
      exact iff_of_true rfl (.inl small)
    · have least : 2 ^ 63 ≤ value := by
        have greatest : greatestInt64 = 2 ^ 63 - 1 := rfl
        omega
      rw [if_neg small, or_iff_right small, ← Binary64.clampToNat_ofDecimal_iff least most]
      exact Option.some_inj
  · rw [ofPlain?_of_based marked form based, isCount_iff_of_based marked form based,
      Option.bind_some]
    split
    · next all => exact iff_of_true (nat64?_whole value) all
    · next notAll =>
      refine iff_of_false (fun same => ?_) notAll
      exact nomatch (natOfText?_of_based marked form).symm.trans same

/-! ## Numerals with a tag -/

/-- That a numeral of base ten stands for a number that passes a test. -/
def IsDecimal (fits : Nat → Prop) (text : String) : Prop :=
  ∃ value, digitsIn? 10 (dropPlus text.toList) = some value ∧ fits value

/-- That a numeral with a tag is the same number for both readings. -/
def IsTaggedCount (tag text : String) : Prop :=
  if tag = Yaml.Composer.coreTag ++ "bool" then False
  else if tag = Yaml.Composer.coreTag ++ "int" then
    IsDecimal (fun value => (value : Int) ≤ greatestInt64) text
  else if tag = Yaml.Composer.coreTag ++ "float" then
    IsDecimal
      (fun value => (Binary64.ofDecimal false value 0).clampToNat greatestNat64 = value) text
  else if tag = Yaml.Composer.coreTag ++ "null" then False
  else IsDecimal (fun _ => True) text

theorem isDecimal_iff_of_digits {text : String} {value : Nat} {fits : Nat → Prop}
    (read : digitsIn? 10 (dropPlus text.toList) = some value) :
    IsDecimal fits text ↔ fits value := by
  refine ⟨?_, fun fit => ⟨value, read, fit⟩⟩
  rintro ⟨other, readToo, fit⟩
  rwa [Option.some.inj (read.symm.trans readToo)]

theorem not_isDecimal_of_based {text : String} {mark : Char} {base : Nat} {digits : List Char}
    {fits : Nat → Prop} (marked : (mark, base) ∈ Yaml.Node.bases)
    (form : dropPlus text.toList = '0' :: mark :: digits) : ¬IsDecimal fits text := by
  rintro ⟨value, read, -⟩
  exact nomatch (digitsIn?_ten_of_based marked form).symm.trans read

section Tagged

variable {text : String} {value : Nat}
  (read : Yaml.Node.natOfText? greatestNat64 text = some value)
include read

theorem exists_digit_of_natOfText? : ∃ c ∈ text.toList, c.isDigit = true := by
  obtain ⟨-, digits | ⟨mark, base, digits, marked, form, -⟩⟩ := Yaml.Node.natOfText?_eq_some read
  · obtain ⟨nonempty, all, -⟩ := digitsIn?_ten digits
    exact ⟨_, mem_of_mem_dropPlus (List.head_mem nonempty), all _ (List.head_mem nonempty)⟩
  · exact ⟨'0', mem_of_mem_dropPlus (form ▸ List.mem_cons_self), rfl⟩

theorem nat64?_getD_wholeIn?_iff :
    (((wholeIn? 10 text.toList).map whole).getD nothing).nat64? = some value ↔
      IsDecimal (fun value => (value : Int) ≤ greatestInt64) text := by
  obtain ⟨-, digits | ⟨mark, base, digits, marked, form, -⟩⟩ := Yaml.Node.natOfText?_eq_some read
  · rw [isDecimal_iff_of_digits digits, wholeIn?_of_digits digits]
    split
    · next small => exact iff_of_true (nat64?_whole value) small
    · next great => exact iff_of_false nofun great
  · rw [wholeIn?_ten_of_based marked form]
    exact iff_of_false nofun (not_isDecimal_of_based marked form)

theorem nat64?_getD_fraction?_iff :
    (((fraction? text).map fraction).getD nothing).nat64? = some value ↔ IsDecimal
      (fun value => (Binary64.ofDecimal false value 0).clampToNat greatestNat64 = value) text := by
  obtain ⟨c, present, digit⟩ := exists_digit_of_natOfText? read
  rw [fraction?_of_digit present digit]
  obtain ⟨-, digits | ⟨mark, base, digits, marked, form, -⟩⟩ := Yaml.Node.natOfText?_eq_some read
  · rw [isDecimal_iff_of_digits digits, float?_of_digits digits]
    exact Option.some_inj
  · rw [float?_of_based marked form]
    exact iff_of_false nofun (not_isDecimal_of_based marked form)

theorem natOfText?_eq_some_iff : natOfText? text = some value ↔ IsDecimal (fun _ => True) text := by
  obtain ⟨most, digits | ⟨mark, base, digits, marked, form, -⟩⟩ := Yaml.Node.natOfText?_eq_some read
  · exact iff_of_true (natOfText?_of_digits digits most) ⟨value, digits, trivial⟩
  · rw [natOfText?_of_based marked form]
    exact iff_of_false nofun (not_isDecimal_of_based marked form)

/-- A number with a tag is the same in a tree exactly if its numeral is. -/
theorem nat64?_ofTagged?_iff (tag : String) :
    (ofTagged? tag text).bind nat64? = some value ↔ IsTaggedCount tag text := by
  obtain ⟨c, present, digit⟩ := exists_digit_of_natOfText? read
  have absent : ∀ word ∈ ["true", "false"] ++ specialNumbers,
      word.toList.any Char.isDigit = false := by decide
  have unlisted : text ∉ ["true", "false"] ++ specialNumbers := fun listed =>
    Bool.false_ne_true ((absent _ listed).symm.trans (List.any_eq_true.2 ⟨c, present, digit⟩))
  rw [List.mem_append, not_or] at unlisted
  have notTrue : text ≠ "true" := fun same => unlisted.1 (same ▸ List.mem_cons_self)
  have notFalse : text ≠ "false" := fun same =>
    unlisted.1 (same ▸ List.mem_cons_of_mem _ List.mem_cons_self)
  have ordinary : ¬specialNumbers.contains text = true := mt List.contains_iff_mem.1 unlisted.2
  unfold ofTagged? IsTaggedCount
  rw [if_neg notTrue, if_neg notFalse, if_neg ordinary]
  split_ifs
  · exact iff_of_false nofun id
  · exact nat64?_getD_wholeIn?_iff read
  · exact nat64?_getD_fraction?_iff read
  · exact iff_of_false nofun id
  · exact natOfText?_eq_some_iff read

end Tagged

end Tree

end QuotaGate
