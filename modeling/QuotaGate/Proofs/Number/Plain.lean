import Mathlib.Data.List.Induction
import QuotaGate.Number.Decimal

/-!
# Whole numbers that are written plainly

A whole number can be written in many ways: with a plus sign, with zeros before its digits, and zero
with a minus sign. One of them is plain, and it is the one in which the number is printed. So a
numeral comes back from the number that it stands for exactly if it is plain.

Results:
1. `NumberText.digitsIn?_ten`: the number that decimal digits stand for.
2. `NumberText.toString_eq_iff`: which numerals come back.
-/

namespace QuotaGate.NumberText

/-! ## Digits -/

theorem digitIn?_ten {c : Char} {value : Nat} (found : digitIn? 10 c = some value) :
    c.isDigit = true ∧ value = c.toNat - '0'.toNat := by
  unfold digitIn? at found
  obtain ⟨found, small⟩ := Option.filter_eq_some_iff.1 found
  rw [decide_eq_true_eq] at small
  split at found
  · next digit => exact ⟨digit, (Option.some.inj found).symm⟩
  · split at found
    · have letter := Option.some.inj found
      omega
    · split at found
      · have letter := Option.some.inj found
        omega
      · exact absurd found nofun

theorem foldlM_digitIn?_ten {digits : List Char} {before value : Nat}
    (found : digits.foldlM (fun value digit => (digitIn? 10 digit).map (10 * value + ·)) before =
      some value) :
    (∀ c ∈ digits, c.isDigit = true) ∧ Nat.ofDigitChars 10 digits before = value := by
  induction digits generalizing before with
  | nil => exact ⟨nofun, Option.some.inj found⟩
  | cons first rest ih =>
    rw [List.foldlM_cons] at found
    obtain ⟨next, here, there⟩ := Option.bind_eq_some_iff.1 found
    obtain ⟨digit, read, rfl⟩ := Option.map_eq_some_iff.1 here
    obtain ⟨isDigit, rfl⟩ := digitIn?_ten read
    obtain ⟨all, sum⟩ := ih there
    refine ⟨?_, by rw [Nat.ofDigitChars_cons, sum]⟩
    intro c member
    rcases List.mem_cons.1 member with rfl | later
    · exact isDigit
    · exact all c later

/-- Decimal digits stand for a number digit by digit. -/
theorem digitsIn?_ten {digits : List Char} {value : Nat}
    (found : digitsIn? 10 digits = some value) :
    digits ≠ [] ∧ (∀ c ∈ digits, c.isDigit = true) ∧ Nat.ofDigitChars 10 digits 0 = value := by
  unfold digitsIn? at found
  split at found
  · exact absurd found nofun
  · next some =>
    exact ⟨fun empty => some (List.isEmpty_iff.2 empty), foldlM_digitIn?_ten found⟩

/-! ## Plain numerals -/

/-- That digits have no zero before them. A single zero is plain. -/
def IsPlainNat (digits : List Char) : Prop := ∀ rest, digits = '0' :: rest → rest = []

theorem eq_zero_of_toDigits {value : Nat} {rest : List Char}
    (zero : Nat.toDigits 10 value = '0' :: rest) : value = 0 := by
  induction value using Nat.strongRecOn generalizing rest with
  | ind value ih =>
    rw [Nat.toDigits_eq_if (by decide)] at zero
    split at zero
    · exact Nat.digitChar_eq_zero.1 (List.cons.inj zero).1
    · next large =>
      obtain ⟨first, others, digits⟩ := List.exists_cons_of_ne_nil
        (Nat.toDigits_ne_nil : Nat.toDigits 10 (value / 10) ≠ [])
      rw [digits, List.cons_append, List.cons.injEq] at zero
      obtain ⟨rfl, -⟩ := zero
      have none := ih (value / 10) (by omega) digits
      omega

/-- The digits of a printed number are plain. -/
theorem isPlainNat_toDigits (value : Nat) : IsPlainNat (Nat.toDigits 10 value) := by
  intro rest zero
  have none := eq_zero_of_toDigits zero
  subst none
  exact (List.cons.inj zero).2.symm

theorem toDigits_digit {c : Char} (isDigit : c.isDigit = true) :
    Nat.toDigits 10 (c.toNat - '0'.toNat) = [c] ∧ c.toNat - '0'.toNat < 10 := by
  obtain ⟨least, most⟩ : 48 ≤ c.toNat ∧ c.toNat ≤ 57 := Char.isDigit_iff_toNat.1 isDigit
  have small : c.toNat - '0'.toNat < 10 := show c.toNat - 48 < 10 by omega
  refine ⟨?_, small⟩
  rw [Nat.toDigits_of_lt_base small, List.singleton_inj, ← Char.toNat_inj,
    Nat.toNat_digitChar_of_lt_ten small]
  change 48 + (c.toNat - 48) = c.toNat
  omega

/-- Plain digits are the digits of the number that they stand for. -/
theorem toDigits_ofDigitChars {digits : List Char} (nonempty : digits ≠ [])
    (all : ∀ c ∈ digits, c.isDigit = true) (plain : IsPlainNat digits) :
    Nat.toDigits 10 (Nat.ofDigitChars 10 digits 0) = digits := by
  induction digits using List.reverseRecOn with
  | nil => exact absurd rfl nonempty
  | append_singleton digits last ih =>
    obtain ⟨own, small⟩ := toDigits_digit (all last (by simp))
    rw [Nat.ofDigitChars_append, Nat.ofDigitChars_cons, Nat.ofDigitChars_nil]
    cases digits with
    | nil => rw [Nat.ofDigitChars_nil, Nat.mul_zero, Nat.zero_add, own, List.nil_append]
    | cons first others =>
      have started : first ≠ '0' := by
        rintro rfl
        exact absurd (plain (others ++ [last]) rfl) (by simp)
      have before := ih nofun (fun c member => all c (List.mem_append_left _ member))
        fun rest zero => absurd (List.cons.inj zero).1 started
      have positive : 0 < Nat.ofDigitChars 10 (first :: others) 0 := by
        refine Nat.pos_of_ne_zero fun none => ?_
        rw [none, Nat.toDigits_zero] at before
        exact started (List.cons.inj before).1.symm
      rw [← Nat.toDigits_append_toDigits (by decide) positive small, before, own]

/-- Digits come back from the number that they stand for exactly if they are plain. -/
theorem toDigits_eq_iff {digits : List Char} {value : Nat}
    (read : digitsIn? 10 digits = some value) :
    Nat.toDigits 10 value = digits ↔ IsPlainNat digits := by
  obtain ⟨nonempty, all, rfl⟩ := digitsIn?_ten read
  constructor
  · intro same
    exact same ▸ isPlainNat_toDigits _
  · exact toDigits_ofDigitChars nonempty all

/-! ## Plain numerals with a sign -/

/-- That a numeral has no plus sign, no zero before its digits, and no minus sign before zero. -/
def IsPlainWhole : List Char → Prop
  | '+' :: _ => False
  | '-' :: digits => digits.head? ≠ some '0'
  | digits => IsPlainNat digits

instance (digits : List Char) : Decidable (IsPlainNat digits) :=
  match digits with
  | [] => .isTrue nofun
  | [_] => .isTrue fun _ same => (List.cons.inj same).2.symm
  | first :: second :: rest =>
    decidable_of_iff (first ≠ '0') ⟨fun other _ same => absurd (List.cons.inj same).1 other,
      fun plain same => absurd (plain (second :: rest) (same ▸ rfl)) nofun⟩

theorem toList_toString_ofNat (value : Nat) :
    (toString (value : Int)).toList = Nat.toDigits 10 value := by
  rw [Int.toString_eq_repr, Int.repr_eq_if, if_pos (Int.natCast_nonneg value), Int.toNat_natCast,
    Nat.toList_repr]

theorem toList_toString_neg {value : Nat} (positive : 0 < value) :
    (toString (-(value : Int))).toList = '-' :: Nat.toDigits 10 value := by
  rw [Int.toString_eq_repr, Int.repr_eq_if, if_neg (by omega), Int.neg_neg, Int.toNat_natCast,
    String.toList_append, Nat.toList_repr]
  rfl

/-- A whole number is printed with nothing but digits and a minus sign. -/
theorem mem_toString (value : Int) :
    ∀ c ∈ (toString value).toList, c.isDigit = true ∨ c = '-' := by
  have digit : ∀ magnitude : Nat, ∀ c ∈ Nat.toDigits 10 magnitude, c.isDigit = true ∨ c = '-' :=
    fun _ _ member => .inl (Nat.isDigit_of_mem_toDigits (by decide) (by decide) member)
  intro c member
  rw [Int.toString_eq_repr, Int.repr_eq_if] at member
  split at member
  · rw [Nat.toList_repr] at member
    exact digit _ c member
  · rw [String.toList_append, Nat.toList_repr] at member
    rcases List.mem_append.1 member with sign | digits
    · exact .inr (List.mem_singleton.1 sign)
    · exact digit _ c digits

/-- A numeral has a minus sign and digits, or digits after an optional plus sign. -/
theorem intIn?_eq_some {base : Nat} {least most value : Int} {chars : List Char}
    (read : intIn? base least most chars = some value) :
    (least ≤ value ∧ value ≤ most) ∧
      ((∃ digits magnitude, chars = '-' :: digits ∧ digitsIn? base digits = some magnitude ∧
          value = -(magnitude : Int)) ∨
        (∀ digits, chars ≠ '-' :: digits) ∧
          ∃ magnitude : Nat, digitsIn? base (dropPlus chars) = some magnitude ∧
            value = magnitude) := by
  unfold intIn? at read
  obtain ⟨found, inside⟩ := Option.filter_eq_some_iff.1 read
  refine ⟨of_decide_eq_true inside, ?_⟩
  split at found
  · next digits =>
    obtain ⟨whole, raised, rfl⟩ := Option.map_eq_some_iff.1 found
    obtain ⟨magnitude, digitsRead, same⟩ := Option.bind_eq_some_iff.1 raised
    cases same
    exact .inl ⟨digits, magnitude, rfl, digitsRead, rfl⟩
  · next unsigned =>
    obtain ⟨magnitude, digitsRead, rfl⟩ := Option.map_eq_some_iff.1 found
    exact .inr ⟨unsigned, magnitude, digitsRead, rfl⟩

/-- Digits after a minus sign come back exactly if there is no zero before them. -/
theorem toList_toString_neg_eq_iff {digits : List Char} {value : Nat}
    (read : digitsIn? 10 digits = some value) :
    (toString (-(value : Int))).toList = '-' :: digits ↔ digits.head? ≠ some '0' := by
  have plain : digits.head? ≠ some '0' → Nat.toDigits 10 value = digits := fun started =>
    (toDigits_eq_iff read).2 fun rest zero => absurd (zero ▸ rfl) started
  rcases Nat.eq_zero_or_pos value with rfl | positive
  · refine iff_of_false (fun same => ?_) fun started => started ?_
    · exact absurd (List.cons.inj same).1 (by decide)
    · rw [← plain started, Nat.toDigits_zero, List.head?_cons]
  · rw [toList_toString_neg positive, List.cons_inj_right]
    constructor
    · rintro rfl zero
      obtain ⟨rest, zeroFirst⟩ := List.head?_eq_some_iff.1 zero
      exact absurd (eq_zero_of_toDigits zeroFirst) (Nat.ne_of_gt positive)
    · exact plain

/-- A numeral comes back from the number that it stands for exactly if it is plain. -/
theorem toList_toString_eq_iff {least most value : Int} {chars : List Char}
    (read : intIn? 10 least most chars = some value) :
    (toString value).toList = chars ↔ IsPlainWhole chars := by
  obtain ⟨-, ⟨digits, magnitude, rfl, digitsRead, rfl⟩ | ⟨unsigned, magnitude, digitsRead, rfl⟩⟩ :=
    intIn?_eq_some read
  · exact toList_toString_neg_eq_iff digitsRead
  · rw [toList_toString_ofNat]
    unfold dropPlus at digitsRead
    split at digitsRead
    · next rest =>
      refine iff_of_false (fun same => ?_) id
      have plus : '+' ∈ Nat.toDigits 10 magnitude := same ▸ List.mem_cons_self
      exact absurd (Nat.isDigit_of_mem_toDigits (by decide) (by decide) plus) (by decide)
    · next noPlus =>
      rw [toDigits_eq_iff digitsRead]
      unfold IsPlainWhole
      split
      · exact absurd rfl (noPlus _)
      · exact absurd rfl (unsigned _)
      · exact Iff.rfl

theorem toString_eq_iff {least most value : Int} {text : String}
    (read : intIn? 10 least most text.toList = some value) :
    toString value = text ↔ IsPlainWhole text.toList := by
  rw [← toList_toString_eq_iff read, String.toList_inj]

end QuotaGate.NumberText
