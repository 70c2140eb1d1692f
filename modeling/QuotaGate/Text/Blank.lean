/-!
# Blanks and letter case

Blanks are the characters with the Unicode property White_Space. Trimming drops them at both
ends of a text. Letter case is folded for ASCII letters only, except where a function says more.
-/

namespace QuotaGate.Text

/-- Whether a character has the Unicode property White_Space. -/
def isBlank (c : Char) : Bool :=
  (0x09 ≤ c.toNat && c.toNat ≤ 0x0D) || c.toNat == 0x20 || c.toNat == 0x85 || c.toNat == 0xA0 ||
  c.toNat == 0x1680 || (0x2000 ≤ c.toNat && c.toNat ≤ 0x200A) || c.toNat == 0x2028 ||
  c.toNat == 0x2029 || c.toNat == 0x202F || c.toNat == 0x205F || c.toNat == 0x3000

/-- Drops the characters that satisfy `drop` at the end of a list. -/
def dropEndWhile (drop : Char → Bool) (chars : List Char) : List Char :=
  (chars.reverse.dropWhile drop).reverse

/-- Drops the blanks at both ends of a list of characters. -/
def trimChars (chars : List Char) : List Char := dropEndWhile isBlank (chars.dropWhile isBlank)

/-- Drops the blanks at both ends of a text. -/
def trim (text : String) : String := String.ofList (trimChars text.toList)

/-- Whether a text holds nothing but blanks. -/
def isAllBlank (text : String) : Bool := text.toList.all isBlank

/-- Lower-cases the ASCII letters of a text. -/
def lowerAscii (text : String) : String := String.ofList (text.toList.map Char.toLower)

/-- Upper-cases the ASCII letters of a text. -/
def upperAscii (text : String) : String := String.ofList (text.toList.map Char.toUpper)

/-- The lower case of one character as far as it can yield an ASCII letter: besides the capital
ASCII letters these are the Kelvin sign and the capital I with a dot. -/
def lowerChar (c : Char) : List Char :=
  if c.toNat == 0x212A then ['k']
  else if c.toNat == 0x130 then ['i', Char.ofNat 0x307]
  else [c.toLower]

/-- Lower-cases every letter whose lower case has an ASCII letter. -/
def lower (text : String) : String := String.ofList (text.toList.flatMap lowerChar)

/-- Replaces every occurrence of a non-empty pattern, from the left and without overlaps. The
replacement is not searched again. -/
def replaceChars (pattern replacement : List Char) : List Char → List Char
  | [] => []
  | c :: rest =>
    if pattern.isEmpty then c :: rest
    else if pattern.isPrefixOf (c :: rest) then
      replacement ++ replaceChars pattern replacement (rest.drop (pattern.length - 1))
    else c :: replaceChars pattern replacement rest
termination_by chars => chars.length
decreasing_by all_goals simp only [List.length_cons, List.length_drop]; omega

theorem replaceChars_nil (pattern replacement : List Char) :
    replaceChars pattern replacement [] = [] := by
  rw [replaceChars]

/-- Where the pattern stands it is replaced, and the search goes on after it. -/
theorem replaceChars_append {pattern : List Char} (nonempty : pattern ≠ [])
    (replacement rest : List Char) :
    replaceChars pattern replacement (pattern ++ rest) =
      replacement ++ replaceChars pattern replacement rest := by
  cases pattern with
  | nil => exact absurd rfl nonempty
  | cons first others =>
    have here : (first :: others).isPrefixOf (first :: (others ++ rest)) = true :=
      List.isPrefixOf_iff_prefix.2 (List.prefix_append (first :: others) rest)
    rw [List.cons_append, replaceChars, if_neg (by simp), if_pos here, List.length_cons,
      Nat.add_sub_cancel, List.drop_left]

/-- Where the pattern does not stand the text stays. -/
theorem replaceChars_cons {pattern rest : List Char} {c : Char}
    (absent : ¬pattern <+: c :: rest) (replacement : List Char) :
    replaceChars pattern replacement (c :: rest) =
      c :: replaceChars pattern replacement rest := by
  have nonempty : ¬pattern.isEmpty = true := fun empty =>
    absent (List.isEmpty_iff.1 empty ▸ List.nil_prefix)
  rw [replaceChars, if_neg nonempty, if_neg fun here => absent (List.isPrefixOf_iff_prefix.1 here)]

end QuotaGate.Text
