import QuotaGate.Proofs.Settings.Numerals

/-!
# Scalars in two readings

A scalar of a document is read for its setting, or it is first taken for a value of a tree and then
converted. The two readings give the same for most spellings and not for all: the tree takes some
words for nothing, for flags or for numbers, whose texts may differ from what is written, and it
knows fewer words for nothing.

Results:
1. `Tree.text?_ofPlain?_iff`: the plain scalars that are the same text for both.
2. `Tree.text?_ofNode?_iff`, `Tree.nat?_ofNode?_iff`: the scalars that are the same text or the same
   number for both.
3. `Setting.read?_ofNode?_iff`: the scalars that are the same setting for both.
-/

namespace QuotaGate

namespace Tree

/-! ## Texts -/

/-- That a plain scalar stands for its own text in a tree. -/
structure IsWord (text : String) : Prop where
  unmarked : markedWhole? text.toList = none
  something : text ∉ nullWords
  flag : text ∉ ["True", "TRUE", "False", "FALSE"]
  whole : ∀ value, wholeIn? 10 text.toList = some value → NumberText.IsPlainWhole text.toList
  ordinary : text ∉ specialNumbers
  fraction : wholeIn? 10 text.toList = none → ∀ value, fraction? text = some value →
    value.plainText = text

theorem isWord_of_unread {text : String} (unmarked : markedWhole? text.toList = none)
    (listed : text ∉ nullWords ++ ["True", "TRUE", "False", "FALSE"] ++ specialNumbers)
    (unread : wholeIn? 10 text.toList = none) (unreadToo : fraction? text = none) :
    IsWord text := by
  rw [List.mem_append, List.mem_append, not_or, not_or] at listed
  exact ⟨unmarked, listed.1.1, listed.1.2, fun _ found => absurd (unread.symm.trans found) nofun,
    listed.2, fun _ _ found => absurd (unreadToo.symm.trans found) nofun⟩

/-- A number that is written with a sign of its base or a plus sign is printed otherwise. -/
theorem toString_ne_of_marked {text : String} {value : Int}
    (marked : markedWhole? text.toList = some value) : toString value ≠ text := by
  rintro rfl
  have printed := NumberText.mem_toString value
  unfold markedWhole? at marked
  split at marked
  · next digits same =>
    exact absurd (printed 'x' (same ▸ by simp)) (by decide)
  · next digits same =>
    exact absurd (printed 'o' (same ▸ by simp)) (by decide)
  · next digits same =>
    exact absurd (printed '+' (same ▸ by simp)) (by decide)
  · exact absurd marked nofun

theorem isWord_true : IsWord "true" := isWord_of_unread rfl (by decide) rfl rfl

theorem isWord_false : IsWord "false" := isWord_of_unread rfl (by decide) rfl rfl

/-- A plain scalar keeps its text in a tree exactly if it stands for it. -/
theorem text?_ofPlain?_iff (text : String) :
    (ofPlain? text).bind text? = some text ↔ IsWord text := by
  unfold ofPlain?
  split
  · next value marked =>
    refine iff_of_false ?_ fun word => absurd (marked.symm.trans word.unmarked) nofun
    intro same
    exact toString_ne_of_marked marked (Option.some.inj same)
  · next unmarked =>
    split
    · next null =>
      exact iff_of_false nofun fun word => word.something (List.contains_iff_mem.1 null)
    · next something =>
      split
      · next flag =>
        have listed : text = "true" ∨ text = "True" ∨ text = "TRUE" := by
          simpa [trueWords] using flag
        rcases listed with rfl | rfl | rfl
        · exact iff_of_true rfl isWord_true
        · exact iff_of_false (by decide) fun word => word.flag (by decide)
        · exact iff_of_false (by decide) fun word => word.flag (by decide)
      · next notTrue =>
        split
        · next flag =>
          have listed : text = "false" ∨ text = "False" ∨ text = "FALSE" := by
            simpa [falseWords] using flag
          rcases listed with rfl | rfl | rfl
          · exact iff_of_true rfl isWord_false
          · exact iff_of_false (by decide) fun word => word.flag (by decide)
          · exact iff_of_false (by decide) fun word => word.flag (by decide)
        · next notFalse =>
          have nonnull : text ∉ nullWords := mt List.contains_iff_mem.2 something
          have flag : text ∉ ["True", "TRUE", "False", "FALSE"] := by
            intro listed
            simp only [List.mem_cons, List.not_mem_nil, or_false] at listed
            rcases listed with rfl | rfl | rfl | rfl
            · exact notTrue rfl
            · exact notTrue rfl
            · exact notFalse rfl
            · exact notFalse rfl
          split
          · next value read =>
            rw [Option.bind_some, text?, Option.some_inj, NumberText.toString_eq_iff read]
            have unread : ∀ word ∈ specialNumbers, wholeIn? 10 word.toList = none := by decide
            have ordinary : text ∉ specialNumbers := fun listed =>
              absurd (read.symm.trans (unread text listed)) nofun
            refine ⟨fun plain => ?_, fun word => word.whole value read⟩
            exact ⟨unmarked, nonnull, flag, fun _ _ => plain, ordinary,
              fun none => absurd (read.symm.trans none) nofun⟩
          · next unread =>
            split
            · next special =>
              exact iff_of_false nofun fun word => word.ordinary (List.contains_iff_mem.1 special)
            · next special =>
              have ordinary : text ∉ specialNumbers := mt List.contains_iff_mem.2 special
              have whole : ∀ value, wholeIn? 10 text.toList = some value →
                  NumberText.IsPlainWhole text.toList :=
                fun _ found => absurd (unread.symm.trans found) nofun
              split
              · next value read =>
                rw [Option.bind_some, text?, Option.some_inj]
                refine ⟨fun same => ?_, fun word => word.fraction unread value read⟩
                refine ⟨unmarked, nonnull, flag, whole, ordinary, fun _ other otherRead => ?_⟩
                rw [← Option.some.inj (read.symm.trans otherRead)]
                exact same
              · next unreadToo =>
                refine iff_of_true rfl ⟨unmarked, nonnull, flag, whole, ordinary, ?_⟩
                exact fun _ _ found => absurd (unreadToo.symm.trans found) nofun

/-- That a scalar with a tag is the same text for both readings. -/
def IsTaggedWord (tag text : String) : Prop :=
  if tag = Yaml.Composer.coreTag ++ "bool" then text ∈ ["true", "false"]
  else if tag = Yaml.Composer.coreTag ++ "int" then
    (wholeIn? 10 text.toList).isSome = true ∧ NumberText.IsPlainWhole text.toList
  else if tag = Yaml.Composer.coreTag ++ "float" then
    text ∉ specialNumbers ∧ ∃ value, fraction? text = some value ∧ value.plainText = text
  else tag ≠ Yaml.Composer.coreTag ++ "null"

theorem text?_getD_wholeIn?_iff (text : String) :
    (((wholeIn? 10 text.toList).map whole).getD nothing).text? = some text ↔
      (wholeIn? 10 text.toList).isSome = true ∧ NumberText.IsPlainWhole text.toList := by
  cases read : wholeIn? 10 text.toList with
  | none => exact iff_of_false nofun fun both => nomatch both.1
  | some value =>
    rw [← NumberText.toString_eq_iff read, Option.isSome_some, eq_self, true_and]
    exact Option.some_inj

theorem text?_getD_fraction?_iff (text : String) :
    (((fraction? text).map fraction).getD nothing).text? = some text ↔
      ∃ value, fraction? text = some value ∧ value.plainText = text := by
  cases fraction? text with
  | none => exact iff_of_false nofun nofun
  | some value =>
    constructor
    · exact fun same => ⟨value, rfl, Option.some.inj same⟩
    · rintro ⟨_, read, same⟩
      cases read
      exact congrArg some same

theorem text?_ofTagged?_iff (tag text : String) :
    (ofTagged? tag text).bind text? = some text ↔ IsTaggedWord tag text := by
  unfold ofTagged? IsTaggedWord
  split_ifs with bool isTrue isFalse int float special null
  · subst isTrue
    exact iff_of_true rfl (by decide)
  · subst isFalse
    exact iff_of_true rfl (by decide)
  · refine iff_of_false nofun fun listed => ?_
    simp only [List.mem_cons, List.not_mem_nil, or_false] at listed
    exact listed.elim isTrue isFalse
  · exact text?_getD_wholeIn?_iff text
  · exact iff_of_false nofun fun both => both.1 (List.contains_iff_mem.1 special)
  · rw [and_iff_right (mt List.contains_iff_mem.2 special)]
    exact text?_getD_fraction?_iff text
  · exact iff_of_false nofun fun other => other null
  · exact iff_of_true rfl null

/-! ## Scalars -/

/-- That a scalar is the same text for both readings. -/
def IsSameText (text : String) : Yaml.Style → Option String → Prop
  | .plain, none => IsWord text
  | .plain, some tag => IsTaggedWord tag text
  | _, _ => True

/-- That a scalar that is a number is the same number for both readings. -/
def IsSameCount (text : String) : Yaml.Style → Option String → Prop
  | .plain, none => IsCount text
  | .plain, some tag => IsTaggedCount tag text
  | _, _ => IsDecimal (fun _ => True) text

/-- The texts that leave a setting empty. -/
def emptyWords : List String := "" :: Yaml.Node.nullWords

/-- That a scalar leaves its setting empty for both readings. -/
def IsEmptyForBoth (text : String) : Yaml.Style → Option String → Prop
  | .plain, none => text ∈ nullWords
  | .plain, some tag => tag = Yaml.Composer.coreTag ++ "null"
  | _, _ => False

/-- That a scalar leaves its setting empty, but is a text in a tree. -/
def IsEmptyForOne (text : String) : Yaml.Style → Option String → Prop
  | .plain, none => text ∈ ["Null", "NULL"]
  | .plain, some tag => tag = "!" ∧ text ∈ emptyWords
  | _, _ => False

variable {document : Yaml.Document} {text : String} {style : Yaml.Style} {tag : Option String}

theorem ofNode?_plain (text : String) : ofNode? (.scalar text .plain none) = ofPlain? text := by
  rw [ofNode?]

theorem ofNode?_tagged (tag text : String) :
    ofNode? (.scalar text .plain (some tag)) = ofTagged? tag text := by
  rw [ofNode?]

theorem ofNode?_of_ne_plain (other : style ≠ .plain) :
    ofNode? (.scalar text style tag) = some (.text text) := by
  cases style with
  | plain => exact absurd rfl other
  | _ => rw [ofNode?] <;> exact nofun

/-- A scalar that is not plain is a text in a tree, and the conditions on it do not depend on its
style and its tag. -/
theorem quoted_cases (style : Yaml.Style) (tag : Option String) :
    style = .plain ∧ tag = none ∨ (style = .plain ∧ ∃ name, tag = some name) ∨ style ≠ .plain := by
  cases style <;> cases tag <;> simp

theorem text?_ofNode?_iff :
    (ofNode? (.scalar text style tag)).bind text? = some text ↔ IsSameText text style tag := by
  rcases quoted_cases style tag with ⟨rfl, rfl⟩ | ⟨rfl, name, rfl⟩ | other
  · rw [ofNode?_plain]
    exact text?_ofPlain?_iff text
  · rw [ofNode?_tagged]
    exact text?_ofTagged?_iff name text
  · rw [ofNode?_of_ne_plain other]
    refine iff_of_true rfl ?_
    cases style with
    | plain => exact absurd rfl other
    | _ => exact trivial

theorem nat64?_ofNode?_iff {value : Nat}
    (read : Yaml.Node.natOfText? NumberText.greatestNat64 text = some value) :
    (ofNode? (.scalar text style tag)).bind nat64? = some value ↔ IsSameCount text style tag := by
  rcases quoted_cases style tag with ⟨rfl, rfl⟩ | ⟨rfl, name, rfl⟩ | other
  · rw [ofNode?_plain]
    exact nat64?_ofPlain?_iff read
  · rw [ofNode?_tagged]
    exact nat64?_ofTagged?_iff read name
  · rw [ofNode?_of_ne_plain other]
    refine (natOfText?_eq_some_iff read).trans ?_
    cases style with
    | plain => exact absurd rfl other
    | _ => exact Iff.rfl

/-- A number up to a greatest one is the same in a tree exactly if its numeral is. -/
theorem nat?_ofNode?_iff {most value : Nat} (fits : most ≤ NumberText.greatestNat64)
    (read : document.reader.nat? most (.scalar text style tag) = some value) :
    (ofNode? (.scalar text style tag)).bind (reader.nat? most) = some value ↔
      IsSameCount text style tag := by
  have numeral : Yaml.Node.natOfText? most text = some value := by
    change Yaml.Node.nat? document most (.scalar text style tag) = some value at read
    unfold Yaml.Node.nat? at read
    simp only [Yaml.Node.resolve] at read
    split at read
    · next same =>
      cases same
      exact read
    · next same =>
      cases same
      split at read
      · exact read
      · exact nomatch read
    · exact nomatch read
  have small : value ≤ most := (Yaml.Node.natOfText?_eq_some numeral).1
  have wide : Yaml.Node.natOfText? NumberText.greatestNat64 text = some value := by
    unfold Yaml.Node.natOfText? at numeral ⊢
    obtain ⟨found, -⟩ := Option.filter_eq_some_iff.1 numeral
    exact Option.filter_eq_some_iff.2 ⟨found, decide_eq_true (small.trans fits)⟩
  rw [← nat64?_ofNode?_iff wide]
  change (ofNode? _).bind (fun tree => tree.nat64?.filter (· ≤ most)) = some value ↔ _
  rw [Option.bind_eq_some_iff, Option.bind_eq_some_iff]
  refine exists_congr fun tree => and_congr_right fun _ => ?_
  rw [Option.filter_eq_some_iff]
  exact and_iff_left (decide_eq_true small)

/-! ## Scalars that may be left empty -/

theorem isEmpty_or_contains_iff {text : String} :
    (text.isEmpty || Yaml.Node.nullWords.contains text) = true ↔ text ∈ emptyWords := by
  rw [Bool.or_eq_true, String.isEmpty_iff, List.contains_iff_mem, emptyWords, List.mem_cons]

theorem optional?_plain : Yaml.Node.optional? document (.scalar text .plain none) =
    some (if text ∈ emptyWords then none else some (.scalar text .plain none)) := by
  simp only [← isEmpty_or_contains_iff]
  rfl

theorem optional?_tagged (tag : String) :
    Yaml.Node.optional? document (.scalar text .plain (some tag)) =
      if tag = "!" then
        some (if text ∈ emptyWords then none else some (.scalar text .plain (some tag)))
      else if tag = Yaml.Composer.coreTag ++ "null" then
        if Yaml.Node.nullWords.contains text then some none else none
      else some (some (.scalar text .plain (some tag))) := by
  simp only [← isEmpty_or_contains_iff]
  rfl

theorem optional?_of_ne_plain (other : style ≠ .plain) :
    Yaml.Node.optional? document (.scalar text style tag) =
      some (some (.scalar text style tag)) := by
  cases style with
  | plain => exact absurd rfl other
  | _ => rfl

theorem ofTagged?_mark (text : String) : ofTagged? "!" text = some (.text text) := rfl

theorem ofTagged?_null (text : String) :
    ofTagged? (Yaml.Composer.coreTag ++ "null") text = some nothing := rfl

/-- A scalar that leaves its setting empty does so for both readings, or is a text in a tree. -/
theorem optional?_eq_none
    (read : Yaml.Node.optional? document (.scalar text style tag) = some none) :
    IsEmptyForBoth text style tag ∧ ofNode? (.scalar text style tag) = some nothing ∨
      (¬IsEmptyForBoth text style tag ∧ IsEmptyForOne text style tag) ∧
        ofNode? (.scalar text style tag) = some (.text text) := by
  rcases quoted_cases style tag with ⟨rfl, rfl⟩ | ⟨rfl, name, rfl⟩ | other
  · rw [optional?_plain] at read
    rw [ofNode?_plain]
    have empty : text ∈ emptyWords :=
      by_contra fun full => nomatch ite_eq_left_iff.1 (Option.some.inj read) full
    simp only [emptyWords, Yaml.Node.nullWords, List.mem_cons, List.not_mem_nil, or_false] at empty
    rcases empty with rfl | rfl | rfl | rfl | rfl
    · exact .inl ⟨(by decide : "" ∈ nullWords), rfl⟩
    · exact .inl ⟨(by decide : "null" ∈ nullWords), rfl⟩
    · exact .inr ⟨⟨(by decide : "Null" ∉ nullWords), List.mem_cons_self⟩, rfl⟩
    · exact .inr ⟨⟨(by decide : "NULL" ∉ nullWords),
        List.mem_cons_of_mem _ List.mem_cons_self⟩, rfl⟩
    · exact .inl ⟨(by decide : "~" ∈ nullWords), rfl⟩
  · rw [optional?_tagged] at read
    rw [ofNode?_tagged]
    by_cases marked : name = "!"
    · rw [if_pos marked] at read
      have empty : text ∈ emptyWords :=
        by_contra fun full => nomatch ite_eq_left_iff.1 (Option.some.inj read) full
      subst marked
      exact .inr ⟨⟨(by decide : "!" ≠ Yaml.Composer.coreTag ++ "null"), rfl, empty⟩,
        ofTagged?_mark text⟩
    · rw [if_neg marked] at read
      by_cases null : name = Yaml.Composer.coreTag ++ "null"
      · subst null
        exact .inl ⟨rfl, ofTagged?_null text⟩
      · rw [if_neg null] at read
        exact nomatch read
  · rw [optional?_of_ne_plain other] at read
    exact nomatch read

/-- A scalar that gives its setting a value is not empty for either reading. -/
theorem optional?_eq_some {inner : Yaml.Node}
    (read : Yaml.Node.optional? document (.scalar text style tag) = some (some inner)) :
    inner = .scalar text style tag ∧ ¬IsEmptyForBoth text style tag ∧
      ¬IsEmptyForOne text style tag := by
  rcases quoted_cases style tag with ⟨rfl, rfl⟩ | ⟨rfl, name, rfl⟩ | other
  · rw [optional?_plain, Option.some_inj, Option.ite_none_left_eq_some, Option.some_inj] at read
    obtain ⟨full, same⟩ := read
    refine ⟨same.symm, fun listed => full ?_, fun listed => full ?_⟩
    · exact (by decide : ∀ word ∈ nullWords, word ∈ emptyWords) text listed
    · exact (by decide : ∀ word ∈ ["Null", "NULL"], word ∈ emptyWords) text listed
  · rw [optional?_tagged] at read
    by_cases marked : name = "!"
    · rw [if_pos marked, Option.some_inj, Option.ite_none_left_eq_some, Option.some_inj] at read
      subst marked
      exact ⟨read.2.symm, (by decide : "!" ≠ Yaml.Composer.coreTag ++ "null"),
        fun both => read.1 both.2⟩
    · rw [if_neg marked] at read
      by_cases null : name = Yaml.Composer.coreTag ++ "null"
      · rw [if_pos null, Option.ite_none_right_eq_some, Option.some_inj] at read
        exact nomatch read.2
      · rw [if_neg null, Option.some_inj, Option.some_inj] at read
        exact ⟨read.symm, null, fun both => marked both.1⟩
  · rw [optional?_of_ne_plain other, Option.some_inj, Option.some_inj] at read
    refine ⟨read.symm, ?_, ?_⟩ <;> cases style <;> first | exact id | exact absurd rfl other

/-- That a scalar that may leave its setting empty is the same for both readings. -/
def IsSameOrEmpty (same : Prop) (text : String) (style : Yaml.Style) (tag : Option String) : Prop :=
  IsEmptyForBoth text style tag ∨ ¬IsEmptyForOne text style tag ∧ same

/-- A setting that may be left empty is the same in a tree exactly if it is empty for both readings,
or for neither and its value is the same. -/
theorem optional?_ofNode?_iff {β : Type} {inner? : Tree → Option β} {strict? : Yaml.Node → Option β}
    {same : Prop} (nothingUnread : inner? nothing = none)
    (alike : ∀ value, strict? (.scalar text style tag) = some value →
      ((ofNode? (.scalar text style tag)).bind inner? = some value ↔ same)) {content : Option β}
    (read : ((Yaml.Node.optional? document (.scalar text style tag)).bind fun value =>
      value.elim (some none) fun value => (strict? value).map some) = some content) :
    ((ofNode? (.scalar text style tag)).bind fun tree => (reader.optional? tree).bind fun value =>
        value.elim (some none) fun value => (inner? value).map some) = some content ↔
      IsSameOrEmpty same text style tag := by
  obtain ⟨found, optional, inside⟩ := Option.bind_eq_some_iff.1 read
  cases found with
  | none =>
    cases inside
    rcases optional?_eq_none optional with ⟨both, empty⟩ | ⟨⟨notBoth, one⟩, full⟩
    · rw [empty]
      exact iff_of_true rfl (.inl both)
    · rw [full]
      refine iff_of_false (fun same => ?_) ?_
      · obtain ⟨_, -, wrong⟩ := Option.map_eq_some_iff.1 same
        exact nomatch wrong
      · rintro (both | ⟨notOne, -⟩)
        · exact notBoth both
        · exact notOne one
  | some value =>
    obtain ⟨rfl, notBoth, notOne⟩ := optional?_eq_some optional
    obtain ⟨inner, innerRead, rfl⟩ := Option.map_eq_some_iff.1 inside
    have full : ∀ tree, ((reader.optional? tree).bind fun value =>
        value.elim (some none) fun value => (inner? value).map some) = some (some inner) ↔
          inner? tree = some inner := by
      intro tree
      cases tree with
      | nothing =>
        rw [nothingUnread]
        exact iff_of_false nofun nofun
      | _ => exact (Option.map_injective (Option.some_injective β)).eq_iff' rfl
    rw [IsSameOrEmpty, or_iff_right notBoth, and_iff_right notOne, ← alike inner innerRead,
      Option.bind_eq_some_iff, Option.bind_eq_some_iff]
    exact exists_congr fun tree => and_congr_right fun _ => full tree

end Tree

namespace Setting

/-- That a scalar is the same setting for both readings. -/
def IsSpelledAlike (text : String) (style : Yaml.Style) (tag : Option String) : Setting → Prop
  | .server .baseUrl | .server .userAgent => Tree.IsSameText text style tag
  | .server .token => Tree.IsSameOrEmpty (Tree.IsSameText text style tag) text style tag
  | .server .timeoutMs => Tree.IsSameOrEmpty (Tree.IsSameCount text style tag) text style tag
  | .server .version | .quota _ => Tree.IsSameCount text style tag

/-- A setting that is read out of a scalar is the same in a tree exactly if it is spelled alike. -/
theorem read?_ofNode?_iff {document : Yaml.Document} {text : String} {style : Yaml.Style}
    {tag : Option String} {setting : Setting} {content : setting.Content}
    (read : setting.read? document.reader (.scalar text style tag) = some content) :
    (Tree.ofNode? (.scalar text style tag)).bind (setting.read? Tree.reader) = some content ↔
      setting.IsSpelledAlike text style tag := by
  rcases setting with (_ | _ | _ | _ | _) | setting
  · cases Option.some.inj read
    exact Tree.text?_ofNode?_iff
  · exact Tree.nat?_ofNode?_iff (by decide) read
  · refine Tree.optional?_ofNode?_iff rfl (fun value found => ?_) read
    cases Option.some.inj found
    exact Tree.text?_ofNode?_iff
  · cases Option.some.inj read
    exact Tree.text?_ofNode?_iff
  · exact Tree.optional?_ofNode?_iff rfl
      (fun value found => Tree.nat?_ofNode?_iff le_rfl found) read
  · exact Tree.nat?_ofNode?_iff (by cases setting <;> decide) read

end Setting

end QuotaGate
