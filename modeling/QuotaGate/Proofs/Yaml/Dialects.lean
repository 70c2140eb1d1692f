import Mathlib
import QuotaGate.Yaml.Scalar

/-!
# What two readers of YAML have in common

Two readers of YAML differ in what they refuse, in tabs, in the characters that end a line, and in a
last line that is not ended. Short of these they read a scalar alike: where both of them take it, it
is the same text and ends at the same place. That both take it is not said.

Results:
1. `Agree.bind`: readings that agree are put together.
2. `Gap.agree_read?`: blanks and line breaks.
3. `Plain.agree_read?`, `Quoted.agree_read?`, `Block.agree_read?`: scalars.
-/

namespace QuotaGate

/-! ## Readings that agree -/

/-- That two readings are related where both are there. -/
def Agree {α β : Type} (related : α → β → Prop) (one : Option α) (other : Option β) : Prop :=
  ∀ value ∈ one, ∀ valueToo ∈ other, related value valueToo

namespace Agree

variable {α β γ δ : Type} {related : α → β → Prop} {one : Option α} {other : Option β}

theorem refl (found : Option α) : Agree Eq found found :=
  fun _ isFound _ isFoundToo => Option.some.inj (isFound.symm.trans isFoundToo)

theorem none_left : Agree related none other := nofun

theorem none_right : Agree related one none := fun _ _ => nofun

theorem some {value : α} {valueToo : β} (here : related value valueToo) :
    Agree related (some value) (some valueToo) := by
  rintro _ ⟨⟩ _ ⟨⟩
  exact here

theorem imp {weaker : α → β → Prop} (agree : Agree related one other)
    (rest : ∀ value valueToo, related value valueToo → weaker value valueToo) :
    Agree weaker one other :=
  fun value found valueToo foundToo =>
    rest value valueToo (agree value found valueToo foundToo)

theorem bind {next : γ → δ → Prop} {more : α → Option γ} {moreToo : β → Option δ}
    (first : Agree related one other)
    (rest : ∀ value valueToo, related value valueToo → Agree next (more value) (moreToo valueToo)) :
    Agree next (one.bind more) (other.bind moreToo) := by
  intro value found valueToo foundToo
  obtain ⟨inner, isInner, found⟩ := Option.bind_eq_some_iff.1 found
  obtain ⟨innerToo, isInnerToo, foundToo⟩ := Option.bind_eq_some_iff.1 foundToo
  exact rest inner innerToo (first inner isInner innerToo isInnerToo) value found valueToo foundToo

/-- Two readings that go on from what is the same for both. -/
theorem bind_eq {next : γ → δ → Prop} {one other : Option α} {more : α → Option γ}
    {moreToo : α → Option δ} (first : Agree Eq one other)
    (rest : ∀ value, Agree next (more value) (moreToo value)) :
    Agree next (one.bind more) (other.bind moreToo) := by
  refine first.bind fun value valueToo same => ?_
  subst same
  exact rest value

theorem bind_same {next : γ → δ → Prop} {more : α → Option γ} {moreToo : α → Option δ}
    (first : Option α) (rest : ∀ value, Agree next (more value) (moreToo value)) :
    Agree next (first.bind more) (first.bind moreToo) :=
  (refl first).bind_eq rest

theorem map {next : γ → δ → Prop} {made : α → γ} {madeToo : β → δ}
    (first : Agree related one other)
    (rest : ∀ value valueToo, related value valueToo → next (made value) (madeToo valueToo)) :
    Agree next (one.map made) (other.map madeToo) := by
  intro value found valueToo foundToo
  obtain ⟨inner, isInner, rfl⟩ := Option.map_eq_some_iff.1 found
  obtain ⟨innerToo, isInnerToo, rfl⟩ := Option.map_eq_some_iff.1 foundToo
  exact rest inner innerToo (first inner isInner innerToo isInnerToo)

theorem map_eq {one other : Option α} (first : Agree Eq one other) (made : α → γ) :
    Agree Eq (one.map made) (other.map made) :=
  first.map fun _ _ => congrArg made

theorem ite {condition : Prop} [Decidable condition] {one' : Option α} {other' : Option β}
    (positive : condition → Agree related one other)
    (negative : ¬condition → Agree related one' other') :
    Agree related (if condition then one else one') (if condition then other else other') := by
  by_cases holds : condition
  · rw [if_pos holds, if_pos holds]
    exact positive holds
  · rw [if_neg holds, if_neg holds]
    exact negative holds

/-- Either reading may be refused for a reason of its own. -/
theorem guard {refused refusedToo : Prop} [Decidable refused] [Decidable refusedToo]
    (agree : Agree related one other) :
    Agree related (if refused then none else one) (if refusedToo then none else other) := by
  split
  · exact none_left
  · split
    · exact none_right
    · exact agree

end Agree

namespace Yaml

/-! ## Characters -/

/-- That a character is no tab and ends no line for some readers only. -/
def IsCommon (c : Char) : Prop := c ≠ '\t' ∧ c.toNat ∉ [0x85, 0x2028, 0x2029]

instance (c : Char) : Decidable (IsCommon c) := inferInstanceAs (Decidable (_ ∧ _))

/-- That characters mean the same to every reader, and that their last line is ended. -/
structure AreCommon (chars : List Char) : Prop where
  each : ∀ c ∈ chars, IsCommon c
  ended : ∀ last ∈ chars.getLast?, last = '\n'

namespace AreCommon

variable {chars others : List Char} {c : Char}

theorem of_suffix (common : AreCommon chars) (suffix : others <:+ chars) : AreCommon others := by
  obtain ⟨before, rfl⟩ := suffix
  refine ⟨fun c member => common.each c (List.mem_append_right before member), ?_⟩
  intro last isLast
  exact common.ended last (List.mem_getLast?_append_of_mem_getLast? isLast)

theorem drop (common : AreCommon chars) (count : Nat) : AreCommon (chars.drop count) :=
  common.of_suffix (List.drop_suffix count chars)

theorem head (common : AreCommon (c :: chars)) : IsCommon c :=
  common.each c List.mem_cons_self

theorem tail (common : AreCommon (c :: chars)) : AreCommon chars :=
  common.of_suffix (List.suffix_cons c chars)

end AreCommon

section Breaks

variable {c : Char} {chars : List Char}

theorem IsCommon.isBreak_eq (common : IsCommon c) :
    Dialect.strict.isBreak c = Dialect.lenient.isBreak c := by
  have ends := common.2
  simp only [List.mem_cons, List.not_mem_nil, or_false, not_or] at ends
  simp [Dialect.isBreak, Dialect.strict, Dialect.lenient, ends]

theorem AreCommon.takeWhile_eq (common : AreCommon chars) :
    chars.takeWhile (fun c => !Dialect.strict.isBreak c) =
      chars.takeWhile fun c => !Dialect.lenient.isBreak c := by
  induction chars with
  | nil => rfl
  | cons c rest ih =>
    rw [List.takeWhile_cons, List.takeWhile_cons, common.head.isBreak_eq, ih common.tail]

theorem AreCommon.atBreak_eq (common : AreCommon chars) :
    Dialect.strict.atBreak chars = Dialect.lenient.atBreak chars := by
  cases chars with
  | nil => rfl
  | cons c rest => exact common.head.isBreak_eq

theorem AreCommon.headIs_isBreak_eq (common : AreCommon chars) :
    headIs Dialect.strict.isBreak chars = headIs Dialect.lenient.isBreak chars := by
  cases chars with
  | nil => rfl
  | cons c rest => exact common.head.isBreak_eq

theorem AreCommon.atGap_eq (common : AreCommon chars) :
    Dialect.strict.atGap chars = Dialect.lenient.atGap chars := by
  rw [Dialect.atGap, Dialect.atGap, common.atBreak_eq]

end Breaks

/-! ## Places -/

namespace Cursor

/-- That what follows a place means the same to every reader. -/
def IsCommon (cursor : Cursor) : Prop := AreCommon cursor.rest

theorem rest_skipBreak_suffix (dialect : Dialect) (cursor : Cursor) :
    (cursor.skipBreak dialect).rest <:+ cursor.rest := by
  unfold skipBreak
  split
  · next rest same =>
    rw [same]
    exact ⟨['\r', '\n'], rfl⟩
  · next c rest _ same =>
    rw [same]
    split
    · exact List.suffix_cons c rest
    · exact same ▸ List.suffix_rfl
  · exact List.suffix_rfl

namespace IsCommon

variable {cursor : Cursor} (common : cursor.IsCommon)
include common

theorem skip (count : Nat) : (cursor.skip count).IsCommon := common.drop count

theorem span (test : Char → Bool) : (cursor.span test).2.IsCommon := common.skip _

theorem skipBreak (dialect : Dialect) : (cursor.skipBreak dialect).IsCommon :=
  common.of_suffix (rest_skipBreak_suffix dialect cursor)

theorem skipLine (dialect : Dialect) : (cursor.skipLine dialect).IsCommon := common.span _

theorem skipBreak_eq : cursor.skipBreak .strict = cursor.skipBreak .lenient := by
  unfold IsCommon at common
  unfold Cursor.skipBreak
  split
  · rfl
  · next c rest _ same =>
    rw [same] at common
    rw [common.head.isBreak_eq]
  · rfl

theorem breakText_eq : cursor.breakText .strict = cursor.breakText .lenient := by
  unfold IsCommon at common
  unfold breakText
  split
  · next c rest same =>
    rw [same] at common
    rw [common.head.isBreak_eq]
  · rfl

theorem skipLine_eq : cursor.skipLine .strict = cursor.skipLine .lenient := by
  unfold Cursor.skipLine Cursor.span
  rw [common.takeWhile_eq]

theorem atMarker_eq (mark : Char) :
    cursor.atMarker .strict mark = cursor.atMarker .lenient mark := by
  unfold IsCommon at common
  unfold atMarker
  split
  · next a b c rest same =>
    rw [same] at common
    rw [common.tail.tail.tail.atGap_eq]
  · rfl

theorem atAnyMarker_eq : cursor.atAnyMarker .strict = cursor.atAnyMarker .lenient := by
  rw [atAnyMarker, atAnyMarker, common.atMarker_eq, common.atMarker_eq]

end IsCommon

end Cursor

/-- That two readings give the same and go on at the same place. -/
def Twin {α : Type} (one other : α × Cursor) : Prop := one = other ∧ one.2.IsCommon

namespace Gap

/-- A run has no tabs, so that it does not matter to which column its lines keep. -/
theorem agree_read? {cursor : Cursor} (common : cursor.IsCommon) (emptyLines emptyLinesToo : Bool)
    (indent indentToo : Int) (fuel : Nat) (gap : Gap) :
    Agree Twin (read? .strict emptyLines indent fuel gap cursor)
      (read? .lenient emptyLinesToo indentToo fuel gap cursor) := by
  induction fuel generalizing gap cursor with
  | zero => exact .none_left
  | succ fuel ih =>
    unfold read?
    split
    · next c rest same =>
      have commonRest := common
      unfold Cursor.IsCommon at commonRest
      rw [same] at commonRest
      have head := commonRest.head
      refine .ite (fun blank => ?_) fun solid => ?_
      · have noTab : ∀ column indent : Int, ¬(c = '\t' ∧ column < indent) := fun _ _ both =>
          head.1 both.1
        refine .ite (fun _ => ?_) fun _ => ih (common.skip 1) _
        rw [if_neg (noTab _ _), if_neg (noTab _ _)]
        exact ih (common.skip 1) _
      · rw [head.isBreak_eq]
        refine .ite (fun _ => ?_) fun _ => .some ⟨rfl, common⟩
        rw [common.breakText_eq, common.skipBreak_eq]
        exact ih (common.skipBreak _) _
    · exact .some ⟨rfl, common⟩

end Gap

/-! ## Plain scalars -/

namespace Plain

theorem chunk?_eq {chars : List Char} (common : AreCommon chars) :
    chunk? .strict false chars = chunk? .lenient false chars := by
  induction chars with
  | nil => rfl
  | cons c rest ih =>
    simp only [chunk?, Bool.false_and, Bool.false_eq_true, if_false, common.head.isBreak_eq,
      common.tail.atGap_eq, ih common.tail]

theorem isStrayDash_eq (dialect : Dialect) (chars : List Char) :
    isStrayDash dialect false chars = false := by
  unfold isStrayDash
  split <;> rfl

theorem agree_read? {cursor : Cursor} (common : cursor.IsCommon) (indent : Int) (fuel : Nat)
    (text : List Char) (gap : Gap) :
    Agree (fun one other => one = other ∧ one.2.1.IsCommon)
      (read? .strict false indent fuel text gap cursor)
      (read? .lenient false indent fuel text gap cursor) := by
  induction fuel generalizing text gap cursor with
  | zero => exact .none_left
  | succ fuel ih =>
    unfold read?
    rw [common.atAnyMarker_eq, chunk?_eq common, isStrayDash_eq, isStrayDash_eq]
    refine .ite (fun _ => .some ⟨rfl, common⟩) fun _ => ?_
    rw [if_neg Bool.false_ne_true, if_neg Bool.false_ne_true]
    refine .bind_same _ fun chunk => ?_
    refine .ite (fun _ => .some ⟨rfl, common⟩) fun _ => ?_
    have after := common.skip chunk.length
    dsimp only
    rw [after.headIs_isBreak_eq]
    refine .ite (fun _ => ?_) fun _ => .some ⟨rfl, after⟩
    refine .bind (Gap.agree_read? after true true indent indent _ _) ?_
    rintro ⟨gap, cursor⟩ _ ⟨rfl, later⟩
    exact .ite (fun _ => .some ⟨rfl, later⟩) fun _ => ih later _ _

end Plain

/-! ## Quoted scalars -/

namespace Quoted

theorem chunk?_eq (double : Bool) {chars : List Char} (common : AreCommon chars) :
    chunk? .strict double chars = chunk? .lenient double chars := by
  induction length : chars.length using Nat.strongRecOn generalizing chars with
  | ind length ih =>
    subst length
    cases chars with
    | nil => rw [chunk?, chunk?]
    | cons c rest =>
      have later : ∀ count, chunk? .strict double (rest.drop count) =
          chunk? .lenient double (rest.drop count) := fun count =>
        ih _ (by rw [List.length_cons, List.length_drop]; omega) (common.tail.drop count) rfl
      have whole := later 0
      rw [List.drop_zero] at whole
      rw [chunk?, chunk?, common.head.isBreak_eq, common.tail.headIs_isBreak_eq]
      simp only [later, whole]

/-- A quoted scalar is the same whatever column its lines keep to, where they keep to it. -/
theorem agree_read? {cursor : Cursor} (common : cursor.IsCommon) (double : Bool)
    (indent indentToo : Int) (fuel : Nat) (text : List Char) :
    Agree Twin (read? .strict double indent fuel text cursor)
      (read? .lenient double indentToo fuel text cursor) := by
  induction fuel generalizing text cursor with
  | zero => exact .none_left
  | succ fuel ih =>
    unfold read?
    refine .guard ?_
    rw [chunk?_eq double common]
    refine .bind_same _ fun chunk => ?_
    have after := common.skip chunk.count
    refine .ite (fun _ => .some ⟨rfl, after.skip 1⟩) fun _ => ?_
    dsimp only
    rw [after.skipBreak_eq]
    have next : (if chunk.continued then (cursor.skip chunk.count).skipBreak .lenient
        else cursor.skip chunk.count).IsCommon := by
      split
      · exact after.skipBreak _
      · exact after
    refine .bind (Gap.agree_read? next false false indent indentToo _ _) ?_
    rintro ⟨gap, cursor⟩ _ ⟨rfl, later⟩
    exact ih later _

end Quoted

/-! ## Ends of lines -/

theorem Cursor.IsCommon.agree_apart? {cursor : Cursor} (common : cursor.IsCommon) :
    Agree (fun one other => one = other ∧ one.IsCommon) (cursor.apart? .strict)
      (cursor.apart? .lenient) :=
  .guard (.some ⟨rfl, common⟩)

theorem Block.agree_endHeader? {cursor : Cursor} (common : cursor.IsCommon) :
    Agree (fun one other => one = other ∧ one.IsCommon) (endHeader? .strict cursor)
      (endHeader? .lenient cursor) := by
  unfold endHeader?
  refine .bind common.agree_apart? ?_
  rintro cursor _ ⟨rfl, here⟩
  have blanks := here.span isBlank
  dsimp only
  rw [blanks.skipLine_eq]
  have next : (if headIs (· = '#') (cursor.span isBlank).2.rest then
      (cursor.span isBlank).2.skipLine .lenient else (cursor.span isBlank).2).IsCommon := by
    split
    · exact blanks.skipLine _
    · exact blanks
  rw [next.atBreak_eq, next.skipBreak_eq]
  exact .ite (fun _ => .some ⟨rfl, next.skipBreak _⟩) fun _ => .none_left

/-! ## Block scalars -/

namespace Cursor

/-- That a place is at the beginning of a line if it is at the end of the text. -/
structure IsLined (cursor : Cursor) : Prop where
  common : cursor.IsCommon
  column : cursor.rest = [] → cursor.column = 0

namespace IsLined

theorem of_cons {cursor : Cursor} (common : cursor.IsCommon) {c : Char} {rest : List Char}
    (here : cursor.rest = c :: rest) : cursor.IsLined :=
  ⟨common, fun ended => absurd (here.symm.trans ended) (List.cons_ne_nil c rest)⟩

variable {cursor : Cursor} (lined : cursor.IsLined)
include lined

/-- To move along a line does not lead to the end of the text, which comes after a line break. -/
theorem skip {count : Nat} (short : count ≤ cursor.rest.length)
    (inside : '\n' ∉ cursor.rest.take count) : (cursor.skip count).IsLined := by
  refine ⟨lined.common.skip count, fun ended => ?_⟩
  have whole : cursor.rest.take count = cursor.rest :=
    List.take_of_length_le (List.drop_eq_nil_iff.1 ended)
  rw [whole] at inside
  have nothing : cursor.rest = [] := by
    by_contra more
    have last := lined.common.ended _ (List.getLast?_eq_some_getLast more)
    exact inside (last ▸ List.getLast_mem more)
  rw [nothing, List.length_nil, Nat.le_zero] at short
  subst short
  exact lined.column nothing

theorem skip_one {c : Char} {rest : List Char} (here : cursor.rest = c :: rest)
    (inside : c ≠ '\n') : (cursor.skip 1).IsLined := by
  refine lined.skip ?_ ?_
  · rw [here]
    exact Nat.succ_le_succ (Nat.zero_le _)
  · rw [here, List.take_succ_cons, List.take_zero, List.mem_singleton]
    exact inside.symm

/-- Fewer characters are skipped than a test accepts. -/
theorem skip_of_le (test : Char → Bool) (ends : test '\n' = false) {count : Nat}
    (few : count ≤ (cursor.rest.takeWhile test).length) : (cursor.skip count).IsLined := by
  have isPrefix : cursor.rest.take count <+: cursor.rest.takeWhile test :=
    List.prefix_of_prefix_length_le (List.take_prefix _ _) (List.takeWhile_prefix test)
      ((List.length_take_le _ _).trans few)
  refine lined.skip (few.trans (List.takeWhile_prefix test).length_le) fun inside => ?_
  have taken := List.mem_takeWhile_imp (isPrefix.subset inside)
  rw [ends] at taken
  exact Bool.false_ne_true taken

theorem span (test : Char → Bool) (ends : test '\n' = false) : (cursor.span test).2.IsLined :=
  lined.skip_of_le test ends le_rfl

theorem skipBreak (dialect : Dialect) : (cursor.skipBreak dialect).IsLined := by
  refine ⟨lined.common.skipBreak dialect, fun ended => ?_⟩
  unfold Cursor.skipBreak at ended ⊢
  split at ended
  · rfl
  · next c rest _ _ =>
    by_cases isBreak : dialect.isBreak c = true
    · rw [if_pos isBreak]
    · rw [if_neg isBreak] at ended ⊢
      exact lined.column ended
  · exact lined.column ended

theorem skipLine (dialect : Dialect) : (cursor.skipLine dialect).IsLined := lined.span _ rfl

end IsLined

end Cursor

namespace Block

theorem exists_cons_of_chomping? {rest : List Char} {chomping : Chomping}
    (found : chomping? rest = some chomping) : ∃ c after, rest = c :: after ∧ c ≠ '\n' := by
  unfold chomping? at found
  split at found
  · exact ⟨_, _, rfl, by decide⟩
  · exact ⟨_, _, rfl, by decide⟩
  · exact nomatch found

theorem exists_cons_of_indent? {rest : List Char} {indent : Nat}
    (found : indent? rest = some indent) : ∃ c after, rest = c :: after ∧ c ≠ '\n' := by
  unfold indent? at found
  split at found
  · next c after =>
    split at found
    · next digit =>
      refine ⟨c, after, rfl, ?_⟩
      rintro rfl
      exact absurd digit (by decide)
    · exact nomatch found
  · exact nomatch found

section Header

variable {cursor : Cursor} (lined : cursor.IsLined)
include lined

theorem isLined_of_chomping? {chomping : Chomping} (found : chomping? cursor.rest = some chomping) :
    (cursor.skip 1).IsLined := by
  obtain ⟨c, after, here, inside⟩ := exists_cons_of_chomping? found
  exact lined.skip_one here inside

theorem isLined_of_indent? {indent : Nat} (found : indent? cursor.rest = some indent) :
    (cursor.skip 1).IsLined := by
  obtain ⟨c, after, here, inside⟩ := exists_cons_of_indent? found
  exact lined.skip_one here inside

theorem isLined_header : (header cursor).2.IsLined := by
  unfold header
  split
  · next chomping =>
    have after := isLined_of_chomping? lined chomping
    dsimp only
    split
    · next indent => exact isLined_of_indent? after indent
    · exact after
  · split
    · next indent =>
      have after := isLined_of_indent? lined indent
      dsimp only
      split
      · next chomping => exact isLined_of_chomping? after chomping
      · exact after
    · exact lined

theorem isLined_of_endHeader? {dialect : Dialect} {after : Cursor}
    (found : endHeader? dialect cursor = some after) : after.IsLined := by
  unfold endHeader? at found
  obtain ⟨apart, isApart, found⟩ := Option.bind_eq_some_iff.1 found
  unfold Cursor.apart? at isApart
  rw [Option.ite_none_left_eq_some, Option.some_inj] at isApart
  rw [← isApart.2] at found
  dsimp only at found
  rw [Option.ite_none_right_eq_some, Option.some_inj] at found
  rw [← found.2]
  have blanks := lined.span isBlank rfl
  split
  · exact (blanks.skipLine dialect).skipBreak dialect
  · exact blanks.skipBreak dialect

theorem agree_endHeaderLined? : Agree (fun one other => one = other ∧ one.IsLined)
    (endHeader? .strict cursor) (endHeader? .lenient cursor) := by
  intro one found other foundToo
  exact ⟨(agree_endHeader? lined.common one found other foundToo).1,
    isLined_of_endHeader? lined found⟩

end Header

theorem agree_breaks? {cursor : Cursor} (lined : cursor.IsLined) (indent : Option Nat) (fuel : Nat)
    (breaks : Breaks) :
    Agree (fun one other => one = other ∧ one.2.IsLined) (breaks? .strict indent fuel breaks cursor)
      (breaks? .lenient indent fuel breaks cursor) := by
  induction fuel generalizing breaks cursor with
  | zero => exact .none_left
  | succ fuel ih =>
    have after : ∀ count ≤ (cursor.rest.takeWhile (· = ' ')).length,
        (cursor.skip count).IsLined := fun count few => lined.skip_of_le _ rfl few
    unfold breaks?
    cases indent with
    | none =>
      have next := after _ le_rfl
      refine .guard ?_
      dsimp only
      rw [next.common.headIs_isBreak_eq, next.common.breakText_eq, next.common.skipBreak_eq]
      exact .ite (fun _ => ih (next.skipBreak _) _) fun _ => .some ⟨rfl, next⟩
    | some indent =>
      have next := after _ (Nat.min_le_left _ (indent - cursor.column))
      refine .guard ?_
      dsimp only
      rw [next.common.headIs_isBreak_eq, next.common.breakText_eq, next.common.skipBreak_eq]
      exact .ite (fun _ => ih (next.skipBreak _) _) fun _ => .some ⟨rfl, next⟩

theorem agree_lines? {cursor : Cursor} (lined : cursor.IsLined) (folds : Bool) (indent fuel : Nat)
    (lines : Lines) :
    Agree (fun one other => one = other ∧ one.2.IsLined)
      (lines? .strict folds indent fuel lines cursor)
      (lines? .lenient folds indent fuel lines cursor) := by
  induction fuel generalizing lines cursor with
  | zero => exact .none_left
  | succ fuel ih =>
    unfold lines?
    refine .ite (fun _ => ?_) fun _ => .some ⟨rfl, lined⟩
    have same : cursor.span (fun c => !Dialect.strict.isBreak c) =
        cursor.span fun c => !Dialect.lenient.isBreak c := by
      unfold Cursor.span
      rw [lined.common.takeWhile_eq]
    have line := lined.span (fun c => !Dialect.lenient.isBreak c) rfl
    dsimp only
    rw [same, line.common.breakText_eq, line.common.skipBreak_eq]
    refine .bind (agree_breaks? (line.skipBreak _) _ _ _) ?_
    rintro ⟨breaks, cursor⟩ _ ⟨rfl, later⟩
    exact ih later _

/-- The last line of a block is taken as it is, because it is ended. -/
theorem chomped_eq {cursor : Cursor} (lined : cursor.IsLined) (chomping : Chomping) (indent : Nat)
    (lines : Lines) :
    chomped .strict chomping indent lines cursor =
      chomped .lenient chomping indent lines cursor := by
  have ended : (Dialect.lenient.endsLastLine && cursor.rest.isEmpty &&
      decide (max indent 1 ≤ cursor.column)) = false := by
    rw [Bool.and_eq_false_iff, Bool.and_eq_false_iff, decide_eq_false_iff_not]
    by_cases nothing : cursor.rest = []
    · rw [lined.column nothing]
      exact .inr (by omega)
    · exact .inl (.inr (by rw [List.isEmpty_eq_false_iff]; exact nothing))
  unfold chomped
  rw [ended]
  rfl

theorem agree_read? {cursor : Cursor} (lined : cursor.IsLined) (folds : Bool) (outer : Int) :
    Agree Twin (read? .strict folds outer cursor) (read? .lenient folds outer cursor) := by
  have header := isLined_header lined
  unfold read?
  dsimp only
  refine .bind (agree_endHeaderLined? header) ?_
  rintro cursor _ ⟨rfl, first⟩
  refine .bind (agree_breaks? first _ _ _) ?_
  rintro ⟨breaks, cursor⟩ _ ⟨rfl, second⟩
  refine .bind (agree_lines? second _ _ _ _) ?_
  rintro ⟨lines, cursor⟩ _ ⟨rfl, last⟩
  refine .some ⟨?_, last.common⟩
  dsimp only
  rw [chomped_eq last]

end Block

end Yaml

end QuotaGate
