import QuotaGate.Proofs.Yaml.Dialects
import QuotaGate.Yaml.Token

/-!
# Tokens that two readers have in common

Outside of brackets two readers keep the same state, but for the columns that only the lenient one
keeps to, and so each token is the same to both where both take it. Inside of brackets it is not,
and names end at different places. No token is ever taken back, so that a text whose tokens have
neither brackets nor names among them was never read inside of brackets.

Results:
1. `Scanner.Alike.agree_fetch?`: one token.
2. `Scanner.subset_run?`: the tokens that were read on the way.
3. `Scanner.agree_run?`: all tokens.
-/

namespace QuotaGate.Yaml

namespace Scanner

/-- That two readers have read the same outside of brackets, whatever columns they keep to. -/
structure Alike (one other : Scanner) : Prop where
  same : other = { one with hanging := other.hanging }
  outside : one.outerKeys = []
  common : one.cursor.IsCommon

namespace Alike

theorem ite {condition : Prop} [Decidable condition] {one one' other other' : Scanner}
    (positive : condition → one.Alike other) (negative : ¬condition → one'.Alike other') :
    (if condition then one else one').Alike (if condition then other else other') := by
  by_cases holds : condition
  · rw [if_pos holds, if_pos holds]
    exact positive holds
  · rw [if_neg holds, if_neg holds]
    exact negative holds

variable {one other : Scanner} (alike : one.Alike other)
include alike

theorem inFlow_eq : one.inFlow = false := by
  rw [inFlow, alike.outside]
  rfl

theorem inFlowToo_eq : other.inFlow = false := by
  rw [alike.same]
  exact alike.inFlow_eq

theorem keyAllowed_eq : other.keyAllowed = one.keyAllowed := by rw [alike.same]

theorem cursor_eq : other.cursor = one.cursor := by rw [alike.same]

theorem key_eq : other.key = one.key := by rw [alike.same]

theorem indent_eq : other.indent = one.indent := by rw [alike.same]

theorem emit (token : Token) : (one.emit token).Alike (other.emit token) := by
  obtain ⟨same, outside, common⟩ := alike
  rw [same]
  exact ⟨rfl, outside, common⟩

theorem insert (number : Nat) (token : Token) :
    (one.insert number token).Alike (other.insert number token) := by
  obtain ⟨same, outside, common⟩ := alike
  rw [same]
  exact ⟨rfl, outside, common⟩

theorem skip (count : Nat) : (one.skip count).Alike (other.skip count) := by
  obtain ⟨same, outside, common⟩ := alike
  rw [same]
  exact ⟨rfl, outside, common.skip count⟩

theorem goTo {cursor : Cursor} (common : cursor.IsCommon) :
    { one with cursor }.Alike { other with cursor } := by
  obtain ⟨same, outside, -⟩ := alike
  rw [same]
  exact ⟨rfl, outside, common⟩

theorem allow (allowed : Bool) :
    { one with keyAllowed := allowed }.Alike { other with keyAllowed := allowed } := by
  obtain ⟨same, outside, common⟩ := alike
  rw [same]
  exact ⟨rfl, outside, common⟩

theorem forget (key : Option PossibleKey) (allowed : Bool) :
    { one with key, keyAllowed := allowed }.Alike { other with key, keyAllowed := allowed } := by
  obtain ⟨same, outside, common⟩ := alike
  rw [same]
  exact ⟨rfl, outside, common⟩

theorem settle {cursor : Cursor} (common : cursor.IsCommon) (allowed : Bool) :
    { one with cursor, hanging := false, keyAllowed := allowed }.Alike
      { other with cursor, hanging := false, keyAllowed := allowed } := by
  obtain ⟨same, outside, -⟩ := alike
  rw [same]
  exact ⟨rfl, outside, common⟩

theorem hang : (one.hang .strict).Alike (other.hang .lenient) := by
  obtain ⟨same, outside, common⟩ := alike
  have stays : one.hang .strict = one := rfl
  rw [stays, same]
  unfold Scanner.hang
  split
  · exact ⟨rfl, outside, common⟩
  · exact ⟨rfl, outside, common⟩

theorem hangIf (deep deepToo : Bool) :
    (if deep then one.hang .strict else one).Alike
      (if deepToo then other.hang .lenient else other) := by
  have stays : (if deep then one.hang .strict else one) = one := by
    split <;> rfl
  rw [stays]
  split
  · exact alike.hang
  · exact alike

/-- The innermost collection in brackets ends, if there is one. -/
theorem leave (key keyToo : Option PossibleKey) (allowed : Bool) (same : keyToo = key) :
    { one with key, outerKeys := one.outerKeys.drop 1, keyAllowed := allowed }.Alike
      { other with key := keyToo, outerKeys := other.outerKeys.drop 1, keyAllowed := allowed } := by
  obtain ⟨sameScanner, outside, common⟩ := alike
  subst same
  rw [sameScanner]
  refine ⟨rfl, ?_, common⟩
  dsimp only
  rw [outside]
  rfl

theorem roll (column : Nat) (number : Option Nat) (token : Token) :
    (one.roll column number token).Alike (other.roll column number token) := by
  obtain ⟨same, outside, common⟩ := alike
  rw [same]
  refine .ite (fun _ => ⟨rfl, outside, common⟩) fun _ => ?_
  cases number with
  | none => exact ⟨rfl, outside, common⟩
  | some number => exact ⟨rfl, outside, common⟩

theorem unroll (column : Int) : (one.unroll column).Alike (other.unroll column) := by
  obtain ⟨same, outside, common⟩ := alike
  rw [same]
  exact .ite (fun _ => ⟨rfl, outside, common⟩) fun _ => ⟨rfl, outside, common⟩

theorem agree_saveKey? : Agree Alike one.saveKey? other.saveKey? := by
  obtain ⟨same, outside, common⟩ := alike
  rw [same]
  unfold Scanner.saveKey?
  refine .ite (fun _ => ?_) fun _ => .some ⟨rfl, outside, common⟩
  exact .ite (fun _ => .none_left) fun _ => .some ⟨rfl, outside, common⟩

theorem agree_dropKey? : Agree Alike one.dropKey? other.dropKey? := by
  obtain ⟨same, outside, common⟩ := alike
  rw [same]
  exact .ite (fun _ => .none_left) fun _ => .some ⟨rfl, outside, common⟩

theorem agree_dropStale? : Agree Alike (one.dropStale? .strict) (other.dropStale? .lenient) := by
  have inFlow := alike.inFlow_eq
  obtain ⟨same, outside, common⟩ := alike
  rw [same]
  have inFlowToo : { one with hanging := other.hanging }.inFlow = false := inFlow
  unfold Scanner.dropStale?
  rw [inFlow, inFlowToo, Bool.false_and, Bool.false_and, if_neg Bool.false_ne_true,
    if_neg Bool.false_ne_true]
  refine .ite (fun _ => .none_left) fun _ => .some ?_
  refine ⟨rfl, ?_, common⟩
  dsimp only
  rw [outside]
  rfl

theorem agree_apart? : Agree Alike (one.apart? .strict) (other.apart? .lenient) := by
  have common := alike.common
  obtain ⟨same, outside, -⟩ := alike
  rw [same]
  refine .map common.agree_apart? fun _ _ _ => ?_
  exact ⟨rfl, outside, common⟩

end Alike

/-- The blanks and comments before a token are the same. -/
theorem agree_skipGap? {one other : Scanner} (alike : one.Alike other) (fuel : Nat)
    (leading : Bool) :
    Agree Alike (skipGap? .strict fuel leading one) (skipGap? .lenient fuel leading other) := by
  induction fuel generalizing leading one other with
  | zero => exact .none_left
  | succ fuel ih =>
    have common := alike.common
    unfold skipGap?
    dsimp only
    rw [alike.cursor_eq]
    split
    · next c rest here =>
      have commonRest := common
      unfold Cursor.IsCommon at commonRest
      rw [here] at commonRest
      have noTab := commonRest.head.1
      refine .ite (fun _ => ih (alike.skip 1) leading) fun _ => ?_
      simp only [noTab, false_and, if_false]
      refine .ite (fun _ => ?_) fun _ => ?_
      · rw [common.skipLine_eq]
        exact ih (alike.goTo (common.skipLine _)) leading
      · rw [commonRest.head.isBreak_eq, common.skipBreak_eq]
        refine .ite (fun _ => ih ?_ true) fun _ => .some alike
        rw [alike.keyAllowed_eq, alike.inFlow_eq, alike.inFlowToo_eq]
        exact (alike.goTo (common.skipBreak _)).allow _
    · exact .some alike

/-! ## Tags and directives -/

theorem isCommon_tagHandle {cursor : Cursor} (common : cursor.IsCommon) :
    (tagHandle cursor).2.IsCommon := by
  unfold tagHandle
  dsimp only
  split
  · exact ((common.skip 1).span isWordChar).skip 1
  · exact (common.skip 1).span isWordChar

theorem agree_tag? {cursor : Cursor} (common : cursor.IsCommon) :
    Agree Twin (tag? .strict false cursor) (tag? .lenient false cursor) := by
  have ends : ∀ (token : Token) {cursor : Cursor}, cursor.IsCommon → Agree Twin
      (if Dialect.strict.atGap cursor.rest || false || false then some (token, cursor) else none)
      (if Dialect.lenient.atGap cursor.rest || false || false then some (token, cursor)
        else none) := by
    intro token cursor here
    rw [here.atGap_eq]
    exact .ite (fun _ => .some ⟨rfl, here⟩) fun _ => .none_left
  have handle := isCommon_tagHandle common
  unfold tag?
  refine .ite (fun _ => ?_) fun _ => ?_
  · exact .ite (fun _ => .none_left) fun _ => ends _ (((common.skip 2).span _).skip 1)
  · refine .ite (fun _ => ?_) fun _ => ?_
    · exact .ite (fun _ => .none_left) fun _ => ends _ (handle.span _)
    · exact .ite (fun _ => ends _ (handle.span _)) fun _ => ends _ (handle.span _)

theorem agree_versionNumber? {cursor : Cursor} (common : cursor.IsCommon) :
    Agree Twin (versionNumber? cursor) (versionNumber? cursor) :=
  .ite (fun _ => .none_left) fun _ => .some ⟨rfl, common.span _⟩

theorem agree_directive? {cursor : Cursor} (common : cursor.IsCommon) :
    Agree Twin (directive? .strict cursor) (directive? .lenient cursor) := by
  have name := common.span isWordChar
  unfold directive?
  dsimp only
  rw [name.atGap_eq]
  refine .ite (fun _ => .none_left) fun _ => ?_
  refine .ite (fun _ => ?_) fun _ => ?_
  · refine .bind (agree_versionNumber? (name.span isBlank)) ?_
    rintro ⟨major, cursor⟩ _ ⟨rfl, here⟩
    refine .ite (fun _ => ?_) fun _ => .none_left
    refine .bind (agree_versionNumber? (here.skip 1)) ?_
    rintro ⟨minor, cursor⟩ _ ⟨rfl, later⟩
    exact .some ⟨rfl, later⟩
  · have handle := isCommon_tagHandle (name.span isBlank)
    have after := (handle.span isBlank).span (isTagChar true)
    refine .ite (fun _ => ?_) fun _ => .none_left
    rw [after.atGap_eq]
    exact .ite (fun _ => .some ⟨rfl, after⟩) fun _ => .none_left

/-! ## One token at a time -/

namespace Alike

variable {one other : Scanner} (alike : one.Alike other)
include alike

theorem agree_endBlocks? : Agree Alike one.endBlocks? other.endBlocks? :=
  .map (alike.unroll (-1)).agree_dropKey? fun _ _ alike => alike.allow false

theorem agree_fetchDirective? :
    Agree Alike (one.fetchDirective? .strict) (other.fetchDirective? .lenient) := by
  refine .bind alike.agree_endBlocks? fun one other alike => ?_
  dsimp only
  rw [alike.cursor_eq]
  refine .bind (agree_directive? (alike.common.skip 1)) ?_
  rintro ⟨token, cursor⟩ _ ⟨rfl, here⟩
  refine .bind (Block.agree_endHeader? here) ?_
  rintro cursor _ ⟨rfl, later⟩
  exact .some ((alike.goTo later).emit token)

theorem agree_fetchDocumentStart? :
    Agree Alike one.fetchDocumentStart? other.fetchDocumentStart? :=
  .map alike.agree_endBlocks? fun _ _ alike => (alike.skip 3).emit .documentStart

theorem agree_fetchDocumentEnd? :
    Agree Alike (one.fetchDocumentEnd? .strict) (other.fetchDocumentEnd? .lenient) := by
  refine .bind alike.agree_endBlocks? fun one other alike => ?_
  exact .guard (.some ((alike.skip 3).emit .documentEnd))

theorem agree_fetchClosing? (token : Token) :
    Agree Alike (one.fetchClosing? .strict token) (other.fetchClosing? .lenient token) := by
  refine .bind alike.agree_dropKey? fun one other alike => ?_
  have outer : other.outerKeys.headD none = one.outerKeys.headD none := by rw [alike.same]
  exact (((alike.leave _ _ false outer).skip 1).emit token).agree_apart?

theorem agree_fetchFlowEntry :
    Agree Alike (one.fetchFlowEntry? .strict) (other.fetchFlowEntry? .lenient) := by
  refine .bind alike.agree_dropKey? fun one other alike => ?_
  exact (((alike.allow true).skip 1).emit .flowEntry).agree_apart?

theorem agree_fetchBlockEntry :
    Agree Alike (one.fetchBlockEntry? .strict) (other.fetchBlockEntry? .lenient) := by
  unfold fetchBlockEntry?
  dsimp only
  rw [alike.cursor_eq]
  refine .guard (.guard ?_)
  refine .bind ((alike.roll _ none .blockSequenceStart).hangIf _ _).agree_dropKey?
    fun one other alike => ?_
  exact .some (((alike.allow true).skip 1).emit .blockEntry)

theorem agree_fetchKey? :
    Agree Alike (one.fetchKey? .strict) (other.fetchKey? .lenient) := by
  unfold fetchKey?
  dsimp only
  rw [alike.cursor_eq]
  refine .guard (.guard ?_)
  refine .bind (alike.roll _ none .blockMappingStart).agree_dropKey? fun one other alike => ?_
  rw [alike.inFlow_eq, alike.inFlowToo_eq]
  exact .some (((alike.allow true).skip 1).emit .key)

theorem agree_fetchValue? :
    Agree Alike (one.fetchValue? .strict) (other.fetchValue? .lenient) := by
  unfold fetchValue?
  refine .guard ?_
  rw [alike.cursor_eq, alike.key_eq]
  cases one.key with
  | some key =>
    have opened := ((alike.insert key.number .key).roll key.column (some key.number)
      .blockMappingStart).hang
    exact .some (((opened.forget none false).skip 1).emit .value)
  | none =>
    have opened := (alike.roll one.cursor.column none .blockMappingStart).hang
    refine .guard ?_
    dsimp only
    rw [opened.inFlow_eq, opened.inFlowToo_eq]
    exact .some (((opened.allow true).skip 1).emit .value)

theorem agree_fetchTag? : Agree Alike (one.fetchTag? .strict) (other.fetchTag? .lenient) := by
  refine .bind alike.agree_saveKey? fun one other alike => ?_
  dsimp only
  rw [alike.cursor_eq, alike.inFlow_eq, alike.inFlowToo_eq]
  refine .bind (agree_tag? alike.common) ?_
  rintro ⟨token, cursor⟩ _ ⟨rfl, here⟩
  exact .some (((alike.goTo here).allow false).emit token)

theorem agree_fetchQuoted? (style : Style) :
    Agree Alike (one.fetchQuoted? .strict style) (other.fetchQuoted? .lenient style) := by
  refine .bind alike.agree_saveKey? fun one other alike => ?_
  dsimp only
  rw [alike.cursor_eq]
  refine .bind (Quoted.agree_read? (alike.common.skip 1) _ _ _ _ _) ?_
  rintro ⟨text, cursor⟩ _ ⟨rfl, here⟩
  exact (((alike.goTo here).allow false).emit (.scalar text style)).agree_apart?

theorem agree_fetchPlain? :
    Agree Alike (one.fetchPlain? .strict) (other.fetchPlain? .lenient) := by
  refine .bind alike.agree_saveKey? fun one other alike => ?_
  have read : Agree (fun one other => one = other ∧ one.2.1.IsCommon)
      (Plain.read? .strict false (one.indent + 1) (one.cursor.rest.length + 1) [] .empty one.cursor)
      (Plain.read? .lenient false (other.indent + 1) (one.cursor.rest.length + 1) [] .empty
        one.cursor) := by
    rw [alike.indent_eq]
    exact Plain.agree_read? alike.common _ _ _ _
  dsimp only
  rw [alike.cursor_eq, alike.inFlow_eq, alike.inFlowToo_eq]
  refine .guard (.bind read ?_)
  rintro ⟨text, cursor, broken⟩ _ ⟨rfl, here⟩
  exact .some ((alike.settle here broken).emit (.scalar text .plain))

theorem agree_fetchBlock? (style : Style) (lined : (one.cursor.skip 1).IsLined) :
    Agree Alike (one.fetchBlock? .strict style) (other.fetchBlock? .lenient style) := by
  intro found isFound foundToo isFoundToo
  obtain ⟨dropped, isDropped, isFound⟩ := Option.bind_eq_some_iff.1 isFound
  obtain ⟨droppedToo, isDroppedToo, isFoundToo⟩ := Option.bind_eq_some_iff.1 isFoundToo
  have after := alike.agree_dropKey? dropped isDropped droppedToo isDroppedToo
  unfold dropKey? at isDropped
  rw [Option.ite_none_left_eq_some, Option.some_inj] at isDropped
  have read : Agree Twin
      (Block.read? .strict (style = .folded) dropped.indent (dropped.cursor.skip 1))
      (Block.read? .lenient (style = .folded) droppedToo.indent (droppedToo.cursor.skip 1)) := by
    rw [after.indent_eq, after.cursor_eq, ← isDropped.2]
    exact Block.agree_read? lined _ _
  refine Agree.bind read ?_ found isFound foundToo isFoundToo
  rintro ⟨text, cursor⟩ _ ⟨rfl, here⟩
  exact .some ((after.settle here true).emit (.scalar text style))

end Alike

/-! ## Tokens that stay -/

/-- That a reading keeps the tokens that were there. -/
def Keeps (before : Scanner) (after : Option Scanner) : Prop :=
  ∀ scanner ∈ after, before.tokens ⊆ scanner.tokens

namespace Keeps

variable {before after : Scanner} {found : Option Scanner}

theorem none : Keeps before none := nofun

theorem some (subset : before.tokens ⊆ after.tokens) : Keeps before (some after) := by
  rintro _ ⟨⟩
  exact subset

theorem of_subset (keeps : Keeps after found) (subset : before.tokens ⊆ after.tokens) :
    Keeps before found :=
  fun scanner isFound => List.Subset.trans subset (keeps scanner isFound)

theorem bind {more : Scanner → Option Scanner} (first : Keeps before found)
    (rest : ∀ scanner, Keeps scanner (more scanner)) : Keeps before (found.bind more) := by
  intro scanner isFound
  obtain ⟨inner, isInner, isFound⟩ := Option.bind_eq_some_iff.1 isFound
  exact List.Subset.trans (first inner isInner) (rest inner scanner isFound)

/-- What is read besides does not matter. -/
theorem bind_any {α : Type} {read : Option α} {more : α → Option Scanner}
    (rest : ∀ value, Keeps before (more value)) : Keeps before (read.bind more) := by
  intro scanner isFound
  obtain ⟨value, -, isFound⟩ := Option.bind_eq_some_iff.1 isFound
  exact rest value scanner isFound

theorem ite {condition : Prop} [Decidable condition] {other : Option Scanner}
    (positive : Keeps before found) (negative : Keeps before other) :
    Keeps before (if condition then found else other) := by
  split
  · exact positive
  · exact negative

end Keeps

section Growth

variable (scanner : Scanner) (dialect : Dialect)

theorem subset_emit (token : Token) : scanner.tokens ⊆ (scanner.emit token).tokens :=
  List.subset_cons_self token scanner.tokens

theorem subset_insert (number : Nat) (token : Token) :
    scanner.tokens ⊆ (scanner.insert number token).tokens := by
  have whole := List.take_append_drop (scanner.count - number) scanner.tokens
  unfold insert
  rw [List.splitAt_eq]
  dsimp only
  nth_rewrite 1 [← whole]
  exact List.append_subset.2 ⟨List.subset_append_left _ _,
    List.Subset.trans (List.subset_cons_self _ _) (List.subset_append_right _ _)⟩

theorem subset_roll (column : Nat) (number : Option Nat) (token : Token) :
    scanner.tokens ⊆ (scanner.roll column number token).tokens := by
  unfold roll
  split
  · exact List.Subset.refl _
  · cases number with
    | none => exact subset_emit _ token
    | some number => exact subset_insert _ number token

theorem subset_unroll (column : Int) : scanner.tokens ⊆ (scanner.unroll column).tokens := by
  unfold unroll
  split
  · exact List.Subset.refl _
  · exact List.subset_append_right _ _

theorem subset_hang : scanner.tokens ⊆ (scanner.hang dialect).tokens := by
  unfold hang
  split
  · exact List.Subset.refl _
  · exact List.Subset.refl _

theorem keeps_saveKey? : Keeps scanner scanner.saveKey? :=
  .ite (.ite .none (.some (List.Subset.refl _))) (.some (List.Subset.refl _))

theorem keeps_dropKey? : Keeps scanner scanner.dropKey? :=
  .ite .none (.some (List.Subset.refl _))

theorem keeps_dropStale? : Keeps scanner (scanner.dropStale? dialect) :=
  .ite (.some (List.Subset.refl _)) (.ite .none (.some (List.Subset.refl _)))

theorem keeps_apart? : Keeps scanner (scanner.apart? dialect) := by
  unfold apart?
  rw [Option.map_eq_bind]
  exact .bind_any fun _ => .some (List.Subset.refl _)

theorem keeps_skipGap? (fuel : Nat) (leading : Bool) :
    Keeps scanner (skipGap? dialect fuel leading scanner) := by
  induction fuel generalizing leading scanner with
  | zero => exact .none
  | succ fuel ih =>
    unfold skipGap?
    dsimp only
    split
    · have again : ∀ (leading : Bool) (next : Scanner), next.tokens = scanner.tokens →
          Keeps scanner (skipGap? dialect fuel leading next) := fun leading next same =>
        Keeps.of_subset (ih next leading) (same ▸ List.Subset.refl _)
      refine .ite (again _ _ rfl) (.ite (.ite (.ite (again _ _ rfl) .none) (again _ _ rfl)) ?_)
      refine .ite (again _ _ rfl) (.ite (again _ _ rfl) (.ite (again _ _ rfl) ?_))
      exact .some (List.Subset.refl _)
    · exact .some (List.Subset.refl _)

theorem keeps_endBlocks? : Keeps scanner scanner.endBlocks? := by
  unfold endBlocks?
  rw [Option.map_eq_bind]
  have dropped :=
    Keeps.of_subset (keeps_dropKey? (scanner.unroll (-1))) (subset_unroll scanner (-1))
  exact .bind dropped fun _ => .some (List.Subset.refl _)

theorem keeps_fetchDirective? : Keeps scanner (scanner.fetchDirective? dialect) :=
  .bind (keeps_endBlocks? scanner) fun _ => .bind_any fun _ => .bind_any fun _ =>
    .some (subset_emit _ _)

theorem keeps_fetchDocumentStart? : Keeps scanner scanner.fetchDocumentStart? := by
  unfold fetchDocumentStart?
  rw [Option.map_eq_bind]
  exact .bind (keeps_endBlocks? scanner) fun _ => .some (subset_emit _ _)

theorem keeps_fetchDocumentEnd? : Keeps scanner (scanner.fetchDocumentEnd? dialect) :=
  .bind (keeps_endBlocks? scanner) fun _ => .ite .none (.some (subset_emit _ _))

theorem keeps_fetchOpening? (token : Token) : Keeps scanner (scanner.fetchOpening? dialect token) :=
  .bind (keeps_saveKey? scanner) fun _ => Keeps.of_subset (keeps_apart? _ dialect)
    (List.Subset.trans (subset_hang _ dialect) (subset_emit _ token))

theorem keeps_fetchClosing? (token : Token) : Keeps scanner (scanner.fetchClosing? dialect token) :=
  .bind (keeps_dropKey? scanner) fun _ => Keeps.of_subset (keeps_apart? _ dialect)
    (subset_emit _ token)

theorem keeps_fetchFlowEntry : Keeps scanner (scanner.fetchFlowEntry? dialect) :=
  .bind (keeps_dropKey? scanner) fun _ => Keeps.of_subset (keeps_apart? _ dialect)
    (subset_emit _ .flowEntry)

theorem keeps_fetchBlockEntry : Keeps scanner (scanner.fetchBlockEntry? dialect) := by
  have rolled := subset_roll scanner scanner.cursor.column none .blockSequenceStart
  refine .ite .none (.ite .none (.bind (Keeps.of_subset (keeps_dropKey? _) ?_) fun _ => ?_))
  · split
    · exact List.Subset.trans rolled (subset_hang _ dialect)
    · exact rolled
  · exact .some (subset_emit _ .blockEntry)

theorem keeps_fetchKey? : Keeps scanner (scanner.fetchKey? dialect) :=
  .ite .none (.ite .none (.bind (Keeps.of_subset (keeps_dropKey? _) (subset_roll scanner _ _ _))
    fun _ => .some (subset_emit _ .key)))

theorem keeps_fetchValue? : Keeps scanner (scanner.fetchValue? dialect) := by
  refine .ite .none ?_
  split
  · next key _ =>
    refine .some (List.Subset.trans (subset_insert scanner key.number .key) ?_)
    refine List.Subset.trans (subset_roll _ key.column (some key.number) .blockMappingStart) ?_
    exact List.Subset.trans (subset_hang _ dialect) (subset_emit _ .value)
  · refine .ite .none (.some ?_)
    refine List.Subset.trans
      (subset_roll scanner scanner.cursor.column none .blockMappingStart) ?_
    exact List.Subset.trans (subset_hang _ dialect) (subset_emit _ .value)

theorem keeps_fetchAnchor? (token : List Char → Token) :
    Keeps scanner (scanner.fetchAnchor? dialect token) :=
  .bind (keeps_saveKey? scanner) fun _ => .bind_any fun _ => .some (subset_emit _ _)

theorem keeps_fetchTag? : Keeps scanner (scanner.fetchTag? dialect) :=
  .bind (keeps_saveKey? scanner) fun _ => .bind_any fun _ => .some (subset_emit _ _)

theorem keeps_fetchBlock? (style : Style) : Keeps scanner (scanner.fetchBlock? dialect style) :=
  .bind (keeps_dropKey? scanner) fun _ => .bind_any fun _ => .some (subset_emit _ _)

theorem keeps_fetchQuoted? (style : Style) : Keeps scanner (scanner.fetchQuoted? dialect style) :=
  .bind (keeps_saveKey? scanner) fun _ => .bind_any fun _ =>
    Keeps.of_subset (keeps_apart? _ dialect) (subset_emit _ _)

theorem keeps_fetchPlain? : Keeps scanner (scanner.fetchPlain? dialect) :=
  .bind (keeps_saveKey? scanner) fun _ => .ite .none (.bind_any fun _ => .some (subset_emit _ _))

theorem keeps_fetch? (c : Char) (rest : List Char) :
    Keeps scanner (scanner.fetch? dialect c rest) := by
  unfold fetch?
  refine .ite (keeps_fetchDirective? scanner dialect) (.ite (keeps_fetchDocumentStart? scanner) ?_)
  refine .ite (keeps_fetchDocumentEnd? scanner dialect) (.ite .none ?_)
  have opening := keeps_fetchOpening? scanner dialect
  have closing := keeps_fetchClosing? scanner dialect
  have anchor := keeps_fetchAnchor? scanner dialect
  have block := keeps_fetchBlock? scanner dialect
  have quoted := keeps_fetchQuoted? scanner dialect
  have plain := keeps_fetchPlain? scanner dialect
  refine .ite (opening _) (.ite (opening _) (.ite (closing _) (.ite (closing _) ?_)))
  refine .ite (keeps_fetchFlowEntry scanner dialect) ?_
  refine .ite (keeps_fetchBlockEntry scanner dialect) ?_
  refine .ite (keeps_fetchKey? scanner dialect) (.ite (keeps_fetchValue? scanner dialect) ?_)
  refine .ite (anchor _) (.ite (anchor _) (.ite (keeps_fetchTag? scanner dialect) ?_))
  refine .ite (block _) (.ite (block _) (.ite (quoted _) (.ite (quoted _) ?_)))
  exact .ite plain (.ite .none plain)

/-- The tokens of a text have among them all that were read on the way. -/
theorem subset_run? {fuel : Nat} {tokens : List Token}
    (done : run? dialect fuel scanner = some tokens) : scanner.tokens ⊆ tokens := by
  induction fuel generalizing scanner with
  | zero => exact nomatch done
  | succ fuel ih =>
    unfold run? at done
    obtain ⟨apart, isApart, done⟩ := Option.bind_eq_some_iff.1 done
    obtain ⟨fresh, isFresh, done⟩ := Option.bind_eq_some_iff.1 done
    have unrolled : scanner.tokens ⊆ (fresh.unroll fresh.cursor.column).tokens :=
      List.Subset.trans (keeps_skipGap? scanner dialect _ _ apart isApart)
        (List.Subset.trans (keeps_dropStale? apart dialect fresh isFresh) (subset_unroll fresh _))
    dsimp only at done
    split at done
    · obtain ⟨last, isLast, rfl⟩ := Option.map_eq_some_iff.1 done
      have kept := Keeps.of_subset (keeps_dropKey? _) (subset_unroll _ (-1)) last isLast
      exact List.subset_reverse.2 (List.Subset.trans unrolled kept)
    · obtain ⟨next, isNext, done⟩ := Option.bind_eq_some_iff.1 done
      have kept := keeps_fetch? _ dialect _ _ next isNext
      exact List.Subset.trans unrolled (List.Subset.trans kept (ih next done))

end Growth

end Scanner

/-! ## Ordinary tokens -/

/-- Whether a token opens no brackets and names no node. -/
def Token.isOrdinary : Token → Bool
  | .flowSequenceStart | .flowMappingStart | .alias _ | .anchor _ => false
  | _ => true

namespace Scanner

/-- That all tokens so far are ordinary. -/
def IsOrdinary (scanner : Scanner) : Prop := ∀ token ∈ scanner.tokens, token.isOrdinary = true

theorem not_isOrdinary_of_fetchOpening? {dialect : Dialect} {token : Token}
    (strange : token.isOrdinary = false) {scanner opened : Scanner}
    (found : scanner.fetchOpening? dialect token = some opened) : ¬opened.IsOrdinary := by
  obtain ⟨saved, -, found⟩ := Option.bind_eq_some_iff.1 found
  have kept := keeps_apart? _ dialect opened found
  intro ordinary
  have here := ordinary token (kept List.mem_cons_self)
  rw [strange] at here
  exact Bool.false_ne_true here

theorem not_isOrdinary_of_fetchAnchor? {dialect : Dialect} {token : List Char → Token}
    (strange : ∀ name, (token name).isOrdinary = false) {scanner named : Scanner}
    (found : scanner.fetchAnchor? dialect token = some named) : ¬named.IsOrdinary := by
  obtain ⟨saved, -, found⟩ := Option.bind_eq_some_iff.1 found
  obtain ⟨⟨name, cursor⟩, -, found⟩ := Option.bind_eq_some_iff.1 found
  cases found
  intro ordinary
  have here := ordinary (token name) List.mem_cons_self
  rw [strange] at here
  exact Bool.false_ne_true here

theorem Alike.agree_fetch? {one other : Scanner} (alike : one.Alike other) {c : Char}
    {rest : List Char} (here : one.cursor.rest = c :: rest) :
    Agree (fun one other => one.IsOrdinary → one.Alike other) (one.fetch? .strict c rest)
      (other.fetch? .lenient c rest) := by
  have always : ∀ {one other : Option Scanner}, Agree Alike one other →
      Agree (fun one other => one.IsOrdinary → one.Alike other) one other :=
    fun agree => agree.imp fun _ _ alike _ => alike
  have opening : ∀ {token : Token}, token.isOrdinary = false →
      Agree (fun one other => one.IsOrdinary → one.Alike other)
        (one.fetchOpening? .strict token) (other.fetchOpening? .lenient token) :=
    fun strange _ found _ _ ordinary =>
      absurd ordinary (not_isOrdinary_of_fetchOpening? strange found)
  have naming : ∀ {token : List Char → Token}, (∀ name, (token name).isOrdinary = false) →
      Agree (fun one other => one.IsOrdinary → one.Alike other)
        (one.fetchAnchor? .strict token) (other.fetchAnchor? .lenient token) :=
    fun strange _ found _ _ ordinary =>
      absurd ordinary (not_isOrdinary_of_fetchAnchor? strange found)
  have common := alike.common
  have commonRest := common
  unfold Cursor.IsCommon at commonRest
  rw [here] at commonRest
  have lined : c ≠ '\n' → (one.cursor.skip 1).IsLined :=
    (Cursor.IsLined.of_cons common here).skip_one here
  have keyMark : other.isKeyMark .lenient rest = one.isKeyMark .strict rest := by
    rw [isKeyMark, isKeyMark, alike.inFlow_eq, alike.inFlowToo_eq, commonRest.tail.atGap_eq]
    rfl
  have valueMark : other.isValueMark .lenient rest = one.isValueMark .strict rest := by
    rw [isValueMark, isValueMark, alike.inFlow_eq, alike.inFlowToo_eq, commonRest.tail.atGap_eq]
    rfl
  unfold fetch?
  dsimp only
  rw [alike.cursor_eq, common.atMarker_eq, common.atMarker_eq, commonRest.tail.atGap_eq, keyMark,
    valueMark, alike.inFlow_eq, alike.inFlowToo_eq]
  refine .ite (fun _ => always alike.agree_fetchDirective?) fun _ => ?_
  refine .ite (fun _ => always alike.agree_fetchDocumentStart?) fun _ => ?_
  refine .ite (fun _ => always alike.agree_fetchDocumentEnd?) fun _ => .guard ?_
  refine .ite (fun _ => opening rfl) fun _ => .ite (fun _ => opening rfl) fun _ => ?_
  refine .ite (fun _ => always (alike.agree_fetchClosing? _)) fun _ => ?_
  refine .ite (fun _ => always (alike.agree_fetchClosing? _)) fun _ => ?_
  refine .ite (fun _ => always alike.agree_fetchFlowEntry) fun _ => ?_
  refine .ite (fun _ => always alike.agree_fetchBlockEntry) fun _ => ?_
  refine .ite (fun _ => always alike.agree_fetchKey?) fun _ => ?_
  refine .ite (fun _ => always alike.agree_fetchValue?) fun _ => ?_
  refine .ite (fun _ => naming fun _ => rfl) fun _ => ?_
  refine .ite (fun _ => naming fun _ => rfl) fun _ => ?_
  refine .ite (fun _ => always alike.agree_fetchTag?) fun _ => ?_
  refine .ite (fun literal => ?_) fun notLiteral => .ite (fun folded => ?_) fun notFolded => ?_
  · exact always (alike.agree_fetchBlock? _ (lined (by rw [literal.1]; decide)))
  · exact always (alike.agree_fetchBlock? _ (lined (by rw [folded.1]; decide)))
  refine .ite (fun _ => always (alike.agree_fetchQuoted? _)) fun _ => ?_
  refine .ite (fun _ => always (alike.agree_fetchQuoted? _)) fun _ => ?_
  have noBlock : ∀ looseFlow : Bool, ¬((c = '|' ∨ c = '>') ∧ looseFlow = true) := by
    rintro _ ⟨literal | folded, -⟩
    · exact notLiteral ⟨literal, rfl⟩
    · exact notFolded ⟨folded, rfl⟩
  rw [if_neg (noBlock Dialect.strict.looseFlow), if_neg (noBlock Dialect.lenient.looseFlow)]
  exact .ite (fun _ => .none_left) fun _ => always alike.agree_fetchPlain?

theorem agree_finish? {one other : Scanner} (alike : one.Alike other) :
    Agree Eq one.finish? other.finish? :=
  .map (alike.unroll (-1)).agree_dropKey? fun one other alike => by rw [alike.same]

/-- Two readings of a text give the same tokens if those of the narrow one are ordinary. -/
theorem agree_run? {fuel : Nat} {one other : Scanner} (alike : one.Alike other) :
    Agree (fun tokens tokensToo => (∀ token ∈ tokens, token.isOrdinary = true) → tokens = tokensToo)
      (run? .strict fuel one) (run? .lenient fuel other) := by
  induction fuel generalizing one other with
  | zero => exact .none_left
  | succ fuel ih =>
    unfold run?
    dsimp only
    rw [alike.cursor_eq]
    refine .bind (agree_skipGap? alike _ _) fun one other alike => ?_
    refine .bind alike.agree_dropStale? fun one other alike => ?_
    have unrolled := alike.unroll one.cursor.column
    rw [alike.cursor_eq, unrolled.cursor_eq]
    split
    · exact (agree_finish? unrolled).imp fun _ _ same _ => same
    · next c rest here =>
      intro tokens done tokensToo doneToo ordinary
      obtain ⟨next, isNext, done⟩ := Option.bind_eq_some_iff.1 done
      obtain ⟨nextToo, isNextToo, doneToo⟩ := Option.bind_eq_some_iff.1 doneToo
      have kept := subset_run? next .strict done
      have nextAlike := unrolled.agree_fetch? here next isNext nextToo isNextToo
        fun token inside => ordinary token (kept inside)
      exact ih nextAlike tokens done tokensToo doneToo ordinary

end Scanner

end QuotaGate.Yaml
