import QuotaGate.Proofs.Yaml.Tokens
import QuotaGate.Yaml.Node

/-!
# Documents that two readers have in common

The nodes of a document follow from its tokens, and here the lenient reader only takes more than the
narrow one: what both find in the same tokens is the same. So a text is the same documents for both
wherever it is the same tokens, as it is if it is written in blocks.

Results:
1. `Composer.agreeAt`: the nodes of tokens.
2. `Composer.agree_documents?`: the documents of tokens.
3. `IsBlockStyle.isReadAlike`: the documents of a text in blocks.
-/

namespace QuotaGate.Yaml

/-! ## Tokens -/

theorem agree_characters? (chars : List Char) :
    Agree (fun one other => one = chars ∧ other = chars) (Dialect.strict.characters? chars)
      (Dialect.lenient.characters? chars) := by
  intro one found other foundToo
  have printable : chars.all isPrintable = true ∧ chars = one := by
    change (if chars.all isPrintable = true then some chars else none) = some one at found
    rwa [Option.ite_none_right_eq_some, Option.some_inj] at found
  obtain ⟨all, rfl⟩ := printable
  cases foundToo
  refine ⟨rfl, List.takeWhile_eq_self_iff.2 fun c member => ?_⟩
  have isPrintable := List.all_eq_true.1 all c member
  rw [bne_iff_ne]
  intro zero
  rw [← Char.ofNat_toNat c, zero] at isPrintable
  exact absurd isPrintable (by decide)

/-- The tokens of a text whose characters mean the same to both readers. -/
theorem Token.agree_scan? {chars : List Char} (common : AreCommon chars) :
    Agree (fun tokens tokensToo => (∀ token ∈ tokens, token.isOrdinary = true) → tokens = tokensToo)
      (scan? .strict chars) (scan? .lenient chars) := by
  refine .bind (agree_characters? chars) ?_
  rintro _ _ ⟨rfl, rfl⟩
  exact Scanner.agree_run? ⟨rfl, rfl, common⟩

/-! ## Nodes -/

namespace Composer

/-- That both readers find the same nodes in tokens, as far as some fuel goes. -/
structure AgreeAt (fuel : Nat) : Prop where
  node : ∀ block indentless composer, Agree Eq (node? .strict fuel block indentless composer)
    (node? .lenient fuel block indentless composer)
  content : ∀ block indentless properties composer,
    Agree Eq (content? .strict fuel block indentless properties composer)
      (content? .lenient fuel block indentless properties composer)
  omitted : ∀ block indentless stops composer,
    Agree Eq (optional? .strict fuel block indentless stops composer)
      (optional? .lenient fuel block indentless stops composer)
  value : ∀ block indentless stops composer,
    Agree Eq (value? .strict fuel block indentless stops composer)
      (value? .lenient fuel block indentless stops composer)
  blockItems : ∀ composer,
    Agree Eq (blockItems? .strict fuel composer) (blockItems? .lenient fuel composer)
  indentlessItems : ∀ composer,
    Agree Eq (indentlessItems? .strict fuel composer) (indentlessItems? .lenient fuel composer)
  blockEntries : ∀ composer,
    Agree Eq (blockEntries? .strict fuel composer) (blockEntries? .lenient fuel composer)
  flowItems : ∀ first composer,
    Agree Eq (flowItems? .strict fuel first composer) (flowItems? .lenient fuel first composer)
  flowEntries : ∀ first composer,
    Agree Eq (flowEntries? .strict fuel first composer) (flowEntries? .lenient fuel first composer)

theorem agreeAt_zero : AgreeAt 0 where
  node _ _ _ := .none_left
  content _ _ _ _ := .none_left
  omitted _ _ _ _ := .none_left
  value _ _ _ _ := .none_left
  blockItems _ := .none_left
  indentlessItems _ := .none_left
  blockEntries _ := .none_left
  flowItems _ _ := .none_left
  flowEntries _ _ := .none_left

section Step

variable {fuel : Nat} (ih : AgreeAt fuel)
include ih

theorem agree_node? (block indentless : Bool) (composer : Composer) :
    Agree Eq (node? .strict (fuel + 1) block indentless composer)
      (node? .lenient (fuel + 1) block indentless composer) := by
  unfold node?
  split
  · exact .refl _
  · refine .bind_same _ fun ⟨properties, composer⟩ => ?_
    refine .bind_eq (ih.content _ _ _ _) fun ⟨node, composer⟩ => ?_
    exact .some rfl

theorem agree_content? (block indentless : Bool) (properties : Properties) (composer : Composer) :
    Agree Eq (content? .strict (fuel + 1) block indentless properties composer)
      (content? .lenient (fuel + 1) block indentless properties composer) := by
  unfold content?
  split
  · exact .ite (fun _ => .map_eq (ih.indentlessItems _) _) fun _ =>
      .refl _
  · exact .some rfl
  · exact .map_eq (ih.flowItems _ _) _
  · exact .map_eq (ih.flowEntries _ _) _
  · exact .ite (fun _ => .map_eq (ih.blockItems _) _) fun _ => .refl _
  · exact .ite (fun _ => .map_eq (ih.blockEntries _) _) fun _ => .refl _
  · exact .refl _

theorem agree_optional? (block indentless : Bool) (stops : List Token) (composer : Composer) :
    Agree Eq (optional? .strict (fuel + 1) block indentless stops composer)
      (optional? .lenient (fuel + 1) block indentless stops composer) :=
  .ite (fun _ => .some rfl) fun _ => ih.node _ _ _

theorem agree_value? (block indentless : Bool) (stops : List Token) (composer : Composer) :
    Agree Eq (value? .strict (fuel + 1) block indentless stops composer)
      (value? .lenient (fuel + 1) block indentless stops composer) := by
  unfold value?
  split
  · exact ih.omitted _ _ _ _
  · exact .some rfl

theorem agree_blockItems? (composer : Composer) :
    Agree Eq (blockItems? .strict (fuel + 1) composer)
      (blockItems? .lenient (fuel + 1) composer) := by
  unfold blockItems?
  split
  · refine .bind_eq (ih.omitted _ _ _ _) fun ⟨item, composer⟩ => ?_
    refine .bind_eq (ih.blockItems _) fun ⟨items, composer⟩ => ?_
    exact .some rfl
  · exact .some rfl
  · exact .none_left

theorem agree_indentlessItems? (composer : Composer) :
    Agree Eq (indentlessItems? .strict (fuel + 1) composer)
      (indentlessItems? .lenient (fuel + 1) composer) := by
  unfold indentlessItems?
  split
  · refine .bind_eq (ih.omitted _ _ _ _) fun ⟨item, composer⟩ => ?_
    refine .bind_eq (ih.indentlessItems _) fun ⟨items, composer⟩ => ?_
    exact .some rfl
  · exact .some rfl

/-- An entry that begins with its value is an error for the narrow reader. -/
theorem agree_blockEntries? (composer : Composer) :
    Agree Eq (blockEntries? .strict (fuel + 1) composer)
      (blockEntries? .lenient (fuel + 1) composer) := by
  unfold blockEntries?
  dsimp only
  split
  · refine .bind_eq (ih.omitted _ _ _ _) fun ⟨key, composer⟩ => ?_
    refine .bind_eq (ih.value _ _ _ _) fun ⟨value, composer⟩ => ?_
    refine .bind_eq (ih.blockEntries _) fun ⟨entries, composer⟩ => ?_
    exact .some rfl
  · exact .none_left
  · exact .some rfl
  · exact .none_left

theorem agree_flowItems? (first : Bool) (composer : Composer) :
    Agree Eq (flowItems? .strict (fuel + 1) first composer)
      (flowItems? .lenient (fuel + 1) first composer) := by
  unfold flowItems?
  split
  · exact .some rfl
  · refine .bind_same _ fun composer => ?_
    dsimp only
    split
    · exact .some rfl
    · refine .bind_eq (ih.omitted _ _ _ _) fun ⟨key, composer⟩ => ?_
      refine .bind_eq (ih.value _ _ _ _) fun ⟨value, composer⟩ => ?_
      refine .bind_eq (ih.flowItems _ _) fun ⟨items, composer⟩ => ?_
      exact .some rfl
    · refine .bind_eq (ih.node _ _ _) fun ⟨item, composer⟩ => ?_
      refine .bind_eq (ih.flowItems _ _) fun ⟨items, composer⟩ => ?_
      exact .some rfl

theorem agree_flowEntries? (first : Bool) (composer : Composer) :
    Agree Eq (flowEntries? .strict (fuel + 1) first composer)
      (flowEntries? .lenient (fuel + 1) first composer) := by
  unfold flowEntries?
  split
  · exact .some rfl
  · refine .bind_same _ fun composer => ?_
    dsimp only
    split
    · exact .some rfl
    · refine .bind_eq (ih.omitted _ _ _ _) fun ⟨key, composer⟩ => ?_
      refine .bind_eq (ih.value _ _ _ _) fun ⟨value, composer⟩ => ?_
      refine .bind_eq (ih.flowEntries _ _) fun ⟨entries, composer⟩ => ?_
      exact .some rfl
    · exact .none_left
    · refine .bind_eq (ih.node _ _ _) fun ⟨key, composer⟩ => ?_
      refine .bind_eq (ih.flowEntries _ _) fun ⟨entries, composer⟩ => ?_
      exact .some rfl

end Step

/-- Whatever nodes both readers find in tokens are the same. -/
theorem agreeAt (fuel : Nat) : AgreeAt fuel := by
  induction fuel with
  | zero => exact agreeAt_zero
  | succ fuel ih =>
    exact ⟨agree_node? ih, agree_content? ih, agree_optional? ih, agree_value? ih,
      agree_blockItems? ih, agree_indentlessItems? ih, agree_blockEntries? ih, agree_flowItems? ih,
      agree_flowEntries? ih⟩

/-! ## Documents -/

theorem agree_directives? (versioned : Bool) (handles : List (List Char × List Char))
    (tokens : List Token) :
    Agree Eq (directives? .strict versioned handles tokens)
      (directives? .lenient versioned handles tokens) := by
  induction tokens generalizing versioned handles with
  | nil => exact .some rfl
  | cons token tokens ih =>
    cases token with
    | version major minor => exact .guard (ih _ _)
    | handle name replacement => exact .ite (fun _ => .none_left) fun _ => ih _ _
    | _ => exact .some rfl

theorem agree_document? (shared : Bool) (handles : List (List Char × List Char))
    (tokens : List Token) :
    Agree Eq (document? .strict shared handles tokens)
      (document? .lenient shared handles tokens) := by
  refine .ite (fun _ => .some rfl) fun _ => ?_
  exact .map_eq ((agreeAt _).node _ _ _) _

theorem documents?_documentEnd (shared : Bool) (fuel : Nat) (tokens : List Token) :
    documents? .strict shared fuel true (.documentEnd :: tokens) = none := by
  cases fuel <;> rfl

/-- The tokens that documents begin with are the same for both readers, unless the narrow one finds
the end of a document before the first. -/
theorem dropWhile_leadingEnds (first : Bool) {tokens : List Token}
    (begins : first = true → ∀ rest, tokens ≠ .documentEnd :: rest) :
    (if first && !Dialect.lenient.leadingEnds then tokens
      else tokens.dropWhile (· = .documentEnd)) =
    if first && !Dialect.strict.leadingEnds then tokens
      else tokens.dropWhile (· = .documentEnd) := by
  cases first with
  | false => rfl
  | true =>
    change tokens.dropWhile (· = .documentEnd) = tokens
    cases tokens with
    | nil => rfl
    | cons token rest =>
      refine List.dropWhile_cons_of_neg fun isEnd => ?_
      exact begins rfl rest (congrArg (· :: rest) (of_decide_eq_true isEnd))

theorem agree_documents? (shared : Bool) (fuel : Nat) (first : Bool) (tokens : List Token) :
    Agree Eq (documents? .strict shared fuel first tokens)
      (documents? .lenient shared fuel first tokens) := by
  induction fuel generalizing first tokens with
  | zero => exact .none_left
  | succ fuel ih =>
    by_cases begins : first = true → ∀ rest, tokens ≠ .documentEnd :: rest
    · have goOn : ∀ {one other : Option (Document × List Token)}, Agree Eq one other →
          Agree Eq
            (one.bind fun read =>
              (documents? .strict shared fuel false read.2).bind fun documents =>
                some (read.1 :: documents))
            (other.bind fun read =>
              (documents? .lenient shared fuel false read.2).bind fun documents =>
                some (read.1 :: documents)) := by
        intro one other agree
        refine .bind_eq agree fun ⟨document, rest⟩ => ?_
        refine .bind_eq (ih _ _) fun documents => ?_
        exact .some rfl
      unfold documents?
      rw [dropWhile_leadingEnds first begins]
      dsimp only
      generalize (if first && !Dialect.strict.leadingEnds then tokens
        else tokens.dropWhile (· = .documentEnd)) = begun
      split
      · exact .some rfl
      · next token rest =>
        refine .ite (fun _ => goOn .none_left) fun _ => ?_
        refine .ite (fun _ => goOn (agree_document? _ _ _)) fun _ => ?_
        have agree := agree_directives? false [] (token :: rest)
        generalize directives? .strict false [] (token :: rest) = found at agree ⊢
        generalize directives? .lenient false [] (token :: rest) = foundToo at agree ⊢
        rcases found with _ | ⟨handles, after⟩
        · exact .none_left
        rcases foundToo with _ | ⟨handlesToo, afterToo⟩
        · exact .none_right
        cases agree _ rfl _ rfl
        split
        · exact goOn (agree_document? _ _ _)
        · exact .none_left
    · rw [Classical.not_imp] at begins
      obtain ⟨rfl, begins⟩ := begins
      obtain ⟨rest, ends⟩ := Classical.not_forall.1 begins
      rw [not_not.1 ends, documents?_documentEnd]
      exact .none_left

end Composer

/-! ## Texts -/

/-- That a text that both readers take is the same documents for both. -/
def IsReadAlike (text : String) : Prop :=
  Agree Eq (Document.ofText? .strict text) (Document.ofText? .lenient text)

/-- That a text has only characters that mean the same to both readers, ends its last line, and is
written without brackets and names. -/
structure IsBlockStyle (text : String) : Prop where
  common : AreCommon text.toList
  ordinary : ∀ tokens ∈ Token.scan? .strict text.toList, ∀ token ∈ tokens,
    token.isOrdinary = true

theorem IsBlockStyle.isReadAlike {text : String} (style : IsBlockStyle text) :
    IsReadAlike text := by
  intro documents found documentsToo foundToo
  obtain ⟨tokens, scanned, found⟩ := Option.bind_eq_some_iff.1 found
  obtain ⟨tokensToo, scannedToo, foundToo⟩ := Option.bind_eq_some_iff.1 foundToo
  have same := Token.agree_scan? style.common tokens scanned tokensToo scannedToo
    (style.ordinary tokens scanned)
  subst same
  have unnamed : Composer.givenNames tokens = [] := by
    refine List.filterMap_eq_nil_iff.2 fun token member => ?_
    have ordinary := style.ordinary tokens scanned token member
    cases token with
    | anchor name => cases ordinary
    | _ => rfl
  rw [unnamed] at found foundToo
  exact Composer.agree_documents? false _ true tokens documents found documentsToo foundToo

end QuotaGate.Yaml
