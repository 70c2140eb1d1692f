import QuotaGate.Proofs.Json.Lexemes

/-!
# Documents

The grammar of documents, said without the reader: words, numbers and strings; arrays and objects
with their items and members separated by commas; and space around every token. A document is one
value with space around it.

The reader takes fuel, because it calls itself on what it has not read yet. The fuel it is given is
enough for every document, of any depth, so it does not show: exactly the documents are read, and
each as the value it spells.

Results:
1. `Spells.isRead`: what is spelled is read, with fuel for twice its length.
2. `Written.isSound`: what is read is spelled.
3. `Written.ofBytes?_eq_some_iff`: the bytes that are read are the documents.
-/

namespace QuotaGate.Json

/-- The parts of which a document is made. -/
inductive Part where
  | value (written : Written)
  /-- A value with the space around it. -/
  | item (written : Written)
  | items (items : List Written)
  | member (name : List Piece) (written : Written)
  | members (members : List (List Piece × Written))

/-- How the parts of a document are spelled. -/
inductive Spells : Part → Bytes → Prop
  | null : Spells (.value .null) (Written.ascii "null")
  | yes : Spells (.value (.bool true)) (Written.ascii "true")
  | no : Spells (.value (.bool false)) (Written.ascii "false")
  | number {numeral : Numeral} {spelled : Bytes} :
      SpellsNumeral numeral spelled → Spells (.value (.number numeral)) spelled
  | text {pieces : List Piece} {spelled : Bytes} :
      SpellsPieces pieces spelled → Spells (.value (.text pieces)) (0x22 :: (spelled ++ [0x22]))
  | emptyArray {space : Bytes} :
      IsSpace space → Spells (.value (.array [])) (0x5B :: (space ++ [0x5D]))
  | array {items : List Written} {spelled : Bytes} :
      Spells (.items items) spelled → Spells (.value (.array items)) (0x5B :: (spelled ++ [0x5D]))
  | emptyObject {space : Bytes} :
      IsSpace space → Spells (.value (.object [])) (0x7B :: (space ++ [0x7D]))
  | object {members : List (List Piece × Written)} {spelled : Bytes} :
      Spells (.members members) spelled →
      Spells (.value (.object members)) (0x7B :: (spelled ++ [0x7D]))
  | item {written : Written} {before spelled after : Bytes} :
      IsSpace before → Spells (.value written) spelled → IsSpace after →
      Spells (.item written) (before ++ (spelled ++ after))
  | lastItem {written : Written} {spelled : Bytes} :
      Spells (.item written) spelled → Spells (.items [written]) spelled
  | nextItem {written : Written} {items : List Written} {spelled others : Bytes} :
      Spells (.item written) spelled → Spells (.items items) others →
      Spells (.items (written :: items)) (spelled ++ 0x2C :: others)
  | member {name : List Piece} {written : Written} {before spelledName between spelled : Bytes} :
      IsSpace before → SpellsPieces name spelledName → IsSpace between →
      Spells (.item written) spelled →
      Spells (.member name written)
        (before ++ 0x22 :: (spelledName ++ 0x22 :: (between ++ 0x3A :: spelled)))
  | lastMember {name : List Piece} {written : Written} {spelled : Bytes} :
      Spells (.member name written) spelled → Spells (.members [(name, written)]) spelled
  | nextMember {name : List Piece} {written : Written} {members : List (List Piece × Written)}
      {spelled others : Bytes} :
      Spells (.member name written) spelled → Spells (.members members) others →
      Spells (.members ((name, written) :: members)) (spelled ++ 0x2C :: others)

/-- The bytes of a document: one value with space around it. -/
def IsDocument (written : Written) (bytes : Bytes) : Prop := Spells (.item written) bytes

namespace Written

variable {bytes rest : Bytes}

/-! ## Words -/

theorem word?_ascii (word : String) (rest : Bytes) :
    word? word (ascii word ++ rest) = some rest := by
  unfold word?
  rw [if_pos (List.isPrefixOf_iff_prefix.2 (List.prefix_append _ rest)), List.drop_left]

theorem eq_of_word? {word : String} (found : word? word bytes = some rest) :
    bytes = ascii word ++ rest := by
  unfold word? at found
  split at found
  · next begins =>
    obtain ⟨after, rfl⟩ := List.isPrefixOf_iff_prefix.1 begins
    rw [List.drop_left] at found
    rw [Option.some.inj found]
  · exact nomatch found

theorem ascii_null : ascii "null" = 0x6E :: ascii "ull" := by decide
theorem ascii_true : ascii "true" = 0x74 :: ascii "rue" := by decide
theorem ascii_false : ascii "false" = 0x66 :: ascii "alse" := by decide

/-! ## The reader's steps -/

theorem skipSpace_cons {byte : UInt8} (solid : isSpace byte = false) (rest : Bytes) :
    skipSpace (byte :: rest) = byte :: rest :=
  dropWhile_of_stops (stops_cons_iff.2 solid)

theorem skipSpace_skipSpace (bytes : Bytes) : skipSpace (skipSpace bytes) = skipSpace bytes :=
  dropWhile_of_stops (stops_dropWhile isSpace bytes)

theorem value?_skipSpace (fuel : Nat) (bytes : Bytes) :
    value? fuel (skipSpace bytes) = value? fuel bytes := by
  cases fuel with
  | zero => rw [value?, value?]
  | succ fuel =>
    unfold value?
    rw [skipSpace_skipSpace]

theorem items?_skipSpace (fuel : Nat) (bytes : Bytes) :
    items? fuel (skipSpace bytes) = items? fuel bytes := by
  cases fuel with
  | zero => rw [items?, items?]
  | succ fuel =>
    unfold items?
    rw [value?_skipSpace]

theorem members?_skipSpace (fuel : Nat) (bytes : Bytes) :
    members? fuel (skipSpace bytes) = members? fuel bytes := by
  cases fuel with
  | zero => rw [members?, members?]
  | succ fuel =>
    unfold members?
    rw [skipSpace_skipSpace]

theorem value?_append {space : Bytes} (blank : IsSpace space) (fuel : Nat) (bytes : Bytes) :
    value? fuel (space ++ bytes) = value? fuel bytes := by
  rw [← value?_skipSpace fuel (space ++ bytes), skipSpace_append blank, value?_skipSpace]

theorem ne_of_begins {byte mark : UInt8} (begins : byte = 0x2D ∨ isDigit byte = true)
    (different : ¬(mark = 0x2D ∨ isDigit mark = true)) : byte ≠ mark := by
  rintro rfl
  exact different begins

theorem isSpace_of_begins {byte : UInt8} (begins : byte = 0x2D ∨ isDigit byte = true) :
    isSpace byte = false := by
  refine Bool.eq_false_iff.2 fun blank => ?_
  simp only [isSpace, Bool.or_eq_true, beq_iff_eq] at blank
  rcases blank with ((rfl | rfl) | rfl) | rfl
  all_goals exact absurd begins (by decide)

/-- What begins with a minus or a digit is read as a number. -/
theorem value?_number {byte : UInt8} (begins : byte = 0x2D ∨ isDigit byte = true) (fuel : Nat)
    (rest : Bytes) :
    value? (fuel + 1) (byte :: rest) =
      (numeral? (byte :: rest)).map fun read => (.number read.1, read.2) := by
  have solid := isSpace_of_begins begins
  have other {mark : UInt8} (different : ¬(mark = 0x2D ∨ isDigit mark = true)) : byte ≠ mark :=
    ne_of_begins begins different
  unfold value?
  rw [skipSpace_cons solid]
  split
  · next same => exact nomatch same
  · next same => exact absurd (List.cons.inj same).1 (other (by decide))
  · next same => exact absurd (List.cons.inj same).1 (other (by decide))
  · next same => exact absurd (List.cons.inj same).1 (other (by decide))
  · next same => exact absurd (List.cons.inj same).1 (other (by decide))
  · next same => exact absurd (List.cons.inj same).1 (other (by decide))
  · next same => exact absurd (List.cons.inj same).1 (other (by decide))
  · rfl

theorem value?_text (fuel : Nat) (rest : Bytes) :
    value? (fuel + 1) (0x22 :: rest) =
      (pieces? rest).map fun read => (.text read.1, read.2) := rfl

theorem value?_null (fuel : Nat) (rest : Bytes) :
    value? (fuel + 1) (0x6E :: rest) = (word? "ull" rest).map fun rest => (.null, rest) := rfl

theorem value?_true (fuel : Nat) (rest : Bytes) :
    value? (fuel + 1) (0x74 :: rest) = (word? "rue" rest).map fun rest => (.bool true, rest) := rfl

theorem value?_false (fuel : Nat) (rest : Bytes) :
    value? (fuel + 1) (0x66 :: rest) =
      (word? "alse" rest).map fun rest => (.bool false, rest) := rfl

theorem value?_bracket (fuel : Nat) (bytes : Bytes) :
    value? (fuel + 1) (0x5B :: bytes) =
      match skipSpace bytes with
      | 0x5D :: rest => some (.array [], rest)
      | rest => (items? fuel rest).map fun (items, rest) => (.array items, rest) := rfl

theorem value?_brace (fuel : Nat) (bytes : Bytes) :
    value? (fuel + 1) (0x7B :: bytes) =
      match skipSpace bytes with
      | 0x7D :: rest => some (.object [], rest)
      | rest => (members? fuel rest).map fun (members, rest) => (.object members, rest) := rfl

theorem value?_items (unclosed : ∀ rest, skipSpace bytes ≠ 0x5D :: rest) (fuel : Nat) :
    value? (fuel + 1) (0x5B :: bytes) =
      (items? fuel bytes).map fun read => (.array read.1, read.2) := by
  rw [value?_bracket]
  split
  · next rest closed => exact absurd closed (unclosed rest)
  · rw [items?_skipSpace]

theorem value?_members (unclosed : ∀ rest, skipSpace bytes ≠ 0x7D :: rest) (fuel : Nat) :
    value? (fuel + 1) (0x7B :: bytes) =
      (members? fuel bytes).map fun read => (.object read.1, read.2) := by
  rw [value?_brace]
  split
  · next rest closed => exact absurd closed (unclosed rest)
  · rw [members?_skipSpace]

/-- Reads one member of an object. -/
def member? (fuel : Nat) (bytes : Bytes) : Option ((List Piece × Written) × Bytes) :=
  match skipSpace bytes with
  | 0x22 :: rest => do
    let (name, rest) ← pieces? rest
    match skipSpace rest with
    | 0x3A :: rest => (value? fuel rest).map fun read => ((name, read.1), read.2)
    | _ => none
  | _ => none

/-- Reads on after one element of a listing: up to the mark that closes the listing, or past a comma
and through the other elements. -/
def readOn? {α : Type} (closing : UInt8) (others? : Bytes → Option (List α × Bytes))
    (read : α × Bytes) : Option (List α × Bytes) :=
  match skipSpace read.2 with
  | byte :: rest =>
    if byte = closing then some ([read.1], rest)
    else if byte = 0x2C then (others? rest).map fun others => (read.1 :: others.1, others.2)
    else none
  | [] => none

section ReadOn

variable {α : Type} (others? : Bytes → Option (List α × Bytes)) (read : α × Bytes)

theorem readOn?_bracket : readOn? 0x5D others? read =
    match skipSpace read.2 with
    | 0x5D :: rest => some ([read.1], rest)
    | 0x2C :: rest => (others? rest).map fun others => (read.1 :: others.1, others.2)
    | _ => none := by
  unfold readOn?
  grind

theorem readOn?_brace : readOn? 0x7D others? read =
    match skipSpace read.2 with
    | 0x7D :: rest => some ([read.1], rest)
    | 0x2C :: rest => (others? rest).map fun others => (read.1 :: others.1, others.2)
    | _ => none := by
  unfold readOn?
  grind

end ReadOn

/-- How a listing is read: one element after another, with commas between them and a mark at the
end. -/
structure ReadsListing {α : Type} (closing : UInt8) (element? : Nat → Bytes → Option (α × Bytes))
    (elements? : Nat → Bytes → Option (List α × Bytes)) : Prop where
  solid : isSpace closing = false
  different : 0x2C ≠ closing
  ends : ∀ rest, EndsValue (closing :: rest)
  step : ∀ fuel bytes, elements? (fuel + 1) bytes =
    (element? fuel bytes).bind (readOn? closing (elements? fuel))

theorem readsItems : ReadsListing 0x5D value? items? where
  solid := rfl
  different := by decide
  ends := endsValue_bracket
  step fuel bytes := by
    rw [items?, funext (readOn?_bracket (items? fuel))]
    rfl

theorem readsMembers : ReadsListing 0x7D member? members? where
  solid := rfl
  different := by decide
  ends := endsValue_brace
  step fuel bytes := by
    rw [members?, member?, funext (readOn?_brace (members? fuel))]
    generalize skipSpace bytes = opened
    split
    · next rest =>
      show (pieces? rest).bind _ = ((pieces? rest).bind _).bind _
      rw [Option.bind_assoc]
      refine congrArg (Option.bind (pieces? rest)) (funext fun read => ?_)
      dsimp only
      generalize skipSpace read.2 = afterName
      split
      · next rest =>
        show (value? fuel rest).bind _ = ((value? fuel rest).map _).bind _
        rw [Option.bind_map]
        rfl
      · simp only [Option.bind_none]
    · simp only [Option.bind_none]

/-- What a listing that is read begins with: an element, and space up to the end of the listing or
to a comma with the other elements behind it. -/
theorem ReadsListing.exists_of_eq_some {α : Type} {closing : UInt8}
    {element? : Nat → Bytes → Option (α × Bytes)}
    {elements? : Nat → Bytes → Option (List α × Bytes)}
    (reads : ReadsListing closing element? elements?) {fuel : Nat} {elements : List α}
    (found : elements? (fuel + 1) bytes = some (elements, rest)) :
    ∃ element space remaining, element? fuel bytes = some (element, space ++ remaining) ∧
      IsSpace space ∧ ((elements = [element] ∧ remaining = closing :: rest) ∨
        ∃ others after, elements = element :: others ∧ remaining = 0x2C :: after ∧
          elements? fuel after = some (others, rest)) := by
  rw [reads.step] at found
  obtain ⟨⟨element, afterElement⟩, readElement, goesOn⟩ := Option.bind_eq_some_iff.1 found
  obtain ⟨space, blank, split⟩ := exists_space afterElement
  rw [split] at readElement
  refine ⟨element, space, _, readElement, blank, ?_⟩
  unfold readOn? at goesOn
  dsimp only at goesOn
  split at goesOn
  · next byte after opened =>
    rw [opened]
    split at goesOn
    · next closed =>
      obtain ⟨rfl, rfl⟩ := Prod.mk.inj (Option.some.inj goesOn)
      exact .inl ⟨rfl, by rw [closed]⟩
    · split at goesOn
      · next comma =>
        obtain ⟨⟨others, remaining⟩, readOthers, same⟩ := Option.map_eq_some_iff.1 goesOn
        obtain ⟨rfl, rfl⟩ := Prod.mk.inj same
        exact .inr ⟨others, after, rfl, by rw [comma], readOthers⟩
      · exact nomatch goesOn
  · exact nomatch goesOn

end Written

/-! ## What is spelled is read -/

open Written in
/-- That a part is read where it is spelled, with fuel for twice its length. -/
def IsRead : Part → Bytes → Prop
  | .value written, spelled => ∀ fuel rest, 2 * spelled.length ≤ fuel → EndsValue rest →
      value? fuel (spelled ++ rest) = some (written, rest)
  | .item written, spelled => ∀ fuel rest, 2 * spelled.length ≤ fuel → EndsValue rest →
      ∃ space, IsSpace space ∧ value? fuel (spelled ++ rest) = some (written, space ++ rest)
  | .items items, spelled => ∀ fuel rest, 2 * spelled.length + 1 ≤ fuel →
      items? fuel (spelled ++ 0x5D :: rest) = some (items, rest)
  | .member name written, spelled => ∀ fuel rest, 2 * spelled.length ≤ fuel → EndsValue rest →
      ∃ space, IsSpace space ∧
        member? fuel (spelled ++ rest) = some ((name, written), space ++ rest)
  | .members members, spelled => ∀ fuel rest, 2 * spelled.length + 1 ≤ fuel →
      members? fuel (spelled ++ 0x7D :: rest) = some (members, rest)

/-- What begins, after space, with a byte that closes no bracket. -/
def IsOpen (spelled : Bytes) : Prop :=
  ∃ space first after, IsSpace space ∧ Written.isSpace first = false ∧ first ≠ 0x5D ∧
    first ≠ 0x7D ∧ spelled = space ++ first :: after

theorem IsOpen.of_first {first : UInt8} (after : Bytes) (solid : Written.isSpace first = false)
    (noBracket : first ≠ 0x5D) (noBrace : first ≠ 0x7D) : IsOpen (first :: after) :=
  ⟨[], first, after, Written.isSpace_nil, solid, noBracket, noBrace, rfl⟩

theorem IsOpen.append {spelled : Bytes} (isOpen : IsOpen spelled) (rest : Bytes) :
    IsOpen (spelled ++ rest) := by
  obtain ⟨space, first, after, blank, solid, noBracket, noBrace, rfl⟩ := isOpen
  refine ⟨space, first, after ++ rest, blank, solid, noBracket, noBrace, ?_⟩
  rw [List.append_assoc, List.cons_append]

theorem IsOpen.after {space spelled : Bytes} (blank : IsSpace space) (isOpen : IsOpen spelled) :
    IsOpen (space ++ spelled) := by
  obtain ⟨others, first, after, blankToo, solid, noBracket, noBrace, rfl⟩ := isOpen
  refine ⟨space ++ others, first, after, ?_, solid, noBracket, noBrace, ?_⟩
  · exact List.forall_mem_append.2 ⟨blank, blankToo⟩
  · rw [List.append_assoc]

theorem IsOpen.skipSpace_ne {spelled : Bytes} (isOpen : IsOpen spelled) (rest : Bytes) :
    Written.skipSpace spelled ≠ 0x5D :: rest ∧ Written.skipSpace spelled ≠ 0x7D :: rest := by
  obtain ⟨space, first, after, blank, solid, noBracket, noBrace, rfl⟩ := isOpen
  rw [Written.skipSpace_append blank, Written.skipSpace_cons solid]
  exact ⟨fun same => noBracket (List.cons.inj same).1, fun same => noBrace (List.cons.inj same).1⟩

/-- A part does not begin like the end of one. -/
theorem Spells.isOpen {part : Part} {spelled : Bytes} (spells : Spells part spelled) :
    IsOpen spelled := by
  induction spells with
  | null => exact .of_first _ (by decide) (by decide) (by decide)
  | yes => exact .of_first _ (by decide) (by decide) (by decide)
  | no => exact .of_first _ (by decide) (by decide) (by decide)
  | number spells =>
    obtain ⟨byte, after, begins, rfl⟩ := Written.exists_first_of_spellsNumeral spells
    exact .of_first after (Written.isSpace_of_begins begins)
      (Written.ne_of_begins begins (by decide)) (Written.ne_of_begins begins (by decide))
  | text _ => exact .of_first _ (by decide) (by decide) (by decide)
  | emptyArray _ => exact .of_first _ (by decide) (by decide) (by decide)
  | array _ _ => exact .of_first _ (by decide) (by decide) (by decide)
  | emptyObject _ => exact .of_first _ (by decide) (by decide) (by decide)
  | object _ _ => exact .of_first _ (by decide) (by decide) (by decide)
  | item before _ _ ih => exact (ih.append _).after before
  | lastItem _ ih => exact ih
  | nextItem _ _ ih _ => exact ih.append _
  | member before _ _ _ _ =>
    exact (IsOpen.of_first _ (by decide) (by decide) (by decide)).after before
  | lastMember _ ih => exact ih
  | nextMember _ _ ih _ => exact ih.append _

section Read

open Written

variable {spelled : Bytes} {fuel : Nat}

/-- The reader of a value looks at one byte at least. -/
theorem Spells.exists_fuel {part : Part} (spells : Spells part spelled)
    (enough : 2 * spelled.length ≤ fuel) : ∃ less, fuel = less + 2 := by
  obtain ⟨space, first, after, _, _, _, _, rfl⟩ := spells.isOpen
  rw [List.length_append, List.length_cons] at enough
  exact ⟨fuel - 2, by omega⟩

/-- The fuel that is left after one call. -/
theorem exists_less {needed : Nat} (enough : needed + 1 ≤ fuel) :
    ∃ less, fuel = less + 1 ∧ needed ≤ less := by
  obtain ⟨less, rfl⟩ := Nat.exists_eq_add_one.2 (Nat.lt_of_lt_of_le needed.succ_pos enough)
  exact ⟨less, rfl, Nat.le_of_succ_le_succ enough⟩

theorem isRead_array {items : List Written} (spells : Spells (.items items) spelled)
    (ih : IsRead (.items items) spelled) :
    IsRead (.value (.array items)) (0x5B :: (spelled ++ [0x5D])) := by
  intro fuel rest enough _
  rw [List.length_cons, List.length_append, List.length_singleton] at enough
  obtain ⟨less, rfl, left⟩ := exists_less enough
  rw [List.cons_append, List.append_assoc, List.singleton_append,
    value?_items fun after => ((spells.isOpen.append _).skipSpace_ne after).1,
    ih less rest (by omega)]
  rfl

theorem isRead_object {members : List (List Piece × Written)}
    (spells : Spells (.members members) spelled) (ih : IsRead (.members members) spelled) :
    IsRead (.value (.object members)) (0x7B :: (spelled ++ [0x7D])) := by
  intro fuel rest enough _
  rw [List.length_cons, List.length_append, List.length_singleton] at enough
  obtain ⟨less, rfl, left⟩ := exists_less enough
  rw [List.cons_append, List.append_assoc, List.singleton_append,
    value?_members fun after => ((spells.isOpen.append _).skipSpace_ne after).2,
    ih less rest (by omega)]
  rfl

theorem isRead_item {written : Written} {before after : Bytes} (blank : IsSpace before)
    (ih : IsRead (.value written) spelled) (blankAfter : IsSpace after) :
    IsRead (.item written) (before ++ (spelled ++ after)) := by
  intro fuel rest enough ends
  rw [List.length_append, List.length_append] at enough
  refine ⟨after, blankAfter, ?_⟩
  rw [List.append_assoc, List.append_assoc, value?_append blank]
  exact ih fuel _ (by omega) (endsValue_append blankAfter ends)

section Listing

variable {α : Type} {closing : UInt8} {element? : Nat → Bytes → Option (α × Bytes)}
  {elements? : Nat → Bytes → Option (List α × Bytes)} {element : α}

/-- That an element of a listing is read where it is spelled, up to the space after it. -/
def IsReadBy (element? : Nat → Bytes → Option (α × Bytes)) (element : α) (spelled : Bytes) : Prop :=
  ∀ fuel rest, 2 * spelled.length ≤ fuel → EndsValue rest →
    ∃ space, IsSpace space ∧ element? fuel (spelled ++ rest) = some (element, space ++ rest)

theorem Written.ReadsListing.last (reads : ReadsListing closing element? elements?)
    (one : IsReadBy element? element spelled) (fuel : Nat) (rest : Bytes)
    (enough : 2 * spelled.length + 1 ≤ fuel) :
    elements? fuel (spelled ++ closing :: rest) = some ([element], rest) := by
  obtain ⟨less, rfl, left⟩ := exists_less enough
  obtain ⟨space, blank, read⟩ := one less _ left (reads.ends rest)
  rw [reads.step, read, Option.bind_some]
  unfold readOn?
  rw [skipSpace_append blank, skipSpace_cons reads.solid]
  exact if_pos rfl

theorem Written.ReadsListing.next (reads : ReadsListing closing element? elements?)
    {elements : List α} {others : Bytes} (one : IsReadBy element? element spelled)
    (more : ∀ fuel rest, 2 * others.length + 1 ≤ fuel →
      elements? fuel (others ++ closing :: rest) = some (elements, rest))
    (fuel : Nat) (rest : Bytes) (enough : 2 * (spelled ++ 0x2C :: others).length + 1 ≤ fuel) :
    elements? fuel ((spelled ++ 0x2C :: others) ++ closing :: rest) =
      some (element :: elements, rest) := by
  rw [List.length_append, List.length_cons] at enough
  obtain ⟨less, rfl, left⟩ := exists_less enough
  obtain ⟨space, blank, read⟩ :=
    one less _ (by omega) (endsValue_comma (others ++ closing :: rest))
  rw [List.append_assoc, List.cons_append, reads.step, read, Option.bind_some]
  unfold readOn?
  rw [skipSpace_append blank, skipSpace_cons rfl]
  dsimp only
  rw [if_neg reads.different, if_pos rfl, more less rest (by omega)]
  rfl

end Listing

theorem isRead_member {name : List Piece} {written : Written}
    {before spelledName between : Bytes} (blank : IsSpace before)
    (named : SpellsPieces name spelledName) (blankBetween : IsSpace between)
    (ih : IsRead (.item written) spelled) :
    IsRead (.member name written)
      (before ++ 0x22 :: (spelledName ++ 0x22 :: (between ++ 0x3A :: spelled))) := by
  intro fuel rest enough ends
  simp only [List.length_append, List.length_cons] at enough
  obtain ⟨space, blankAfter, read⟩ := ih fuel rest (by omega) ends
  refine ⟨space, blankAfter, ?_⟩
  simp only [List.append_assoc, List.cons_append]
  unfold member?
  rw [skipSpace_append blank, skipSpace_cons rfl]
  show (pieces? _).bind _ = _
  rw [pieces?_of_spells named, Option.bind_some]
  dsimp only
  rw [skipSpace_append blankBetween, skipSpace_cons rfl]
  show (value? fuel _).map _ = _
  rw [read]
  rfl

/-- What is spelled is read, as what it spells and up to its end. -/
theorem Spells.isRead {part : Part} (spells : Spells part spelled) : IsRead part spelled := by
  -- A part is longer than the parts in it, and each byte pays for two calls.
  induction spells with
  | null =>
    intro fuel rest enough _
    obtain ⟨less, rfl⟩ := Spells.null.exists_fuel enough
    rw [ascii_null, List.cons_append, value?_null, word?_ascii]
    rfl
  | yes =>
    intro fuel rest enough _
    obtain ⟨less, rfl⟩ := Spells.yes.exists_fuel enough
    rw [ascii_true, List.cons_append, value?_true, word?_ascii]
    rfl
  | no =>
    intro fuel rest enough _
    obtain ⟨less, rfl⟩ := Spells.no.exists_fuel enough
    rw [ascii_false, List.cons_append, value?_false, word?_ascii]
    rfl
  | number numeral =>
    intro fuel rest enough ends
    obtain ⟨less, rfl⟩ := (Spells.number numeral).exists_fuel enough
    have read := numeral?_of_spells numeral ends
    obtain ⟨byte, after, begins, rfl⟩ := exists_first_of_spellsNumeral numeral
    rw [List.cons_append] at read ⊢
    rw [value?_number begins, read]
    rfl
  | text pieces =>
    intro fuel rest enough _
    obtain ⟨less, rfl⟩ := (Spells.text pieces).exists_fuel enough
    rw [List.cons_append, List.append_assoc, List.singleton_append, value?_text,
      pieces?_of_spells pieces]
    rfl
  | emptyArray blank =>
    intro fuel rest enough _
    obtain ⟨less, rfl⟩ := (Spells.emptyArray blank).exists_fuel enough
    rw [List.cons_append, List.append_assoc, List.singleton_append, value?_bracket,
      skipSpace_append blank, skipSpace_cons rfl]
    rfl
  | array items ih => exact isRead_array items ih
  | emptyObject blank =>
    intro fuel rest enough _
    obtain ⟨less, rfl⟩ := (Spells.emptyObject blank).exists_fuel enough
    rw [List.cons_append, List.append_assoc, List.singleton_append, value?_brace,
      skipSpace_append blank, skipSpace_cons rfl]
    rfl
  | object members ih => exact isRead_object members ih
  | item blank _ blankAfter ih => exact isRead_item blank ih blankAfter
  | lastItem _ ih => exact readsItems.last ih
  | nextItem _ _ one more => exact readsItems.next one more
  | member blank named blankBetween _ ih => exact isRead_member blank named blankBetween ih
  | lastMember _ ih => exact readsMembers.last ih
  | nextMember _ _ one more => exact readsMembers.next one more

end Read

/-! ## What is read is spelled -/

namespace Written

/-- That with some fuel only what is spelled is read. -/
structure IsSound (fuel : Nat) : Prop where
  value : ∀ {bytes written rest}, value? fuel bytes = some (written, rest) →
    ∃ space spelled, IsSpace space ∧ Spells (.value written) spelled ∧
      bytes = space ++ (spelled ++ rest)
  items : ∀ {bytes items rest}, items? fuel bytes = some (items, rest) →
    ∃ spelled, Spells (.items items) spelled ∧ bytes = spelled ++ 0x5D :: rest
  members : ∀ {bytes members rest}, members? fuel bytes = some (members, rest) →
    ∃ spelled, Spells (.members members) spelled ∧ bytes = spelled ++ 0x7D :: rest

variable {bytes rest : Bytes} {fuel : Nat}

theorem spells_of_items? (sound : IsSound fuel) {items : List Written}
    (found : items? (fuel + 1) bytes = some (items, rest)) :
    ∃ spelled, Spells (.items items) spelled ∧ bytes = spelled ++ 0x5D :: rest := by
  obtain ⟨written, after, remaining, readItem, blankAfter, goesOn⟩ :=
    readsItems.exists_of_eq_some found
  obtain ⟨before, spelled, blank, spells, rfl⟩ := sound.value readItem
  have item : Spells (.item written) (before ++ (spelled ++ after)) := .item blank spells blankAfter
  rcases goesOn with ⟨rfl, rfl⟩ | ⟨others, afterComma, rfl, rfl, readOthers⟩
  · exact ⟨_, .lastItem item, by simp only [List.append_assoc]⟩
  · obtain ⟨spelledOthers, spellsOthers, rfl⟩ := sound.items readOthers
    exact ⟨_, .nextItem item spellsOthers, by simp only [List.append_assoc, List.cons_append]⟩

theorem spells_of_member? (sound : IsSound fuel) {name : List Piece} {written : Written}
    (found : member? fuel bytes = some ((name, written), rest)) :
    ∃ spelled, (∀ after, IsSpace after → Spells (.member name written) (spelled ++ after)) ∧
      bytes = spelled ++ rest := by
  obtain ⟨before, blank, splitBefore⟩ := exists_space bytes
  unfold member? at found
  split at found
  · next quoted opened =>
    obtain ⟨⟨name, afterName⟩, readName, goesOn⟩ := Option.bind_eq_some_iff.1 found
    obtain ⟨spelledName, spellsName, rfl⟩ := spells_of_pieces? readName
    obtain ⟨between, blankBetween, splitBetween⟩ := exists_space afterName
    dsimp only at goesOn
    split at goesOn
    · next afterColon colon =>
      obtain ⟨⟨written, remaining⟩, readValue, same⟩ := Option.map_eq_some_iff.1 goesOn
      obtain ⟨named, rfl⟩ := Prod.mk.inj same
      obtain ⟨rfl, rfl⟩ := Prod.mk.inj named
      obtain ⟨inner, spelled, blankInner, spells, rfl⟩ := sound.value readValue
      refine ⟨before ++ 0x22 :: (spelledName ++ 0x22 :: (between ++ 0x3A :: (inner ++ spelled))),
        ?_, ?_⟩
      · intro after blankAfter
        have item : Spells (.item written) (inner ++ (spelled ++ after)) :=
          .item blankInner spells blankAfter
        have member := Spells.member blank spellsName blankBetween item
        simpa only [List.append_assoc, List.cons_append] using member
      · rw [splitBefore, opened, splitBetween, colon]
        simp only [List.append_assoc, List.cons_append]
    · exact nomatch goesOn
  · exact nomatch found

theorem spells_of_members? (sound : IsSound fuel) {members : List (List Piece × Written)}
    (found : members? (fuel + 1) bytes = some (members, rest)) :
    ∃ spelled, Spells (.members members) spelled ∧ bytes = spelled ++ 0x7D :: rest := by
  obtain ⟨⟨name, written⟩, after, remaining, readMember, blankAfter, goesOn⟩ :=
    readsMembers.exists_of_eq_some found
  obtain ⟨spelled, spells, rfl⟩ := spells_of_member? sound readMember
  have member : Spells (.member name written) (spelled ++ after) := spells after blankAfter
  rcases goesOn with ⟨rfl, rfl⟩ | ⟨others, afterComma, rfl, rfl, readOthers⟩
  · exact ⟨_, .lastMember member, by simp only [List.append_assoc]⟩
  · obtain ⟨spelledOthers, spellsOthers, rfl⟩ := sound.members readOthers
    exact ⟨_, .nextMember member spellsOthers, by simp only [List.append_assoc, List.cons_append]⟩

theorem spells_of_value? (sound : IsSound fuel) {written : Written}
    (found : value? (fuel + 1) bytes = some (written, rest)) :
    ∃ space spelled, IsSpace space ∧ Spells (.value written) spelled ∧
      bytes = space ++ (spelled ++ rest) := by
  obtain ⟨before, blank, split⟩ := exists_space bytes
  suffices spelledThere : ∃ spelled, Spells (.value written) spelled ∧
      skipSpace bytes = spelled ++ rest by
    obtain ⟨spelled, spells, same⟩ := spelledThere
    rw [same] at split
    exact ⟨before, spelled, blank, spells, split⟩
  unfold value? at found
  split at found
  · exact nomatch found
  · next inner opened =>
    obtain ⟨space, blankInner, splitInner⟩ := exists_space inner
    split at found
    · next closed =>
      obtain ⟨rfl, rfl⟩ := Prod.mk.inj (Option.some.inj found)
      refine ⟨_, .emptyArray blankInner, ?_⟩
      rw [opened, splitInner, closed]
      simp only [List.append_assoc, List.cons_append, List.nil_append]
    · obtain ⟨⟨items, remaining⟩, readItems, same⟩ := Option.map_eq_some_iff.1 found
      obtain ⟨rfl, rfl⟩ := Prod.mk.inj same
      rw [items?_skipSpace] at readItems
      obtain ⟨spelled, spells, rfl⟩ := sound.items readItems
      refine ⟨_, .array spells, ?_⟩
      rw [opened]
      simp only [List.append_assoc, List.cons_append, List.nil_append]
  · next inner opened =>
    obtain ⟨space, blankInner, splitInner⟩ := exists_space inner
    split at found
    · next closed =>
      obtain ⟨rfl, rfl⟩ := Prod.mk.inj (Option.some.inj found)
      refine ⟨_, .emptyObject blankInner, ?_⟩
      rw [opened, splitInner, closed]
      simp only [List.append_assoc, List.cons_append, List.nil_append]
    · obtain ⟨⟨members, remaining⟩, readMembers, same⟩ := Option.map_eq_some_iff.1 found
      obtain ⟨rfl, rfl⟩ := Prod.mk.inj same
      rw [members?_skipSpace] at readMembers
      obtain ⟨spelled, spells, rfl⟩ := sound.members readMembers
      refine ⟨_, .object spells, ?_⟩
      rw [opened]
      simp only [List.append_assoc, List.cons_append, List.nil_append]
  · next inner opened =>
    obtain ⟨⟨pieces, remaining⟩, readPieces, same⟩ := Option.map_eq_some_iff.1 found
    obtain ⟨rfl, rfl⟩ := Prod.mk.inj same
    obtain ⟨spelled, spells, rfl⟩ := spells_of_pieces? readPieces
    refine ⟨_, .text spells, ?_⟩
    rw [opened]
    simp only [List.append_assoc, List.cons_append, List.nil_append]
  · next inner opened =>
    obtain ⟨remaining, readWord, same⟩ := Option.map_eq_some_iff.1 found
    obtain ⟨rfl, rfl⟩ := Prod.mk.inj same
    refine ⟨_, .null, ?_⟩
    rw [opened, eq_of_word? readWord, ascii_null, List.cons_append]
  · next inner opened =>
    obtain ⟨remaining, readWord, same⟩ := Option.map_eq_some_iff.1 found
    obtain ⟨rfl, rfl⟩ := Prod.mk.inj same
    refine ⟨_, .yes, ?_⟩
    rw [opened, eq_of_word? readWord, ascii_true, List.cons_append]
  · next inner opened =>
    obtain ⟨remaining, readWord, same⟩ := Option.map_eq_some_iff.1 found
    obtain ⟨rfl, rfl⟩ := Prod.mk.inj same
    refine ⟨_, .no, ?_⟩
    rw [opened, eq_of_word? readWord, ascii_false, List.cons_append]
  · obtain ⟨⟨numeral, remaining⟩, readNumeral, same⟩ := Option.map_eq_some_iff.1 found
    obtain ⟨rfl, rfl⟩ := Prod.mk.inj same
    obtain ⟨spelled, spells, same⟩ := spells_of_numeral? readNumeral
    exact ⟨spelled, .number spells, same⟩

/-- With any fuel only what is spelled is read. -/
theorem isSound (fuel : Nat) : IsSound fuel := by
  -- The three readers call each other with less fuel, so they are sound together.
  induction fuel with
  | zero =>
    refine ⟨?_, ?_, ?_⟩
    · intro bytes written rest found
      rw [value?] at found
      exact nomatch found
    · intro bytes items rest found
      rw [items?] at found
      exact nomatch found
    · intro bytes members rest found
      rw [members?] at found
      exact nomatch found
  | succ fuel ih => exact ⟨spells_of_value? ih, spells_of_items? ih, spells_of_members? ih⟩

/-- Exactly the documents are read. -/
theorem ofBytes?_eq_some_iff {written : Written} :
    ofBytes? bytes = some written ↔ IsDocument written bytes := by
  unfold ofBytes?
  constructor
  · intro found
    obtain ⟨⟨written, rest⟩, read, goesOn⟩ := Option.bind_eq_some_iff.1 found
    obtain ⟨before, spelled, blank, spells, rfl⟩ := (isSound _).value read
    dsimp only at goesOn
    split at goesOn
    · next finished =>
      obtain ⟨after, blankAfter, split⟩ := exists_space rest
      rw [List.isEmpty_iff.1 finished, List.append_nil] at split
      cases Option.some.inj goesOn
      rw [split]
      exact .item blank spells blankAfter
    · exact nomatch goesOn
  · intro document
    obtain ⟨space, blank, read⟩ :=
      document.isRead (2 * bytes.length + 2) [] (by omega) endsValue_nil
    rw [List.append_nil, List.append_nil] at read
    have finished : skipSpace space = [] := by
      have skipped := skipSpace_append blank []
      rwa [List.append_nil] at skipped
    rw [read]
    show (if (skipSpace space).isEmpty = true then some written else none) = some written
    rw [finished]
    rfl

end Written

end QuotaGate.Json
