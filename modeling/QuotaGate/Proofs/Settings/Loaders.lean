import QuotaGate.Proofs.Settings.Document
import QuotaGate.Proofs.Settings.Layers
import QuotaGate.Proofs.Settings.Spelling
import QuotaGate.Proofs.Yaml.Readers

/-!
# One file in two readings

A file of settings is read as a document, or it is loaded as a layer by way of a tree. The tree has
the members of a mapping under their names in small letters, and so the two readings see the same
settings where every key names the same to both. Whether they give the same then depends on each
setting alone.

Results:
1. `Tree.holdsMembers_of_mapping`: what the table of a mapping holds.
2. `Document.ofLayers?_iff`: the documents whose settings are those of their trees.
3. `Settings.load_of_ofYaml`: the files that are loaded with the settings that are read from them.
-/

namespace QuotaGate

open Yaml

/-! ## Mappings -/

namespace Tree

/-- The name that a key gives in a tree. -/
def nodeName? (key : Node) : Option String := (ofNode? key).bind keyName?

/-- That the keys of a mapping are the same names for both readings, as far as they are known. -/
def AreNamedAlike (document : Document) (names : List String) (entries : List (Node × Node)) :
    Prop :=
  ∀ entry ∈ entries, ∀ name ∈ names,
    entry.1.text? document = some name ↔ (nodeName? entry.1).map Text.lower = some name

theorem addMember?_eq_some {key value : Tree} {members added : List (String × Tree)}
    (add : addMember? key value members = some added) :
    ∃ name, keyName? key = some name ∧ added = members ++ [(name, value)] := by
  obtain ⟨name, named, add⟩ := Option.bind_eq_some_iff.1 add
  rw [Option.ite_none_left_eq_some, Option.some_inj] at add
  exact ⟨name, named, add.2.symm⟩

/-- What the entries of a mapping add to the members before them. -/
theorem ofEntries?_cons_eq_some {key value : Node} {entries : List (Node × Node)}
    {members layer : List (String × Tree)}
    (made : ofEntries? ((key, value) :: entries) members = some layer) :
    ∃ name held, nodeName? key = some name ∧ ofNode? value = some held ∧
      ofEntries? entries (members ++ [(name, held)]) = some layer := by
  rw [ofEntries?] at made
  obtain ⟨tree, isTree, made⟩ := Option.bind_eq_some_iff.1 made
  obtain ⟨held, value, made⟩ := Option.bind_eq_some_iff.1 made
  obtain ⟨added, add, made⟩ := Option.bind_eq_some_iff.1 made
  obtain ⟨name, named, rfl⟩ := addMember?_eq_some add
  refine ⟨name, held, ?_, value, made⟩
  rw [nodeName?, isTree, Option.bind_some, named]

/-- That a table has the members of a mapping under the known names: their names come in the order
of the mapping, and each value is the tree of the value there. -/
structure HoldsMembers (names : List String) (members : List (String × Node))
    (table : List (String × Tree)) : Prop where
  known : ((lowered table).map Prod.fst).filter names.contains =
    (members.map Prod.fst).filter names.contains
  held : ∀ name ∈ names, Option.Rel (fun node tree => ofNode? node = some tree)
    (members.lookup name) ((lowered table).lookup name)

theorem HoldsMembers.isKnownOnce {names : List String} {members : List (String × Node)}
    {table : List (String × Tree)} (holds : HoldsMembers names members table)
    (once : IsKnownOnce names members) : IsKnownOnce names (lowered table) := by
  unfold IsKnownOnce
  rw [holds.known]
  exact once

/-- An entry under a name that is known to neither reading makes no difference, and one under a name
that is known is known to both. -/
theorem HoldsMembers.cons {names : List String} {members : List (String × Node)}
    {table : List (String × Tree)} (holds : HoldsMembers names members table)
    {name written : String} {node : Node} {tree : Tree} (isTree : ofNode? node = some tree)
    (alike : ∀ known ∈ names, name = known ↔ Text.lower written = known) :
    HoldsMembers names ((name, node) :: members) ((written, tree) :: table) := by
  by_cases known : name ∈ names
  · have lower : Text.lower written = name := (alike name known).1 rfl
    constructor
    · change (((Text.lower written, tree) :: lowered table).map Prod.fst).filter
        names.contains = _
      rw [lower, List.map_cons, List.map_cons,
        List.filter_cons_of_pos (List.contains_iff_mem.2 known),
        List.filter_cons_of_pos (List.contains_iff_mem.2 known), holds.known]
    · intro other otherKnown
      change Option.Rel _ _ (((Text.lower written, tree) :: lowered table).lookup other)
      rw [lower]
      by_cases same : other = name
      · subst same
        rw [lookup_cons_self, lookup_cons_self]
        exact .some isTree
      · rw [lookup_cons_of_ne same, lookup_cons_of_ne same]
        exact holds.held other otherKnown
  · have unnamed : ∀ other ∈ names, other ≠ name := fun other otherKnown same =>
      known (same ▸ otherKnown)
    have notKnown : Text.lower written ∉ names := fun listed =>
      unnamed _ listed ((alike _ listed).2 rfl).symm
    refine ⟨?_, fun other otherKnown => ?_⟩
    · change (((Text.lower written, tree) :: lowered table).map Prod.fst).filter
        names.contains = _
      rw [List.map_cons, List.map_cons,
        List.filter_cons_of_neg (mt List.contains_iff_mem.1 notKnown),
        List.filter_cons_of_neg (mt List.contains_iff_mem.1 known), holds.known]
    · change Option.Rel _ _ (((Text.lower written, tree) :: lowered table).lookup other)
      rw [lookup_cons_of_ne (unnamed other otherKnown),
        lookup_cons_of_ne fun same : other = Text.lower written =>
          notKnown (same ▸ otherKnown)]
      exact holds.held other otherKnown

/-- What a mapping adds to a table has its members under the known names. -/
theorem ofEntries?_holdsMembers {document : Document} {names : List String}
    {entries : List (Node × Node)} {members : List (String × Node)}
    {before layer : List (String × Tree)}
    (found : Node.membersOf? document entries = some members)
    (alike : AreNamedAlike document names entries) (made : ofEntries? entries before = some layer) :
    ∃ added, layer = before ++ added ∧ HoldsMembers names members added := by
  have each := Node.membersOf?_eq_some_iff.1 found
  clear found
  induction each generalizing before with
  | nil =>
    rw [ofEntries?, Option.some_inj] at made
    exact ⟨[], by rw [made, List.append_nil], rfl, fun _ _ => .none⟩
  | @cons entry member entries members isMember _ ih =>
    obtain ⟨key, value⟩ := entry
    obtain ⟨name, node⟩ := member
    obtain ⟨named, rfl⟩ := isMember
    obtain ⟨written, held, isName, isHeld, rest⟩ := ofEntries?_cons_eq_some made
    obtain ⟨added, rfl, holds⟩ := ih (List.forall_mem_of_forall_mem_cons alike) rest
    refine ⟨_, List.append_assoc _ _ _, holds.cons isHeld fun known listed => ?_⟩
    have here := alike (key, value) List.mem_cons_self known listed
    rw [named, Option.some_inj, isName, Option.map_some, Option.some_inj] at here
    exact here

/-- A name in the table of a mapping is that of a key. -/
theorem exists_key_of_ofEntries? {entries : List (Node × Node)}
    {before layer : List (String × Tree)}
    (made : ofEntries? entries before = some layer) {member : String × Tree}
    (inside : member ∈ layer) :
    member ∈ before ∨ ∃ entry ∈ entries, nodeName? entry.1 = some member.1 := by
  induction entries generalizing before with
  | nil =>
    rw [ofEntries?, Option.some_inj] at made
    exact .inl (made ▸ inside)
  | cons entry entries ih =>
    obtain ⟨key, value⟩ := entry
    obtain ⟨name, held, isName, -, rest⟩ := ofEntries?_cons_eq_some made
    rcases ih rest with early | ⟨entry, later, named⟩
    · rcases List.mem_append.1 early with earlier | here
      · exact .inl earlier
      · rw [List.mem_singleton.1 here]
        exact .inr ⟨(key, value), List.mem_cons_self, isName⟩
    · exact .inr ⟨entry, List.mem_cons_of_mem _ later, named⟩

/-- The table of a mapping holds its members. -/
theorem holdsMembers_of_mapping {document : Document} {names : List String}
    {entries : List (Node × Node)} {tag : Option String} {members : List (String × Node)}
    (found : Node.entries? document names (.mapping entries tag) = some members)
    (alike : AreNamedAlike document names entries) {tree : Tree}
    (made : ofNode? (.mapping entries tag) = some tree) :
    ∃ layer, tree = table layer ∧ ofEntries? entries [] = some layer ∧
      HoldsMembers names members layer ∧ IsKnownOnce names (lowered layer) := by
  rw [ofNode?] at made
  obtain ⟨layer, entriesMade, rfl⟩ := Option.map_eq_some_iff.1 made
  rw [Node.entries?_mapping rfl] at found
  obtain ⟨membersFound, once⟩ := Option.filter_eq_some_iff.1 found
  obtain ⟨added, rfl, holds⟩ := ofEntries?_holdsMembers membersFound alike entriesMade
  exact ⟨_, rfl, entriesMade, holds, holds.isKnownOnce (of_decide_eq_true once)⟩

/-- That a tree is neither a table nor a list. -/
def IsScalar (tree : Tree) : Prop := ∀ names, reader.entries? names tree = none

theorem IsScalar.isPlain {tree : Tree} (scalar : tree.IsScalar) : tree.IsPlain := by
  rintro members rfl
  exact nomatch scalar []

theorem isScalar_of_ofPlain? {text : String} {tree : Tree} (made : ofPlain? text = some tree) :
    tree.IsScalar := by
  unfold ofPlain? at made
  repeat' split at made
  all_goals cases made
  all_goals exact fun _ => rfl

theorem isScalar_of_ofTagged? {tag text : String} {tree : Tree}
    (made : ofTagged? tag text = some tree) : tree.IsScalar := by
  unfold ofTagged? at made
  split_ifs at made
  all_goals cases made
  · exact fun _ => rfl
  · exact fun _ => rfl
  · exact fun _ => rfl
  · cases wholeIn? 10 text.toList <;> exact fun _ => rfl
  · cases fraction? text <;> exact fun _ => rfl
  · exact fun _ => rfl
  · exact fun _ => rfl

/-- A scalar is neither a table nor a list in a tree. -/
theorem isScalar_of_scalar {text : String} {style : Style} {tag : Option String} {tree : Tree}
    (made : ofNode? (.scalar text style tag) = some tree) : tree.IsScalar := by
  rcases quoted_cases style tag with ⟨rfl, rfl⟩ | ⟨rfl, name, rfl⟩ | other
  · rw [ofNode?_plain] at made
    exact isScalar_of_ofPlain? made
  · rw [ofNode?_tagged] at made
    exact isScalar_of_ofTagged? made
  · rw [ofNode?_of_ne_plain other] at made
    cases made
    exact fun _ => rfl

/-- What is read as a section is a mapping, or neither a table nor a list in a tree. -/
theorem isMapping_or_isScalar {document : Document} {names : List String} {node : Node}
    {members : List (String × Node)} (found : node.entries? document names = some members)
    {tree : Tree} (made : ofNode? node = some tree) :
    (∃ entries tag, node = .mapping entries tag) ∨ tree.IsScalar := by
  cases node with
  | scalar text style tag => exact .inr (isScalar_of_scalar made)
  | sequence items tag => exact nomatch found
  | mapping entries tag => exact .inl ⟨entries, tag, rfl⟩
  | enclosing number =>
    rw [ofNode?, Option.some_inj] at made
    subst made
    exact .inr fun _ => rfl

end Tree

/-! ## Documents -/

namespace Yaml

namespace Node

/-- That a node is a mapping itself. -/
def IsMapping (node : Node) : Prop := ∃ entries tag, node = .mapping entries tag

end Node

namespace Document

/-- The node of a section. -/
def section? (document : Document) (part : SettingsPart) : Option Node :=
  (document.reader.entries? Settings.names document.root).bind fun sections =>
    sections.lookup part.name

/-- That the keys of a document are the same names for both readings, as far as they are known, and
that no key at the root is a path into a section. -/
structure IsNamedAlike (document : Document) : Prop where
  sections : ∀ entries tag, document.root = .mapping entries tag →
    Tree.AreNamedAlike document Settings.names entries
  whole : ∀ entries tag, document.root = .mapping entries tag → ∀ entry ∈ entries,
    ∀ key ∈ Tree.nodeName? entry.1, ∀ name next rest,
      Step.path? key = some (.member name :: next :: rest) → Text.lower name ∉ Settings.names
  settings : ∀ part entries tag, document.section? part = some (.mapping entries tag) →
    Tree.AreNamedAlike document part.names entries

variable {document : Document} {settings : Settings} {layer : List (String × Tree)}

theorem section?_eq {sections : List (String × Node)}
    (found : document.reader.entries? Settings.names document.root = some sections)
    (part : SettingsPart) : document.section? part = sections.lookup part.name := by
  rw [section?, found]
  rfl

section Readable

variable (named : document.IsNamedAlike)
  (read : Settings.ofValue? document.reader document.root = some settings)
include read

theorem exists_sections : ∃ sections,
    document.reader.entries? Settings.names document.root = some sections ∧
      IsKnownOnce Settings.names sections := by
  unfold Settings.ofValue? at read
  obtain ⟨sections, found, -⟩ := Option.bind_eq_some_iff.1 read
  exact ⟨sections, found, Node.isKnownOnce_of_entries? found⟩

/-- A section of a document whose settings can be read has named values. -/
theorem exists_entries_of_section? {part : SettingsPart} {inner : Node}
    (given : document.section? part = some inner) :
    ∃ entries, document.reader.entries? part.names inner = some entries := by
  obtain ⟨sections, found, once⟩ := exists_sections read
  rw [section?_eq found] at given
  exact Settings.exists_entries_of_ofValue? document.reader found once read given

theorem isSectioned_of_ofValue? : document.reader.IsSectioned document.root := by
  obtain ⟨sections, found, once⟩ := exists_sections read
  refine ⟨sections, found, once, fun part inner given => ?_⟩
  obtain ⟨entries, has⟩ := exists_entries_of_section? read ((section?_eq found part).trans given)
  exact ⟨entries, has, Node.isKnownOnce_of_entries? has⟩

include named

/-- The sections of a document in its table. -/
theorem exists_holdsMembers (made : Tree.ofNode? document.root = some (.table layer)) :
    ∃ sections, document.reader.entries? Settings.names document.root = some sections ∧
      Tree.HoldsMembers Settings.names sections layer ∧
      IsKnownOnce Settings.names (Tree.lowered layer) ∧ Tree.AreWhole layer := by
  obtain ⟨sections, found, -⟩ := exists_sections read
  rcases Tree.isMapping_or_isScalar found made with ⟨entries, tag, root⟩ | scalar
  · have alike := named.sections entries tag root
    have whole := named.whole entries tag root
    rw [root] at made found
    obtain ⟨table, same, entriesMade, holds, once⟩ := Tree.holdsMembers_of_mapping found alike made
    cases same
    refine ⟨sections, root ▸ found, holds, once, fun member inside => ?_⟩
    rcases Tree.exists_key_of_ofEntries? entriesMade inside with none | ⟨entry, given, key⟩
    · exact absurd none List.not_mem_nil
    · exact whole entry given member.1 key
  · exact nomatch scalar []

/-- The table of a section that is a mapping. -/
theorem exists_table {part : SettingsPart} {node : Node}
    (given : document.section? part = some node) (mapping : node.IsMapping) {tree : Tree}
    (made : Tree.ofNode? node = some tree) :
    ∃ members inner, document.reader.entries? part.names node = some members ∧
      tree = .table inner ∧ Tree.HoldsMembers part.names members inner ∧
        IsKnownOnce part.names (Tree.lowered inner) := by
  obtain ⟨entries, tag, rfl⟩ := mapping
  obtain ⟨members, found⟩ := exists_entries_of_section? read given
  obtain ⟨inner, same, -, holds, once⟩ :=
    Tree.holdsMembers_of_mapping found (named.settings part entries tag given) made
  exact ⟨members, inner, found, same, holds, once⟩

variable (mappings : ∀ part, ∀ node ∈ document.section? part, node.IsMapping)
  (made : Tree.ofNode? document.root = some (.table layer))
include mappings made

/-- The table of a document is a plain file if its sections are mappings. -/
theorem isPlainFile : Settings.IsPlainFile layer := by
  obtain ⟨sections, found, holds, once, whole⟩ := exists_holdsMembers named read made
  refine ⟨once, whole, fun part tree given => ?_⟩
  have held := holds.held part.name part.name_mem
  rw [Option.mem_def.1 given, ← section?_eq found] at held
  generalize isNode : document.section? part = node at held
  cases held with
  | @some node _ isTree =>
    obtain ⟨members, inner, -, rfl, -, innerOnce⟩ :=
      exists_table named read isNode (mappings part node isNode) isTree
    exact ⟨rfl, innerOnce⟩

/-- The value of a setting in the table is the tree of its value in the document. -/
theorem rel_fileValue? (setting : Setting) :
    Option.Rel (fun node tree => Tree.ofNode? node = some tree)
      (document.reader.value? document.root setting) (Settings.fileValue? layer setting) := by
  obtain ⟨sections, found, holds, -, -⟩ := exists_holdsMembers named read made
  have held := holds.held setting.part.name setting.part.name_mem
  unfold Reader.value? Settings.fileValue?
  rw [found, Option.bind_some]
  rw [← section?_eq found] at held ⊢
  generalize (Tree.lowered layer).lookup setting.part.name = table at held ⊢
  generalize isNode : document.section? setting.part = node at held ⊢
  cases held with
  | none => exact .none
  | @some node _ isTree =>
    obtain ⟨members, inner, membersFound, rfl, innerHolds, -⟩ :=
      exists_table named read isNode (mappings _ node isNode) isTree
    rw [Option.bind_some, Option.bind_some, membersFound, Option.bind_some]
    exact innerHolds.held setting.name setting.name_mem

end Readable

/-- A section of a document is a mapping if settings can be read from its table. -/
theorem isMapping_of_ofLayers? {file : SettingsFile} {loaded : Settings}
    (named : document.IsNamedAlike)
    (read : Settings.ofValue? document.reader document.root = some settings)
    (made : Tree.ofNode? document.root = some (.table layer))
    (given : Settings.fileLayer? (some file) = some layer)
    (ofLayers : Settings.ofLayers? (some file) [] = some loaded) {part : SettingsPart} {node : Node}
    (isNode : document.section? part = some node) : node.IsMapping := by
  obtain ⟨sections, found, holds, once, whole⟩ := exists_holdsMembers named read made
  have tidy := Tree.isTidy_empty.layOver layer
  unfold Settings.ofLayers? at ofLayers
  rw [given, Option.bind_some, Tree.merge?_pair, Tree.merge?_of_fileLayer? given] at ofLayers
  change Settings.ofValue? Tree.reader (layer.foldl Tree.setKey (.table [])) = some loaded
    at ofLayers
  have held := holds.held part.name part.name_mem
  rw [← section?_eq found, isNode] at held
  generalize isTable : (Tree.lowered layer).lookup part.name = table at held
  cases held with
  | @some _ tree isTree =>
    obtain ⟨members, membersFound⟩ := exists_entries_of_section? read isNode
    rcases Tree.isMapping_or_isScalar membersFound isTree with mapping | scalar
    · exact mapping
    · have inner : (layer.foldl Tree.setKey (.table [])).get? part.name = some tree := by
        rw [Tree.get?_foldl_setKey whole once, isTable, Tree.get?_empty, Option.or_none,
          Option.map_some, scalar.isPlain.laidOver_nil]
      obtain ⟨entries, has⟩ := Settings.exists_entries_of_ofValue? Tree.reader
        (tidy.isTable.entries? Settings.names) (tidy.isDistinct.isKnownOnce Settings.names)
        ofLayers inner
      exact nomatch (scalar part.names).symm.trans has

end Document

end Yaml

namespace Setting

variable {document : Document} {setting : Setting}

/-- That a value of a setting is the same for both readings. What is no scalar has no spelling. -/
def IsTakenAlike (document : Document) (setting : Setting) : Node → Prop
  | .scalar text style tag => setting.IsSpelledAlike text style tag
  | node => (Tree.ofNode? node).bind (setting.read? Tree.reader) =
      setting.read? document.reader node

theorem isTakenAlike_iff {node : Node} {content : setting.Content}
    (read : setting.read? document.reader node = some content) :
    (Tree.ofNode? node).bind (setting.read? Tree.reader) = some content ↔
      setting.IsTakenAlike document node := by
  cases node with
  | scalar text style tag => exact read?_ofNode?_iff read
  | _ =>
    rw [← read]
    exact Iff.rfl

end Setting

theorem Settings.setsOnly_nil : SetsOnly [] := ⟨nofun, List.nodup_nil⟩

namespace Yaml.Document

/-- That settings can be read from the tree of a document, and that each of them is the same. -/
structure IsTakenAlike (document : Document) : Prop where
  isTree : (Tree.ofNode? document.root).isSome = true
  reached : ∀ layer, Tree.ofNode? document.root = some (.table layer) →
    (Tree.merge? [layer]).isSome = true
  root : document.root.IsMapping
  sections : ∀ part, ∀ node ∈ document.section? part, node.IsMapping
  settings : ∀ setting : Setting, ∀ node ∈ document.reader.value? document.root setting,
    setting.IsTakenAlike document node

variable {document : Document} {settings : Settings}

theorem areReadFrom_iff {value? : Setting → Option Node} {tree? : Setting → Option Tree}
    (rel : ∀ setting, Option.Rel (fun node tree => Tree.ofNode? node = some tree)
      (value? setting) (tree? setting))
    (read : settings.AreReadFrom document.reader value?) :
    settings.AreReadFrom Tree.reader tree? ↔
      ∀ setting : Setting, ∀ node ∈ value? setting, setting.IsTakenAlike document node := by
  refine forall_congr' fun setting => ?_
  have here := rel setting
  have content := read setting
  generalize tree? setting = tree at here ⊢
  generalize value? setting = value at here content ⊢
  cases here with
  | none => exact iff_of_true content nofun
  | @some node tree isTree =>
    change setting.read? Tree.reader tree = some (settings.get setting) ↔ _
    have taken := Setting.isTakenAlike_iff content
    rw [isTree, Option.bind_some] at taken
    rw [taken]
    constructor
    · rintro alike _ ⟨⟩
      exact alike
    · exact fun all => all node rfl

/-- A file has entries exactly if its root is a mapping that has a tree, and they can be reached. -/
theorem fileLayer?_eq_some_iff {text : String}
    (lenient : Document.ofText? .lenient (dropByteOrderMark text) = some [document])
    {layer : List (String × Tree)} :
    Settings.fileLayer? (some ⟨.yaml, some text⟩) = some layer ↔
      Tree.ofNode? document.root = some (.table layer) ∧
        (Tree.merge? [layer]).isSome = true := by
  rw [Tree.fileLayer?_eq_some_iff, Tree.fileEntries?, Tree.ofFile?_yaml lenient]
  refine and_congr_left fun _ => ?_
  constructor
  · intro given
    split at given
    · next members made => rw [made, Option.some.inj given]
    · exact absurd given (Option.some_ne_none layer).symm
  · intro made
    rw [made]

/-- The settings of a document are those of its tree exactly if they are taken alike. -/
theorem ofLayers?_iff {text : String}
    (lenient : Document.ofText? .lenient (dropByteOrderMark text) = some [document])
    (named : document.IsNamedAlike)
    (read : Settings.ofValue? document.reader document.root = some settings) :
    Settings.ofLayers? (some ⟨.yaml, some text⟩) [] = some settings ↔ document.IsTakenAlike := by
  have areRead :=
    (Settings.ofValue?_eq_some_iff document.reader (isSectioned_of_ofValue? read)).1 read
  constructor
  · intro ofLayers
    obtain ⟨layer, given, -⟩ := Option.bind_eq_some_iff.1 ofLayers
    obtain ⟨made, reached⟩ := (fileLayer?_eq_some_iff lenient).1 given
    have mappings : ∀ part, ∀ node ∈ document.section? part, node.IsMapping :=
      fun part node isNode => isMapping_of_ofLayers? named read made given ofLayers isNode
    have plain := isPlainFile named read mappings made
    refine ⟨Option.isSome_of_eq_some made, fun other madeToo => ?_, ?_, mappings, ?_⟩
    · cases made.symm.trans madeToo
      exact reached
    · obtain ⟨sections, found, -⟩ := exists_sections read
      exact (Tree.isMapping_or_isScalar found made).resolve_right fun scalar => nomatch scalar []
    · rw [← areReadFrom_iff (rel_fileValue? named read mappings made) areRead]
      exact (Settings.ofLayers?_eq_some_iff given plain Settings.setsOnly_nil).1 ofLayers
  · rintro ⟨isTree, reached, ⟨entries, tag, root⟩, mappings, alike⟩
    obtain ⟨layer, made⟩ : ∃ layer, Tree.ofNode? document.root = some (.table layer) := by
      rw [root, Tree.ofNode?] at isTree ⊢
      obtain ⟨layer, made⟩ := Option.isSome_iff_exists.1 (Option.isSome_map ▸ isTree)
      exact ⟨layer, by rw [made]; rfl⟩
    have given := (fileLayer?_eq_some_iff lenient).2 ⟨made, reached layer made⟩
    have plain := isPlainFile named read mappings made
    rw [Settings.ofLayers?_eq_some_iff given plain Settings.setsOnly_nil]
    exact (areReadFrom_iff (rel_fileValue? named read mappings made) areRead).2 alike

end Yaml.Document

namespace Settings

section Spellings

variable {text : String} {layer : List (String × Tree)}

theorem ofYaml_of_root (root : Node) (settings : Settings)
    (strict : Document.ofText? .strict (dropByteOrderMark text) = some [⟨root, []⟩])
    (read : ofValue? (Document.reader ⟨root, []⟩) root = some settings) :
    ofYaml text = settings.validate := by
  unfold ofYaml
  rw [strict, Option.bind_some]
  change ofReading (ofValue? (Document.reader ⟨root, []⟩) root) = _
  rw [read]
  rfl

theorem load_of_root {root : Node} (settings : Settings)
    (lenient : Document.ofText? .lenient (dropByteOrderMark text) = some [⟨root, []⟩])
    (made : Tree.ofNode? root = some (.table layer))
    (reached : (Tree.merge? [layer]).isSome = true) (plain : IsPlainFile layer)
    (read : settings.AreReadFrom Tree.reader (layeredValue? layer [])) :
    load (some ⟨.yaml, some text⟩) [] = settings.validate := by
  have given := (Document.fileLayer?_eq_some_iff lenient).2 ⟨made, reached⟩
  rw [load, (ofLayers?_eq_some_iff given plain setsOnly_nil).2 read]
  rfl

end Spellings

/-! ## Files that are loaded otherwise -/

section Tokens

/-- A document with one entry in its first section. -/
def tokenRoot (key : String) (value : Node) : Node :=
  .mapping [(word "api", .mapping [(word key, value)] none)] none

def tokenLayer (key : String) (tree : Tree) : List (String × Tree) := [("api", .table [(key, tree)])]

def tokenSettings (token : String) : Settings := { default with server.token := some token }

theorem ofNode?_tokenRoot {key : String} {value : Node} {tree : Tree}
    (isKey : Tree.ofPlain? key = some (.text key)) (isTree : Tree.ofNode? value = some tree) :
    Tree.ofNode? (tokenRoot key value) = some (.table (tokenLayer key tree)) := by
  simp only [tokenRoot, word, Tree.ofNode?, Tree.ofEntries?, isKey, isTree]
  rfl

theorem lowered_tokenLayer (key : String) (tree : Tree) :
    Tree.lowered (tokenLayer key tree) = tokenLayer key tree := by
  have lower : Text.lower "api" = "api" := by decide
  change [(Text.lower "api", Tree.table [(key, tree)])] = _
  rw [lower]
  rfl

theorem isPlainFile_tokenLayer (key : String) (tree : Tree) :
    IsPlainFile (tokenLayer key tree) := by
  refine ⟨?_, Tree.areWhole_of_split fun entry member => ?_, fun part inner found => ?_⟩
  · rw [lowered_tokenLayer]
    exact (by decide : (["api"].filter names.contains).Nodup)
  · rw [List.mem_singleton.1 member]
    exact (by decide : (Step.split "api").2 = [])
  · rw [lowered_tokenLayer] at found
    cases part <;> cases found
    refine ⟨rfl, List.Nodup.filter _ (List.nodup_singleton _)⟩

theorem isSome_merge?_api (tree : Tree) : (Tree.merge? [[("api", tree)]]).isSome = true := by
  refine Option.isSome_of_eq_some (Tree.foldlM_setKey?_of_names (fun entry member => ?_) _)
  rw [List.flatten_singleton, List.mem_singleton] at member
  rw [member, (by decide : Step.split "api" = ("api", []))]
  exact nofun

/-- A file that the lenient reader takes for such a document is loaded with its token. -/
theorem load_of_tokenRoot (key token : String) {text : String} {value : Node} {tree : Tree}
    (lenient : Document.ofText? .lenient (dropByteOrderMark text) = some [⟨tokenRoot key value, []⟩])
    (isKey : Tree.ofPlain? key = some (.text key)) (isTree : Tree.ofNode? value = some tree)
    (read : (tokenSettings token).AreReadFrom Tree.reader (layeredValue? (tokenLayer key tree) [])) :
    load (some ⟨.yaml, some text⟩) [] = (tokenSettings token).validate :=
  load_of_root (tokenSettings token) lenient (ofNode?_tokenRoot isKey isTree)
    (isSome_merge?_api _) (isPlainFile_tokenLayer key tree) read

/-- A token that looks like a number is another one in a tree. -/
theorem load_idleZeros :
    ofYaml "api:\n  token: 007\n" = .ok (tokenSettings "007") ∧
      load (some ⟨.yaml, some "api:\n  token: 007\n"⟩) [] = .ok (tokenSettings "7") := by
  have isTree : Tree.ofNode? (word "007") = some (.whole 7) := rfl
  constructor
  · exact ofYaml_of_root (tokenRoot "token" (word "007")) (tokenSettings "007") (by cbv) rfl
  · refine load_of_tokenRoot "token" "7" (by cbv) rfl isTree ?_
    rintro (setting | setting) <;> cases setting <;> rfl

/-- A text whose last line is not ended is not the same document for both readers. -/
theorem load_openLine :
    ofYaml "api:\n  token: |\n    x" = .ok (tokenSettings "x") ∧
      load (some ⟨.yaml, some "api:\n  token: |\n    x"⟩) [] = .ok (tokenSettings "x\n") := by
  have isTree : Tree.ofNode? (.scalar "x\n" .literal none) = some (.text "x\n") := rfl
  constructor
  · exact ofYaml_of_root (tokenRoot "token" (.scalar "x" .literal none)) (tokenSettings "x")
      (by cbv) rfl
  · refine load_of_tokenRoot "token" "x\n" (by cbv) rfl isTree ?_
    rintro (setting | setting) <;> cases setting <;> rfl

/-- A key in other letters is the name of a setting only in a tree. -/
theorem load_capitals :
    ofYaml "api:\n  Token: x\n" = .ok default ∧
      load (some ⟨.yaml, some "api:\n  Token: x\n"⟩) [] = .ok (tokenSettings "x") := by
  have isTree : Tree.ofNode? (word "x") = some (.text "x") := rfl
  constructor
  · exact ofYaml_of_root (tokenRoot "Token" (word "x")) default (by cbv) rfl
  · refine load_of_tokenRoot "Token" "x" (by cbv) rfl isTree ?_
    rintro (setting | setting) <;> cases setting <;> rfl

end Tokens

/-- A file whose settings can be read, and whose documents and names are the same for both readers
of YAML, is loaded with the same settings exactly if the lenient reader takes it and the settings
are taken alike from each document. The documents are the same in block style. -/
theorem load_of_ofYaml {text : String} {settings : Settings} (accepted : ofYaml text = .ok settings)
    (named : ∀ documents ∈ Document.ofText? .strict (dropByteOrderMark text),
      ∀ document ∈ documents, document.IsNamedAlike) :
    (IsBlockStyle (dropByteOrderMark text) → IsReadAlike (dropByteOrderMark text)) ∧
      (IsReadAlike (dropByteOrderMark text) →
        (load (some ⟨.yaml, some text⟩) [] = .ok settings ↔
          ∃ documents, Document.ofText? .lenient (dropByteOrderMark text) = some documents ∧
            ∀ document ∈ documents, document.IsTakenAlike)) := by
  refine ⟨IsBlockStyle.isReadAlike, fun alike => ?_⟩
  unfold ofYaml at accepted
  rw [ofReading_eq_ok_iff] at accepted
  obtain ⟨read, usable⟩ := accepted
  obtain ⟨documents, strict, read⟩ := Option.bind_eq_some_iff.1 read
  rw [load, ofReading_eq_ok_iff, and_iff_left usable]
  cases lenient : Document.ofText? .lenient (dropByteOrderMark text) with
  | none =>
    have ungiven : fileLayer? (some ⟨.yaml, some text⟩) = none := by
      refine Tree.fileLayer?_eq_none ?_
      rw [Tree.fileEntries?, Tree.ofFile?]
      simp only [lenient]
    rw [ofLayers?, ungiven]
    refine iff_of_false (Option.some_ne_none settings).symm ?_
    rintro ⟨documents, found, -⟩
    exact absurd found.symm (Option.some_ne_none documents)
  | some others =>
    obtain rfl := alike documents strict others lenient
    have taken : (∃ others, some documents = some others ∧
        ∀ document ∈ others, document.IsTakenAlike) ↔
        ∀ document ∈ documents, document.IsTakenAlike := by
      simp only [Option.some_inj, exists_eq_left']
    rw [taken]
    rcases documents with _ | ⟨document, _ | ⟨other, others⟩⟩
    · have empty : fileLayer? (some ⟨.yaml, some text⟩) = some [] := by
        refine Tree.fileLayer?_eq_some_iff.2 ⟨?_, rfl⟩
        rw [Tree.fileEntries?, Tree.ofFile?]
        simp only [lenient]
      rw [ofLayers?, empty]
      exact iff_of_true read fun _ inside => absurd inside List.not_mem_nil
    · rw [List.forall_mem_singleton]
      exact Document.ofLayers?_iff lenient (named _ strict document List.mem_cons_self) read
    · exact absurd read.symm (Option.some_ne_none settings)

/-- A text in which a number is written to base sixteen. -/
def ordinaryText : String := "api:\n  token: abc\n  version: 0x0A\n"

def ordinary : Document :=
  ⟨.mapping [(word "api", .mapping [(word "token", word "abc"),
    (word "version", word "0x0A")] none)] none, []⟩

def ordinarySettings : Settings :=
  { default with server := { ServerSettings.default with token := some "abc", version := 10 } }

theorem isBlockStyle_ordinaryText : IsBlockStyle (dropByteOrderMark ordinaryText) := by
  have whole : dropByteOrderMark ordinaryText = ordinaryText := by cbv
  have common : ordinaryText.toList.all (fun c => decide (IsCommon c)) = true := by cbv
  have ended : ordinaryText.toList.getLast? = some '\n' := by cbv
  have scanned : Token.scan? .strict ordinaryText.toList = some [.blockMappingStart, .key,
      .scalar ['a', 'p', 'i'] .plain, .value, .blockMappingStart, .key,
      .scalar ['t', 'o', 'k', 'e', 'n'] .plain, .value, .scalar ['a', 'b', 'c'] .plain, .key,
      .scalar ['v', 'e', 'r', 's', 'i', 'o', 'n'] .plain, .value,
      .scalar ['0', 'x', '0', 'A'] .plain, .blockEnd, .blockEnd] := by cbv
  rw [whole]
  refine ⟨⟨?_, ?_⟩, ?_⟩
  · exact fun c member => of_decide_eq_true (List.all_eq_true.1 common c member)
  · exact fun last isLast => (Option.some.inj (ended.symm.trans isLast)).symm
  · intro tokens found
    obtain rfl := Option.some.inj (scanned.symm.trans found)
    decide

theorem namedAlike_word {document : Document} {names : List String} {text : String}
    (same : Tree.ofPlain? text = some (.text text)) (lower : Text.lower text = text) :
    ∀ name ∈ names, (word text).text? document = some name ↔
      (Tree.nodeName? (word text)).map Text.lower = some name := by
  intro name _
  rw [Tree.nodeName?, word, Tree.ofNode?_plain, same, Option.bind_some, Tree.keyName?,
    Option.map_some, lower]
  exact Iff.rfl

theorem isNamedAlike_ordinary : ordinary.IsNamedAlike where
  sections := by
    rintro entries tag ⟨⟩ entry member
    rw [List.mem_singleton] at member
    subst member
    exact namedAlike_word rfl (by decide)
  whole := by
    rintro entries tag ⟨⟩ entry member key isKey name next rest spelled
    rw [List.mem_singleton] at member
    subst member
    cases isKey
    have single : Step.path? "api" = some [.member "api"] := by decide
    exact nomatch single.symm.trans spelled
  settings := by
    intro part entries tag given
    cases part with
    | server =>
      cases given
      intro entry member
      rcases List.mem_cons.1 member with rfl | member
      · exact namedAlike_word rfl (by decide)
      · rw [List.mem_singleton] at member
        subst member
        exact namedAlike_word rfl (by decide)
    | quota => cases given

theorem isTakenAlike_ordinary : ordinary.IsTakenAlike where
  isTree := by
    simp only [ordinary, word, Tree.ofNode?, Tree.ofEntries?]
    rfl
  reached := by
    intro layer made
    simp only [ordinary, word, Tree.ofNode?, Tree.ofEntries?] at made
    cases made
    exact isSome_merge?_api _
  root := ⟨_, _, rfl⟩
  sections := by
    intro part node given
    cases part <;> cases given
    exact ⟨_, _, rfl⟩
  settings := by
    rintro (setting | setting) node given <;> cases setting <;> cases given
    · exact .based (by decide : ('x', 16) ∈ Node.bases) (by decide) rfl rfl (by decide)
    · exact .inr ⟨(by decide : "abc" ∉ ["Null", "NULL"]),
        Tree.isWord_of_unread rfl (by decide) rfl rfl⟩

theorem load_ordinaryText : ofYaml ordinaryText = .ok ordinarySettings ∧
    load (some ⟨.yaml, some ordinaryText⟩) [] = .ok ordinarySettings := by
  have strict : Document.ofText? .strict (dropByteOrderMark ordinaryText) = some [ordinary] := by
    cbv
  have lenient : Document.ofText? .lenient (dropByteOrderMark ordinaryText) = some [ordinary] := by
    cbv
  have accepted : ofYaml ordinaryText = .ok ordinarySettings :=
    (ofYaml_of_root ordinary.root ordinarySettings strict rfl).trans rfl
  have named : ∀ documents ∈ Document.ofText? .strict (dropByteOrderMark ordinaryText),
      ∀ document ∈ documents, document.IsNamedAlike := by
    intro documents found document member
    obtain rfl := Option.some.inj (strict.symm.trans found)
    rw [List.mem_singleton.1 member]
    exact isNamedAlike_ordinary
  obtain ⟨alike, loads⟩ := load_of_ofYaml accepted named
  refine ⟨accepted, (loads (alike isBlockStyle_ordinaryText)).2 ⟨_, lenient, ?_⟩⟩
  intro document member
  rw [List.mem_singleton.1 member]
  exact isTakenAlike_ordinary

end Settings

end QuotaGate
