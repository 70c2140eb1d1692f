import QuotaGate.Proofs.Settings.Parts
import QuotaGate.Quota.Table
import QuotaGate.Settings.Layers

/-!
# Merged trees

Layers are merged entry by entry. Each entry puts something under one name of the root, the one
that its key is about: the value of the key itself, laid over what is there, or what is there with
a change further down. Names that an entry is not about keep what they hold, so that a merged tree
can be described name by name, and in a section setting by setting.

No name ever comes twice, in the root or in a section, whatever is merged.

Results:
1. `Tree.setKey_eq`: one entry is one name put into the root.
2. `Tree.isTidy_of_merge?`: no name comes twice in a merged tree.
3. `Tree.get?_foldl_setKey`: the sections that a file gives.
4. `Tree.IsSections.layOver`: settings laid over sections one by one.
-/

namespace QuotaGate

/-! ## Keys -/

namespace Step

/-- The name of the root that a key is about, and the steps from there. -/
def split (key : String) : String × List Step :=
  match path? key with
  | some (.member name :: rest) => (name, rest)
  | _ => (key, [])

theorem path?_eq_some {key : String} {path : List Step} (spelled : path? key = some path) :
    ∃ name rest, path = .member name :: rest := by
  unfold path? at spelled
  simp only at spelled
  split at spelled
  · exact absurd spelled nofun
  · obtain ⟨rest, -, rfl⟩ := Option.map_eq_some_iff.1 spelled
    exact ⟨_, rest, rfl⟩

theorem split_of_path? {key name : String} {rest : List Step}
    (spelled : path? key = some (.member name :: rest)) : split key = (name, rest) := by
  unfold split
  rw [spelled]

theorem split_of_none {key : String} (spelled : path? key = none) : split key = (key, []) := by
  unfold split
  rw [spelled]

/-- A key that goes further than its name spells a path. -/
theorem path?_of_split {key : String} {next : Step} {rest : List Step}
    (further : (split key).2 = next :: rest) :
    path? key = some (.member (split key).1 :: next :: rest) := by
  cases spelled : path? key with
  | none =>
    rw [split_of_none spelled] at further
    exact absurd further nofun
  | some path =>
    obtain ⟨name, others, rfl⟩ := path?_eq_some spelled
    rw [split_of_path? spelled] at further ⊢
    rw [← further]

theorem following?_eq_nil {fuel : Nat} {chars : List Char}
    (ended : following? fuel chars = some []) : chars = [] := by
  unfold following? at ended
  split at ended
  · rfl
  · exact absurd ended nofun
  · simp only at ended
    split at ended
    · exact absurd ended nofun
    · obtain ⟨_, -, more⟩ := Option.map_eq_some_iff.1 ended
      exact absurd more nofun
  · simp only at ended
    split at ended
    · obtain ⟨_, -, more⟩ := Option.map_eq_some_iff.1 ended
      exact absurd more nofun
    · exact absurd ended nofun
  · exact absurd ended nofun

/-- A key that goes no further than its name is that name. -/
theorem split_fst {key : String} (ends : (split key).2 = []) : (split key).1 = key := by
  cases spelled : path? key with
  | none => rw [split_of_none spelled]
  | some path =>
    obtain ⟨name, rest, rfl⟩ := path?_eq_some spelled
    rw [split_of_path? spelled] at ends ⊢
    simp only at ends ⊢
    subst ends
    unfold path? at spelled
    simp only at spelled
    split at spelled
    · exact absurd spelled nofun
    · obtain ⟨rest, followed, same⟩ := Option.map_eq_some_iff.1 spelled
      rw [List.cons.injEq, Step.member.injEq] at same
      obtain ⟨rfl, rfl⟩ := same
      have nothingLeft := following?_eq_nil followed
      rw [List.drop_eq_nil_iff] at nothingLeft
      have whole := (List.takeWhile_prefix isNameChar).eq_of_length_le nothingLeft
      rw [whole, String.ofList_toList]

/-- A key of nothing but the characters of names goes no further. -/
theorem split_of_all {key : String} (all : ∀ c ∈ key.toList, isNameChar c = true) :
    split key = (key, []) := by
  have whole : key.toList.takeWhile isNameChar = key.toList := by
    rw [← List.append_nil key.toList, List.takeWhile_append_of_pos all, List.takeWhile_nil]
  have spelled : path? key = none ∨ path? key = some [.member key] := by
    rw [path?, whole, List.drop_length, following?, String.ofList_toList]
    simp only [Option.map_some]
    split
    · exact .inl rfl
    · exact .inr rfl
  obtain nothing | itself := spelled
  · exact split_of_none nothing
  · exact split_of_path? itself

theorem isNameChar_of_toLower {c : Char} (fits : isNameChar c.toLower = true) :
    isNameChar c = true := by
  unfold Char.toLower at fits
  split at fits
  · next capital =>
    have upper : c.isUpper = true := decide_eq_true capital
    simp [isNameChar, Char.isAlphanum, Char.isAlpha, upper]
  · exact fits

/-- A key that is the name of a section in any letter case goes no further. -/
theorem split_of_lower_mem {key : String} (known : Text.lower key ∈ Settings.names) :
    split key = (key, []) := by
  refine split_of_all fun c member => ?_
  have fits : (Settings.names.all fun name => name.toList.all fun d =>
      isNameChar d && d != 'k' && decide (d.toNat < 0x80)) = true := by decide
  have lowered : ∀ d ∈ Text.lowerChar c,
      (isNameChar d && d != 'k' && decide (d.toNat < 0x80)) = true := by
    intro d inside
    refine List.all_eq_true.1 (List.all_eq_true.1 fits _ known) d ?_
    rw [Text.lower, String.toList_ofList]
    exact List.mem_flatMap.2 ⟨c, member, inside⟩
  unfold Text.lowerChar at lowered
  split at lowered
  · exact absurd (lowered 'k' List.mem_cons_self) (by decide)
  · split at lowered
    · exact absurd (lowered (Char.ofNat 0x307) (by simp)) (by decide)
    · have fitsLowered := lowered _ List.mem_cons_self
      rw [Bool.and_eq_true, Bool.and_eq_true] at fitsLowered
      exact isNameChar_of_toLower fitsLowered.1.1

end Step

namespace Tree

/-! ## Putting -/

theorem putMember_eq (name : String) (value : Tree) (members : List (String × Tree)) :
    putMember name value members = Table.putEntry name value members := by
  induction members with
  | nil => rfl
  | cons entry rest ih =>
    obtain ⟨other, held⟩ := entry
    rw [putMember, Table.putEntry, ih]

/-- After putting, the name holds the new value and every other name what it held before. -/
theorem get?_put (tree : Tree) (name : String) (value : Tree) (wanted : String) :
    (tree.put name value).get? wanted = if wanted = name then some value else tree.get? wanted := by
  unfold put get?
  rw [members, putMember_eq]
  exact Table.lookup_putEntry name value tree.members wanted

/-- That no name comes twice among the members. -/
def IsDistinct (tree : Tree) : Prop := (tree.members.map Prod.fst).Nodup

/-- That a tree is a table. -/
def IsTable (tree : Tree) : Prop := tree = table tree.members

theorem isTable_table (members : List (String × Tree)) : (table members).IsTable := rfl

theorem isTable_put (tree : Tree) (name : String) (value : Tree) : (tree.put name value).IsTable :=
  rfl

theorem IsDistinct.put {tree : Tree} (distinct : tree.IsDistinct) (name : String) (value : Tree) :
    (tree.put name value).IsDistinct := by
  unfold IsDistinct Tree.put at *
  rw [members, putMember_eq]
  exact (Table.put ⟨tree.members, distinct⟩ name value).nodup_keys

theorem isDistinct_list (items : List Tree) : (list items).IsDistinct := List.nodup_nil

/-- What a value becomes that is set some steps below a name, given what the name holds. -/
def laidOver (value : Tree) : List Step → Option Tree → Tree
  | [], held =>
    match value with
    | table members => assignAll members (held.getD (table []))
    | _ => value
  | steps, held => setAt value steps (held.getD nothing)

theorem laidOver_cons (value : Tree) (step : Step) (rest : List Step) (held : Option Tree) :
    laidOver value (step :: rest) held = setAt value (step :: rest) (held.getD nothing) := rfl

theorem assign_eq (name : String) (value tree : Tree) :
    assign name value tree =
      tree.put (Text.lower name) (laidOver value [] (tree.get? (Text.lower name))) := by
  cases value <;> rfl

theorem setAt_member (value : Tree) (name : String) (rest : List Step) (tree : Tree) :
    setAt value (.member name :: rest) tree =
      tree.put (Text.lower name) (laidOver value rest (tree.get? (Text.lower name))) := by
  cases rest with
  | nil => exact assign_eq name value tree
  | cons step rest => rfl

/-- One entry is one name put into the root. -/
theorem setKey_eq (tree : Tree) (key : String) (value : Tree) :
    tree.setKey (key, value) = tree.put (Text.lower (Step.split key).1)
      (laidOver value (Step.split key).2 (tree.get? (Text.lower (Step.split key).1))) := by
  unfold setKey
  cases spelled : Step.path? key with
  | none =>
    rw [Step.split_of_none spelled]
    exact assign_eq key value tree
  | some path =>
    obtain ⟨name, rest, rfl⟩ := Step.path?_eq_some spelled
    rw [Step.split_of_path? spelled]
    exact setAt_member value name rest tree

theorem get?_setKey (tree : Tree) (key : String) (value : Tree) (wanted : String) :
    (tree.setKey (key, value)).get? wanted =
      if wanted = Text.lower (Step.split key).1 then
        some (laidOver value (Step.split key).2 (tree.get? wanted))
      else tree.get? wanted := by
  rw [setKey_eq, get?_put]
  split
  · next here => rw [here]
  · rfl

theorem reaches_path? (tree : Tree) (key : String) :
    reaches ((Step.path? key).getD []) tree =
      reaches (Step.split key).2 ((tree.get? (Text.lower (Step.split key).1)).getD nothing) := by
  cases spelled : Step.path? key with
  | none => rw [Step.split_of_none spelled, Option.getD_none, reaches, reaches]
  | some path =>
    obtain ⟨name, rest, rfl⟩ := Step.path?_eq_some spelled
    rw [Step.split_of_path? spelled, Option.getD_some, reaches]

theorem setKey?_eq_some_iff {tree next : Tree} {entry : String × Tree} :
    tree.setKey? entry = some next ↔
      reaches (Step.split entry.1).2
        ((tree.get? (Text.lower (Step.split entry.1).1)).getD nothing) = true ∧
      next = tree.setKey entry := by
  rw [setKey?, reaches_path?, Option.ite_none_right_eq_some, Option.some_inj, eq_comm (a := next)]

/-- Names can be reached in every tree. -/
theorem reaches_of_names {steps : List Step} (names : ∀ step ∈ steps, ∃ name, step = .member name)
    (tree : Tree) : reaches steps tree = true := by
  induction steps generalizing tree with
  | nil => rfl
  | cons step rest ih =>
    obtain ⟨name, rfl⟩ := names step List.mem_cons_self
    exact ih (fun step member => names step (List.mem_cons_of_mem _ member)) _

/-- Entries that can be reached are set one after the other. -/
theorem foldlM_setKey?_eq_some {tree merged : Tree} {entries : List (String × Tree)}
    (made : entries.foldlM setKey? tree = some merged) : merged = entries.foldl setKey tree := by
  induction entries generalizing tree with
  | nil => exact (Option.some.inj made).symm
  | cons entry rest ih =>
    rw [List.foldlM_cons] at made
    obtain ⟨next, set, made⟩ := Option.bind_eq_some_iff.1 made
    rw [List.foldl_cons, ← (setKey?_eq_some_iff.1 set).2]
    exact ih made

/-- Keys of nothing but names can be reached. -/
theorem foldlM_setKey?_of_names {entries : List (String × Tree)}
    (names : ∀ entry ∈ entries, ∀ step ∈ (Step.split entry.1).2, ∃ name, step = .member name)
    (tree : Tree) : entries.foldlM setKey? tree = some (entries.foldl setKey tree) := by
  induction entries generalizing tree with
  | nil => rfl
  | cons entry rest ih =>
    have reached := reaches_of_names (names entry List.mem_cons_self)
    rw [List.foldlM_cons, setKey?_eq_some_iff.2 ⟨reached _, rfl⟩]
    exact ih (fun entry member => names entry (List.mem_cons_of_mem _ member)) _

theorem assignAll_cons (name : String) (value : Tree) (rest : List (String × Tree)) (tree : Tree) :
    assignAll ((name, value) :: rest) tree = assignAll rest (assign name value tree) := rfl

theorem assignAll_eq_foldl (entries : List (String × Tree)) (tree : Tree) :
    assignAll entries tree =
      entries.foldl (fun tree entry => assign entry.1 entry.2 tree) tree := by
  induction entries generalizing tree with
  | nil => rfl
  | cons entry rest ih =>
    obtain ⟨name, value⟩ := entry
    rw [assignAll_cons, ih, List.foldl_cons]

/-! ## No name twice -/

theorem IsDistinct.assignAll (entries : List (String × Tree)) {tree : Tree}
    (distinct : tree.IsDistinct) : (assignAll entries tree).IsDistinct := by
  induction entries generalizing tree with
  | nil => exact distinct
  | cons entry rest ih =>
    obtain ⟨name, value⟩ := entry
    rw [assignAll_cons, assign_eq]
    exact ih (distinct.put _ _)

theorem IsTable.assignAll (entries : List (String × Tree)) {tree : Tree}
    (isTable : tree.IsTable) : (assignAll entries tree).IsTable := by
  induction entries generalizing tree with
  | nil => exact isTable
  | cons entry rest ih =>
    obtain ⟨name, value⟩ := entry
    rw [assignAll_cons, assign_eq]
    exact ih (isTable_put _ _ _)

theorem isDistinct_laidOver (value : Tree) (steps : List Step) {held : Option Tree}
    (distinct : ∀ tree ∈ held, tree.IsDistinct) : (laidOver value steps held).IsDistinct := by
  have orElse : ∀ other : Tree, other.IsDistinct → (held.getD other).IsDistinct := by
    intro other otherDistinct
    cases held with
    | none => exact otherDistinct
    | some tree => exact distinct tree rfl
  cases steps with
  | nil =>
    cases value with
    | table members => exact (orElse (table []) List.nodup_nil).assignAll members
    | _ => exact List.nodup_nil
  | cons step rest =>
    rw [laidOver_cons]
    cases step with
    | member name =>
      rw [setAt_member]
      exact (orElse nothing List.nodup_nil).put _ _
    | item position => cases rest <;> exact isDistinct_list _

/-- That no name comes twice, in a table and in the values under its names. -/
structure IsTidy (tree : Tree) : Prop where
  isTable : tree.IsTable
  isDistinct : tree.IsDistinct
  inner : ∀ name, ∀ held ∈ tree.get? name, held.IsDistinct

theorem isTidy_empty : (table []).IsTidy :=
  ⟨rfl, List.nodup_nil, nofun⟩

theorem IsTidy.setKey {tree : Tree} (tidy : tree.IsTidy) (entry : String × Tree) :
    (tree.setKey entry).IsTidy := by
  obtain ⟨key, value⟩ := entry
  refine ⟨setKey_eq tree key value ▸ isTable_put _ _ _,
    setKey_eq tree key value ▸ tidy.isDistinct.put _ _, ?_⟩
  intro name held found
  rw [get?_setKey] at found
  split at found
  · cases found
    exact isDistinct_laidOver value _ (tidy.inner name)
  · exact tidy.inner name held found

theorem IsTidy.layOver {tree : Tree} (tidy : tree.IsTidy) (entries : List (String × Tree)) :
    (entries.foldl Tree.setKey tree).IsTidy := by
  induction entries generalizing tree with
  | nil => exact tidy
  | cons entry rest ih => exact ih (tidy.setKey entry)

/-- No name comes twice in a merged tree. -/
theorem isTidy_of_merge? {layers : List (List (String × Tree))} {tree : Tree}
    (merged : merge? layers = some tree) : tree.IsTidy := by
  rw [foldlM_setKey?_eq_some merged]
  exact isTidy_empty.layOver layers.flatten

/-! ## Sections -/

/-- Named values with their names in lower case. -/
def lowered (entries : List (String × Tree)) : List (String × Tree) :=
  entries.map fun entry => (Text.lower entry.1, entry.2)

/-- A name that comes at most once holds the value it comes with, laid over what was there. -/
theorem get?_foldl {step : Tree → String × Tree → Tree} {names : List String} {wanted : String}
    (known : wanted ∈ names) {entries : List (String × Tree)}
    (steps : ∀ tree, ∀ entry ∈ entries, (step tree entry).get? wanted =
      if wanted = Text.lower entry.1 then some (laidOver entry.2 [] (tree.get? wanted))
      else tree.get? wanted)
    (once : IsKnownOnce names (lowered entries)) (tree : Tree) :
    (entries.foldl step tree).get? wanted =
      (((lowered entries).lookup wanted).map fun value =>
        laidOver value [] (tree.get? wanted)).or (tree.get? wanted) := by
  induction entries generalizing tree with
  | nil => rfl
  | cons entry rest ih =>
    obtain ⟨name, value⟩ := entry
    have here := steps tree (name, value) List.mem_cons_self
    rw [List.foldl_cons,
      ih (fun tree entry member => steps tree entry (List.mem_cons_of_mem _ member)) once.of_cons,
      here]
    change _ = ((((Text.lower name, value) :: lowered rest).lookup wanted).map _).or _
    by_cases same : wanted = Text.lower name
    · subst same
      have last : (lowered rest).lookup (Text.lower name) = none := once.lookup_eq_none known
      rw [last, if_pos rfl, lookup_cons_self]
      rfl
    · rw [if_neg same, lookup_cons_of_ne same]

/-- What a name of a section holds that a file gives. -/
theorem get?_assignAll {names : List String} {wanted : String} (known : wanted ∈ names)
    {entries : List (String × Tree)} (once : IsKnownOnce names (lowered entries)) (tree : Tree) :
    (assignAll entries tree).get? wanted =
      (((lowered entries).lookup wanted).map fun value =>
        laidOver value [] (tree.get? wanted)).or (tree.get? wanted) := by
  rw [assignAll_eq_foldl]
  refine get?_foldl known (fun tree entry _ => ?_) once tree
  rw [assign_eq, get?_put]
  split
  · next here => rw [here]
  · rfl

/-- That no entry goes further into a section than its name. -/
def AreWhole (entries : List (String × Tree)) : Prop :=
  ∀ entry ∈ entries, ∀ name next rest,
    Step.path? entry.1 = some (.member name :: next :: rest) → Text.lower name ∉ Settings.names

theorem areWhole_of_split {entries : List (String × Tree)}
    (ends : ∀ entry ∈ entries, (Step.split entry.1).2 = []) : AreWhole entries := by
  intro entry member name next rest spelled
  have further := ends entry member
  rw [Step.split_of_path? spelled] at further
  exact absurd further nofun

/-- What the name of a section holds that a file gives. -/
theorem get?_foldl_setKey {part : SettingsPart} {entries : List (String × Tree)}
    (whole : AreWhole entries) (once : IsKnownOnce Settings.names (lowered entries))
    (tree : Tree) :
    (entries.foldl setKey tree).get? part.name =
      (((lowered entries).lookup part.name).map fun value =>
        laidOver value [] (tree.get? part.name)).or (tree.get? part.name) := by
  refine get?_foldl part.name_mem (fun tree entry member => ?_) once tree
  obtain ⟨key, value⟩ := entry
  rw [get?_setKey]
  cases ends : (Step.split key).2 with
  | nil => rw [Step.split_fst ends]
  | cons next rest =>
    have beside : part.name ≠ Text.lower (Step.split key).1 := fun same =>
      whole (key, value) member _ next rest (Step.path?_of_split ends) (same ▸ part.name_mem)
    have unnamed : part.name ≠ Text.lower key := by
      intro same
      rw [Step.split_of_lower_mem (same ▸ part.name_mem)] at ends
      exact absurd ends nofun
    rw [if_neg beside, if_neg unnamed]

/-- What a tree holds under the name of a setting in its section. -/
def at? (tree : Tree) (setting : Setting) : Option Tree :=
  (tree.get? setting.part.name).bind fun inner => inner.get? setting.name

/-- That no name comes twice in a tree whose sections are tables. -/
structure IsSections (tree : Tree) : Prop extends IsTidy tree where
  sections : ∀ part : SettingsPart, ∀ inner ∈ tree.get? part.name, inner.IsTable

theorem IsDistinct.isKnownOnce {tree : Tree} (distinct : tree.IsDistinct) (names : List String) :
    IsKnownOnce names tree.members :=
  List.Nodup.filter _ distinct

theorem IsTable.entries? {tree : Tree} (isTable : tree.IsTable) (names : List String) :
    reader.entries? names tree = some tree.members := by
  rw [isTable]
  rfl

theorem IsSections.isSectioned {tree : Tree} (sections : tree.IsSections) :
    reader.IsSectioned tree :=
  ⟨tree.members, sections.isTable.entries? _, sections.isDistinct.isKnownOnce _,
    fun part inner found => ⟨inner.members, (sections.sections part inner found).entries? _,
      (sections.inner part.name inner found).isKnownOnce _⟩⟩

theorem IsSections.value?_eq {tree : Tree} (sections : tree.IsSections) (setting : Setting) :
    reader.value? tree setting = tree.at? setting := by
  unfold Reader.value? at?
  rw [sections.isTable.entries?, Option.bind_some]
  refine Option.bind_congr fun inner found => ?_
  rw [(sections.sections _ inner found).entries?, Option.bind_some]
  rfl

end Tree

/-! ## Settings by their keys -/

namespace Setting

/-- The key of a setting: its section and its name. -/
def key (setting : Setting) : String := setting.part.name ++ "." ++ setting.name

theorem split_key (setting : Setting) :
    Step.split setting.key = (setting.part.name, [.member setting.name]) := by
  rcases setting with (setting | setting) <;> cases setting <;> decide

theorem lower_part (setting : Setting) : Text.lower setting.part.name = setting.part.name := by
  rcases setting with (setting | setting) <;> cases setting <;> decide

theorem lower_name (setting : Setting) : Text.lower setting.name = setting.name := by
  rcases setting with (setting | setting) <;> cases setting <;> decide

theorem key_injective : Function.Injective key := by
  intro one other same
  have split : Step.split one.key = Step.split other.key := congrArg Step.split same
  rw [split_key, split_key, Prod.mk.injEq, List.cons.injEq, Step.member.injEq] at split
  obtain ⟨part, name, -⟩ := split
  cases one <;> cases other
  · rw [ServerSetting.name_injective name]
  · exact absurd (SettingsPart.name_injective part) nofun
  · exact absurd (SettingsPart.name_injective part) nofun
  · rw [QuotaSetting.name_injective name]

end Setting

namespace Tree

/-- That a value is no table. -/
def IsPlain (value : Tree) : Prop := ∀ members, value ≠ table members

theorem IsPlain.laidOver_nil {value : Tree} (plain : value.IsPlain) (held : Option Tree) :
    laidOver value [] held = value := by
  cases value with
  | table members => exact absurd rfl (plain members)
  | _ => rfl

theorem IsPlain.laidOver_member {value : Tree} (plain : value.IsPlain) (name : String)
    (held : Option Tree) :
    laidOver value [.member name] held = (held.getD nothing).put (Text.lower name) value := by
  rw [laidOver_cons, setAt_member, plain.laidOver_nil]

variable {tree value : Tree}

theorem IsPlain.get?_setKey_key (plain : value.IsPlain) (setting : Setting) (wanted : String) :
    (tree.setKey (setting.key, value)).get? wanted =
      if wanted = setting.part.name then
        some (((tree.get? wanted).getD nothing).put setting.name value)
      else tree.get? wanted := by
  rw [get?_setKey, setting.split_key, plain.laidOver_member, setting.lower_part,
    setting.lower_name]

/-- A setting that is laid over a tree holds its value, and every other one what it held before. -/
theorem IsPlain.at?_setKey (plain : value.IsPlain) (setting other : Setting) :
    (tree.setKey (setting.key, value)).at? other =
      if other = setting then some value else tree.at? other := by
  unfold at?
  rw [plain.get?_setKey_key]
  by_cases same : other = setting
  · subst same
    rw [if_pos rfl, if_pos rfl, Option.bind_some, get?_put, if_pos rfl]
  · rw [if_neg same]
    split
    · next part =>
      have name : other.name ≠ setting.name := fun name =>
        same (Setting.key_injective (by rw [Setting.key, Setting.key, part, name]))
      rw [Option.bind_some, get?_put, if_neg name]
      cases tree.get? other.part.name <;> rfl
    · rfl

theorem IsSections.setKey (sections : tree.IsSections) (plain : value.IsPlain)
    (setting : Setting) : (tree.setKey (setting.key, value)).IsSections where
  toIsTidy := sections.toIsTidy.setKey _
  sections part inner found := by
    rw [plain.get?_setKey_key] at found
    split at found
    · cases found
      exact isTable_put _ _ _
    · exact sections.sections part inner found

/-- Settings are laid over sections one by one. -/
theorem IsSections.layOver (sections : tree.IsSections) {entries : List (String × Tree)}
    (each : ∀ entry ∈ entries, entry.2.IsPlain ∧ ∃ setting : Setting, entry.1 = setting.key)
    (once : (entries.map Prod.fst).Nodup) :
    (entries.foldl Tree.setKey tree).IsSections ∧
      ∀ setting : Setting, (entries.foldl Tree.setKey tree).at? setting =
        (entries.lookup setting.key).or (tree.at? setting) := by
  induction entries generalizing tree with
  | nil => exact ⟨sections, fun _ => rfl⟩
  | cons entry rest ih =>
    obtain ⟨key, value⟩ := entry
    obtain ⟨plain, other, rfl⟩ := each _ List.mem_cons_self
    obtain ⟨absent, restOnce⟩ := List.nodup_cons.1 once
    obtain ⟨kept, values⟩ := ih (sections.setKey plain other)
      (fun entry member => each entry (List.mem_cons_of_mem _ member)) restOnce
    refine ⟨kept, fun setting => ?_⟩
    rw [List.foldl_cons, values, plain.at?_setKey]
    by_cases same : setting = other
    · subst same
      rw [Table.lookup_eq_none_of_notMem absent, if_pos rfl, lookup_cons_self]
      rfl
    · rw [if_neg same, lookup_cons_of_ne fun keys => same (Setting.key_injective keys)]

end Tree

end QuotaGate
