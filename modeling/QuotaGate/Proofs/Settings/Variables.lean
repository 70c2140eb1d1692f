import QuotaGate.Proofs.Number.Plain
import QuotaGate.Proofs.Settings.Layers

/-!
# Texts in variables

The text of a variable is taken for a flag or a number where it looks like one, and a setting that
is a text gets the text of that flag or number. Most texts come back as they were; the others do
not: flags in capitals, numerals with a plus sign or with zeros before their digits, and fractions
that are not written as they are printed.

Only the setting of the variable is changed: two environments that differ in the text of one
variable give trees that differ in the value of one setting, and settings that differ in it.

Results:
1. `Tree.text?_ofVariable`: the texts that come back.
2. `Tree.Apart.layOver`: trees that differ in the value of one setting.
3. `Settings.load_text_of_variable`: the settings with a text from a variable.
-/

namespace QuotaGate

/-! ## Texts that come back -/

namespace Tree

/-- That a text stands for itself as the text of a variable. -/
structure IsKept (text : String) : Prop where
  flag : ∀ word ∈ ["true", "false"], Text.lower text = word → text = word
  whole : ∀ value, wholeIn? 10 text.toList = some value → NumberText.IsPlainWhole text.toList
  fraction : wholeIn? 10 text.toList = none → ∀ value,
    NumberText.float? text.toList = some value → value.plainText = text

theorem isKept_of_unread {text : String} (lower : Text.lower text = text)
    (unread : wholeIn? 10 text.toList = none) (unreadToo : NumberText.float? text.toList = none) :
    IsKept text where
  flag _ _ same := lower.symm.trans same
  whole _ found := absurd (unread.symm.trans found) nofun
  fraction _ _ found := absurd (unreadToo.symm.trans found) nofun

theorem isKept_true : IsKept "true" := isKept_of_unread (by decide) rfl rfl

theorem isKept_false : IsKept "false" := isKept_of_unread (by decide) rfl rfl

/-- A variable has a text, which is its own exactly if it stands for itself. -/
theorem text?_ofVariable (text : String) :
    ∃ shown, (ofVariable text).text? = some shown ∧ (shown = text ↔ IsKept text) := by
  unfold ofVariable
  simp only
  split
  · next word =>
    refine ⟨"true", rfl, ?_, fun kept => (kept.flag "true" (by simp) word).symm⟩
    rintro rfl
    exact isKept_true
  · next notTrue =>
    split
    · next word =>
      refine ⟨"false", rfl, ?_, fun kept => (kept.flag "false" (by simp) word).symm⟩
      rintro rfl
      exact isKept_false
    · next notFalse =>
      have flag : ∀ word ∈ ["true", "false"], Text.lower text = word → text = word := by
        intro word listed lower
        simp only [List.mem_cons, List.not_mem_nil, or_false] at listed
        rcases listed with rfl | rfl
        · exact absurd lower notTrue
        · exact absurd lower notFalse
      split
      · next value read =>
        refine ⟨toString value, rfl, ?_⟩
        rw [NumberText.toString_eq_iff read]
        constructor
        · intro plain
          exact ⟨flag, fun _ _ => plain, fun unread => absurd (read.symm.trans unread) nofun⟩
        · exact fun kept => kept.whole value read
      · next unread =>
        split
        · next value read =>
          refine ⟨value.plainText, rfl, ?_, fun kept => kept.fraction unread value read⟩
          intro same
          refine ⟨flag, fun _ found => absurd (unread.symm.trans found) nofun, ?_⟩
          intro _ other otherRead
          rw [← Option.some.inj (read.symm.trans otherRead)]
          exact same
        · next unreadToo =>
          refine ⟨text, rfl, fun _ => ?_, fun _ => rfl⟩
          exact ⟨flag, fun _ found => absurd (unread.symm.trans found) nofun,
            fun _ _ found => absurd (unreadToo.symm.trans found) nofun⟩

/-! ## Trees that differ in one setting -/

/-- That a key leaves alone what is under the name of a setting: it is about another name of the
root, or about another name in the section. -/
def Spares (setting : Setting) (key : String) : Prop :=
  Text.lower (Step.split key).1 ≠ setting.part.name ∨
    ∃ name rest, (Step.split key).2 = .member name :: rest ∧ Text.lower name ≠ setting.name

/-- That two trees hold the same but for the value of one setting. -/
structure Apart (setting : Setting) (value other tree twin : Tree) : Prop where
  tidy : tree.IsTidy
  tidyToo : twin.IsTidy
  same : ∀ name, name ≠ setting.part.name → tree.get? name = twin.get? name
  inner : ∃ held heldToo, tree.get? setting.part.name = some held ∧
    twin.get? setting.part.name = some heldToo ∧ held.IsTable ∧ heldToo.IsTable ∧
    (∀ name, name ≠ setting.name → held.get? name = heldToo.get? name) ∧
    held.get? setting.name = some value ∧ heldToo.get? setting.name = some other

variable {setting : Setting} {value other tree twin : Tree}

/-- Two values of one setting, laid over the same tree. -/
theorem IsTidy.apart (tidy : tree.IsTidy) (plain : value.IsPlain) (plainToo : other.IsPlain)
    (setting : Setting) : Apart setting value other (tree.setKey (setting.key, value))
      (tree.setKey (setting.key, other)) where
  tidy := tidy.setKey _
  tidyToo := tidy.setKey _
  same name different := by
    rw [plain.get?_setKey_key, plainToo.get?_setKey_key, if_neg different, if_neg different]
  inner := by
    refine ⟨_, _, by rw [plain.get?_setKey_key, if_pos rfl], by
      rw [plainToo.get?_setKey_key, if_pos rfl], isTable_put _ _ _, isTable_put _ _ _, ?_, ?_, ?_⟩
    · intro name different
      rw [get?_put, get?_put, if_neg different, if_neg different]
    · rw [get?_put, if_pos rfl]
    · rw [get?_put, if_pos rfl]

/-- An entry that spares a setting leaves trees apart in it. -/
theorem Apart.setKey (apart : Apart setting value other tree twin) {key : String}
    (spares : Spares setting key) (given : Tree) :
    Apart setting value other (tree.setKey (key, given)) (twin.setKey (key, given)) where
  tidy := apart.tidy.setKey _
  tidyToo := apart.tidyToo.setKey _
  same name different := by
    rw [get?_setKey, get?_setKey, apart.same name different]
  inner := by
    obtain ⟨held, heldToo, found, foundToo, isTable, isTableToo, same, own, ownToo⟩ := apart.inner
    rcases spares with beside | ⟨name, rest, within, beside⟩
    · refine ⟨held, heldToo, ?_, ?_, isTable, isTableToo, same, own, ownToo⟩
      · rw [get?_setKey, if_neg beside.symm, found]
      · rw [get?_setKey, if_neg beside.symm, foundToo]
    · by_cases about : setting.part.name = Text.lower (Step.split key).1
      · have laid : ∀ inner : Tree, laidOver given (Step.split key).2 (some inner) =
            inner.put (Text.lower name) (laidOver given rest (inner.get? (Text.lower name))) := by
          intro inner
          rw [within, laidOver_cons, setAt_member]
          rfl
        refine ⟨_, _, by rw [get?_setKey, if_pos about, found, laid], by
          rw [get?_setKey, if_pos about, foundToo, laid], isTable_put _ _ _, isTable_put _ _ _,
          ?_, ?_, ?_⟩
        · intro wanted different
          rw [get?_put, get?_put, same wanted different, same _ beside]
        · rw [get?_put, if_neg beside.symm, own]
        · rw [get?_put, if_neg beside.symm, ownToo]
      · refine ⟨held, heldToo, ?_, ?_, isTable, isTableToo, same, own, ownToo⟩
        · rw [get?_setKey, if_neg about, found]
        · rw [get?_setKey, if_neg about, foundToo]

/-- A key that spares a setting can be reached in both trees or in none. -/
theorem Apart.reaches_eq (apart : Apart setting value other tree twin) {key : String}
    (spares : Spares setting key) :
    reaches (Step.split key).2 ((tree.get? (Text.lower (Step.split key).1)).getD nothing) =
      reaches (Step.split key).2 ((twin.get? (Text.lower (Step.split key).1)).getD nothing) := by
  obtain ⟨held, heldToo, found, foundToo, -, -, same, -, -⟩ := apart.inner
  by_cases about : Text.lower (Step.split key).1 = setting.part.name
  · obtain ⟨name, rest, within, beside⟩ := spares.resolve_left (not_not.2 about)
    rw [about, found, foundToo, within, Option.getD_some, Option.getD_some, reaches, reaches,
      same _ beside]
  · rw [apart.same _ about]

/-- Entries that spare a setting leave trees apart in it. -/
theorem Apart.layOver (apart : Apart setting value other tree twin)
    {entries : List (String × Tree)} (spares : ∀ entry ∈ entries, Spares setting entry.1)
    {merged : Tree} (made : entries.foldlM setKey? tree = some merged) :
    ∃ mergedToo, entries.foldlM setKey? twin = some mergedToo ∧
      Apart setting value other merged mergedToo := by
  induction entries generalizing tree twin with
  | nil =>
    cases made
    exact ⟨twin, rfl, apart⟩
  | cons entry rest ih =>
    obtain ⟨key, given⟩ := entry
    have here := spares (key, given) List.mem_cons_self
    rw [List.foldlM_cons] at made
    obtain ⟨next, set, made⟩ := Option.bind_eq_some_iff.1 made
    obtain ⟨reached, rfl⟩ := setKey?_eq_some_iff.1 set
    rw [apart.reaches_eq here] at reached
    obtain ⟨mergedToo, madeToo, still⟩ := ih (apart.setKey here given)
      (fun entry member => spares entry (List.mem_cons_of_mem _ member)) made
    refine ⟨mergedToo, ?_, still⟩
    rw [List.foldlM_cons, setKey?_eq_some_iff.2 ⟨reached, rfl⟩]
    exact madeToo

end Tree

/-! ## Settings that differ in one setting -/

namespace Outline

variable {α σ : Type} {outline : Outline α σ} {set? : σ → String × α → Option σ}

/-- Named values that differ in the value of one part give records that differ in it. -/
theorem IsSetBy.foldlM_put (isSet : outline.IsSetBy set?) {names : List String}
    (named : ∀ part, outline.name part ∈ names) {entries others : List (String × α)}
    (once : IsKnownOnce names entries) (onceToo : IsKnownOnce names others)
    {part : outline.Part} (same : ∀ name, name ≠ outline.name part →
      entries.lookup name = others.lookup name)
    {value : α} (given : others.lookup (outline.name part) = some value)
    {content : outline.Content part} (read : outline.read? part value = some content)
    {before after : σ} (made : entries.foldlM set? before = some after) :
    others.foldlM set? before = some (outline.put after part content) := by
  rw [foldlM_eq_some_iff isSet named once] at made
  rw [foldlM_eq_some_iff isSet named onceToo]
  intro other
  by_cases own : other = part
  · subst own
    unfold Takes
    rw [given, Option.elim_some, isSet.get_put, read]
  · have unlike : outline.name other ≠ outline.name part := fun names =>
      own (isSet.name_injective names)
    have here := made other
    rw [same _ unlike] at here
    unfold Takes at here ⊢
    rw [isSet.get_put_of_ne after content own]
    exact here

end Outline

namespace Settings

/-- The settings with another value for one of them. -/
def put (settings : Settings) : (setting : Setting) → setting.Content → Settings
  | .server setting, content => { settings with server := settings.server.put setting content }
  | .quota setting, content => { settings with quota := settings.quota.put setting content }

end Settings

namespace Tree

variable {setting : Setting} {value other tree twin : Tree}

/-- Tables that differ in the value of one part give records that differ in it. -/
theorem section_put {σ : Type} {outline : Outline Tree σ} {set? : σ → String × Tree → Option σ}
    (isSet : outline.IsSetBy set?) {names : List String}
    (named : ∀ part, outline.name part ∈ names) (isTable : tree.IsTable) (isTableToo : twin.IsTable)
    (distinct : tree.IsDistinct) (distinctToo : twin.IsDistinct) (part : outline.Part)
    (same : ∀ name, name ≠ outline.name part → tree.get? name = twin.get? name)
    (given : twin.get? (outline.name part) = some other) {content : outline.Content part}
    (read : outline.read? part other = some content) {before after : σ}
    (made : ((reader.entries? names tree).bind fun entries => entries.foldlM set? before) =
      some after) :
    ((reader.entries? names twin).bind fun entries => entries.foldlM set? before) =
      some (outline.put after part content) := by
  rw [isTable.entries?, Option.bind_some] at made
  rw [isTableToo.entries?, Option.bind_some]
  exact isSet.foldlM_put named (distinct.isKnownOnce names) (distinctToo.isKnownOnce names) same
    given read made

/-- The settings read from trees that differ in one of them. -/
theorem Apart.ofValue? (apart : Apart setting value other tree twin) {settings : Settings}
    (made : Settings.ofValue? reader tree = some settings) {content : setting.Content}
    (read : setting.read? reader other = some content) :
    Settings.ofValue? reader twin = some (settings.put setting content) := by
  obtain ⟨held, heldToo, found, foundToo, isTable, isTableToo, same, own, ownToo⟩ := apart.inner
  have distinct := apart.tidy.inner _ held found
  have distinctToo := apart.tidyToo.inner _ heldToo foundToo
  have parts := made
  unfold Settings.ofValue? at parts
  rw [apart.tidy.isTable.entries?, Option.bind_some, Outline.foldlM_eq_some_iff
    (Settings.isSetBy_set? reader) SettingsPart.name_mem
    (apart.tidy.isDistinct.isKnownOnce _)] at parts
  cases setting with
  | server setting =>
    have here := parts .server
    have lookup : tree.members.lookup ((Settings.outline reader).name .server) = some held := found
    rw [lookup] at here
    have inner := section_put (ServerSettings.isSetBy_set? reader) ServerSetting.name_mem isTable
      isTableToo distinct distinctToo setting same ownToo read here
    exact section_put (Settings.isSetBy_set? reader) SettingsPart.name_mem apart.tidy.isTable
      apart.tidyToo.isTable apart.tidy.isDistinct apart.tidyToo.isDistinct .server apart.same
      foundToo inner made
  | quota setting =>
    have here := parts .quota
    have lookup : tree.members.lookup ((Settings.outline reader).name .quota) = some held := found
    rw [lookup] at here
    have inner := section_put (QuotaSettings.isSetBy_set? reader) QuotaSetting.name_mem isTable
      isTableToo distinct distinctToo setting same ownToo read here
    exact section_put (Settings.isSetBy_set? reader) SettingsPart.name_mem apart.tidy.isTable
      apart.tidyToo.isTable apart.tidy.isDistinct apart.tidyToo.isDistinct .quota apart.same
      foundToo inner made

theorem variableEntries_append (before after : List (String × String)) :
    variableEntries (before ++ after) = variableEntries before ++ variableEntries after :=
  List.filterMap_append

end Tree

/-- A setting that may be any text. -/
inductive FreeText where
  | token
  | userAgent
  deriving DecidableEq, Repr

namespace FreeText

def setting : FreeText → Setting
  | token => .server .token
  | userAgent => .server .userAgent

/-- What such a setting holds when it is given a text. -/
def content : (free : FreeText) → String → free.setting.Content
  | token, text => some text
  | userAgent, text => text

theorem read?_eq {free : FreeText} {value : Tree} {shown : String}
    (text : value.text? = some shown) :
    free.setting.read? Tree.reader value = some (free.content shown) := by
  cases free with
  | token =>
    cases value with
    | nothing => exact absurd text nofun
    | _ => exact congrArg (Option.map some) text
  | userAgent => exact text

/-- Whether settings are usable does not depend on these texts. -/
theorem fault?_put (free : FreeText) (settings : Settings) (text : String) :
    (settings.put free.setting (free.content text)).fault? = settings.fault? := by
  cases free <;> rfl

end FreeText

namespace Settings

variable {file : Option SettingsFile} {before after : List (String × String)} {name other : String}
  {setting : Setting} {settings : Settings}

/-- The merged layers of environments that differ in the text of one variable. -/
theorem apart_merge? (named : Tree.variableKey? name = some setting.key)
    (spared : ∀ entry ∈ after, ∀ key ∈ Tree.variableKey? entry.1, Tree.Spares setting key)
    {layer : List (String × Tree)} {merged : Tree}
    (made : Tree.merge? [layer, Tree.variableEntries (before ++ (name, other) :: after)] =
      some merged) (text : String) :
    ∃ mergedToo,
      Tree.merge? [layer, Tree.variableEntries (before ++ (name, text) :: after)] =
        some mergedToo ∧
      Tree.Apart setting (Tree.ofVariable other) (Tree.ofVariable text) merged mergedToo := by
  have set : ∀ (tree : Tree) (value : String),
      tree.setKey? (setting.key, Tree.ofVariable value) =
        some (tree.setKey (setting.key, Tree.ofVariable value)) := by
    refine fun tree value => Tree.setKey?_eq_some_iff.2 ⟨Tree.reaches_of_names ?_ _, rfl⟩
    rw [setting.split_key]
    exact fun step member => ⟨_, List.mem_singleton.1 member⟩
  have split : ∀ value,
      Tree.merge? [layer, Tree.variableEntries (before ++ (name, value) :: after)] =
      (Tree.merge? [layer, Tree.variableEntries before]).bind fun tree =>
        (Tree.variableEntries after).foldlM Tree.setKey?
          (tree.setKey (setting.key, Tree.ofVariable value)) := by
    intro value
    rw [Tree.variableEntries_append, Tree.variableEntries_cons, named, Option.elim_some,
      Tree.merge?_pair, Tree.merge?_pair, Option.bind_assoc]
    refine congrArg _ (funext fun tree => ?_)
    rw [List.foldlM_append]
    refine congrArg _ (funext fun laid => ?_)
    rw [List.foldlM_cons, set]
    rfl
  rw [split] at made ⊢
  obtain ⟨tree, first, made⟩ := Option.bind_eq_some_iff.1 made
  rw [first, Option.bind_some]
  refine Tree.Apart.layOver ((Tree.isTidy_of_merge? first).apart (Tree.isPlain_ofVariable other)
    (Tree.isPlain_ofVariable text) setting) (fun entry member => ?_) made
  obtain ⟨⟨later, value⟩, given, made⟩ := List.mem_filterMap.1 member
  obtain ⟨key, counted, rfl⟩ := Option.map_eq_some_iff.1 made
  exact spared (later, value) given key counted

theorem load_eq_ok_iff {environment : List (String × String)} :
    load file environment = .ok settings ↔
      ofLayers? file environment = some settings ∧ settings.fault? = none :=
  ofReading_eq_ok_iff

/-- Another text of a variable gives the settings with another value for one of them. -/
theorem load_put (named : Tree.variableKey? name = some setting.key)
    (spared : ∀ entry ∈ after, ∀ key ∈ Tree.variableKey? entry.1, Tree.Spares setting key)
    (loaded : load file (before ++ (name, other) :: after) = .ok settings) {text : String}
    {content : setting.Content}
    (read : setting.read? Tree.reader (Tree.ofVariable text) = some content) :
    load file (before ++ (name, text) :: after) = (settings.put setting content).validate := by
  obtain ⟨made, -⟩ := load_eq_ok_iff.1 loaded
  unfold ofLayers? at made
  obtain ⟨layer, given, made⟩ := Option.bind_eq_some_iff.1 made
  obtain ⟨tree, merged, made⟩ := Option.bind_eq_some_iff.1 made
  obtain ⟨twin, mergedToo, apart⟩ := apart_merge? named spared merged text
  rw [load, ofLayers?, given, Option.bind_some, mergedToo, Option.bind_some,
    apart.ofValue? made read]
  rfl

/-- The settings of an environment that gives nothing but a token. -/
theorem load_token {text shown : String} (textOf : (Tree.ofVariable text).text? = some shown) :
    load none [("RATEWARDEN__API__TOKEN", text)] =
      .ok { default with server.token := some shown } := by
  have key : Tree.variableKey? "RATEWARDEN__API__TOKEN" = some FreeText.token.setting.key := by
    decide +kernel
  have entries : Tree.variableEntries [("RATEWARDEN__API__TOKEN", text)] =
      [(FreeText.token.setting.key, Tree.ofVariable text)] := by
    rw [Tree.variableEntries_cons, key]
    rfl
  have plain : IsPlainFile [] := ⟨List.nodup_nil, nofun, nofun⟩
  have only : SetsOnly [("RATEWARDEN__API__TOKEN", text)] := by
    constructor
    · intro entry member counted found
      rw [List.mem_singleton.1 member, key] at found
      exact ⟨_, (Option.some.inj found).symm⟩
    · rw [← Tree.map_fst_variableEntries, entries]
      exact List.nodup_singleton _
  have usable : ({ default with server.token := some shown } : Settings).fault? = none :=
    (FreeText.token.fault?_put default shown).trans (by decide)
  refine load_eq_ok_iff.2 ⟨(ofLayers?_eq_some_iff rfl plain only).2 fun setting => ?_, usable⟩
  rw [layeredValue?, ← Tree.lookup_variableEntries, entries]
  by_cases same : setting = FreeText.token.setting
  · subst same
    rw [lookup_cons_self]
    exact FreeText.read?_eq textOf
  · rw [lookup_cons_of_ne fun keys => same (Setting.key_injective keys)]
    rcases setting with (setting | setting) <;> cases setting <;>
      first | rfl | exact absurd rfl same

/-- A token that looks like a number loses its zeros. -/
theorem load_token_changed : load none [("RATEWARDEN__API__TOKEN", "007")] =
    .ok { default with server.token := some "7" } :=
  load_token rfl

/-- A free text from a variable is the text of the value that the variable stands for. It is the
text of the variable exactly if that stands for itself. -/
theorem load_text_of_variable {free : FreeText}
    (named : Tree.variableKey? name = some free.setting.key)
    (spared : ∀ entry ∈ after, ∀ key ∈ Tree.variableKey? entry.1, Tree.Spares free.setting key)
    (loaded : load file (before ++ (name, other) :: after) = .ok settings) (text : String) :
    ∃ shown, load file (before ++ (name, text) :: after) =
        .ok (settings.put free.setting (free.content shown)) ∧
      (shown = text ↔ Tree.IsKept text) := by
  obtain ⟨shown, textOf, kept⟩ := Tree.text?_ofVariable text
  refine ⟨shown, ?_, kept⟩
  rw [load_put named spared loaded (FreeText.read?_eq textOf), validate, free.fault?_put,
    (load_eq_ok_iff.1 loaded).2]

theorem load_token_of_digits :
    ∃ shown, load none [("RATEWARDEN__API__TOKEN", "007")] =
        .ok { default with server.token := some shown } ∧ shown ≠ "007" := by
  have key : Tree.variableKey? "RATEWARDEN__API__TOKEN" = some FreeText.token.setting.key := by
    decide +kernel
  have loaded : load none ([] ++ ("RATEWARDEN__API__TOKEN", "x") :: []) =
      .ok { default with server.token := some "x" } := load_token rfl
  obtain ⟨shown, given, kept⟩ := load_text_of_variable key (by simp) loaded "007"
  refine ⟨shown, given, fun same => ?_⟩
  have plain : NumberText.IsPlainNat ['0', '0', '7'] := (kept.1 same).whole 7 rfl
  exact absurd (plain ['0', '7'] rfl) nofun

end Settings

end QuotaGate
