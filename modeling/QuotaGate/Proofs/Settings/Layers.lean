import QuotaGate.Proofs.Settings.Merging

/-!
# A file under the environment

Settings are merged setting by setting: what a variable says wins over what the file says, and what
neither says keeps its default, whatever the other settings are. A section of the file does not
lose its other settings to a variable.

Keys of the file are compared without case, and a key at its root may spell a path. So a key that
is the name of nothing may yet set a setting, and a value that is the value of nothing may yet keep
the file from being read; short of that, what is under other names does not matter.

Results:
1. `Settings.ofLayers?_eq_some_iff`: settings, each from its variable, the file or its default.
2. `Settings.load_of_layers`: what is loaded, and that it depends on nothing else.
-/

namespace QuotaGate

/-! ## What a setting is given -/

namespace Setting

/-- The name of the variable of a setting, as it is usually written. -/
def variableName (setting : Setting) : String :=
  "RATEWARDEN__" ++ Text.upperAscii setting.part.name ++ "__" ++ Text.upperAscii setting.name

theorem variableKey?_variableName (setting : Setting) :
    Tree.variableKey? setting.variableName = some setting.key := by
  rcases setting with (setting | setting) <;> cases setting <;> decide +kernel

end Setting

namespace Settings

/-- What a file gives a setting, names compared without case. -/
def fileValue? (layer : List (String × Tree)) (setting : Setting) : Option Tree :=
  ((Tree.lowered layer).lookup setting.part.name).bind fun inner =>
    (Tree.lowered inner.members).lookup setting.name

/-- What the environment gives a setting. -/
def variableValue? (environment : List (String × String)) (setting : Setting) : Option Tree :=
  (environment.find? fun entry => Tree.variableKey? entry.1 = some setting.key).map fun entry =>
    Tree.ofVariable entry.2

/-- What a file and the environment give a setting. -/
def layeredValue? (layer : List (String × Tree)) (environment : List (String × String))
    (setting : Setting) : Option Tree :=
  (variableValue? environment setting).or (fileValue? layer setting)

/-- That the sections of a file are tables, no name of a section or of a setting comes twice, and
no key at the root is a path into a section. -/
structure IsPlainFile (layer : List (String × Tree)) : Prop where
  once : IsKnownOnce names (Tree.lowered layer)
  whole : Tree.AreWhole layer
  sections : ∀ part : SettingsPart, ∀ inner ∈ (Tree.lowered layer).lookup part.name,
    inner.IsTable ∧ IsKnownOnce part.names (Tree.lowered inner.members)

/-- That the variables that count are those of settings, each of them at most once. -/
structure SetsOnly (environment : List (String × String)) : Prop where
  known : ∀ entry ∈ environment, ∀ key ∈ Tree.variableKey? entry.1,
    ∃ setting : Setting, key = setting.key
  once : (environment.filterMap fun entry => Tree.variableKey? entry.1).Nodup

end Settings

/-! ## The file -/

namespace Tree

theorem read?_of_isTable {tree : Tree} (isTable : tree.IsTable) (setting : Setting) :
    setting.read? reader tree = none := by
  rw [isTable]
  rcases setting with (setting | setting) <;> cases setting <;> rfl

/-- A value of a setting is read as it is written, although the names in a table are changed. -/
theorem read?_laidOver (value : Tree) (setting : Setting) :
    setting.read? reader (laidOver value [] none) = setting.read? reader value := by
  cases value with
  | table members =>
    have changed : (laidOver (table members) [] none).IsTable :=
      IsTable.assignAll members (isTable_table [])
    rw [read?_of_isTable changed, read?_of_isTable (isTable_table members)]
  | _ => rfl

theorem get?_empty (name : String) : (table []).get? name = none := rfl

/-- The sections of a file. -/
theorem isSections_file {layer : List (String × Tree)} (plain : Settings.IsPlainFile layer) :
    (layer.foldl setKey (table [])).IsSections ∧
      ∀ setting : Setting, (layer.foldl setKey (table [])).at? setting =
        (Settings.fileValue? layer setting).map fun value => laidOver value [] none := by
  have held : ∀ part : SettingsPart, (layer.foldl setKey (table [])).get? part.name =
      ((lowered layer).lookup part.name).map fun value => laidOver value [] none := by
    intro part
    rw [get?_foldl_setKey plain.whole plain.once, get?_empty, Option.or_none]
  refine ⟨⟨isTidy_empty.layOver layer, fun part inner found => ?_⟩, fun setting => ?_⟩
  · rw [held] at found
    obtain ⟨written, given, rfl⟩ := Option.map_eq_some_iff.1 found
    rw [(plain.sections part written given).1]
    exact IsTable.assignAll written.members (isTable_table [])
  · unfold at? Settings.fileValue?
    rw [held, Option.bind_map, Option.map_bind]
    refine Option.bind_congr fun written given => ?_
    obtain ⟨isTable, once⟩ := plain.sections _ written given
    change (laidOver written [] none).get? setting.name = _
    rw [isTable]
    change (assignAll written.members (table [])).get? setting.name = _
    rw [get?_assignAll setting.name_mem once, get?_empty, Option.or_none]
    rfl

/-- The tree of a file with one document. -/
theorem ofFile?_yaml {text : String} {root : Yaml.Node} {named : List (Nat × Yaml.Node)}
    (read : Yaml.Document.ofText? .lenient (Yaml.dropByteOrderMark text) = some [⟨root, named⟩]) :
    ofFile? .yaml text = ofNode? root := by
  unfold ofFile?
  simp only [read]

/-- The values of a file are those of its table, if all their keys can be reached. -/
theorem fileLayer?_eq_some_iff {format : FileFormat} {text : String}
    {layer : List (String × Tree)} :
    Settings.fileLayer? (some ⟨format, some text⟩) = some layer ↔
      fileEntries? format text = some layer ∧ (merge? [layer]).isSome = true :=
  Option.filter_eq_some_iff

theorem fileLayer?_eq_none {format : FileFormat} {text : String}
    (none : fileEntries? format text = none) :
    Settings.fileLayer? (some ⟨format, some text⟩) = Option.none := by
  rw [Settings.fileLayer?, Option.bind_some, none]
  rfl

theorem merge?_of_fileLayer? {file : Option SettingsFile} {layer : List (String × Tree)}
    (given : Settings.fileLayer? file = some layer) :
    merge? [layer] = some (layer.foldl setKey (table [])) := by
  have reached : (merge? [layer]).isSome = true := by
    cases file with
    | none =>
      cases given
      rfl
    | some file => exact (Option.filter_eq_some_iff.1 given).2
  obtain ⟨merged, made⟩ := Option.isSome_iff_exists.1 reached
  have same := foldlM_setKey?_eq_some made
  rw [List.flatten_singleton] at same
  rw [made, same]

/-- The environment is laid over what the file gives. -/
theorem merge?_pair (layer entries : List (String × Tree)) :
    merge? [layer, entries] = (merge? [layer]).bind fun tree => entries.foldlM setKey? tree := by
  rw [merge?, merge?, List.flatten_cons, List.flatten_singleton, List.foldlM_append,
    List.flatten_singleton]
  rfl

/-! ## The environment -/

theorem isPlain_ofVariable (text : String) : (ofVariable text).IsPlain := by
  intro members
  unfold ofVariable
  simp only
  split
  · exact nofun
  · split
    · exact nofun
    · split
      · exact nofun
      · split <;> exact nofun

theorem map_fst_variableEntries (environment : List (String × String)) :
    (variableEntries environment).map Prod.fst =
      environment.filterMap fun entry => variableKey? entry.1 := by
  unfold variableEntries
  rw [List.map_filterMap]
  refine List.filterMap_congr fun entry _ => ?_
  rw [Option.map_map]
  exact Option.map_id'

theorem variableEntries_cons (name text : String) (rest : List (String × String)) :
    variableEntries ((name, text) :: rest) =
      (variableKey? name).elim (variableEntries rest)
        fun key => (key, ofVariable text) :: variableEntries rest := by
  unfold variableEntries
  rw [List.filterMap_cons]
  simp only
  cases variableKey? name <;> rfl

theorem lookup_variableEntries (environment : List (String × String)) (setting : Setting) :
    (variableEntries environment).lookup setting.key =
      Settings.variableValue? environment setting := by
  unfold Settings.variableValue?
  induction environment with
  | nil => rfl
  | cons entry rest ih =>
    obtain ⟨name, text⟩ := entry
    rw [variableEntries_cons, List.find?_cons]
    cases counted : variableKey? name with
    | none =>
      rw [Option.elim_none, ih]
      rfl
    | some key =>
      rw [Option.elim_some, Table.lookup_cons, ih]
      by_cases same : setting.key = key
      · subst same
        simp
      · have other : some key ≠ some setting.key := fun equal => same (Option.some.inj equal).symm
        rw [if_neg same, decide_eq_false other]

/-- Every setting of the merged layers: that of its variable, or that of the file. -/
theorem exists_isSections_merge? {file : Option SettingsFile} {layer : List (String × Tree)}
    (given : Settings.fileLayer? file = some layer) (plain : Settings.IsPlainFile layer)
    {environment : List (String × String)} (only : Settings.SetsOnly environment) :
    ∃ merged, merge? [layer, variableEntries environment] = some merged ∧ merged.IsSections ∧
      ∀ setting : Setting, merged.at? setting =
        (Settings.variableValue? environment setting).or
          ((Settings.fileValue? layer setting).map fun value => laidOver value [] none) := by
  obtain ⟨sections, fileValues⟩ := isSections_file plain
  have each : ∀ entry ∈ variableEntries environment,
      entry.2.IsPlain ∧ ∃ setting : Setting, entry.1 = setting.key := by
    intro entry member
    obtain ⟨⟨name, text⟩, given, made⟩ := List.mem_filterMap.1 member
    obtain ⟨key, counted, rfl⟩ := Option.map_eq_some_iff.1 made
    exact ⟨isPlain_ofVariable text, only.known (name, text) given key counted⟩
  have once : ((variableEntries environment).map Prod.fst).Nodup := by
    rw [map_fst_variableEntries]
    exact only.once
  have names : ∀ entry ∈ variableEntries environment, ∀ step ∈ (Step.split entry.1).2,
      ∃ name, step = .member name := by
    intro entry member step inside
    obtain ⟨-, setting, key⟩ := each entry member
    rw [key, setting.split_key, List.mem_singleton] at inside
    exact ⟨_, inside⟩
  obtain ⟨merged, values⟩ := sections.layOver each once
  refine ⟨_, ?_, merged, fun setting => ?_⟩
  · rw [merge?_pair, merge?_of_fileLayer? given, Option.bind_some, foldlM_setKey?_of_names names]
  · rw [← fileValues, ← lookup_variableEntries]
    exact values setting

end Tree

/-! ## Loading -/

namespace Settings

variable {layer : List (String × Tree)} {environment : List (String × String)}

/-- Settings are read out of a file and the environment one by one. -/
theorem ofLayers?_eq_some_iff {file : Option SettingsFile} (given : fileLayer? file = some layer)
    (plain : IsPlainFile layer) (only : SetsOnly environment) {settings : Settings} :
    ofLayers? file environment = some settings ↔
      settings.AreReadFrom Tree.reader (layeredValue? layer environment) := by
  obtain ⟨tree, merged, sections, values⟩ := Tree.exists_isSections_merge? given plain only
  unfold ofLayers?
  rw [given, Option.bind_some, merged, Option.bind_some,
    ofValue?_eq_some_iff _ sections.isSectioned]
  refine forall_congr' fun setting => ?_
  rw [sections.value?_eq, values, layeredValue?]
  cases variableValue? environment setting with
  | some value => exact Iff.rfl
  | none =>
    cases fileValue? layer setting with
    | none => exact Iff.rfl
    | some value =>
      change setting.read? Tree.reader (Tree.laidOver value [] none) = _ ↔ _
      rw [Tree.read?_laidOver]
      exact Iff.rfl

/-- Two files that give no setting a value: a name that is a path sets one nevertheless, and a
number that settings cannot have keeps the file from being read. -/
theorem load_of_unknown_names :
    (∃ layer, fileLayer? (some ⟨.yaml, some "api.token: x\n"⟩) = some layer ∧
      (∀ setting, layeredValue? layer [] setting = none) ∧
      load (some ⟨.yaml, some "api.token: x\n"⟩) [] =
        .ok { default with server.token := some "x" }) ∧
    Yaml.Document.ofText? .lenient "x: .inf\n" =
      some [⟨.mapping [(.scalar "x" .plain none, .scalar ".inf" .plain none)] none, []⟩] ∧
    load (some ⟨.yaml, some "x: .inf\n"⟩) [] = .error (.settings .malformed) := by
  have path : Step.path? "api.token" = some [.member "api", .member "token"] := by decide
  have api : Text.lower "api" = "api" := by decide
  have token : Text.lower "token" = "token" := by decide
  have merged : Tree.merge? [[("api.token", .text "x")]] =
      some (.table [("api", .table [("token", .text "x")])]) := by
    simp only [Tree.merge?, List.flatten_singleton, List.foldlM_cons, List.foldlM_nil,
      Tree.setKey?, Tree.setKey, path, Tree.setAt, Tree.assign, api, token]
    rfl
  have given : fileLayer? (some ⟨.yaml, some "api.token: x\n"⟩) =
      some [("api.token", .text "x")] := by
    refine Tree.fileLayer?_eq_some_iff.2 ⟨?_, Option.isSome_of_eq_some merged⟩
    rw [Tree.fileEntries?, Tree.ofFile?_yaml (by cbv)]
    simp only [Tree.ofNode?, Tree.ofEntries?]
    rfl
  have unnamed : ∀ part : SettingsPart,
      (Tree.lowered [("api.token", .text "x")]).lookup part.name = none := by
    intro part
    cases part <;> cbv
  have ungiven : fileLayer? (some ⟨.yaml, some "x: .inf\n"⟩) = none := by
    refine Tree.fileLayer?_eq_none ?_
    rw [Tree.fileEntries?, Tree.ofFile?_yaml (by cbv)]
    simp only [Tree.ofNode?, Tree.ofEntries?]
    rfl
  refine ⟨⟨_, given, fun setting => ?_, ?_⟩, by cbv, ?_⟩
  · rw [layeredValue?, fileValue?, unnamed]
    rfl
  · rw [load, ofLayers?, given, Option.bind_some, Tree.merge?_pair, merged]
    rfl
  · rw [load, ofLayers?, ungiven]
    rfl

/-- The settings of a file and the environment, every one of them from its own value, fail exactly
if they are unusable; and nothing but these values matters. -/
theorem load_of_layers {file : Option SettingsFile} (given : fileLayer? file = some layer)
    (plain : IsPlainFile layer) (only : SetsOnly environment) :
    ((∀ setting, ∀ value ∈ layeredValue? layer environment setting,
        (setting.read? Tree.reader value).isSome = true) →
      ∃ settings : Settings,
        settings.AreReadFrom Tree.reader (layeredValue? layer environment) ∧
          load file environment = settings.validate) ∧
    ∀ {otherFile : Option SettingsFile} {otherLayer : List (String × Tree)}
        {otherEnvironment : List (String × String)},
      fileLayer? otherFile = some otherLayer → IsPlainFile otherLayer →
      SetsOnly otherEnvironment →
      (∀ setting, layeredValue? otherLayer otherEnvironment setting =
        layeredValue? layer environment setting) →
      load otherFile otherEnvironment = load file environment := by
  constructor
  · intro readable
    obtain ⟨settings, areRead⟩ := exists_areReadFrom Tree.reader readable
    refine ⟨settings, areRead, ?_⟩
    rw [load, (ofLayers?_eq_some_iff given plain only).2 areRead]
    rfl
  · intro otherFile otherLayer otherEnvironment otherGiven otherPlain otherOnly same
    have values : layeredValue? otherLayer otherEnvironment = layeredValue? layer environment :=
      funext same
    rw [load, load]
    congr 1
    refine Option.ext fun settings => ?_
    rw [ofLayers?_eq_some_iff otherGiven otherPlain otherOnly,
      ofLayers?_eq_some_iff given plain only, values]

/-- A file in which names are written in any case, with names that mean nothing. -/
def sprawlingFile : SettingsFile :=
  ⟨.yaml, some "API:\n  Token: x\n  version: 7\n  extra: [1]\nother: 3\n"⟩

def sprawlingLayer : List (String × Tree) :=
  [("API", .table [("Token", .text "x"), ("version", .whole 7), ("extra", .list [.whole 1])]),
    ("other", .whole 3)]

/-- A file that gives one setting. -/
def shortFile : SettingsFile := ⟨.json, some "\x7b\"api\":\x7b\"token\":\"x\"\x7d\x7d"⟩

def shortLayer : List (String × Tree) := [("api", .table [("token", .text "x")])]

def mixedEnvironment : List (String × String) :=
  [("PATH", "/bin"), ("RATEWARDEN__API__VERSION", "8"),
    ("RATEWARDEN__RATE_LIMITING__MAX_ATTEMPTS", "5")]

def shortEnvironment : List (String × String) := mixedEnvironment.tail

theorem fileLayer?_sprawlingFile : fileLayer? (some sprawlingFile) = some sprawlingLayer := by
  unfold sprawlingFile
  refine Tree.fileLayer?_eq_some_iff.2 ⟨?_, by decide⟩
  rw [Tree.fileEntries?, Tree.ofFile?_yaml (by cbv)]
  simp only [Tree.ofNode?, Tree.ofEntries?, Tree.ofItems?]
  rfl

theorem isPlainFile_sprawlingLayer : IsPlainFile sprawlingLayer where
  once := by decide
  whole := Tree.areWhole_of_split (by decide)
  sections part inner found := by
    cases part <;> cases found
    exact ⟨rfl, by decide⟩

theorem isPlainFile_shortLayer : IsPlainFile shortLayer where
  once := by decide
  whole := Tree.areWhole_of_split (by decide)
  sections part inner found := by
    cases part <;> cases found
    exact ⟨rfl, by decide⟩

theorem variableEntries_mixedEnvironment : Tree.variableEntries mixedEnvironment =
    [("api.version", .whole 8), ("rate_limiting.max_attempts", .whole 5)] := by
  have path : Tree.variableKey? "PATH" = none := by decide
  have version : Tree.variableKey? "RATEWARDEN__API__VERSION" = some "api.version" := by
    decide +kernel
  have attempts : Tree.variableKey? "RATEWARDEN__RATE_LIMITING__MAX_ATTEMPTS" =
      some "rate_limiting.max_attempts" := by decide +kernel
  rw [mixedEnvironment, Tree.variableEntries_cons, path, Option.elim_none,
    Tree.variableEntries_cons, version, Option.elim_some, Tree.variableEntries_cons, attempts,
    Option.elim_some]
  rfl

theorem variableEntries_shortEnvironment :
    Tree.variableEntries shortEnvironment = Tree.variableEntries mixedEnvironment := by
  have path : Tree.variableKey? "PATH" = none := by decide
  rw [shortEnvironment, mixedEnvironment, List.tail_cons, Tree.variableEntries_cons "PATH", path,
    Option.elim_none]

theorem setsOnly_of_entries {environment : List (String × String)}
    (entries : Tree.variableEntries environment = Tree.variableEntries mixedEnvironment) :
    SetsOnly environment := by
  have keys : environment.filterMap (fun entry => Tree.variableKey? entry.1) =
      ["api.version", "rate_limiting.max_attempts"] := by
    rw [← Tree.map_fst_variableEntries, entries, variableEntries_mixedEnvironment]
    rfl
  refine ⟨fun entry member key counted => ?_, by rw [keys]; decide⟩
  have listed : key ∈ environment.filterMap fun entry => Tree.variableKey? entry.1 :=
    List.mem_filterMap.2 ⟨entry, member, counted⟩
  rw [keys, List.mem_cons, List.mem_singleton] at listed
  rcases listed with rfl | rfl
  · exact ⟨.server .version, by decide⟩
  · exact ⟨.quota .maxAttempts, by decide⟩

def mixedSettings : Settings where
  server := { ServerSettings.default with version := 8, token := some "x" }
  quota := { QuotaSettings.default with maxAttempts := 5 }

theorem load_sprawlingFile :
    load (some sprawlingFile) mixedEnvironment = .ok mixedSettings ∧
      load (some shortFile) shortEnvironment = load (some sprawlingFile) mixedEnvironment := by
  have short : fileLayer? (some shortFile) = some shortLayer := by cbv
  have only := setsOnly_of_entries (rfl : Tree.variableEntries mixedEnvironment = _)
  have onlyShort := setsOnly_of_entries variableEntries_shortEnvironment
  have expected :
      mixedSettings.AreReadFrom Tree.reader (layeredValue? sprawlingLayer mixedEnvironment) := by
    intro setting
    rw [layeredValue?, ← Tree.lookup_variableEntries, variableEntries_mixedEnvironment]
    rcases setting with (setting | setting) <;> cases setting <;> rfl
  obtain ⟨whole, alike⟩ :=
    load_of_layers fileLayer?_sprawlingFile isPlainFile_sprawlingLayer only
  constructor
  · obtain ⟨settings, areRead, loaded⟩ := whole (by
      intro setting value given
      have here := expected setting
      rw [given] at here
      exact Option.isSome_of_eq_some here)
    rw [loaded, areRead.unique _ expected]
    rfl
  · refine alike short isPlainFile_shortLayer onlyShort fun setting => ?_
    rw [layeredValue?, layeredValue?, ← Tree.lookup_variableEntries,
      ← Tree.lookup_variableEntries, variableEntries_shortEnvironment,
      variableEntries_mixedEnvironment]
    rcases setting with (setting | setting) <;> cases setting <;> rfl

end Settings

end QuotaGate
