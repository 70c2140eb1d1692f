import Mathlib
import QuotaGate.Settings.Fields

/-!
# Settings one by one

Settings are read out of named values: the sections first, and in each section its settings, one
entry after the other, each of which may replace a part of the record read so far. When no known
name comes twice, the order does not show: every setting is what the value under its own name says,
or its default where it has none, and nothing else matters to it.

Results:
1. `Outline.foldlM_eq_some_iff`: a record whose parts are set entry by entry.
2. `Settings.ofValue?_eq_some_iff`: settings, each from its own value.
-/

namespace QuotaGate

/-! ## Records whose parts are set by name -/

section Entries

variable {α : Type}

/-- That no name of a list comes twice among named values. -/
def IsKnownOnce (names : List String) (entries : List (String × α)) : Prop :=
  (entries.map Prod.fst |>.filter names.contains).Nodup

variable {names : List String} {name : String} {value : α} {entries : List (String × α)}

instance : Decidable (IsKnownOnce names entries) := inferInstanceAs (Decidable (List.Nodup _))

theorem IsKnownOnce.of_cons (once : IsKnownOnce names ((name, value) :: entries)) :
    IsKnownOnce names entries := by
  unfold IsKnownOnce at once ⊢
  rw [List.map_cons, List.filter_cons] at once
  split at once
  · exact once.of_cons
  · exact once

theorem IsKnownOnce.lookup_eq_none (once : IsKnownOnce names ((name, value) :: entries))
    (known : name ∈ names) : entries.lookup name = none := by
  unfold IsKnownOnce at once
  rw [List.map_cons, List.filter_cons_of_pos (List.contains_iff_mem.2 known)] at once
  rw [List.lookup_eq_none_iff]
  intro entry mem
  rw [bne_iff_ne]
  rintro rfl
  refine (List.nodup_cons.1 once).1 (List.mem_filter.2 ⟨?_, List.contains_iff_mem.2 known⟩)
  exact List.mem_map_of_mem mem

theorem lookup_cons_self : ((name, value) :: entries).lookup name = some value := by
  rw [List.lookup_cons, beq_self_eq_true]

theorem lookup_cons_of_ne {other : String} (different : other ≠ name) :
    ((name, value) :: entries).lookup other = entries.lookup other := by
  rw [List.lookup_cons, beq_eq_false_iff_ne.2 different]

end Entries

/-- A record seen as its parts, each of which has a name and is read from a value. -/
structure Outline (α σ : Type) where
  Part : Type
  Content : Part → Type
  name : Part → String
  get : σ → (part : Part) → Content part
  put : σ → (part : Part) → Content part → σ
  read? : (part : Part) → α → Option (Content part)

namespace Outline

variable {α σ : Type} {outline : Outline α σ} {set? : σ → String × α → Option σ}

/-- That a part of a record is what its value says, or what it was before if it has none. -/
def Takes (outline : Outline α σ) (value : Option α) (before after : σ) (part : outline.Part) :
    Prop :=
  value.elim (outline.get after part = outline.get before part)
    fun value => outline.read? part value = some (outline.get after part)

/-- That an entry sets the part that has its name, and no other. -/
structure IsSetBy (outline : Outline α σ) (set? : σ → String × α → Option σ) : Prop where
  ext : ∀ {one other : σ}, (∀ part, outline.get one part = outline.get other part) → one = other
  name_injective : Function.Injective outline.name
  get_put : ∀ record part content, outline.get (outline.put record part content) part = content
  get_put_of_ne : ∀ record {part other} content, other ≠ part →
    outline.get (outline.put record part content) other = outline.get record other
  known : ∀ record part value, set? record (outline.name part, value) =
    (outline.read? part value).map (outline.put record part)
  unknown : ∀ record {name} value, (∀ part, outline.name part ≠ name) →
    set? record (name, value) = some record

theorem takes_congr {value : Option α} {one other after : σ} {part : outline.Part}
    (same : outline.get one part = outline.get other part) :
    outline.Takes value one after part ↔ outline.Takes value other after part := by
  unfold Takes
  rw [same]

/-- A record that is set entry by entry: each part takes the value under its name. -/
theorem foldlM_eq_some_iff (isSet : outline.IsSetBy set?) {names : List String}
    (named : ∀ part, outline.name part ∈ names) {entries : List (String × α)}
    (once : IsKnownOnce names entries) {before after : σ} :
    entries.foldlM set? before = some after ↔
      ∀ part, outline.Takes (entries.lookup (outline.name part)) before after part := by
  induction entries generalizing before with
  | nil =>
    rw [List.foldlM_nil, Option.pure_def, Option.some_inj]
    constructor
    · rintro rfl part
      exact rfl
    · intro same
      exact (isSet.ext same).symm
  | cons entry entries ih =>
    obtain ⟨name, value⟩ := entry
    rw [List.foldlM_cons, Option.bind_eq_bind]
    by_cases known : ∃ part, outline.name part = name
    · obtain ⟨part, rfl⟩ := known
      -- The part that the entry sets is not set again, since its name does not come again.
      have last : entries.lookup (outline.name part) = none := once.lookup_eq_none (named part)
      have others : ∀ content other, other ≠ part →
          (outline.Takes (entries.lookup (outline.name other)) (outline.put before part content)
              after other ↔
            outline.Takes (((outline.name part, value) :: entries).lookup (outline.name other))
              before after other) := by
        intro content other different
        rw [lookup_cons_of_ne fun same => different (isSet.name_injective same)]
        exact takes_congr (isSet.get_put_of_ne before content different)
      rw [isSet.known, Option.bind_map, Option.bind_eq_some_iff]
      constructor
      · rintro ⟨content, read, later⟩ other
        have there := (ih once.of_cons).1 later
        by_cases same : other = part
        · subst same
          have kept := there other
          rw [last] at kept
          rw [lookup_cons_self]
          exact read.trans
            (congrArg some ((isSet.get_put before other content).symm.trans kept.symm))
        · exact (others content other same).1 (there other)
      · intro all
        have own := all part
        rw [lookup_cons_self] at own
        refine ⟨outline.get after part, own, (ih once.of_cons).2 fun other => ?_⟩
        by_cases same : other = part
        · subst same
          rw [last]
          exact (isSet.get_put before other _).symm
        · exact (others _ other same).2 (all other)
    · have unnamed : ∀ part, outline.name part ≠ name := not_exists.1 known
      rw [isSet.unknown before value unnamed, Option.bind_some, ih once.of_cons]
      refine forall_congr' fun part => ?_
      rw [lookup_cons_of_ne (unnamed part)]

/-- A record that is set from a value with entries, or left alone where there is no value. -/
theorem section_iff (isSet : outline.IsSetBy set?) {names : List String}
    (named : ∀ part, outline.name part ∈ names) {entries? : α → Option (List (String × α))}
    {value : Option α}
    (readable : ∀ inner ∈ value, ∃ entries, entries? inner = some entries ∧
      IsKnownOnce names entries) (before after : σ) :
    value.elim (after = before) (fun inner =>
        (entries? inner).bind (fun entries => entries.foldlM set? before) = some after) ↔
      ∀ part, outline.Takes
        (value.bind fun inner => (entries? inner).bind fun entries =>
          entries.lookup (outline.name part)) before after part := by
  cases value with
  | none =>
    constructor
    · rintro rfl part
      exact rfl
    · intro same
      exact isSet.ext same
  | some inner =>
    obtain ⟨entries, found, once⟩ := readable inner rfl
    rw [Option.elim_some]
    simp only [Option.bind_some, found]
    exact foldlM_eq_some_iff isSet named once

end Outline

/-! ## The settings -/

/-- The settings about the server. -/
inductive ServerSetting where
  | baseUrl
  | version
  | token
  | userAgent
  | timeoutMs
  deriving DecidableEq, Repr

/-- The settings about quotas. -/
inductive QuotaSetting where
  | maxAttempts
  | fallbackMs
  | pruneEvery
  | pruneGrace
  deriving DecidableEq, Repr

inductive SettingsPart where
  | server
  | quota
  deriving DecidableEq, Repr

/-- A setting, by its section. -/
inductive Setting where
  | server (setting : ServerSetting)
  | quota (setting : QuotaSetting)
  deriving DecidableEq, Repr

section

variable {α : Type} (reader : Reader α)

namespace ServerSetting

/-- What a setting holds. -/
def Content : ServerSetting → Type
  | baseUrl => String
  | version => Nat
  | token => Option String
  | userAgent => String
  | timeoutMs => Option Nat

def name : ServerSetting → String
  | baseUrl => "base_url"
  | version => "version"
  | token => "token"
  | userAgent => "user_agent"
  | timeoutMs => "request_timeout_ms"

theorem name_injective : Function.Injective name := by
  intro one other
  cases one <;> cases other <;> decide

theorem name_mem (setting : ServerSetting) : setting.name ∈ ServerSettings.names := by
  cases setting <;> decide

/-- How a setting is read from its value. -/
def read? : (setting : ServerSetting) → α → Option setting.Content
  | baseUrl, value => reader.text? value
  | version, value => reader.nat? NumberText.greatestNat32 value
  | token, value => reader.optionalText? value
  | userAgent, value => reader.text? value
  | timeoutMs, value => reader.optionalNat? NumberText.greatestNat64 value

end ServerSetting

namespace QuotaSetting

/-- The greatest number that a setting can hold. -/
def most : QuotaSetting → Nat
  | maxAttempts => NumberText.greatestNat32
  | fallbackMs | pruneEvery | pruneGrace => NumberText.greatestNat64

def name : QuotaSetting → String
  | maxAttempts => "max_attempts"
  | fallbackMs => "global_fallback_retry_after_ms"
  | pruneEvery => "prune_interval_secs"
  | pruneGrace => "prune_grace_secs"

theorem name_injective : Function.Injective name := by
  intro one other
  cases one <;> cases other <;> decide

theorem name_mem (setting : QuotaSetting) : setting.name ∈ QuotaSettings.names := by
  cases setting <;> decide

end QuotaSetting

namespace SettingsPart

def Content : SettingsPart → Type
  | server => ServerSettings
  | quota => QuotaSettings

def name : SettingsPart → String
  | server => "api"
  | quota => "rate_limiting"

/-- The names of the settings of a section. -/
def names : SettingsPart → List String
  | server => ServerSettings.names
  | quota => QuotaSettings.names

theorem name_injective : Function.Injective name := by
  intro one other
  cases one <;> cases other <;> decide

theorem name_mem (part : SettingsPart) : part.name ∈ Settings.names := by
  cases part <;> decide

end SettingsPart

namespace ServerSettings

def get (settings : ServerSettings) : (setting : ServerSetting) → setting.Content
  | .baseUrl => settings.baseUrl
  | .version => settings.version
  | .token => settings.token
  | .userAgent => settings.userAgent
  | .timeoutMs => settings.timeoutMs

def put (settings : ServerSettings) : (setting : ServerSetting) → setting.Content → ServerSettings
  | .baseUrl, baseUrl => { settings with baseUrl }
  | .version, version => { settings with version }
  | .token, token => { settings with token }
  | .userAgent, userAgent => { settings with userAgent }
  | .timeoutMs, timeoutMs => { settings with timeoutMs }

def outline : Outline α ServerSettings :=
  ⟨ServerSetting, ServerSetting.Content, ServerSetting.name, get, put, ServerSetting.read? reader⟩

theorem isSetBy_set? : (outline reader).IsSetBy (set? reader) where
  ext := by
    rintro ⟨⟩ ⟨⟩ same
    rw [mk.injEq]
    exact ⟨same .baseUrl, same .version, same .token, same .userAgent, same .timeoutMs⟩
  name_injective := ServerSetting.name_injective
  get_put := by
    intro settings setting content
    cases setting <;> rfl
  get_put_of_ne := by
    intro settings setting other content different
    cases setting <;> cases other <;> first | rfl | exact absurd rfl different
  known := by
    intro settings setting value
    cases setting <;> rfl
  unknown := by
    intro settings name value unnamed
    have baseUrl : name ≠ "base_url" := (unnamed .baseUrl).symm
    have version : name ≠ "version" := (unnamed .version).symm
    have token : name ≠ "token" := (unnamed .token).symm
    have userAgent : name ≠ "user_agent" := (unnamed .userAgent).symm
    have timeoutMs : name ≠ "request_timeout_ms" := (unnamed .timeoutMs).symm
    unfold set?
    simp only [baseUrl, version, token, userAgent, timeoutMs, if_false]

end ServerSettings

namespace QuotaSettings

def get (settings : QuotaSettings) : QuotaSetting → Nat
  | .maxAttempts => settings.maxAttempts
  | .fallbackMs => settings.fallbackMs
  | .pruneEvery => settings.pruneEvery
  | .pruneGrace => settings.pruneGrace

def put (settings : QuotaSettings) : QuotaSetting → Nat → QuotaSettings
  | .maxAttempts, maxAttempts => { settings with maxAttempts }
  | .fallbackMs, fallbackMs => { settings with fallbackMs }
  | .pruneEvery, pruneEvery => { settings with pruneEvery }
  | .pruneGrace, pruneGrace => { settings with pruneGrace }

def outline : Outline α QuotaSettings :=
  ⟨QuotaSetting, fun _ => Nat, QuotaSetting.name, get, put,
    fun setting => reader.nat? setting.most⟩

theorem isSetBy_set? : (outline reader).IsSetBy (set? reader) where
  ext := by
    rintro ⟨⟩ ⟨⟩ same
    rw [mk.injEq]
    exact ⟨same .maxAttempts, same .fallbackMs, same .pruneEvery, same .pruneGrace⟩
  name_injective := QuotaSetting.name_injective
  get_put := by
    intro settings setting content
    cases setting <;> rfl
  get_put_of_ne := by
    intro settings setting other content different
    cases setting <;> cases other <;> first | rfl | exact absurd rfl different
  known := by
    intro settings setting value
    cases setting <;> rfl
  unknown := by
    intro settings name value unnamed
    have maxAttempts : name ≠ "max_attempts" := (unnamed .maxAttempts).symm
    have fallbackMs : name ≠ "global_fallback_retry_after_ms" := (unnamed .fallbackMs).symm
    have pruneEvery : name ≠ "prune_interval_secs" := (unnamed .pruneEvery).symm
    have pruneGrace : name ≠ "prune_grace_secs" := (unnamed .pruneGrace).symm
    unfold set?
    simp only [maxAttempts, fallbackMs, pruneEvery, pruneGrace, if_false]

end QuotaSettings

namespace Setting

def Content : Setting → Type
  | server setting => setting.Content
  | quota _ => Nat

def part : Setting → SettingsPart
  | server _ => .server
  | quota _ => .quota

/-- The name of a setting in its section. -/
def name : Setting → String
  | server setting => setting.name
  | quota setting => setting.name

theorem name_mem (setting : Setting) : setting.name ∈ setting.part.names := by
  cases setting with
  | server setting => exact setting.name_mem
  | quota setting => exact setting.name_mem

def read? : (setting : Setting) → α → Option setting.Content
  | server setting, value => setting.read? reader value
  | quota setting, value => reader.nat? setting.most value

end Setting

namespace Settings

def get (settings : Settings) : (setting : Setting) → setting.Content
  | .server setting => settings.server.get setting
  | .quota setting => settings.quota.get setting

/-- The settings as two sections. -/
def outline : Outline α Settings where
  Part := SettingsPart
  Content := SettingsPart.Content
  name := SettingsPart.name
  get settings
    | .server => settings.server
    | .quota => settings.quota
  put settings
    | .server, server => { settings with server }
    | .quota, quota => { settings with quota }
  read?
    | .server, value => ServerSettings.ofSection? reader value
    | .quota, value => QuotaSettings.ofSection? reader value

theorem isSetBy_set? : (outline reader).IsSetBy (set? reader) where
  ext := by
    rintro ⟨⟩ ⟨⟩ same
    rw [mk.injEq]
    exact ⟨same .server, same .quota⟩
  name_injective := SettingsPart.name_injective
  get_put := by
    intro settings part content
    cases part <;> rfl
  get_put_of_ne := by
    intro settings part other content different
    cases part <;> cases other <;> first | rfl | exact absurd rfl different
  known := by
    intro settings part value
    cases part <;> rfl
  unknown := by
    intro settings name value unnamed
    have server : name ≠ "api" := (unnamed .server).symm
    have quota : name ≠ "rate_limiting" := (unnamed .quota).symm
    unfold set?
    simp only [server, quota, if_false]

/-- That every setting is what its own value says, or its default if it has none. -/
def AreReadFrom (value? : Setting → Option α) (settings : Settings) : Prop :=
  ∀ setting, (value? setting).elim (settings.get setting = default.get setting)
    fun value => setting.read? reader value = some (settings.get setting)

/-- The settings with given contents. -/
def ofContents (content : (setting : Setting) → setting.Content) : Settings where
  server := ⟨content (.server .baseUrl), content (.server .version), content (.server .token),
    content (.server .userAgent), content (.server .timeoutMs)⟩
  quota := ⟨content (.quota .maxAttempts), content (.quota .fallbackMs),
    content (.quota .pruneEvery), content (.quota .pruneGrace)⟩

theorem get_ofContents (content : (setting : Setting) → setting.Content) (setting : Setting) :
    (ofContents content).get setting = content setting := by
  rcases setting with (setting | setting) <;> cases setting <;> rfl

theorem exists_areReadFrom {value? : Setting → Option α}
    (readable : ∀ setting, ∀ value ∈ value? setting,
      (setting.read? reader value).isSome = true) :
    ∃ settings : Settings, settings.AreReadFrom reader value? := by
  have each : ∀ setting, ∃ content, (value? setting).elim (content = default.get setting)
      fun value => setting.read? reader value = some content := by
    intro setting
    cases given : value? setting with
    | none => exact ⟨_, rfl⟩
    | some value => exact Option.isSome_iff_exists.1 (readable setting value given)
  choose content read using each
  refine ⟨ofContents content, fun setting => ?_⟩
  rw [get_ofContents]
  exact read setting

theorem AreReadFrom.unique {value? : Setting → Option α} {settings others : Settings}
    (areRead : settings.AreReadFrom reader value?) (areReadToo : others.AreReadFrom reader value?) :
    settings = others := by
  have same : ∀ setting, settings.get setting = others.get setting := by
    intro setting
    have one := areRead setting
    have two := areReadToo setting
    cases given : value? setting with
    | none =>
      rw [given] at one two
      exact Eq.trans one two.symm
    | some value =>
      rw [given] at one two
      exact Option.some.inj (Eq.trans (Eq.symm one) two)
  have server : settings.server = others.server :=
    (ServerSettings.isSetBy_set? reader).ext fun setting => same (.server setting)
  have quota : settings.quota = others.quota :=
    (QuotaSettings.isSetBy_set? reader).ext fun setting => same (.quota setting)
  cases settings
  cases others
  exact congr (congrArg mk server) quota

end Settings

namespace Reader

/-- The value of a setting: the one under its name in its section. -/
def value? (root : α) (setting : Setting) : Option α :=
  (reader.entries? Settings.names root).bind fun sections =>
    (sections.lookup setting.part.name).bind fun inner =>
      (reader.entries? setting.part.names inner).bind fun entries =>
        entries.lookup setting.name

/-- That a value has sections with named values, and no known name comes twice. -/
def IsSectioned (root : α) : Prop :=
  ∃ sections, reader.entries? Settings.names root = some sections ∧
    IsKnownOnce Settings.names sections ∧
    ∀ part : SettingsPart, ∀ inner ∈ sections.lookup part.name,
      ∃ entries, reader.entries? part.names inner = some entries ∧ IsKnownOnce part.names entries

end Reader

/-- Settings are read out of a value one by one. -/
theorem Settings.ofValue?_eq_some_iff {root : α} (sectioned : reader.IsSectioned root)
    {settings : Settings} : ofValue? reader root = some settings ↔
      settings.AreReadFrom reader (reader.value? root) := by
  obtain ⟨sections, found, once, inner⟩ := sectioned
  have value : ∀ setting, reader.value? root setting =
      (sections.lookup setting.part.name).bind fun inner =>
        (reader.entries? setting.part.names inner).bind fun entries =>
          entries.lookup setting.name := fun setting => by
    unfold Reader.value?
    rw [found, Option.bind_some]
  have server := Outline.section_iff (ServerSettings.isSetBy_set? reader) ServerSetting.name_mem
    (inner .server) .default settings.server
  have quota := Outline.section_iff (QuotaSettings.isSetBy_set? reader) QuotaSetting.name_mem
    (inner .quota) .default settings.quota
  unfold ofValue?
  rw [found, Option.bind_some,
    Outline.foldlM_eq_some_iff (isSetBy_set? reader) SettingsPart.name_mem once]
  constructor
  · intro all setting
    rw [value]
    cases setting with
    | server setting => exact server.1 (all .server) setting
    | quota setting => exact quota.1 (all .quota) setting
  · intro all part
    cases part with
    | server =>
      refine server.2 fun setting => ?_
      have here := all (.server setting)
      rw [value] at here
      exact here
    | quota =>
      refine quota.2 fun setting => ?_
      have here := all (.quota setting)
      rw [value] at here
      exact here

/-- A section of settings that can be read has named values. -/
theorem Settings.exists_entries_of_ofValue? {root : α} {sections : List (String × α)}
    (found : reader.entries? names root = some sections) (once : IsKnownOnce names sections)
    {settings : Settings} (read : ofValue? reader root = some settings) {part : SettingsPart}
    {inner : α} (given : sections.lookup part.name = some inner) :
    ∃ entries, reader.entries? part.names inner = some entries := by
  unfold ofValue? at read
  rw [found, Option.bind_some] at read
  have takes := (Outline.foldlM_eq_some_iff (isSetBy_set? reader) SettingsPart.name_mem once).1 read
    part
  change Outline.Takes _ (sections.lookup part.name) _ _ _ at takes
  rw [given] at takes
  cases part with
  | server =>
    obtain ⟨entries, has, -⟩ := Option.bind_eq_some_iff.1 takes
    exact ⟨entries, has⟩
  | quota =>
    obtain ⟨entries, has, -⟩ := Option.bind_eq_some_iff.1 takes
    exact ⟨entries, has⟩

theorem Settings.ofReading_eq_ok_iff {reading : Option Settings} {settings : Settings} :
    ofReading reading = .ok settings ↔ reading = some settings ∧ settings.fault? = none := by
  cases reading with
  | none => exact iff_of_false nofun fun both => nomatch both.1
  | some made =>
    change made.validate = .ok settings ↔ _
    unfold validate
    rw [Option.some_inj]
    cases usable : made.fault? with
    | some fault =>
      refine iff_of_false nofun ?_
      rintro ⟨rfl, usableToo⟩
      exact nomatch usable.symm.trans usableToo
    | none =>
      constructor
      · intro same
        cases same
        exact ⟨rfl, usable⟩
      · rintro ⟨rfl, -⟩
        rfl

end

end QuotaGate
