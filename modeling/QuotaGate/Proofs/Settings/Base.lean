import Mathlib
import QuotaGate.Client
import QuotaGate.Proofs.Text.Runs
import QuotaGate.Settings.Layers

/-!
# The base of all URLs

Settings with a blank base URL are unusable and never accepted. What the URLs begin with is not the
base URL, though, but what is left of it without the slashes at its end, and nobody checks that. The
two differ on texts of blanks with slashes behind them: such a text is not blank and leaves a blank
base.

Results:
1. `isAllBlank_dropEndWhile_iff`: which texts are blank without the slashes at their end.
2. `fault?_of_isAccepted`: whichever way settings are taken into use, they are usable.
3. `blank_base_accepted`, `isAllBlank_base_iff`: accepted settings can have a blank base, and which
   ones do.
-/

namespace QuotaGate.Settings

/-! ## Slashes at the end of a text -/

/-- So many slashes. -/
def slashes (count : Nat) : List Char := List.replicate count '/'

theorem isSlash_of_mem_slashes {count : Nat} : ∀ c ∈ slashes count, isSlash c = true := by
  intro c member
  rw [List.eq_of_mem_replicate member]
  rfl

theorem exists_slashes {chars : List Char} (all : ∀ c ∈ chars, isSlash c = true) :
    ∃ count, chars = slashes count :=
  ⟨chars.length, List.eq_replicate_of_mem fun c member => of_decide_eq_true (all c member)⟩

/-- A slash is not blank, so a text is blank without the slashes at its end exactly if it is blanks
and then slashes. -/
theorem isAllBlank_dropEndWhile_iff (chars : List Char) :
    (Text.dropEndWhile isSlash chars).all Text.isBlank = true ↔
      ∃ blanks count, chars = blanks ++ slashes count ∧ ∀ c ∈ blanks, Text.isBlank c = true := by
  constructor
  · intro blank
    obtain ⟨dropped, split, all⟩ := Text.exists_dropped isSlash chars
    obtain ⟨count, rfl⟩ := exists_slashes all
    exact ⟨_, count, split, List.all_eq_true.1 blank⟩
  · rintro ⟨blanks, count, rfl, blank⟩
    obtain ⟨dropped, split, -⟩ := Text.exists_dropped isSlash blanks
    rw [Text.dropEndWhile_append isSlash_of_mem_slashes, List.all_eq_true]
    intro c member
    refine blank c ?_
    rw [split]
    exact List.mem_append_left dropped member

/-! ## Accepted settings -/

theorem fault?_of_validate {settings accepted : Settings}
    (validated : settings.validate = .ok accepted) :
    settings = accepted ∧ accepted.fault? = none := by
  unfold validate at validated
  split at validated
  · cases validated
  · next usable =>
    cases validated
    exact ⟨rfl, usable⟩

theorem fault?_of_ofReading {reading : Option Settings} {accepted : Settings}
    (read : ofReading reading = .ok accepted) : accepted.fault? = none := by
  cases reading with
  | none => cases read
  | some settings => exact (fault?_of_validate read).2

theorem fault?_of_ofSettings {settings : Settings} {client : Client}
    (built : Client.ofSettings settings = .ok client) : settings.fault? = none := by
  cases validated : settings.validate with
  | error failure =>
    simp only [Client.ofSettings, validated, bind, Except.bind] at built
    cases built
  | ok accepted =>
    obtain ⟨rfl, usable⟩ := fault?_of_validate validated
    exact usable

/-- The ways in which settings are taken into use. -/
inductive IsAccepted : Settings → Prop
  /-- They are read from a document. -/
  | ofYaml {text : String} {settings : Settings} :
      Settings.ofYaml text = .ok settings → IsAccepted settings
  /-- They are read from a file and the environment. -/
  | load {file : Option SettingsFile} {environment : List (String × String)}
      {settings : Settings} : Settings.load file environment = .ok settings → IsAccepted settings
  /-- They are given to a client. -/
  | client {settings : Settings} {client : Client} :
      Client.ofSettings settings = .ok client → IsAccepted settings

theorem fault?_of_isAccepted {settings : Settings} (accepted : settings.IsAccepted) :
    settings.fault? = none := by
  cases accepted with
  | ofYaml read | load read => exact fault?_of_ofReading read
  | client built => exact fault?_of_ofSettings built

/-- The base URL of usable settings is not blank. -/
theorem isAllBlank_of_fault? {settings : Settings} (usable : settings.fault? = none) :
    Text.isAllBlank settings.server.baseUrl = false := by
  unfold fault? at usable
  split at usable
  · cases usable
  · next notBlank => exact Bool.eq_false_iff.2 notBlank

/-! ## Blank bases -/

/-- A document whose base URL is a single slash. -/
def slashText : String := "api:\n  base_url: /\n"

/-- It is accepted, and its URLs begin with the version. -/
theorem blank_base_accepted :
    ∃ settings, ofYaml slashText = .ok settings ∧ settings.IsAccepted ∧
      settings.apiRoot = "/v10" ∧ Text.isAllBlank settings.base = true := by
  have read : ofYaml slashText =
      .ok ⟨{ ServerSettings.default with baseUrl := "/" }, .default⟩ := by cbv
  exact ⟨_, read, .ofYaml read, by decide, by decide⟩

/-- What stands before the version in the URLs of accepted settings is blank exactly if their base
URL is blanks, or nothing, and then at least one slash. -/
theorem isAllBlank_base_iff {settings : Settings} (accepted : settings.IsAccepted) {base : String}
    (begins : settings.apiRoot = base ++ ("/v" ++ toString settings.server.version)) :
    Text.isAllBlank base = true ↔
      ∃ blanks count, settings.server.baseUrl = String.ofList (blanks ++ slashes (count + 1)) ∧
        ∀ c ∈ blanks, Text.isBlank c = true := by
  have same : settings.base = base := by
    rw [apiRoot, String.append_assoc] at begins
    exact String.append_left_inj _ |>.1 begins
  have isBase : base.toList = Text.dropEndWhile isSlash settings.server.baseUrl.toList := by
    rw [← same, Settings.base, String.toList_ofList]
  have notBlank := isAllBlank_of_fault? (fault?_of_isAccepted accepted)
  rw [Text.isAllBlank, isBase, isAllBlank_dropEndWhile_iff]
  constructor
  · rintro ⟨blanks, count, split, blank⟩
    cases count with
    | zero =>
      -- Without a slash the base URL itself would be blank.
      rw [Text.isAllBlank, split, slashes, List.replicate_zero, List.append_nil,
        List.all_eq_true.2 blank] at notBlank
      cases notBlank
    | succ count => exact ⟨blanks, count, by rw [← split, String.ofList_toList], blank⟩
  · rintro ⟨blanks, count, split, blank⟩
    exact ⟨blanks, count + 1, by rw [split, String.toList_ofList], blank⟩

/-- A tab, a blank and two slashes are accepted, and leave a tab and a blank. -/
theorem isAllBlank_base_of_blanks :
    let settings : Settings := ⟨{ ServerSettings.default with baseUrl := "\t //" }, .default⟩
    settings.IsAccepted ∧ settings.apiRoot = "\t /v10" ∧ Text.isAllBlank "\t " = true := by
  intro settings
  have built : Client.ofSettings settings = .ok ⟨"\t /v10", [], 3, none⟩ := by cbv
  have begins : settings.apiRoot = "\t " ++ ("/v" ++ toString settings.server.version) := by
    decide
  have blank : ['\t', ' '].all Text.isBlank = true := by decide
  refine ⟨.client built, by decide, ?_⟩
  exact (isAllBlank_base_iff (.client built) begins).2
    ⟨['\t', ' '], 1, by decide, List.all_eq_true.1 blank⟩

end QuotaGate.Settings
