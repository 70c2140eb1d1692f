import Mathlib
import QuotaGate.Proofs.Session.Requests
import QuotaGate.Proofs.Settings.Base

/-!
# Where the requests of a client go

One slash stands between the version and the path, however many slashes end the base URL and begin
the template. The parameters are filled in before the slashes in front are dropped, and a slash is
no part of a placeholder: so the slashes in front of a template stand in front of its path, whatever
the parameters are, and slashes that a value brings to the front are dropped too.

Results:
1. `Client.ofSettings_slashed`: slashes at the end of the base URL make the same client.
2. `Client.requestOf_slashed`: slashes in front of the template make the same request.
3. `Session.sent_to_address`: the URL of everything that a client sends.
-/

namespace QuotaGate

open Settings (isSlash slashes)

/-! ## Slashes at the end of the base URL -/

/-- The settings with so many slashes more at the end of the base URL. -/
def Settings.slashed (settings : Settings) (count : Nat) : Settings :=
  { settings with server.baseUrl := settings.server.baseUrl ++ String.ofList (slashes count) }

namespace Settings

theorem base_slashed (settings : Settings) (count : Nat) :
    (settings.slashed count).base = settings.base := by
  have longer : (settings.slashed count).server.baseUrl.toList =
      settings.server.baseUrl.toList ++ slashes count := by
    rw [slashed, String.toList_append, String.toList_ofList]
  rw [base, longer, Text.dropEndWhile_append isSlash_of_mem_slashes, base]

/-- More text is not blank either. -/
theorem fault?_slashed {settings : Settings} (usable : settings.fault? = none) (count : Nat) :
    (settings.slashed count).fault? = none := by
  have notBlank := isAllBlank_of_fault? usable
  have notBlankToo : Text.isAllBlank (settings.slashed count).server.baseUrl = false := by
    rw [Text.isAllBlank] at notBlank ⊢
    rw [slashed, String.toList_append, List.all_append, notBlank, Bool.false_and]
  rw [← usable, fault?, fault?, notBlank, notBlankToo]
  rfl

theorem validate_of_fault? {settings : Settings} (usable : settings.fault? = none) :
    settings.validate = .ok settings := by
  rw [validate, usable]

end Settings

/-! ## Slashes in front of the template -/

namespace Route

/-- A template with so many slashes more in front. -/
def underSlashes (count : Nat) (template : String) : String :=
  String.ofList (slashes count) ++ template

/-- What opens no placeholder stays in front, whatever the parameters are. -/
theorem foldl_fill_append {opening : List Char} (unopened : '\x7b' ∉ opening)
    (params : List PathParam) (rest : List Char) :
    params.foldl PathParam.fill (opening ++ rest) =
      opening ++ params.foldl PathParam.fill rest := by
  -- Each parameter changes the rest, and the next one is filled into what came of it.
  induction params generalizing rest with
  | nil => rfl
  | cons param params ih =>
    rw [List.foldl_cons, PathParam.fill_append unopened, ih, List.foldl_cons]

theorem path_underSlashes (method : Http.Method) (count : Nat) (template : String)
    (params : List PathParam) : (compile method (underSlashes count template) params).path.toList =
      slashes count ++ (compile method template params).path.toList := by
  have unopened : '\x7b' ∉ slashes count := by
    intro member
    cases List.eq_of_mem_replicate member
  simp only [compile, underSlashes, String.toList_append, String.toList_ofList]
  exact foldl_fill_append unopened params template.toList

end Route

namespace Client

/-- What a client takes from settings that are usable. -/
theorem ofSettings_eq_ok_iff {settings : Settings} {client : Client} :
    ofSettings settings = .ok client ↔ settings.fault? = none ∧
      ∃ headers, headersOf settings = .ok headers ∧ client = {
        root := settings.apiRoot
        headers
        budget := settings.quota.maxAttempts
        timeout := settings.timeout } := by
  constructor
  · intro accepted
    have usable := Settings.fault?_of_ofSettings accepted
    refine ⟨usable, ?_⟩
    rw [ofSettings, Settings.validate_of_fault? usable] at accepted
    simp only [bind, Except.bind] at accepted
    split at accepted
    · cases accepted
    · next headers carried =>
      cases accepted
      exact ⟨headers, carried, rfl⟩
  · rintro ⟨usable, headers, carried, rfl⟩
    rw [ofSettings, Settings.validate_of_fault? usable]
    simp only [bind, Except.bind, carried]
    rfl

/-- Slashes at the end of the base URL make the same client. -/
theorem ofSettings_slashed {settings : Settings} {client : Client}
    (accepted : ofSettings settings = .ok client) (count : Nat) :
    ofSettings (settings.slashed count) = .ok client := by
  obtain ⟨usable, headers, carried, rfl⟩ := ofSettings_eq_ok_iff.1 accepted
  have root : (settings.slashed count).apiRoot = settings.apiRoot := by
    rw [Settings.apiRoot, Settings.base_slashed, Settings.apiRoot]
    rfl
  refine ofSettings_eq_ok_iff.2 ⟨Settings.fault?_slashed usable count, headers, carried, ?_⟩
  rw [root]
  rfl

theorem root_of_ofSettings {settings : Settings} {client : Client}
    (accepted : ofSettings settings = .ok client) : client.root = settings.apiRoot := by
  obtain ⟨-, headers, -, rfl⟩ := ofSettings_eq_ok_iff.1 accepted
  rfl

/-- Slashes in front of the template make the same request. -/
theorem requestOf_slashed (client : Client) (method : Http.Method) (count : Nat)
    (template : String) (params : List PathParam) (body : Option Json.Value) :
    client.requestOf (.compile method (Route.underSlashes count template) params) body =
      client.requestOf (.compile method template params) body := by
  have url : client.urlOf (Route.compile method (Route.underSlashes count template) params).path =
      client.urlOf (Route.compile method template params).path := by
    rw [urlOf, Route.path_underSlashes,
      List.dropWhile_append_of_pos Settings.isSlash_of_mem_slashes, urlOf]
  rw [requestOf, url, requestOf]
  rfl

end Client

/-! ## What a client sends -/

/-- The text with its last slashes, but no others, taken away. -/
structure IsWithoutLastSlashes (text trimmed : String) : Prop where
  split : ∃ count, text = trimmed ++ String.ofList (slashes count)
  stops : Stops isSlash trimmed.toList.reverse

/-- The text with its first slashes, but no others, taken away. -/
structure IsWithoutFirstSlashes (text trimmed : String) : Prop where
  split : ∃ count, text = String.ofList (slashes count) ++ trimmed
  stops : Stops isSlash trimmed.toList

theorem Settings.isWithoutLastSlashes_base (settings : Settings) :
    IsWithoutLastSlashes settings.server.baseUrl settings.base where
  split := by
    obtain ⟨dropped, split, all⟩ := Text.exists_dropped isSlash settings.server.baseUrl.toList
    obtain ⟨count, rfl⟩ := exists_slashes all
    refine ⟨count, ?_⟩
    rw [base, ← String.ofList_append, ← split, String.ofList_toList]
  stops := by
    rw [base, String.toList_ofList]
    exact Text.stops_reverse_dropEndWhile _ _

theorem isWithoutFirstSlashes_dropWhile (text : String) :
    IsWithoutFirstSlashes text (String.ofList (text.toList.dropWhile isSlash)) where
  split := by
    obtain ⟨count, all⟩ := Settings.exists_slashes (@of_mem_takeWhile _ isSlash text.toList)
    refine ⟨count, ?_⟩
    rw [← all, ← String.ofList_append, List.takeWhile_append_dropWhile, String.ofList_toList]
  stops := by
    rw [String.toList_ofList]
    exact stops_dropWhile _ _

namespace Session

/-- A client's request through a template with so many slashes in front. -/
def Action.ask (client : Client) (method : Http.Method) (template : String)
    (params : List PathParam) (body : Option Json.Value) (count : Nat) : Action :=
  .call client (.compile method (Route.underSlashes count template) params) body

/-- A client of accepted settings sends every request to the base URL without the slashes at its
end, then the version, one slash, and the path without the slashes at its beginning. It does so
however many slashes are put behind the base URL and in front of the template, whatever the
parameters are. This is said of all that a step of a session sends if its actions send nothing but
the request, through any number of spellings of the template. -/
theorem sent_to_address {settings : Settings} {client : Client}
    (accepted : Client.ofSettings settings = .ok client) (method : Http.Method)
    (template : String) (params : List PathParam) (body : Option Json.Value) :
    ∃ base rest, IsWithoutLastSlashes settings.server.baseUrl base ∧
      IsWithoutFirstSlashes (Route.compile method template params).path rest ∧
      (∀ count, Client.ofSettings (settings.slashed count) = .ok client) ∧
      ∀ (session : Session) (actions : List (Duration × Action)),
        (∀ delayed ∈ actions, ∀ request ∈ delayed.2.request?,
          ∃ count, delayed.2 = .ask client method template params body count) →
        session.world.exchange.wire.Extends (fun request => request = {
            method
            url := base ++ "/v" ++ toString settings.server.version ++ "/" ++ rest
            headers := client.headers
            body
            timeout := none })
          (session.perform actions).2.world.exchange.wire := by
  refine ⟨_, _, settings.isWithoutLastSlashes_base, isWithoutFirstSlashes_dropWhile _,
    Client.ofSettings_slashed accepted, fun session actions asks => ?_⟩
  obtain ⟨added, grown, each⟩ := session.extends_perform actions
  refine ⟨added, grown, fun sent member => ?_⟩
  obtain ⟨delayed, found, request⟩ := each sent member
  obtain ⟨count, asked⟩ := asks delayed found _ request
  rw [asked, Action.ask, Action.request?, Client.requestOf_slashed] at request
  rw [← Option.some.inj request, Client.requestOf, Client.urlOf, Client.root_of_ofSettings accepted,
    Settings.apiRoot]
  rfl

/-- Settings whose base URL ends in slashes. -/
def slashedHost : Settings := ⟨{ ServerSettings.default with baseUrl := "https://h//" }, .default⟩

/-- A client of them. -/
def clientOfSlashedHost : Client := ⟨"https://h/v10", [], 3, none⟩

/-- One endpoint through two spellings of its template, with a value that begins with slashes. -/
def askingTwice : List (Duration × Action) :=
  [0, 2].map fun count =>
    (0, .ask clientOfSlashedHost .get "/\x7ba\x7d" [⟨"a", "//x"⟩] none count)

/-- Both requests are sent to the same URL, which has one slash in each place. -/
theorem sent_to_address_past_slashes :
    Client.ofSettings slashedHost = .ok clientOfSlashedHost ∧
      ((ofSettings slashedHost []).perform askingTwice).2.world.exchange.wire.sent.map
        (fun sent => sent.request.url) = ["https://h/v10/x", "https://h/v10/x"] ∧
      ∃ base rest, IsWithoutLastSlashes "https://h//" base ∧ IsWithoutFirstSlashes "///x" rest ∧
        (ofSettings slashedHost []).world.exchange.wire.Extends
          (fun request => request = {
            method := .get
            url := base ++ "/v" ++ toString 10 ++ "/" ++ rest
            headers := []
            body := none
            timeout := none })
          ((ofSettings slashedHost []).perform askingTwice).2.world.exchange.wire := by
  have root : "https://h/v10" = slashedHost.apiRoot := by decide
  have accepted : Client.ofSettings slashedHost = .ok clientOfSlashedHost :=
    Client.ofSettings_eq_ok_iff.2 ⟨by decide, [], rfl, congrArg (Client.mk · [] 3 none) root⟩
  obtain ⟨base, rest, isBase, isRest, -, sent⟩ :=
    sent_to_address accepted .get "/\x7ba\x7d" [⟨"a", "//x"⟩] none
  refine ⟨accepted, by cbv, base, rest, isBase, ?_,
    sent (ofSettings slashedHost []) askingTwice ?_⟩
  · have path : (Route.compile .get "/\x7ba\x7d" [⟨"a", "//x"⟩]).path = "///x" := by cbv
    rwa [path] at isRest
  · intro delayed member request asked
    obtain ⟨count, -, rfl⟩ := List.mem_map.1 member
    exact ⟨count, rfl⟩

end Session

end QuotaGate
