import QuotaGate.Failure
import QuotaGate.Text.Blank
import QuotaGate.Time

/-!
# Settings

The settings of a client session come in two sections, one about the server and one about quotas.
Every setting has a default. Settings that would make a session unusable are rejected.
-/

namespace QuotaGate

/-- The settings about the server. -/
structure ServerSettings where
  /-- The base of every URL, without the version. -/
  baseUrl : String
  version : Nat
  /-- The token that authorizes requests. -/
  token : Option String
  userAgent : String
  /-- The longest time that a request may take, waits included, in milliseconds. -/
  timeoutMs : Option Nat
  deriving DecidableEq, Repr

/-- The settings about quotas. -/
structure QuotaSettings where
  /-- How many attempts one request may take. -/
  maxAttempts : Nat
  /-- The length of a lockout that comes without a hint, in milliseconds. -/
  fallbackMs : Nat
  /-- The seconds from one pruning to the next. -/
  pruneEvery : Nat
  /-- The seconds that a bucket is kept after the end of its window. -/
  pruneGrace : Nat
  deriving DecidableEq, Repr

/-- The settings of a client session. -/
structure Settings where
  server : ServerSettings
  quota : QuotaSettings
  deriving DecidableEq, Repr

namespace ServerSettings

def default : ServerSettings where
  baseUrl := "https://discord.com/api"
  version := 10
  token := none
  userAgent := "ratewarden/0.1.0"
  timeoutMs := none

end ServerSettings

namespace QuotaSettings

def default : QuotaSettings where
  maxAttempts := 3
  fallbackMs := 1000
  pruneEvery := 60
  pruneGrace := 300

end QuotaSettings

namespace Settings

def default : Settings := ⟨.default, .default⟩

/-- What makes settings unusable, if anything does. -/
def fault? (settings : Settings) : Option SettingsFault :=
  if Text.isAllBlank settings.server.baseUrl then some .blankBaseUrl
  else if settings.quota.maxAttempts = 0 then some .noAttempts
  else if settings.quota.pruneEvery = 0 then some .noPruneInterval
  else none

/-- The settings themselves if they are usable. -/
def validate (settings : Settings) : Except Failure Settings :=
  match settings.fault? with
  | some fault => .error (.settings fault)
  | none => .ok settings

/-- The settings read, if they could be read and are usable. -/
def ofReading (reading : Option Settings) : Except Failure Settings :=
  match reading with
  | some settings => settings.validate
  | none => .error (.settings .malformed)

def isSlash (c : Char) : Bool := c = '/'

/-- The base URL without the slashes at its end. -/
def base (settings : Settings) : String :=
  String.ofList (Text.dropEndWhile isSlash settings.server.baseUrl.toList)

/-- The URL under which all paths lie: the base and the version. -/
def apiRoot (settings : Settings) : String :=
  settings.base ++ "/v" ++ toString settings.server.version

/-- The longest time that a request may take unless it says otherwise. -/
def timeout (settings : Settings) : Option Duration :=
  settings.server.timeoutMs.map Duration.ofMillis

/-- The length of a lockout that comes without a hint. -/
def fallback (settings : Settings) : Duration := .ofMillis settings.quota.fallbackMs

/-- The time from one pruning to the next. -/
def pruneEvery (settings : Settings) : Duration := .ofSeconds settings.quota.pruneEvery

/-- How long a bucket is kept after the end of its window. -/
def pruneGrace (settings : Settings) : Duration := .ofSeconds settings.quota.pruneGrace

end Settings

end QuotaGate
