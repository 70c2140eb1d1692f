import QuotaGate.Json.Value
import QuotaGate.Settings.Basic

/-!
# Settings from named values

Whatever notation settings are written in, they are named values in two sections. A `Reader` says
how the values of a notation are read; what the names mean is said here, once. Missing names keep
their defaults, and unknown names mean nothing.
-/

namespace QuotaGate

/-- How the values of a notation are read. -/
structure Reader (α : Type) where
  /-- The named values of a section that has the given names. -/
  entries? : List String → α → Option (List (String × α))
  text? : α → Option String
  /-- A whole number up to a greatest one. -/
  nat? : Nat → α → Option Nat
  /-- A value that may be left empty: `some none` where it is. -/
  optional? : α → Option (Option α)

namespace Reader

variable {α : Type}

def optionalText? (reader : Reader α) (value : α) : Option (Option String) :=
  (reader.optional? value).bind fun value => value.elim (some none) fun value =>
    (reader.text? value).map some

/-- A whole number that may be left empty. -/
def optionalNat? (reader : Reader α) (most : Nat) (value : α) : Option (Option Nat) :=
  (reader.optional? value).bind fun value => value.elim (some none) fun value =>
    (reader.nat? most value).map some

end Reader

namespace ServerSettings

variable {α : Type}

/-- The names of the settings about the server. -/
def names : List String := ["base_url", "version", "token", "user_agent", "request_timeout_ms"]

def set? (reader : Reader α) (settings : ServerSettings) (entry : String × α) :
    Option ServerSettings :=
  let (name, value) := entry
  if name = "base_url" then
    (reader.text? value).map fun baseUrl => { settings with baseUrl }
  else if name = "version" then
    (reader.nat? NumberText.greatestNat32 value).map fun version => { settings with version }
  else if name = "token" then
    (reader.optionalText? value).map fun token => { settings with token }
  else if name = "user_agent" then
    (reader.text? value).map fun userAgent => { settings with userAgent }
  else if name = "request_timeout_ms" then
    (reader.optionalNat? NumberText.greatestNat64 value).map fun timeoutMs =>
      { settings with timeoutMs }
  else some settings

def ofSection? (reader : Reader α) (value : α) : Option ServerSettings :=
  (reader.entries? names value).bind fun entries => entries.foldlM (set? reader) default

end ServerSettings

namespace QuotaSettings

variable {α : Type}

/-- The names of the settings about quotas. -/
def names : List String :=
  ["max_attempts", "global_fallback_retry_after_ms", "prune_interval_secs", "prune_grace_secs"]

def set? (reader : Reader α) (settings : QuotaSettings) (entry : String × α) :
    Option QuotaSettings :=
  let (name, value) := entry
  if name = "max_attempts" then
    (reader.nat? NumberText.greatestNat32 value).map fun maxAttempts =>
      { settings with maxAttempts }
  else if name = "global_fallback_retry_after_ms" then
    (reader.nat? NumberText.greatestNat64 value).map fun fallbackMs => { settings with fallbackMs }
  else if name = "prune_interval_secs" then
    (reader.nat? NumberText.greatestNat64 value).map fun pruneEvery => { settings with pruneEvery }
  else if name = "prune_grace_secs" then
    (reader.nat? NumberText.greatestNat64 value).map fun pruneGrace => { settings with pruneGrace }
  else some settings

def ofSection? (reader : Reader α) (value : α) : Option QuotaSettings :=
  (reader.entries? names value).bind fun entries => entries.foldlM (set? reader) default

end QuotaSettings

namespace Settings

variable {α : Type}

def names : List String := ["api", "rate_limiting"]

def set? (reader : Reader α) (settings : Settings) (entry : String × α) : Option Settings :=
  let (name, value) := entry
  if name = "api" then
    (ServerSettings.ofSection? reader value).map fun server => { settings with server }
  else if name = "rate_limiting" then
    (QuotaSettings.ofSection? reader value).map fun quota => { settings with quota }
  else some settings

def ofValue? (reader : Reader α) (value : α) : Option Settings :=
  (reader.entries? names value).bind fun entries => entries.foldlM (set? reader) default

end Settings

/-- How JSON values are read: every value has exactly the type of its setting. A section may also
be an array that gives the values in the order of their names and may end early. -/
def Json.reader : Reader Json.Value where
  entries? names
    | .object members => some members
    | .array items => if items.length ≤ names.length then some (names.zip items) else none
    | _ => none
  text?
    | .text value => some value
    | _ => none
  nat? most
    | .number (.whole value) => if 0 ≤ value ∧ value ≤ most then some value.toNat else none
    | _ => none
  optional?
    | .null => some none
    | value => some (some value)

end QuotaGate
