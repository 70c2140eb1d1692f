import QuotaGate.Settings.Basic
import QuotaGate.Text.Shown

/-!
# Settings as shown

Settings are shown on one line for logs. Whether there is a token is shown, its text never is.
-/

namespace QuotaGate

/-- How a structure is shown: its name, and its fields in braces. -/
def shownFields (name : String) (fields : List (String × String)) : String :=
  let field (entry : String × String) : String := entry.1 ++ ": " ++ entry.2
  name ++ " \x7b " ++ String.intercalate ", " (fields.map field) ++ " \x7d"

/-- How a value is shown that may be missing. -/
def shownOption (value : Option String) : String :=
  match value with
  | some text => "Some(" ++ text ++ ")"
  | none => "None"

namespace ServerSettings

def redacted : String := "<redacted>"

/-- The settings about the server on one line. -/
def shown (settings : ServerSettings) : String :=
  shownFields "ApiConfig" [
    ("base_url", Text.shown settings.baseUrl),
    ("version", toString settings.version),
    ("token", shownOption (settings.token.map fun _ => Text.shown redacted)),
    ("user_agent", Text.shown settings.userAgent),
    ("request_timeout_ms", shownOption (settings.timeoutMs.map toString))]

end ServerSettings

namespace QuotaSettings

/-- The settings about quotas on one line. -/
def shown (settings : QuotaSettings) : String :=
  shownFields "RateLimitingConfig" [
    ("max_attempts", toString settings.maxAttempts),
    ("global_fallback_retry_after_ms", toString settings.fallbackMs),
    ("prune_interval_secs", toString settings.pruneEvery),
    ("prune_grace_secs", toString settings.pruneGrace)]

end QuotaSettings

namespace Settings

def shown (settings : Settings) : String :=
  shownFields "WardenConfig"
    [("api", settings.server.shown), ("rate_limiting", settings.quota.shown)]

end Settings

end QuotaGate
