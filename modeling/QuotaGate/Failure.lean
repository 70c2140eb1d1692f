import QuotaGate.Http.Status
import QuotaGate.Route

/-!
# Failures

Everything that can go wrong, by cause. Waiting for a quota is never a failure. The wording is in
`Failure.message` alone; failures whose wording belongs to the reader of a foreign format have
none.
-/

namespace QuotaGate

/-- What is wrong with settings. -/
inductive SettingsFault where
  /-- The base URL is blank. -/
  | blankBaseUrl
  /-- No attempt is allowed. -/
  | noAttempts
  /-- There is no time between prunings. -/
  | noPruneInterval
  /-- The token cannot stand in a header. -/
  | invalidToken
  /-- The settings cannot be read. -/
  | malformed
  deriving DecidableEq, Repr

namespace SettingsFault

def message? : SettingsFault → Option String
  | blankBaseUrl => some "api.base_url must not be empty"
  | noAttempts => some "rate_limiting.max_attempts must be at least 1"
  | noPruneInterval => some "rate_limiting.prune_interval_secs must be at least 1"
  | invalidToken => some "Invalid token: failed to parse header value"
  | malformed => none

end SettingsFault

/-- Why there is no result. -/
inductive Failure where
  | settings (fault : SettingsFault)
  /-- The server rejected every attempt for exceeding a quota. -/
  | retriesExhausted (route : RouteKey) (attempts : Nat)
  /-- The deadline passed. -/
  | timedOut (route : RouteKey)
  /-- The request did not get through. -/
  | transport (reason : String)
  /-- The server answered neither with success nor with a rejection for exceeding a quota. -/
  | refused (status : Http.Status) (body : String)
  /-- The body of the response is not a JSON document. -/
  | undecodable
  /-- A file could not be read. -/
  | unreadable
  deriving DecidableEq, Repr

namespace Failure

def message? : Failure → Option String
  | settings fault => fault.message?.map ("Configuration error: " ++ ·)
  | retriesExhausted route attempts =>
    some ("Rate limited on " ++ route.text ++ " after " ++ toString attempts ++ " attempts")
  | timedOut route => some ("Request on " ++ route.text ++ " timed out")
  | transport reason => some ("Transport error: " ++ reason)
  | refused status body => some ("HTTP " ++ status.text ++ ": " ++ body)
  | undecodable => none
  | unreadable => none

/-- Whether the server's quotas are the cause. -/
def isRateLimited : Failure → Bool
  | retriesExhausted .. => true
  | _ => false

end Failure

end QuotaGate
