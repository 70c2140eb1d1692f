import QuotaGate.Quota.Lockout
import QuotaGate.Quota.Registry

/-!
# The gate

The gate is everything that requests share: the registry, the lockout, and the length of a lockout
for which the server gives no hint. It keeps no clock; every operation is told the present instant.
Only responses change it, and what is done to it by hand. Sending a request never does.
-/

namespace QuotaGate

/-- What is known about quotas. -/
structure Gate where
  registry : Registry
  lockout : Lockout
  /-- The length of a lockout that comes without a hint. -/
  fallback : Duration

namespace Gate

/-- The length of a lockout without a hint, unless set otherwise. -/
def defaultFallback : Duration := Duration.ofSeconds 1

/-- The gate of a session that begins at `origin`. -/
def new (origin : Instant) (fallback : Duration) : Gate :=
  ⟨.empty, .new origin, fallback⟩

/-- What can happen to a gate. -/
inductive Event where
  /-- A response was received. -/
  | observe (route : RouteKey) (report : Report) (verdict : Verdict)
  /-- A report is taken note of, without a verdict. -/
  | record (route : RouteKey) (report : Report)
  /-- Everything is held back for a duration. -/
  | trigger (length : Duration)
  /-- Stale buckets are forgotten. -/
  | prune (grace : Duration)
  /-- All buckets and routes are forgotten. -/
  | clear
  deriving DecidableEq, Repr

/-- The length of the lockout that a response asks for: a rejection of the whole application asks
for as long as its hint says. -/
def lockoutOf? (gate : Gate) (report : Report) (verdict : Verdict) : Option Duration :=
  if verdict = .limited ∧ report.isGlobal then some (report.retryAfter.getD gate.fallback)
  else none

/-- Takes note of a response and gives the name of the route's bucket, if the report is
complete. -/
def observe (gate : Gate) (route : RouteKey) (report : Report) (verdict : Verdict)
    (now : Instant) : Gate × Option String :=
  let (registry, id) := gate.registry.record route report now
  let lockout :=
    match gate.lockoutOf? report verdict with
    | some length => gate.lockout.trigger length now
    | none => gate.lockout
  ({ gate with registry, lockout }, id)

def apply (gate : Gate) (event : Event) (now : Instant) : Gate :=
  match event with
  | .observe route report verdict => (gate.observe route report verdict now).1
  | .record route report => { gate with registry := (gate.registry.record route report now).1 }
  | .trigger length => { gate with lockout := gate.lockout.trigger length now }
  | .prune grace => { gate with registry := gate.registry.prune grace now }
  | .clear => { gate with registry := .empty }

/-- The gate after a history of events, each with its instant. -/
def replay (gate : Gate) (history : List (Instant × Event)) : Gate :=
  history.foldl (fun gate (now, event) => gate.apply event now) gate

end Gate

end QuotaGate
