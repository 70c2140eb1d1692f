import QuotaGate.Client
import QuotaGate.Quota.Pruner

/-!
# Actions and their results

An action is what a task of a session does: something that takes no time, or a wait of some kind.
-/

namespace QuotaGate.Session

/-- What a task does. -/
inductive Action where
  /-- Sleeps so long, and thirty years at most. -/
  | sleep (length : Duration)
  /-- Takes note of a response. -/
  | observe (route : RouteKey) (report : Report) (verdict : Verdict)
  /-- Takes note of a report without a verdict. -/
  | record (route : RouteKey) (report : Report)
  /-- Waits for admission, at most so long. -/
  | acquire (route : RouteKey) (longest : Option Duration)
  /-- Asks whether admission needs no wait. -/
  | tryAcquire (route : RouteKey)
  /-- Waits until the lockout is over. -/
  | awaitLockout
  /-- Waits until the window of a route's bucket ends. -/
  | awaitBucket (route : RouteKey)
  | trigger (length : Duration)
  | prune (grace : Duration)
  | clear
  | spawnPruner (every grace : Duration)
  /-- Sends a request through the gate. -/
  | send (route : RouteKey) (request : Http.Request) (budget : Nat) (timeout : Option Duration)
  /-- Asks a client for the value at a route. -/
  | call (client : Client) (route : Route) (body : Option Json.Value)
  /-- Stops the client's pruner. -/
  | shutdown

/-- What became of an action. -/
inductive Result where
  | nothing
  | bucket (id : Option String)
  | acquired (result : Except Failure Unit) (waited : Duration)
  | ready (value : Bool)
  /-- A wait as it was announced and as it was on the clock. -/
  | waited (announced actual : Duration)
  | removed (count : Nat)
  | delivered (result : Except Failure Http.Response) (changes : List Delivery.Change)
      (waited : Duration)
  | answered (result : Except Failure Json.Value) (changes : List Delivery.Change)
      (waited : Duration)

/-- What the tasks of a session share. The first pruner is the client's own. -/
structure World where
  exchange : Exchange
  pruners : List Pruner

namespace World

def gate (world : World) : Gate := world.exchange.gate

def apply (world : World) (event : Gate.Event) (now : Instant) : World :=
  { world with exchange := { world.exchange with gate := world.gate.apply event now } }

/-- Makes the ticks of all pruners that are due at an instant. -/
def runPruners (world : World) (now : Instant) : World :=
  let (pruners, gate) := world.pruners.foldl
    (fun (pruners, gate) pruner =>
      let (pruner, gate) := pruner.run gate now
      (pruners ++ [pruner], gate))
    ([], world.gate)
  { exchange := { world.exchange with gate }, pruners }

end World

end QuotaGate.Session
