import QuotaGate.Http.Header
import QuotaGate.Http.Status
import QuotaGate.Json.Value
import QuotaGate.Time

/-!
# Requests, responses and the wire

The wire is the server as a client sees it: it has its replies ready in a fixed order, hands one to
each request as it is sent, lets the reply travel for its latency, and remembers what was sent.
When the replies have run out, every request fails at once.
-/

namespace QuotaGate.Http

/-- A request that is ready to be sent. -/
structure Request where
  method : Method
  url : String
  headers : Headers
  body : Option Json.Value
  /-- The longest time that the request may take, waits included. -/
  timeout : Option Duration
  deriving Repr

/-- What came back from the server. -/
structure Response where
  status : Status
  headers : Headers
  body : Bytes
  deriving DecidableEq, Repr

/-- A response, or the reason why there is none. -/
abbrev Reply := Except String Response

/-- A reply that the server has ready, and how long it travels. -/
structure Prepared where
  reply : Reply
  latency : Duration

/-- A request as it was sent. -/
structure Sent where
  sentAt : Instant
  request : Request
  deriving Repr

/-- The server as a client sees it. -/
structure Wire where
  replies : List Prepared
  sent : List Sent

namespace Wire

/-- A wire on which nothing was sent yet. -/
def ofReplies (replies : List Prepared) : Wire := ⟨replies, []⟩

/-- The reply of a wire that has run out of replies. -/
def exhausted : Reply := .error "script exhausted"

/-- When a reply that leaves now arrives. -/
def arrival (now : Instant) (latency : Duration) : Instant :=
  if latency = 0 then now else now.wakeAfter latency

/-- Sends a request: the reply to it, when the reply arrives, and the wire afterwards. -/
def send (wire : Wire) (request : Request) (now : Instant) : Reply × Instant × Wire :=
  let sent := wire.sent ++ [⟨now, request⟩]
  match wire.replies with
  | [] => (exhausted, now, ⟨[], sent⟩)
  | prepared :: rest => (prepared.reply, arrival now prepared.latency, ⟨rest, sent⟩)

end Wire

end QuotaGate.Http
