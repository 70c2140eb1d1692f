import QuotaGate.Delivery.Basic
import QuotaGate.Settings.Basic

/-!
# Clients

A client turns a template, its parameters and a payload into a request to the server of its
settings, and the response into a JSON value. Every request carries the token, if there is one.
-/

namespace QuotaGate

/-- What a client keeps from its settings. -/
structure Client where
  root : String
  headers : Http.Headers
  budget : Nat
  timeout : Option Duration

namespace Client

/-- The header that carries a token. It is meant for the server alone. -/
def authorization? (token : String) : Option Http.HeaderValue :=
  (Http.HeaderValue.ofBytes? (Utf8.encode ("Bot " ++ token))).map
    fun value => { value with sensitive := true }

def headersOf (settings : Settings) : Except Failure Http.Headers :=
  match settings.server.token with
  | none => .ok []
  | some token =>
    match authorization? token with
    | some value => .ok [(.authorization, value)]
    | none => .error (.settings .invalidToken)

/-- The client of settings that are usable. -/
def ofSettings (settings : Settings) : Except Failure Client := do
  let settings ← settings.validate
  let headers ← headersOf settings
  return {
    root := settings.apiRoot
    headers
    budget := settings.quota.maxAttempts
    timeout := settings.timeout }

/-- The URL of a path: no more than one slash stands before it. -/
def urlOf (client : Client) (path : String) : String :=
  client.root ++ "/" ++ String.ofList (path.toList.dropWhile Settings.isSlash)

def requestOf (client : Client) (route : Route) (body : Option Json.Value) : Http.Request where
  method := route.key.method
  url := client.urlOf route.path
  headers := client.headers
  body
  timeout := none

def begin (client : Client) (route : Route) (body : Option Json.Value) (now : Instant) : Delivery :=
  .begin route.key (client.requestOf route body) client.budget client.timeout now

/-- The value of a response. An empty body stands for null. -/
def decode (response : Http.Response) : Except Failure Json.Value :=
  if response.body.isEmpty then .ok .null
  else
    match Json.Value.ofBytes? response.body with
    | some value => .ok value
    | none => .error .undecodable

/-- The value that a delivery results in. -/
def answer (result : Except Failure Http.Response) : Except Failure Json.Value :=
  result.bind decode

end Client

end QuotaGate
