import QuotaGate.CommandLine.Arguments
import QuotaGate.Session.Clock
import QuotaGate.Settings.Layers

/-!
# Running a command

A command loads its settings, checks the method, the body and the headers in this order, and sends
its request as often as it is asked to. Every value that comes back is printed on a line of its
own. The run fails if a request fails.
-/

namespace QuotaGate.CommandLine

/-- What a command fails with. -/
inductive RunFailure where
  | settings
  | method (text : String)
  | body
  /-- There is no client. -/
  | client (failure : Failure)
  | requests (failed count : Nat)
  deriving DecidableEq, Repr

namespace RunFailure

def message : RunFailure → String
  | settings => "Failed to load configuration"
  | method text => "Invalid HTTP method: " ++ text
  | body => "Request body is not valid JSON"
  | client failure => failure.message?.getD ""
  | requests failed count => toString failed ++ " of " ++ toString count ++ " requests failed"

end RunFailure

/-- What a run leaves behind. -/
structure Completion where
  exitCode : Nat
  output : String
  /-- The line that says what failed. -/
  complaint : Option String
  deriving DecidableEq, Repr

def banner : String := "ratewarden 0.1.0\n"

namespace Completion

def ofStop : Stop → Completion
  | .usage => ⟨2, "", none⟩
  | .help => ⟨0, "", none⟩
  | .version => ⟨0, banner, none⟩

def failed (output : String) (failure : RunFailure) : Completion :=
  ⟨1, output, some ("Error: " ++ failure.message)⟩

end Completion

/-- The request that a command sends. -/
structure Order where
  route : Route
  body : Option Json.Value
  client : Client
  settings : Settings

/-- What a client without a usable user agent fails with. -/
def badUserAgent : Failure := .transport "builder error"

def bodyOf (command : Command) : Except RunFailure (Option Json.Value) :=
  match command.body with
  | none => .ok none
  | some text =>
    match Json.Value.ofString? text with
    | some value => .ok (some value)
    | none => .error .body

/-- The method of a command. Its letters become capitals. -/
def methodOf (command : Command) : Except RunFailure Http.Method :=
  match Http.Method.ofString? (Text.upperAscii command.method) with
  | some method => .ok method
  | none => .error (.method command.method)

def clientOf (settings : Settings) : Except RunFailure Client :=
  if (Http.HeaderValue.ofBytes? (Utf8.encode settings.server.userAgent)).isNone then
    .error (.client badUserAgent)
  else
    match Client.ofSettings settings with
    | .ok client => .ok client
    | .error failure => .error (.client failure)

/-- Makes ready what a command asks for. `file` gives the file of settings at a path. -/
def prepare (command : Command) (file : String → SettingsFile)
    (environment : List (String × String)) : Except RunFailure Order := do
  let settings ←
    match Settings.load (command.config.map file) environment with
    | .ok settings => pure settings
    | .error _ => throw .settings
  let method ← methodOf command
  let body ← bodyOf command
  let client ← clientOf settings
  return ⟨.compile method command.template command.params, body, client, settings⟩

/-- The lines printed so far, and how many requests have failed. -/
structure Tally where
  lines : List String
  failures : Nat

def Tally.add (tally : Tally) : Session.Result × Instant → Tally
  | (.answered (.ok value) _ _, _) => { tally with lines := tally.lines ++ [value.render] }
  | _ => { tally with failures := tally.failures + 1 }

/-- Sends a request a number of times, so many at once. -/
def sendAll (order : Order) (atOnce : Nat) : Nat → Nat → Tally → Session → Tally
  | 0, _, tally, _ => tally
  | fuel + 1, left, tally, session =>
    if left = 0 then tally
    else
      let size := min left (max atOnce 1)
      let call := Session.Action.call order.client order.route order.body
      let (results, session) := session.perform (List.replicate size (0, call))
      sendAll order atOnce fuel (left - size) (results.foldl Tally.add tally) session

def execute (command : Command) (order : Order) (replies : List Http.Prepared) : Completion :=
  let session := Session.ofSettings order.settings replies
  let tally := sendAll order command.atOnce command.count command.count ⟨[], 0⟩ session
  let output := String.join (tally.lines.map (· ++ "\n"))
  if tally.failures = 0 then ⟨0, output, none⟩
  else .failed output (.requests tally.failures command.count)

def run (arguments : List String) (file : String → SettingsFile)
    (environment : List (String × String)) (replies : List Http.Prepared) : Completion :=
  match Command.ofArguments arguments with
  | .error stop => .ofStop stop
  | .ok command =>
    match prepare command file environment with
    | .error failure => .failed "" failure
    | .ok order => execute command order replies

end QuotaGate.CommandLine
