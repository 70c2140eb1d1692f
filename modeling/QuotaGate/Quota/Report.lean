import QuotaGate.Http.Header
import QuotaGate.Http.Status
import QuotaGate.Json.Value
import QuotaGate.Quota.Seconds

/-!
# Quota reports

A report is what one response says about quotas. Every field stands for itself: a missing or
malformed header leaves its own field empty and no other. The JSON body of a rejection may fill
the hint and the scope where the headers left them empty.
-/

namespace QuotaGate

/-- The quota that a rejection was charged against. -/
inductive Scope where
  /-- The quota of a route for this client. -/
  | user
  /-- The lockout of the whole application. -/
  | global
  /-- The quota of a resource that is shared with other clients. -/
  | shared
  deriving DecidableEq, Repr

namespace Scope

/-- Reads a scope, in any case, blanks around it dropped. -/
def ofText? (text : String) : Option Scope :=
  let word := Text.lowerAscii (Text.trim text)
  if word = "user" then some user
  else if word = "global" then some global
  else if word = "shared" then some shared
  else none

end Scope

/-- How a response counts. -/
inductive Verdict where
  | succeeded
  /-- The server rejected the request for exceeding a quota. -/
  | limited
  | failed
  deriving DecidableEq, Repr

namespace Verdict

/-- The verdict that a status stands for. -/
def ofStatus (status : Http.Status) : Verdict :=
  if status.isSuccess then succeeded
  else if status = Http.Status.tooManyRequests then limited
  else failed

end Verdict

/-- What a response says about quotas. -/
structure Report where
  /-- The bucket that the route is counted in. -/
  bucket : Option String
  /-- How many requests the bucket allows in one window. -/
  limit : Option Nat
  /-- How many of them are left. -/
  remaining : Option Nat
  /-- The calendar time at which the window ends. -/
  reset : Option Timestamp
  /-- The time until the window ends. -/
  resetAfter : Option Duration
  /-- How long to wait before trying again. -/
  retryAfter : Option Duration
  scope : Option Scope
  deriving DecidableEq, Repr

namespace Report

/-- The report of a response that says nothing. -/
def empty : Report := ⟨none, none, none, none, none, none, none⟩

def bucketName : Http.HeaderName := ⟨"x-ratelimit-bucket"⟩
def limitName : Http.HeaderName := ⟨"x-ratelimit-limit"⟩
def remainingName : Http.HeaderName := ⟨"x-ratelimit-remaining"⟩
def resetName : Http.HeaderName := ⟨"x-ratelimit-reset"⟩
def resetAfterName : Http.HeaderName := ⟨"x-ratelimit-reset-after"⟩
def globalName : Http.HeaderName := ⟨"x-ratelimit-global"⟩
def scopeName : Http.HeaderName := ⟨"x-ratelimit-scope"⟩
def retryAfterName : Http.HeaderName := ⟨"retry-after"⟩

/-- Reads a bucket's name: the text without the blanks around it, if anything is left. -/
def bucketOfText? (text : String) : Option String :=
  let name := Text.trim text
  if name.isEmpty then none else some name

/-- Reads a count of at most 32 bits, blanks around it dropped. -/
def countOfText? (text : String) : Option Nat :=
  NumberText.nat? NumberText.greatestNat32 (Text.trimChars text.toList)

/-- Whether a text is the word `true`, in any case, blanks around it dropped. -/
def saysTrue (text : String) : Bool := Text.lowerAscii (Text.trim text) = "true"

/-- Reads the report out of a response's headers. The flag of a global lockout overrides the
scope. -/
def ofHeaders (headers : Http.Headers) : Report where
  bucket := (headers.text? bucketName).bind bucketOfText?
  limit := (headers.text? limitName).bind countOfText?
  remaining := (headers.text? remainingName).bind countOfText?
  reset := (headers.text? resetName).bind Timestamp.ofText?
  resetAfter := (headers.text? resetAfterName).bind Duration.ofText?
  retryAfter := (headers.text? retryAfterName).bind Duration.ofText?
  scope :=
    if ((headers.text? globalName).map saysTrue).getD false then some .global
    else (headers.text? scopeName).bind Scope.ofText?

/-- Whether the rejection applies to the whole application. -/
def isGlobal (report : Report) : Bool := report.scope = some .global

end Report

/-- What the JSON body of a rejection says. -/
structure RejectionBody where
  /-- Seconds to wait before trying again. -/
  retryAfter : Option Binary64
  global : Option Bool
  deriving DecidableEq, Repr

namespace RejectionBody

def seconds? : Json.Written → Option (Option Binary64)
  | .null => some none
  | .number numeral => numeral.number?.map fun number => some number.toBinary64
  | _ => none

def flag? : Json.Written → Option (Option Bool)
  | .null => some none
  | .bool value => some (some value)
  | _ => none

/-- Reads the members of an object. `seconds` and `flag` hold the known members found so far, and
a known member must not come twice. The value of any other member is skipped unread. -/
def ofMembers? (seconds : Option (Option Binary64)) (flag : Option (Option Bool)) :
    List (List Json.Piece × Json.Written) → Option RejectionBody
  | [] => some ⟨seconds.getD none, flag.getD none⟩
  | (name, value) :: rest => do
    let name ← Json.Piece.text? name
    if name = "retry_after" then
      if seconds.isSome then none else ofMembers? (some (← seconds? value)) flag rest
    else if name = "global" then
      if flag.isSome then none else ofMembers? seconds (some (← flag? value)) rest
    else ofMembers? seconds flag rest

/-- Reads a written document: an object, or an array that gives the seconds and the flag in this
order and may end early. -/
def ofWritten? : Json.Written → Option RejectionBody
  | .object members => ofMembers? none none members
  | .array [] => some ⟨none, none⟩
  | .array [seconds] => do some ⟨← seconds? seconds, none⟩
  | .array [seconds, flag] => do some ⟨← seconds? seconds, ← flag? flag⟩
  | _ => none

def ofBytes? (body : Bytes) : Option RejectionBody :=
  (Json.Written.ofBytes? body).bind ofWritten?

end RejectionBody

namespace Report

/-- Fills the hint and the scope from what a body says, where they are empty. -/
def fill (report : Report) (body : RejectionBody) : Report :=
  { report with
    retryAfter := report.retryAfter <|> body.retryAfter.bind Duration.ofBinary64?
    scope := report.scope <|> (if body.global = some true then some .global else none) }

/-- Fills the hint and the scope from the body of a rejection. A body that cannot be read changes
nothing. -/
def mergeBody (report : Report) (body : Bytes) : Report :=
  match RejectionBody.ofBytes? body with
  | some body => report.fill body
  | none => report

end Report

end QuotaGate
