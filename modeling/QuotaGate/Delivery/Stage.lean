/-!
# Stages of a delivery

A delivery goes from stage to stage until one of the terminal ones. Each change is noted with the
number of the attempt it belongs to.
-/

namespace QuotaGate.Delivery

/-- Where a delivery stands. -/
inductive Stage where
  | pending
  /-- Held back by the lockout. -/
  | waitingGlobal
  /-- Held back by its bucket, or about to be sent. -/
  | waitingBucket
  | inFlight
  | succeeded
  /-- Rejected for exceeding a quota, with attempts left. -/
  | rateLimited
  /-- Rejected for exceeding a quota on the last attempt. -/
  | exhausted
  | failed
  deriving DecidableEq, Repr

namespace Stage

def all : List Stage :=
  [pending, waitingGlobal, waitingBucket, inFlight, succeeded, rateLimited, exhausted, failed]

def isTerminal : Stage → Bool
  | succeeded | exhausted | failed => true
  | _ => false

def name : Stage → String
  | pending => "Pending"
  | waitingGlobal => "WaitingGlobal"
  | waitingBucket => "WaitingBucket"
  | inFlight => "InFlight"
  | succeeded => "Succeeded"
  | rateLimited => "RateLimited"
  | exhausted => "Exhausted"
  | failed => "Failed"

/-- The stage after a rejection for exceeding a quota, on an attempt with so many left after
it. -/
def afterLimited (left : Nat) : Stage := if left = 0 then exhausted else rateLimited

end Stage

/-- A change of stage on an attempt. -/
structure Change where
  attempt : Nat
  source : Stage
  target : Stage
  deriving DecidableEq, Repr

namespace Change

def text (change : Change) : String :=
  toString change.attempt ++ ": " ++ change.source.name ++ " -> " ++ change.target.name

end Change

end QuotaGate.Delivery
