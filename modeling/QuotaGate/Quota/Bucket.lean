import QuotaGate.Quota.Report

/-!
# Buckets

A bucket is a quota that the server has given a name. What is known of it is what the last
complete report said, together with the instant of that report. A bucket is never patched: each
report builds a new one.
-/

namespace QuotaGate

/-- The calendar time at which a bucket's window ends. -/
inductive ResetTime where
  /-- The server gave the time. -/
  | reported (time : Timestamp)
  /-- The time is the wall clock's at the report, moved by the time until the reset. -/
  | estimated
  /-- The time until the reset leads past the calendar, whatever the wall clock shows. -/
  | endOfCalendar
  deriving DecidableEq, Repr

namespace ResetTime

/-- Beyond this time from now the calendar has ended, as every wall clock is past the first second
of 1970. -/
def horizon : Duration := Duration.ofSeconds Timestamp.lastSecond

/-- The reset time of a report whose window ends after `resetAfter`. -/
def ofReport (reset : Option Timestamp) (resetAfter : Duration) : ResetTime :=
  match reset with
  | some time => .reported time
  | none => if resetAfter < horizon then .estimated else .endOfCalendar

/-- The time itself, for what the wall clock showed at the report. It ends with the calendar. -/
def timeAt (reset : ResetTime) (resetAfter : Duration) (wall : Timestamp) : Timestamp :=
  match reset with
  | .reported time => time
  | .estimated => (wall.add? resetAfter).getD .latest
  | .endOfCalendar => .latest

/-- A time that is not reported is the wall clock's, moved by the time until the reset, or the
calendar's last if that lies past it. -/
theorem timeAt_ofReport (reset : Option Timestamp) (resetAfter : Duration) {wall : Timestamp}
    (dated : 0 < wall.seconds) :
    (ofReport reset resetAfter).timeAt resetAfter wall =
      reset.getD ((wall.add? resetAfter).getD .latest) := by
  cases reset with
  | some time => rfl
  | none =>
    rw [ofReport, Option.getD_none]
    split
    · rfl
    · next far =>
      have past : ¬wall.seconds + (wall.nanos + resetAfter) / Duration.second ≤
          Timestamp.lastSecond := by
        simp only [horizon, Duration.ofSeconds, Duration.second, Duration] at *
        omega
      rw [timeAt, Timestamp.add?, if_neg past, Option.getD_none]

end ResetTime

/-- The last known state of a quota. -/
structure Bucket where
  id : String
  /-- How many requests one window allows. -/
  limit : Nat
  /-- How many of them were left at the report. -/
  remaining : Nat
  reset : ResetTime
  /-- The time from the report to the end of the window. -/
  resetAfter : Duration
  /-- The instant of the report. -/
  cachedAt : Instant
  deriving DecidableEq, Repr

namespace Bucket

/-- The bucket of a report, if the report names it and gives its limit, what is left of it and
when its window ends. No more is ever left than the limit. -/
def ofReport? (report : Report) (now : Instant) : Option Bucket := do
  let id ← report.bucket
  let limit ← report.limit
  let remaining ← report.remaining
  let resetAfter ← report.resetAfter
  some {
    id
    limit
    remaining := min remaining limit
    reset := .ofReport report.reset resetAfter
    resetAfter
    cachedAt := now }

/-- The calendar time at which the window ends, for what the wall clock showed at the report. -/
def resetTime (bucket : Bucket) (wall : Timestamp) : Timestamp :=
  bucket.reset.timeAt bucket.resetAfter wall

/-- Whether the last report left no request. -/
def isExhausted (bucket : Bucket) : Bool := bucket.remaining = 0

/-- The instant at which the window ends. A reset too far out to be an instant counts as thirty
years away. -/
def resetsAt (bucket : Bucket) : Instant := bucket.cachedAt.addSaturating bucket.resetAfter

def waitAt (bucket : Bucket) (now : Instant) : Duration := bucket.resetsAt.since now

/-- Whether the window ended at least `grace` ago. -/
def isStale (bucket : Bucket) (grace : Duration) (now : Instant) : Bool :=
  match bucket.resetsAt.add? grace with
  | some expiry => expiry ≤ now
  | none => false

end Bucket

end QuotaGate
