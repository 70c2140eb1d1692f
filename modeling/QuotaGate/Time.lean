/-!
# Durations, instants and timers

Time is counted in whole nanoseconds. Instants are counted from the origin of one monotonic
clock. A timer has millisecond resolution: it never fires early, and fires at the first whole
millisecond at or after its deadline.
-/

namespace QuotaGate

/-- A length of time in nanoseconds. -/
abbrev Duration := Nat

/-- A point of the monotonic clock, in nanoseconds after its origin. -/
abbrev Instant := Nat

namespace Duration

def microsecond : Duration := 1000

def millisecond : Duration := 1000000

def second : Duration := 1000000000

def ofSeconds (count : Nat) : Duration := count * second

def ofMillis (count : Nat) : Duration := count * millisecond

/-- The whole microseconds in a duration; a rest is dropped. -/
def wholeMicros (length : Duration) : Nat := length / microsecond

/-- The longest duration: its whole seconds fit 64 bits. -/
def longest : Duration := UInt64.size * second - 1

/-- Thirty years of 365 days, which stand in for a time that no instant can hold. -/
def thirtyYears : Duration := ofSeconds (30 * 365 * 86400)

end Duration

namespace Instant

/-- The last instant: its whole seconds fit a signed 64-bit number. -/
def latest : Instant := UInt64.size / 2 * Duration.second - 1

/-- The instant `length` after `start`, if there is one. -/
def add? (start : Instant) (length : Duration) : Option Instant :=
  if start + length ≤ latest then some (start + length) else none

/-- The instant `length` after `start`, or thirty years after it when there is no such instant. -/
def addSaturating (start : Instant) (length : Duration) : Instant :=
  (start.add? length).getD (start + Duration.thirtyYears)

/-- The time from `earlier` to `later`, zero when they are out of order. -/
def since (later earlier : Instant) : Duration := later - earlier

/-- The first whole millisecond at or after an instant. -/
def ceilMillis (instant : Instant) : Instant :=
  (instant + (Duration.millisecond - 1)) / Duration.millisecond * Duration.millisecond

/-- When a sleep of `length` begun at `now` ends. -/
def wakeAfter (now : Instant) (length : Duration) : Instant :=
  (now.addSaturating length).ceilMillis

theorem le_ceilMillis (instant : Instant) : instant ≤ instant.ceilMillis := by
  simp only [ceilMillis, Duration.millisecond, Instant, Duration]
  omega

theorem ceilMillis_lt (instant : Instant) :
    instant.ceilMillis < instant + Duration.millisecond := by
  simp only [ceilMillis, Duration.millisecond, Instant, Duration]
  omega

theorem lt_addSaturating {now : Instant} {length : Duration} (positive : 0 < length) :
    now < now.addSaturating length := by
  simp only [addSaturating, add?, Instant, Duration] at *
  split
  · simp only [Option.getD_some]
    omega
  · simp only [Option.getD_none, Duration.thirtyYears, Duration.ofSeconds, Duration.second]
    omega

/-- A sleep of positive length ends strictly later than it began. -/
theorem lt_wakeAfter {now : Instant} {length : Duration} (positive : 0 < length) :
    now < now.wakeAfter length :=
  Nat.lt_of_lt_of_le (lt_addSaturating positive) (le_ceilMillis _)

end Instant

end QuotaGate
