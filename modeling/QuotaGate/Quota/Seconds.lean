import QuotaGate.Number.Decimal
import QuotaGate.Text.Blank
import QuotaGate.Time

/-!
# Seconds on the wire

Servers give durations and calendar times as decimal seconds. The text is read as a floating-point
number. A duration is that number rounded to the nearest nanosecond, ties to even. A calendar time
keeps the whole seconds and scales the fraction to nanoseconds by a floating-point product, of
which the whole part counts.
-/

namespace QuotaGate

/-- A calendar time: whole seconds since the start of 1970, and nanoseconds of the next second. -/
structure Timestamp where
  seconds : Nat
  nanos : Nat
  deriving DecidableEq, Repr

namespace Timestamp

/-- The last second of the calendar, at the end of the year 262142. -/
def lastSecond : Nat := 8210266876799

def latest : Timestamp := ⟨lastSecond, 999999999⟩

/-- The calendar time a duration later, if the calendar reaches so far. -/
def add? (time : Timestamp) (length : Duration) : Option Timestamp :=
  let nanos := time.nanos + length
  let later := time.seconds + nanos / Duration.second
  if later ≤ lastSecond then some ⟨later, nanos % Duration.second⟩ else none

/-- The calendar time of a number of seconds. The number must be finite, not negative, and within
the calendar. -/
def ofBinary64? : Binary64 → Option Timestamp
  | .finite negative significand exponent =>
    if negative ∧ significand ≠ 0 then none
    else
      let (numerator, denominator) := Binary64.ratio significand exponent
      let whole := numerator / denominator
      let fraction := Binary64.ofRatio false (numerator % denominator * Duration.second) denominator
      let nanos :=
        match fraction with
        | .finite _ significand exponent =>
          let (numerator, denominator) := Binary64.ratio significand exponent
          numerator / denominator
        | _ => 0
      if whole ≤ lastSecond then some ⟨whole, nanos⟩ else none
  | _ => none

/-- Reads a calendar time from a text of decimal seconds, blanks around it dropped. -/
def ofText? (text : String) : Option Timestamp :=
  (NumberText.float? (Text.trimChars text.toList)).bind ofBinary64?

end Timestamp

namespace Duration

/-- The duration of a number of seconds. The number must be at least zero, of either sign, and
less than `2 ^ 64`. -/
def ofBinary64? : Binary64 → Option Duration
  | .finite negative significand exponent =>
    let (numerator, denominator) := Binary64.ratio significand exponent
    if negative ∧ significand ≠ 0 then none
    else if UInt64.size * denominator ≤ numerator then none
    else some (roundHalfEven (numerator * second) denominator)
  | _ => none

/-- Reads a duration from a text of decimal seconds, blanks around it dropped. -/
def ofText? (text : String) : Option Duration :=
  (NumberText.float? (Text.trimChars text.toList)).bind ofBinary64?

end Duration

end QuotaGate
