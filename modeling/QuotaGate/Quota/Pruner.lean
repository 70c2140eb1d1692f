import QuotaGate.Quota.Gate

/-!
# The pruner

A pruner goes through a loop. It waits for the next tick of an interval, asks for its gate, and
forgets the gate's stale buckets. The first tick of an interval comes at once and is swallowed. A
pruner does not keep its gate alive: it ends at the first tick at which the gate is gone.
-/

namespace QuotaGate

/-- A timer that goes off when it is started, and then one period after it was last due. -/
structure Interval where
  period : Duration
  positive : 0 < period
  /-- When the next tick is due. -/
  due : Instant
  deriving DecidableEq, Repr

namespace Interval

/-- An interval whose first tick is due now. There is none without a period. -/
def start? (period : Duration) (now : Instant) : Option Interval :=
  if positive : 0 < period then some ⟨period, positive, now⟩ else none

theorem start?_of_pos {period : Duration} (positive : 0 < period) (now : Instant) :
    start? period now = some ⟨period, positive, now⟩ := dif_pos positive

/-- The instant at which the next tick comes. -/
def wake (interval : Interval) : Instant := interval.due.ceilMillis

/-- The interval once its next tick has come. The tick after that one is due a period later, or
thirty years after the one that has come where no instant can hold that. -/
def tick (interval : Interval) : Interval :=
  { interval with
    due := (interval.due.add? interval.period).getD (interval.wake + Duration.thirtyYears) }

/-- Each tick is due later than the one before it. -/
theorem due_lt_due_tick (interval : Interval) : interval.due < interval.tick.due := by
  have positive := interval.positive
  have wakes : interval.due ≤ interval.wake := Instant.le_ceilMillis _
  have longer : 0 < Duration.thirtyYears := by decide
  simp only [tick, Instant.add?, Instant, Duration] at *
  split
  · simp only [Option.getD_some]
    omega
  · simp only [Option.getD_none]
    omega

/-- A tick that has come leaves less time for the next one. -/
theorem sub_due_tick_lt {interval : Interval} {limit : Instant} (come : interval.wake ≤ limit) :
    limit + 1 - interval.tick.due < limit + 1 - interval.due := by
  have later := interval.due_lt_due_tick
  have wakes : interval.due ≤ interval.wake := Instant.le_ceilMillis _
  simp only [Instant] at *
  omega

end Interval

/-- A pruner and the interval it waits for, unless it has ended or was stopped. -/
structure Pruner where
  grace : Duration
  interval? : Option Interval
  deriving DecidableEq, Repr

namespace Pruner

/-- A pruner that starts now and takes the first tick of its interval. Without a period it ends at
once. -/
def spawn (every grace : Duration) (now : Instant) : Pruner :=
  ⟨grace, (Interval.start? every now).map Interval.tick⟩

def stop (pruner : Pruner) : Pruner := { pruner with interval? := none }

def stopped (pruner : Pruner) : Bool := pruner.interval?.isNone

/-- The instant of the next tick. -/
def wake? (pruner : Pruner) : Option Instant := pruner.interval?.map Interval.wake

/-- One turn of the loop, when the next tick of the interval has come. Where the gate is still there
it is pruned, and where it is gone the loop ends. -/
def turn (pruner : Pruner) (interval : Interval) : Option Gate → Pruner × Option Gate
  | some gate => ({ pruner with interval? := some interval.tick },
      some (gate.apply (.prune pruner.grace) interval.wake))
  | none => (pruner.stop, none)

/-- Goes through the loop as far as an instant allows, with a gate or without. -/
def loop (pruner : Pruner) (gate? : Option Gate) (limit : Instant) : Pruner × Option Gate :=
  match _running : pruner.interval? with
  | none => (pruner, gate?)
  | some interval =>
    if _come : interval.wake ≤ limit then
      (pruner.turn interval gate?).1.loop (pruner.turn interval gate?).2 limit
    else (pruner, gate?)
termination_by pruner.interval?.elim 0 fun interval => limit + 1 - interval.due
decreasing_by
  have fewer := Interval.sub_due_tick_lt _come
  rw [_running]
  cases gate? with
  | some gate => exact fewer
  | none => exact Nat.lt_of_le_of_lt (Nat.zero_le _) fewer

/-- Makes the ticks of a pruner whose gate is there. -/
def run (pruner : Pruner) (gate : Gate) (now : Instant) : Pruner × Gate :=
  let (pruner, gate?) := pruner.loop (some gate) now
  (pruner, gate?.getD gate)

/-- Whether a pruner whose gate is gone has ended by now. -/
def hasEnded (pruner : Pruner) (now : Instant) : Bool := (pruner.loop none now).1.stopped

/-- What every pruning by an instant preserves, a pruner preserves that goes on until then. -/
theorem run_invariant {Holds : Gate → Prop} (pruner : Pruner) {gate : Gate} {limit : Instant}
    (preserved : ∀ gate, ∀ tick ≤ limit,
      Holds gate → Holds (gate.apply (.prune pruner.grace) tick))
    (holds : Holds gate) : Holds (pruner.run gate limit).2 := by
  suffices ∃ after, (pruner.loop (some gate) limit).2 = some after ∧ Holds after by
    obtain ⟨after, left, still⟩ := this
    simp only [run, left, Option.getD_some]
    exact still
  generalize there : some gate = gate?
  fun_induction loop pruner gate? limit generalizing gate with
  | case1 | case3 => exact ⟨gate, there.symm, holds⟩
  | case2 pruner gate? interval running come ih =>
    subst there
    exact ih preserved (preserved gate _ come holds) rfl

end Pruner

end QuotaGate
