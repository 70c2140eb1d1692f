import QuotaGate.Time

/-!
# The application-wide lockout

While the lockout is on, every request is held back. Its end is stored in whole microseconds after
the instant at which the guard was made, in 64 bits, and only ever moves forward; zero means that
there has never been a lockout.
-/

namespace QuotaGate

/-- The greatest number of microseconds that can be stored. -/
def Lockout.mostMicros : Nat := UInt64.size - 1

/-- The end of the lockout. -/
structure Lockout where
  /-- The instant from which the end is counted. -/
  origin : Instant
  untilMicros : Nat
  untilMicros_le : untilMicros ≤ Lockout.mostMicros
  deriving DecidableEq, Repr

namespace Lockout

/-- The guard of a session that begins at `origin`. -/
def new (origin : Instant) : Lockout := ⟨origin, 0, Nat.zero_le _⟩

/-- The whole microseconds from the origin to an instant, as far as they can be stored. -/
def offset (lockout : Lockout) (now : Instant) : Nat :=
  min mostMicros (now.since lockout.origin).wholeMicros

/-- The end of a lockout of some length from now on, as far as it can be stored. -/
def endOf (lockout : Lockout) (length : Duration) (now : Instant) : Nat :=
  min mostMicros (lockout.offset now + length.wholeMicros)

/-- Holds everything back for a duration from now on. A lockout that ends later stays. -/
def trigger (lockout : Lockout) (length : Duration) (now : Instant) : Lockout :=
  { lockout with
    untilMicros := max lockout.untilMicros (lockout.endOf length now)
    untilMicros_le := Nat.max_le.2 ⟨lockout.untilMicros_le, Nat.min_le_left _ _⟩ }

def isActive (lockout : Lockout) (now : Instant) : Bool :=
  lockout.offset now < lockout.untilMicros

/-- The time left until the lockout ends. -/
def remaining (lockout : Lockout) (now : Instant) : Duration :=
  (lockout.untilMicros - lockout.offset now) * Duration.microsecond

/-- When to look again at a lockout that is on. -/
def wakeAt? (lockout : Lockout) (now : Instant) : Option Instant :=
  if lockout.remaining now = 0 then none else some (now.wakeAfter (lockout.remaining now))

theorem offset_mono (lockout : Lockout) {now later : Instant} (ordered : now ≤ later) :
    lockout.offset now ≤ lockout.offset later := by
  simp only [offset, Instant.since, Duration.wholeMicros, Duration.microsecond, Instant,
    Duration] at *
  omega

theorem isActive_iff (lockout : Lockout) (now : Instant) :
    lockout.isActive now = true ↔ lockout.offset now < lockout.untilMicros := by
  simp [isActive]

theorem isActive_eq_false_iff (lockout : Lockout) (now : Instant) :
    lockout.isActive now = false ↔ lockout.untilMicros ≤ lockout.offset now := by
  simp [isActive]

/-- The instant at which the lockout ends, also where no clock can show it. -/
def stop (lockout : Lockout) : Instant :=
  lockout.origin + (lockout.untilMicros * Duration.microsecond : Nat)

/-- While the lockout is on its end has not passed. -/
theorem lt_stop_of_isActive {lockout : Lockout} {now : Instant}
    (active : lockout.isActive now = true) : now < lockout.stop := by
  have stored := lockout.untilMicros_le
  rw [isActive_iff] at active
  simp only [stop, offset, Instant.since, Duration.wholeMicros, Duration.microsecond, Instant,
    Duration] at *
  omega

/-- There is time left exactly while the lockout is on. -/
theorem remaining_eq_zero_iff (lockout : Lockout) (now : Instant) :
    lockout.remaining now = 0 ↔ lockout.isActive now = false := by
  rw [isActive_eq_false_iff]
  simp only [remaining, Duration.microsecond, Duration]
  omega

/-- There is nothing to wait for exactly while the lockout is off. -/
theorem wakeAt?_eq_none_iff (lockout : Lockout) (now : Instant) :
    lockout.wakeAt? now = none ↔ lockout.isActive now = false := by
  rw [← remaining_eq_zero_iff]
  unfold wakeAt?
  split <;> simp [*]

theorem wakeAt?_of_isActive {lockout : Lockout} {now : Instant}
    (active : lockout.isActive now = true) :
    lockout.wakeAt? now = some (now.wakeAfter (lockout.remaining now)) := by
  have left : lockout.remaining now ≠ 0 := by
    rw [Ne, remaining_eq_zero_iff, active]
    exact Bool.noConfusion
  rw [wakeAt?, if_neg left]

theorem isActive_of_wakeAt? {lockout : Lockout} {now wake : Instant}
    (sleeps : lockout.wakeAt? now = some wake) : lockout.isActive now = true := by
  cases active : lockout.isActive now with
  | true => rfl
  | false =>
    rw [(lockout.wakeAt?_eq_none_iff now).2 active] at sleeps
    cases sleeps

/-- To look again at a lockout is to sleep first. -/
theorem lt_of_wakeAt? {lockout : Lockout} {now wake : Instant}
    (sleeps : lockout.wakeAt? now = some wake) : now < wake := by
  unfold wakeAt? at sleeps
  split at sleeps
  · cases sleeps
  · next positive =>
    cases sleeps
    exact Instant.lt_wakeAfter (Nat.pos_of_ne_zero positive)

/-- The instant at which the present or last lockout ends. -/
def endsAt? (lockout : Lockout) : Option Instant :=
  if lockout.untilMicros = 0 then none
  else lockout.origin.add? (lockout.untilMicros * Duration.microsecond)

end Lockout

end QuotaGate
