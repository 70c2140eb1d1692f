import QuotaGate.Failure
import QuotaGate.Quota.Gate

/-!
# Admission

A request is held back until the lockout is over and then, if its bucket is exhausted, until the
bucket's window ends. The lockout may be extended meanwhile, so its end is looked at again after
every sleep; the bucket is looked at once, when the lockout is over.

An admission is a machine that reads the gate and never changes it. `step` makes one move at an
instant and is `none` where the machine has to wait or has come to its end; `poll` moves on as far
as the instant allows.
-/

namespace QuotaGate

/-- How far the admission of one request has come. -/
inductive Admission where
  /-- The lockout has to be looked at. -/
  | checkingLockout
  /-- A sleep through the lockout ends at an instant. -/
  | lockedOut (wake : Instant)
  /-- The bucket has to be looked at. -/
  | checkingBucket
  /-- A sleep until the bucket's window ends goes on to an instant. -/
  | awaitingReset (wake : Instant)
  /-- The request may be sent. -/
  | admitted
  deriving DecidableEq, Repr

namespace Admission

def step (gate : Gate) (route : RouteKey) (now : Instant) : Admission → Option Admission
  | checkingLockout => some ((gate.lockout.wakeAt? now).elim checkingBucket lockedOut)
  | lockedOut wake => if wake ≤ now then some checkingLockout else none
  | checkingBucket => some ((gate.registry.wakeAt? route now).elim admitted awaitingReset)
  | awaitingReset wake => if wake ≤ now then some admitted else none
  | admitted => none

/-- What one move can be. -/
inductive Moves (gate : Gate) (route : RouteKey) (now : Instant) : Admission → Admission → Prop
  | isLocked {wake : Instant} : gate.lockout.wakeAt? now = some wake →
      Moves gate route now checkingLockout (lockedOut wake)
  | isClear : gate.lockout.wakeAt? now = none → Moves gate route now checkingLockout checkingBucket
  | looksAgain {wake : Instant} : wake ≤ now → Moves gate route now (lockedOut wake) checkingLockout
  | isEmpty {wake : Instant} : gate.registry.wakeAt? route now = some wake →
      Moves gate route now checkingBucket (awaitingReset wake)
  | isFree : gate.registry.wakeAt? route now = none →
      Moves gate route now checkingBucket admitted
  | isRefilled {wake : Instant} : wake ≤ now → Moves gate route now (awaitingReset wake) admitted

theorem step_eq_some_iff {gate : Gate} {route : RouteKey} {now : Instant}
    {admission next : Admission} :
    admission.step gate route now = some next ↔ Moves gate route now admission next := by
  constructor
  · intro moved
    cases admission with
    | checkingLockout =>
      cases moved
      cases sleeps : gate.lockout.wakeAt? now with
      | none => exact .isClear sleeps
      | some wake => exact .isLocked sleeps
    | lockedOut wake =>
      rw [step] at moved
      split at moved
      · next due =>
        cases moved
        exact .looksAgain due
      · cases moved
    | checkingBucket =>
      cases moved
      cases sleeps : gate.registry.wakeAt? route now with
      | none => exact .isFree sleeps
      | some wake => exact .isEmpty sleeps
    | awaitingReset wake =>
      rw [step] at moved
      split at moved
      · next due =>
        cases moved
        exact .isRefilled due
      · cases moved
    | admitted => cases moved
  · intro moves
    cases moves with
    | isLocked sleeps | isEmpty sleeps => rw [step, sleeps, Option.elim_some]
    | isClear off | isFree off => rw [step, off, Option.elim_none]
    | looksAgain due | isRefilled due => rw [step, if_pos due]

/-- How many moves an admission can make at most at one instant. -/
def rank (now : Instant) : Admission → Nat
  | lockedOut wake => if wake ≤ now then 4 else 0
  | checkingLockout => 3
  | checkingBucket => 2
  | awaitingReset _ => 1
  | admitted => 0

/-- Each move leaves fewer moves at its instant, because a sleep through the lockout ends strictly
later. -/
theorem rank_lt_of_step {gate : Gate} {route : RouteKey} {now : Instant}
    {admission next : Admission} (moved : admission.step gate route now = some next) :
    next.rank now < admission.rank now := by
  cases step_eq_some_iff.1 moved with
  | isLocked sleeps => simp [rank, Nat.not_le.2 (Lockout.lt_of_wakeAt? sleeps)]
  | looksAgain due => simp [rank, due]
  | isClear off | isEmpty sleeps | isFree off | isRefilled due => simp [rank]

/-- Moves on as far as the instant allows. -/
def poll (gate : Gate) (route : RouteKey) (now : Instant) (admission : Admission) : Admission :=
  match _moved : admission.step gate route now with
  | some next => next.poll gate route now
  | none => admission
termination_by admission.rank now
decreasing_by exact rank_lt_of_step _moved

theorem poll_of_step {gate : Gate} {route : RouteKey} {now : Instant}
    {admission next : Admission} (moved : admission.step gate route now = some next) :
    admission.poll gate route now = next.poll gate route now := by
  rw [poll]
  split
  · next other moves =>
    rw [moved] at moves
    cases moves
    rfl
  · next stuck =>
    rw [moved] at stuck
    cases stuck

theorem poll_of_step_eq_none {gate : Gate} {route : RouteKey} {now : Instant}
    {admission : Admission} (stuck : admission.step gate route now = none) :
    admission.poll gate route now = admission := by
  rw [poll]
  split
  · next other moves =>
    rw [stuck] at moves
    cases moves
  · rfl

/-- The instant that an admission waits for. -/
def wake? : Admission → Option Instant
  | lockedOut wake | awaitingReset wake => some wake
  | _ => none

/-- An admission that waits has no move to make before its instant. -/
theorem step_eq_none_of_lt {admission : Admission} {due now : Instant}
    (waits : admission.wake? = some due) (early : now < due) (gate : Gate) (route : RouteKey) :
    admission.step gate route now = none := by
  cases admission with
  | lockedOut wake | awaitingReset wake =>
    cases waits
    exact if_neg (Nat.not_le.2 early)
  | checkingLockout | checkingBucket | admitted => cases waits

/-- Where an admission has no move to make, it has come or waits for an instant to come. -/
theorem due_of_step_eq_none {admission : Admission} {gate : Gate} {route : RouteKey}
    {now : Instant} (stuck : admission.step gate route now = none) :
    (∃ due, admission.wake? = some due ∧ now < due) ∨ admission = .admitted := by
  cases admission with
  | lockedOut wake | awaitingReset wake =>
    refine .inl ⟨wake, rfl, Nat.lt_of_not_le fun due => ?_⟩
    rw [step, if_pos due] at stuck
    cases stuck
  | checkingLockout | checkingBucket => cases stuck
  | admitted => exact .inr rfl

/-- What an admission sleeps for is still to come. -/
theorem lt_of_step_eq_none {admission : Admission} {gate : Gate} {route : RouteKey}
    {now due : Instant} (stuck : admission.step gate route now = none)
    (waits : admission.wake? = some due) : now < due := by
  rcases due_of_step_eq_none stuck with ⟨wake, found, early⟩ | rfl
  · rw [waits] at found
    cases found
    exact early
  · cases waits

end Admission

/-- A request that waits for its admission and gives up when its deadline passes. -/
structure Acquisition where
  route : RouteKey
  admission : Admission
  deadline : Option Instant
  deriving DecidableEq, Repr

namespace Acquisition

/-- Begins at an instant. The deadline is given as the longest wait. -/
def begin (route : RouteKey) (longest : Option Duration) (now : Instant) : Acquisition :=
  ⟨route, .checkingLockout, longest.map now.wakeAfter⟩

/-- Moves on as far as the instant allows. -/
def poll (acquisition : Acquisition) (gate : Gate) (now : Instant) : Acquisition :=
  { acquisition with admission := acquisition.admission.poll gate acquisition.route now }

/-- The result at an instant, if there is one: an admission counts even when the deadline passes
at the same instant. -/
def result? (acquisition : Acquisition) (now : Instant) : Option (Except Failure Unit) :=
  if acquisition.admission = .admitted then some (.ok ())
  else if acquisition.deadline.any (· ≤ now) then some (.error (.timedOut acquisition.route))
  else none

/-- The next instant at which something can happen. -/
def wake? (acquisition : Acquisition) : Option Instant :=
  acquisition.admission.wake?.merge min acquisition.deadline

variable {acquisition : Acquisition} {now : Instant}

theorem poll_of_step_eq_none {gate : Gate}
    (stuck : acquisition.admission.step gate acquisition.route now = none) :
    acquisition.poll gate now = acquisition := by
  rw [poll, Admission.poll_of_step_eq_none stuck]

/-- While its admission waits, an acquisition has a result only from its deadline on. -/
theorem result?_of_waits {due : Instant} (waits : acquisition.admission.wake? = some due) :
    acquisition.result? now =
      if acquisition.deadline.any (· ≤ now) then some (.error (.timedOut acquisition.route))
      else none := by
  have unsettled : acquisition.admission ≠ .admitted := by
    intro admitted
    rw [admitted] at waits
    cases waits
  rw [result?, if_neg unsettled]

theorem wake?_of_waits {due : Instant} (waits : acquisition.admission.wake? = some due) :
    acquisition.wake? = (some due).merge min acquisition.deadline := by
  rw [wake?, waits]

end Acquisition

end QuotaGate
