import Mathlib.Logic.Relation
import QuotaGate.Quota.Admission

/-!
# When an admission comes

An admission looks at the lockout until it finds it off, and at that instant it looks at its bucket
once. What it finds there settles when it comes: at once, or at the first whole millisecond at
which the bucket's window is over. Nothing that happens to the gate later moves that instant.

`Next` is what can happen to one admission while others share its gate: it makes a move, something
happens to the gate while it sleeps, or time passes, never beyond a timer that is set.

Results:
1. `releaseAt_bounds`: the instant is the later one of the end of the lockout and the end of the
   window, up to the resolution of a timer. The two waits are never added up.
2. `poll_eq_admitted`: where there is nothing to wait for, one poll admits.
3. `admitted_iff_release`: the admission comes at that instant, neither earlier nor later.
-/

namespace QuotaGate

/-! ## The end of the wait for a bucket -/

namespace Registry

/-- When a request may be sent on a route if the lockout is found off now. -/
def releaseAt (registry : Registry) (route : RouteKey) (now : Instant) : Instant :=
  match registry.bucketOf? route with
  | some bucket =>
    if bucket.remaining = 0 ∧ now < bucket.resetsAt then bucket.resetsAt.ceilMillis else now
  | none => now

/-- The window of the route's bucket ends at an instant that the clock can show. -/
def IsInRange (registry : Registry) (route : RouteKey) : Prop :=
  ∀ bucket, registry.bucketOf? route = some bucket → bucket.resetsAt ≤ Instant.latest

theorem le_releaseAt (registry : Registry) (route : RouteKey) (now : Instant) :
    now ≤ registry.releaseAt route now := by
  unfold releaseAt
  split
  · next bucket found =>
    split
    · next waits => exact Nat.le_trans (Nat.le_of_lt waits.2) (Instant.le_ceilMillis _)
    · exact Nat.le_refl now
  · exact Nat.le_refl now

/-- With an exhausted bucket, the wait ends when both the lockout is off and the window is over. -/
theorem releaseAt_bounds {registry : Registry} {route : RouteKey} {bucket : Bucket}
    (found : registry.bucketOf? route = some bucket) (exhausted : bucket.remaining = 0)
    (now : Instant) :
    max now bucket.resetsAt ≤ registry.releaseAt route now ∧
      registry.releaseAt route now < max now bucket.resetsAt + Duration.millisecond := by
  have ceil := Instant.le_ceilMillis bucket.resetsAt
  have near := Instant.ceilMillis_lt bucket.resetsAt
  simp only [releaseAt, found, exhausted, true_and]
  split
  · next waits =>
    rw [Nat.max_eq_right (Nat.le_of_lt waits)]
    exact ⟨ceil, near⟩
  · next ended =>
    rw [Nat.max_eq_left (Nat.le_of_not_lt ended)]
    exact ⟨Nat.le_refl now, Nat.lt_add_of_pos_right (by decide)⟩

theorem waitAt_eq {registry : Registry} {route : RouteKey} {bucket : Bucket}
    (found : registry.bucketOf? route = some bucket) (now : Instant) :
    registry.waitAt route now = if bucket.remaining = 0 then bucket.resetsAt - now else 0 := by
  simp [waitAt, found, Bucket.isExhausted, Bucket.waitAt, Instant.since]

/-- A look at the bucket sets the timer to the end of the wait, if there is one. -/
theorem wakeAt?_eq {registry : Registry} {route : RouteKey} (inRange : registry.IsInRange route)
    (now : Instant) :
    registry.wakeAt? route now =
      if now < registry.releaseAt route now then some (registry.releaseAt route now) else none := by
  unfold wakeAt? releaseAt
  cases found : registry.bucketOf? route with
  | none => simp [waitAt, found]
  | some bucket =>
    have fits := inRange bucket found
    rw [waitAt_eq found]
    by_cases waits : bucket.remaining = 0 ∧ now < bucket.resetsAt
    · have wakes : now.wakeAfter (bucket.resetsAt - now) = bucket.resetsAt.ceilMillis := by
        have whole : now + (bucket.resetsAt - now) = bucket.resetsAt :=
          Nat.add_sub_cancel' (Nat.le_of_lt waits.2)
        simp only [Instant.wakeAfter, Instant.addSaturating, Instant.add?]
        rw [show (now + (bucket.resetsAt - now) : Nat) = bucket.resetsAt from whole, if_pos fits,
          Option.getD_some]
      have positive : bucket.resetsAt - now ≠ 0 := Nat.sub_ne_zero_of_lt waits.2
      have later : now < bucket.resetsAt.ceilMillis :=
        Nat.lt_of_lt_of_le waits.2 (Instant.le_ceilMillis _)
      simp only [waits, and_self, if_true, positive, if_false, wakes, later]
    · have nothing : (if bucket.remaining = 0 then bucket.resetsAt - now else 0) = 0 := by
        split
        · next exhausted =>
          exact Nat.sub_eq_zero_of_le (Nat.le_of_not_lt fun less => waits ⟨exhausted, less⟩)
        · rfl
      simp only [nothing, waits, if_true, if_false, Nat.lt_irrefl]

end Registry

namespace Admission

/-- Where there is nothing to wait for, one poll admits. -/
theorem poll_eq_admitted {gate : Gate} {route : RouteKey} {now : Instant}
    (off : gate.lockout.isActive now = false)
    (left : ∀ bucket, gate.registry.bucketOf? route = some bucket → bucket.remaining ≠ 0) :
    Admission.checkingLockout.poll gate route now = .admitted := by
  have clear : gate.lockout.wakeAt? now = none := (gate.lockout.wakeAt?_eq_none_iff now).2 off
  have free : gate.registry.wakeAt? route now = none := by
    have nothing : gate.registry.waitAt route now = 0 := by
      cases found : gate.registry.bucketOf? route with
      | none => simp [Registry.waitAt, found]
      | some bucket => rw [Registry.waitAt_eq found, if_neg (left bucket found)]
    rw [Registry.wakeAt?, if_pos nothing]
  rw [poll_of_step (step_eq_some_iff.2 (.isClear clear)),
    poll_of_step (step_eq_some_iff.2 (.isFree free)), poll_of_step_eq_none rfl]

/-- Only a look that finds the lockout off goes on to the bucket. -/
theorem isActive_of_step_checkingBucket {gate : Gate} {route : RouteKey} {now : Instant}
    {admission : Admission} (moved : admission.step gate route now = some .checkingBucket) :
    gate.lockout.isActive now = false := by
  cases step_eq_some_iff.1 moved with
  | isClear off => exact (gate.lockout.wakeAt?_eq_none_iff now).1 off

/-! ## One admission among others -/

/-- An admission and its gate at an instant. -/
structure Moment where
  now : Instant
  gate : Gate
  admission : Admission

namespace Moment

/-- What can happen next to an admission on a route. -/
inductive Next (route : RouteKey) (moment : Moment) : Moment → Prop
  /-- It makes a move. -/
  | move {next : Admission} : moment.admission.step moment.gate route moment.now = some next →
      Next route moment { moment with admission := next }
  /-- Something happens to the gate. Nothing does between the look that finds the lockout off and
  the look at the bucket, because there the admission does not sleep. -/
  | happen (event : Gate.Event) : moment.admission ≠ .checkingBucket →
      Next route moment { moment with gate := moment.gate.apply event moment.now }
  /-- Time passes while there is no move to make, and not beyond a timer that is set. -/
  | pass (later : Instant) : moment.now ≤ later →
      moment.admission.step moment.gate route moment.now = none →
      (∀ wake, moment.admission.wake? = some wake → later ≤ wake) →
      Next route moment { moment with now := later }

def Leads (route : RouteKey) : Moment → Moment → Prop := Relation.ReflTransGen (Next route)

/-- Only a look that finds the lockout off leads to the bucket. -/
theorem isActive_of_leads_checkingBucket {route : RouteKey} {start : Moment} {now : Instant}
    {gate : Gate} (asks : start.admission = .checkingLockout)
    (cleared : start.Leads route ⟨now, gate, .checkingBucket⟩) :
    gate.lockout.isActive now = false := by
  generalize reached : (⟨now, gate, .checkingBucket⟩ : Moment) = last at cleared
  cases cleared with
  | refl =>
    rw [← reached] at asks
    cases asks
  | @tail before _ _ happens =>
    obtain ⟨instant, present, admission⟩ := before
    cases happens with
    | move moved =>
      cases reached
      exact isActive_of_step_checkingBucket moved
    | happen event other =>
      cases reached
      exact absurd rfl other
    | pass later ordered stuck timers =>
      cases reached
      cases stuck

/-- How an admission stands after it found the lockout off. -/
inductive Stands (released : Instant) (gate : Gate) (since : Instant) : Moment → Prop
  | looks : Stands released gate since ⟨since, gate, .checkingBucket⟩
  | waits {now : Instant} {present : Gate} : now ≤ released →
      Stands released gate since ⟨now, present, .awaitingReset released⟩
  | comes {now : Instant} {present : Gate} : released ≤ now →
      Stands released gate since ⟨now, present, .admitted⟩

theorem Stands.next {route : RouteKey} {gate : Gate} {since : Instant} {moment later : Moment}
    (inRange : gate.registry.IsInRange route)
    (stands : Stands (gate.registry.releaseAt route since) gate since moment)
    (happens : moment.Next route later) :
    Stands (gate.registry.releaseAt route since) gate since later := by
  cases stands with
  | looks =>
    have looked := Registry.wakeAt?_eq inRange since
    cases happens with
    | move moved =>
      cases step_eq_some_iff.1 moved with
      | isEmpty sleeps =>
        have found := looked.symm.trans sleeps
        split at found
        · next waits =>
          cases found
          exact .waits (Nat.le_of_lt waits)
        · cases found
      | isFree off =>
        have found := looked.symm.trans off
        split at found
        · cases found
        · next ended => exact .comes (Nat.le_of_not_lt ended)
    | happen event other => exact absurd rfl other
    | pass later ordered stuck timers => cases stuck
  -- From here on the gate is not looked at, so what happens to it does not matter.
  | waits before =>
    cases happens with
    | move moved =>
      cases step_eq_some_iff.1 moved with
      | isRefilled due => exact .comes due
    | happen event other => exact .waits before
    | pass later ordered stuck timers => exact .waits (timers _ rfl)
  | comes after =>
    cases happens with
    | move moved => cases moved
    | happen event other => exact .comes after
    | pass later ordered stuck timers => exact .comes (Nat.le_trans after ordered)

theorem Leads.stands {route : RouteKey} {gate : Gate} {since : Instant} {later : Moment}
    (inRange : gate.registry.IsInRange route)
    (leads : Leads route ⟨since, gate, .checkingBucket⟩ later) :
    Stands (gate.registry.releaseAt route since) gate since later := by
  induction leads with
  | refl => exact .looks
  | tail _ happens ih => exact ih.next inRange happens

theorem leads_admitted_of_awaitingReset {route : RouteKey} {gate : Gate} {now wake : Instant}
    (before : now ≤ wake) :
    Leads route ⟨now, gate, .awaitingReset wake⟩ ⟨wake, gate, .admitted⟩ := by
  have comes : Next route ⟨wake, gate, .awaitingReset wake⟩ ⟨wake, gate, .admitted⟩ :=
    .move (step_eq_some_iff.2 (.isRefilled (Nat.le_refl wake)))
  rcases Nat.lt_or_eq_of_le before with early | rfl
  · have stuck : step gate route now (.awaitingReset wake) = none := if_neg (Nat.not_le.2 early)
    have sleeps : Next route ⟨now, gate, .awaitingReset wake⟩ ⟨wake, gate, .awaitingReset wake⟩ :=
      .pass wake before stuck fun timer found => by
        cases found
        exact Nat.le_refl wake
    exact .head sleeps (.single comes)
  · exact .single comes

/-- Whatever has happened, the admission comes at its instant. -/
theorem Stands.leads_admitted {route : RouteKey} {gate : Gate} {since : Instant} {moment : Moment}
    (inRange : gate.registry.IsInRange route)
    (stands : Stands (gate.registry.releaseAt route since) gate since moment) :
    ∃ last, moment.Leads route last ∧
      last.now = max moment.now (gate.registry.releaseAt route since) ∧
      last.admission = .admitted := by
  have after := gate.registry.le_releaseAt route since
  cases stands with
  | looks =>
    have looked := Registry.wakeAt?_eq inRange since
    by_cases waits : since < gate.registry.releaseAt route since
    · rw [if_pos waits] at looked
      have sleeps := step_eq_some_iff.2 (.isEmpty looked)
      refine ⟨_, .head (.move sleeps) (leads_admitted_of_awaitingReset after), ?_, rfl⟩
      exact (Nat.max_eq_right after).symm
    · rw [if_neg waits] at looked
      have comes := step_eq_some_iff.2 (.isFree looked)
      refine ⟨_, .single (.move comes), ?_, rfl⟩
      exact (Nat.max_eq_left (Nat.le_of_not_lt waits)).symm
  | waits before =>
    exact ⟨_, leads_admitted_of_awaitingReset before, (Nat.max_eq_right before).symm, rfl⟩
  | comes after => exact ⟨_, .refl, (Nat.max_eq_left after).symm, rfl⟩

/-- An admission that finds the lockout off at an instant comes exactly when the bucket that it
finds there lets it, whatever happens to the gate before and after. It never waits for the sum of
the lockout and the window, and where there is nothing to wait for it does not sleep at all. -/
theorem admitted_iff_release {route : RouteKey} {start later : Moment} {since : Instant}
    {gate : Gate} (asks : start.admission = .checkingLockout)
    (cleared : start.Leads route ⟨since, gate, .checkingBucket⟩)
    (inRange : gate.registry.IsInRange route)
    (leads : Leads route ⟨since, gate, .checkingBucket⟩ later) :
    gate.lockout.isActive since = false ∧
    (later.admission = .admitted → gate.registry.releaseAt route since ≤ later.now) ∧
    (gate.registry.releaseAt route since < later.now → later.admission = .admitted) ∧
    (∃ last, later.Leads route last ∧
      last.now = max later.now (gate.registry.releaseAt route since) ∧
      last.admission = .admitted) ∧
    (∀ bucket, gate.registry.bucketOf? route = some bucket → bucket.remaining = 0 →
      max since bucket.resetsAt ≤ gate.registry.releaseAt route since ∧
        gate.registry.releaseAt route since < max since bucket.resetsAt + Duration.millisecond) ∧
    (start.gate.lockout.isActive start.now = false →
      (∀ bucket, start.gate.registry.bucketOf? route = some bucket → bucket.remaining ≠ 0) →
      start.admission.poll start.gate route start.now = .admitted) := by
  have stands := leads.stands inRange
  refine ⟨isActive_of_leads_checkingBucket asks cleared, fun admitted => ?_, fun passed => ?_,
    stands.leads_admitted inRange, fun bucket found exhausted => ?_, fun off left => ?_⟩
  · cases stands with
    | looks | waits before => cases admitted
    | comes after => exact after
  · cases stands with
    | looks => exact absurd passed (Nat.not_lt.2 (gate.registry.le_releaseAt route since))
    | waits before => exact absurd passed (Nat.not_lt.2 before)
    | comes after => rfl
  · exact Registry.releaseAt_bounds found exhausted since
  · rw [asks]
    exact poll_eq_admitted off left

open Duration (ofSeconds)

/-- A gate that is locked for one second, and whose bucket is empty for three. -/
def heldGate : Gate :=
  (Gate.new 0 Gate.defaultFallback).replay
    [(0, .record ⟨.get, "a"⟩
        ⟨some "bucket", some 5, some 0, none, some (ofSeconds 3), none, none⟩),
      (0, .trigger (ofSeconds 1))]

/-- The admission sleeps through the lockout and then until its bucket refills at three seconds.
That the bucket is forgotten meanwhile does not let it in earlier. -/
theorem admitted_after_clear :
    ∃ last,
      Leads ⟨.get, "a"⟩
        ⟨ofSeconds 2, heldGate.apply .clear (ofSeconds 2), .awaitingReset (ofSeconds 3)⟩ last ∧
      last.now = ofSeconds 3 ∧ last.admission = .admitted := by
  let route : RouteKey := ⟨.get, "a"⟩
  let first : Moment := ⟨0, heldGate, .checkingLockout⟩
  let looking : Moment := ⟨ofSeconds 1, heldGate, .checkingBucket⟩
  have locked : first.Next route ⟨0, heldGate, .lockedOut (ofSeconds 1)⟩ :=
    .move (by decide +kernel)
  have passed : Next route ⟨0, heldGate, .lockedOut (ofSeconds 1)⟩
      ⟨ofSeconds 1, heldGate, .lockedOut (ofSeconds 1)⟩ :=
    .pass _ (Nat.zero_le _) (by decide +kernel) fun wake found => by
      cases found
      exact Nat.le_refl _
  have woken : Next route ⟨ofSeconds 1, heldGate, .lockedOut (ofSeconds 1)⟩
      ⟨ofSeconds 1, heldGate, .checkingLockout⟩ := .move (by decide +kernel)
  have off : Next route ⟨ofSeconds 1, heldGate, .checkingLockout⟩ looking :=
    .move (by decide +kernel)
  have cleared : first.Leads route looking :=
    .head locked (.head passed (.head woken (.single off)))
  have looked : looking.Next route ⟨ofSeconds 1, heldGate, .awaitingReset (ofSeconds 3)⟩ :=
    .move (by decide +kernel)
  have slept : Next route ⟨ofSeconds 1, heldGate, .awaitingReset (ofSeconds 3)⟩
      ⟨ofSeconds 2, heldGate, .awaitingReset (ofSeconds 3)⟩ :=
    .pass _ (by decide) (by decide +kernel) fun wake found => by
      cases found
      decide
  have forgotten : Next route ⟨ofSeconds 2, heldGate, .awaitingReset (ofSeconds 3)⟩ _ :=
    .happen .clear (by decide)
  have inRange : heldGate.registry.IsInRange route := by
    intro bucket found
    have known : heldGate.registry.bucketOf? route =
        some ⟨"bucket", 5, 0, .estimated, ofSeconds 3, 0⟩ := by decide +kernel
    rw [known] at found
    cases found
    decide +kernel
  obtain ⟨-, -, -, ⟨last, leads, instant, admitted⟩, -, -⟩ :=
    admitted_iff_release rfl cleared inRange (.head looked (.head slept (.single forgotten)))
  refine ⟨last, leads, instant.trans ?_, admitted⟩
  decide +kernel

end Moment

end Admission

end QuotaGate
