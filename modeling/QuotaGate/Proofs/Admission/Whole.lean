import QuotaGate.Proofs.Admission.Release
import QuotaGate.Proofs.Registry.History

/-!
# Timers and what they wait for

Timers fire at whole milliseconds. Whoever looks at the gate at an instant, and finds that there is
something to wait for, sets a timer for the time that is left. For a bucket that is the time to the
end of its window, to the nanosecond. For a lockout the time is counted in whole microseconds, and
what is dropped of the time that has passed is added to the sleep (`Lockout.add_remaining`). So a
look at any instant ends the wait less than a microsecond after the end of the lockout, rounded up
to a whole millisecond (`Lockout.releaseAt`).

At a whole millisecond nothing is lost. There the two waits have ends that do not depend on the
instant: the lockout is off from the first whole millisecond at or after its end, and the bucket
lets a request through from the first whole millisecond at or after the end of its window.

A pruner may forget the bucket meanwhile. It does so only after the window, and so nobody waits
for a bucket longer or shorter because of it (`Registry.Fades`).
-/

namespace QuotaGate

/-! ## Whole milliseconds -/

namespace Instant

/-- An instant at which a timer can fire. -/
def IsWhole (instant : Instant) : Prop := instant.ceilMillis = instant

instance (instant : Instant) : Decidable instant.IsWhole :=
  inferInstanceAs (Decidable (instant.ceilMillis = instant))

theorem isWhole_ceilMillis (instant : Instant) : instant.ceilMillis.IsWhole := by
  simp only [IsWhole, ceilMillis, Duration.millisecond, Instant, Duration]
  omega

theorem isWhole_wakeAfter (now : Instant) (length : Duration) : (now.wakeAfter length).IsWhole :=
  isWhole_ceilMillis _

/-- The first whole millisecond after an instant is not after another one that is. -/
theorem IsWhole.ceilMillis_le_iff {now : Instant} (whole : now.IsWhole) (instant : Instant) :
    instant.ceilMillis ≤ now ↔ instant ≤ now := by
  simp only [IsWhole, ceilMillis, Duration.millisecond, Instant, Duration] at *
  omega

/-- A millisecond is a whole number of microseconds. -/
theorem IsWhole.dvd {now : Instant} (whole : now.IsWhole) : Duration.microsecond ∣ now := by
  simp only [IsWhole, ceilMillis, Duration.microsecond, Duration.millisecond, Instant,
    Duration] at *
  omega

theorem le_addSaturating (now : Instant) (length : Duration) : now ≤ now.addSaturating length := by
  simp only [addSaturating, add?, Instant, Duration] at *
  split
  · exact Nat.le_add_right now length
  · exact Nat.le_add_right now _

theorem le_wakeAfter (now : Instant) (length : Duration) : now ≤ now.wakeAfter length :=
  Nat.le_trans (le_addSaturating now length) (le_ceilMillis _)

/-- To sleep is to wait for a whole millisecond. -/
theorem isWhole_of_sleeps {now wake : Instant} {length : Duration}
    (sleeps : (if length = 0 then none else some (now.wakeAfter length)) = some wake) :
    now ≤ wake ∧ wake.IsWhole := by
  split at sleeps
  · cases sleeps
  · cases sleeps
    exact ⟨le_wakeAfter now length, isWhole_wakeAfter now length⟩

theorem wakeAfter_of_le {now : Instant} {length : Duration} (inRange : now + length ≤ latest) :
    now.wakeAfter length = ceilMillis (now + length) := by
  rw [wakeAfter, addSaturating, add?, if_pos inRange, Option.getD_some]

end Instant

/-! ## The lockout -/

namespace Lockout

/-- What is dropped of a length of time when it is counted in whole microseconds. -/
def dropped (length : Duration) : Duration := length % Duration.microsecond

theorem dropped_lt (length : Duration) : dropped length < Duration.microsecond :=
  Nat.mod_lt length (by decide)

variable {lockout : Lockout} {now : Instant}

/-- The lockout is on exactly until its end. -/
theorem isActive_iff_lt_stop (began : lockout.origin ≤ now) :
    lockout.isActive now = true ↔ now < lockout.stop := by
  refine ⟨lt_stop_of_isActive, fun early => ?_⟩
  have stored := lockout.untilMicros_le
  rw [isActive_iff]
  simp only [stop, offset, Instant.since, Duration.wholeMicros, Duration.microsecond, Instant,
    Duration] at *
  omega

/-- The time left goes past the end by what the count of the time from the origin has dropped. -/
theorem add_remaining (began : lockout.origin ≤ now) (active : lockout.isActive now = true) :
    now + lockout.remaining now = lockout.stop + dropped (now.since lockout.origin) := by
  have stored := lockout.untilMicros_le
  rw [isActive_iff] at active
  simp only [Lockout.stop, Lockout.remaining, offset, dropped, Instant.since,
    Duration.wholeMicros, Duration.microsecond, Instant, Duration] at *
  omega

theorem stop_le_add_remaining (began : lockout.origin ≤ now)
    (active : lockout.isActive now = true) : lockout.stop ≤ now + lockout.remaining now := by
  rw [add_remaining began active]
  exact Nat.le_add_right _ _

theorem add_remaining_lt (began : lockout.origin ≤ now) (active : lockout.isActive now = true) :
    now + lockout.remaining now < lockout.stop + Duration.microsecond := by
  rw [add_remaining began active]
  exact Nat.add_lt_add_left (dropped_lt _) _

/-- When whoever looks at the lockout now may go on, unless it is extended: at once where it is off,
and else when a sleep ends for the time that is left. -/
def releaseAt (lockout : Lockout) (now : Instant) : Instant :=
  if now < lockout.stop then
    Instant.ceilMillis (lockout.stop + dropped (now.since lockout.origin))
  else now

/-- A look at the lockout sets a timer exactly while it is on. -/
theorem wakeAt?_eq (began : lockout.origin ≤ now)
    (inRange : lockout.stop.ceilMillis ≤ Instant.latest) :
    lockout.wakeAt? now = if now < lockout.stop then some (lockout.releaseAt now) else none := by
  unfold releaseAt
  split
  · next early =>
    have active := (isActive_iff_lt_stop began).2 early
    have fits : now + lockout.remaining now ≤ Instant.latest := by
      have short := add_remaining_lt began active
      simp only [Instant.ceilMillis, Instant.latest, Duration.millisecond, Duration.microsecond,
        Duration.second, Instant, Duration] at *
      omega
    rw [wakeAt?_of_isActive active, Instant.wakeAfter_of_le fits, add_remaining began active]
  · next late =>
    rw [← isActive_iff_lt_stop began] at late
    exact (lockout.wakeAt?_eq_none_iff now).2 (Bool.eq_false_iff.2 late)

theorem releaseAt_of_le (ended : lockout.stop ≤ now) : lockout.releaseAt now = now :=
  if_neg (Nat.not_lt.2 ended)

theorem isWhole_releaseAt (early : now < lockout.stop) : (lockout.releaseAt now).IsWhole := by
  rw [releaseAt, if_pos early]
  exact Instant.isWhole_ceilMillis _

/-- Nobody goes on before the lockout is over. -/
theorem le_releaseAt (lockout : Lockout) (now : Instant) :
    max now lockout.stop ≤ lockout.releaseAt now := by
  unfold releaseAt
  split
  · next early =>
    rw [Nat.max_eq_right (Nat.le_of_lt early)]
    exact Nat.le_trans (Nat.le_add_right _ _) (Instant.le_ceilMillis _)
  · next late => exact Nat.max_le.2 ⟨Nat.le_refl now, Nat.le_of_not_lt late⟩

/-- Whoever looks at the lockout goes on a millisecond late at most. -/
theorem releaseAt_le (lockout : Lockout) (now : Instant) :
    lockout.releaseAt now ≤ max now lockout.stop.ceilMillis + Duration.millisecond := by
  have short := dropped_lt (now.since lockout.origin)
  unfold releaseAt
  split
  · simp only [Instant.ceilMillis, Duration.microsecond, Duration.millisecond, Instant,
      Duration] at *
    omega
  · exact Nat.le_trans (Nat.le_max_left _ _) (Nat.le_add_right _ _)

/-- From a whole microsecond on the sleep ends when the lockout does. -/
theorem releaseAt_of_dvd (began : lockout.origin ≤ now) (whole : Duration.microsecond ∣ now)
    (early : now < lockout.stop) : lockout.releaseAt now = lockout.stop.ceilMillis := by
  rw [releaseAt, if_pos early]
  simp only [stop, dropped, Instant.since, Instant.ceilMillis, Duration.microsecond,
    Duration.millisecond, Instant, Duration] at *
  omega

end Lockout

/-! ## The bucket -/

namespace Registry

variable {registry faded : Registry} {route : RouteKey} {now : Instant}

/-- The first whole millisecond at which the route's bucket lets a request through. -/
def refillsAt (registry : Registry) (route : RouteKey) : Instant :=
  match registry.bucketOf? route with
  | some bucket => if bucket.remaining = 0 then bucket.resetsAt.ceilMillis else 0
  | none => 0

/-- Whoever looks at the bucket goes on at the later one of two instants at the latest. -/
theorem releaseAt_le (registry : Registry) (route : RouteKey) (now : Instant) :
    registry.releaseAt route now ≤ max now (registry.refillsAt route) := by
  unfold releaseAt refillsAt
  cases registry.bucketOf? route with
  | none => exact Nat.le_max_left _ _
  | some bucket =>
    dsimp only
    split
    · next waits =>
      rw [if_pos waits.1]
      exact Nat.le_max_right _ _
    · exact Nat.le_max_left _ _

theorem bucketOf?_prune (registry : Registry) (grace : Duration) (now : Instant)
    (route : RouteKey) :
    (registry.prune grace now).bucketOf? route =
      (registry.bucketOf? route).filter fun bucket => !bucket.isStale grace now := by
  simp only [bucketOf?, bucketId?_prune]
  cases registry.bucketId? route with
  | none => rfl
  | some id =>
    simp only [Option.bind_some, ← bucket?_prune]
    -- A route is kept exactly if its bucket is, and it is found again through the route then.
    cases kept : (registry.prune grace now).bucket? id with
    | none =>
      simp only [Option.filter, kept, Option.isSome_none, Bool.false_eq_true, if_false,
        Option.bind_none]
    | some bucket => simp only [Option.filter, kept, Option.isSome_some, if_true, Option.bind_some]

/-- Of the route's bucket the same is known later as now, or nothing and its window is over. -/
def Fades (registry faded : Registry) (route : RouteKey) (now : Instant) : Prop :=
  faded.bucketOf? route = registry.bucketOf? route ∨
    faded.bucketOf? route = none ∧
      ∀ bucket, registry.bucketOf? route = some bucket → bucket.resetsAt ≤ now

theorem Fades.refl (registry : Registry) (route : RouteKey) (now : Instant) :
    registry.Fades registry route now := .inl rfl

theorem Fades.later (fades : registry.Fades faded route now) {later : Instant}
    (ordered : now ≤ later) : registry.Fades faded route later := by
  rcases fades with same | ⟨lost, ended⟩
  · exact .inl same
  · exact .inr ⟨lost, fun bucket found => Nat.le_trans (ended bucket found) ordered⟩

theorem Fades.prune (fades : registry.Fades faded route now) (grace : Duration) {tick : Instant}
    (past : tick ≤ now) : registry.Fades (faded.prune grace tick) route now := by
  rw [Fades, bucketOf?_prune]
  rcases fades with same | ⟨lost, ended⟩
  · rw [same]
    cases registry.bucketOf? route with
    | none => exact .inl rfl
    | some bucket =>
      cases stale : bucket.isStale grace tick with
      | false => exact .inl (by simp [stale])
      | true =>
        refine .inr ⟨by simp [stale], fun found known => ?_⟩
        cases known
        obtain ⟨-, expired⟩ := (isStale_iff bucket grace tick).1 stale
        exact Nat.le_trans (Nat.le_add_right _ grace) (Nat.le_trans expired past)
  · rw [lost]
    exact .inr ⟨rfl, ended⟩

/-- Whoever looks at a registry that has faded comes when the first registry says so. -/
theorem Fades.wakeAt?_eq (fades : registry.Fades faded route now)
    (inRange : registry.IsInRange route) :
    faded.wakeAt? route now =
      if now < registry.releaseAt route now then some (registry.releaseAt route now) else none := by
  have released : faded.IsInRange route ∧
      faded.releaseAt route now = registry.releaseAt route now := by
    rcases fades with same | ⟨lost, ended⟩
    · refine ⟨fun bucket found => inRange bucket (same ▸ found), ?_⟩
      rw [releaseAt, releaseAt, same]
    · refine ⟨fun bucket found => ?_, ?_⟩
      · rw [lost] at found
        cases found
      · simp only [releaseAt, lost]
        cases found : registry.bucketOf? route with
        | none => rfl
        | some bucket => exact (if_neg fun waits => Nat.not_lt.2 (ended bucket found) waits.2).symm
  rw [Registry.wakeAt?_eq released.1, released.2]

end Registry

end QuotaGate
