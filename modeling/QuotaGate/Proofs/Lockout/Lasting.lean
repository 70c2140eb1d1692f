import Mathlib.Order.MinMax
import QuotaGate.Proofs.Admission.Whole
import QuotaGate.Proofs.Lockout.History

/-!
# How long a lockout lasts

A lockout is asked for at an instant and for a length, both to the nanosecond, and its end is stored
in whole microseconds. Of the time from the origin to the instant and of the length the rest past
the last whole microsecond is dropped, each by itself. So the lockout that is stored may end before
the lockout that was asked for, by less than two microseconds, and whoever looks at the gate between
the two ends is let in.

Results:
1. `Gate.isLockedUntil_iff`, `Gate.admitsNobodyUntil_iff`: whatever happens later, the gate stays
   locked, and lets nobody in, exactly until the end that is stored.
2. `Lockout.storedStop_add_dropped`: the end that is stored falls short of the end that is asked for
   by what is dropped.
3. `Gate.lasts_as_asked_iff`: a lockout lasts as long as was asked exactly if nothing is dropped, or
   if the gate is locked until then anyway.
-/

namespace QuotaGate

namespace Lockout

/-- The end of a lockout that is asked for, as it is stored. -/
def storedStop (lockout : Lockout) (length : Duration) (asked : Instant) : Instant :=
  lockout.origin +
    ((asked.since lockout.origin).wholeMicros + length.wholeMicros) * Duration.microsecond

/-- The time from the origin to an instant, and a length, can be counted together. -/
def Fits (lockout : Lockout) (length : Duration) (asked : Instant) : Prop :=
  (asked.since lockout.origin).wholeMicros + length.wholeMicros ≤ mostMicros

variable {lockout : Lockout} {asked : Instant}

theorem stop_trigger {length : Duration} (fits : lockout.Fits length asked) :
    (lockout.trigger length asked).stop = max lockout.stop (lockout.storedStop length asked) := by
  have whole : lockout.endOf length asked =
      (asked.since lockout.origin).wholeMicros + length.wholeMicros := by
    rw [endOf_eq]
    exact Nat.min_eq_right fits
  simp only [stop, trigger, whole, storedStop, Duration.microsecond, Instant, Duration]
  omega

/-- What is stored and what is dropped make up what was asked for. -/
theorem storedStop_add_dropped (began : lockout.origin ≤ asked) (length : Duration) :
    lockout.storedStop length asked +
      (dropped (asked.since lockout.origin) + dropped length) = asked + length := by
  simp only [storedStop, dropped, Instant.since, Duration.wholeMicros, Duration.microsecond,
    Instant, Duration] at *
  omega

theorem dropped_eq_zero_iff (length : Duration) :
    dropped length = 0 ↔ Duration.microsecond ∣ length := Nat.dvd_iff_mod_eq_zero.symm

/-- Nothing is lost exactly if nothing is dropped. -/
theorem add_le_storedStop_iff (began : lockout.origin ≤ asked) (length : Duration) :
    asked + length ≤ lockout.storedStop length asked ↔
      Duration.microsecond ∣ asked.since lockout.origin ∧ Duration.microsecond ∣ length := by
  have made := storedStop_add_dropped began length
  rw [← dropped_eq_zero_iff, ← dropped_eq_zero_iff]
  simp only [Instant, Duration] at *
  omega

end Lockout

namespace Gate

open Admission (Moment)

/-- Whatever happens later, the gate is locked from one instant to another. -/
def IsLockedUntil (gate : Gate) (start stop : Instant) : Prop :=
  ∀ history : History, ∀ now, start ≤ now → now < stop →
    (gate.replay history).lockout.isActive now = true

/-- Whatever happens before and while they wait, nobody who asks for admission from one instant on
is let in before another. -/
def AdmitsNobodyUntil (gate : Gate) (start stop : Instant) : Prop :=
  ∀ (route : RouteKey) (history : History) (begun : Instant) (last : Moment), start ≤ begun →
    Moment.Leads route ⟨begun, gate.replay history, .checkingLockout⟩ last →
    last.admission = .admitted → stop ≤ last.now

/-- A longer history moves the end of the lockout on, if at all. -/
theorem untilMicros_replay_mono (gate : Gate) {history other : History}
    (subset : history ⊆ other) :
    (gate.replay history).lockout.untilMicros ≤ (gate.replay other).lockout.untilMicros := by
  refine (isGreatest_untilMicros_replay gate history).mono
    (isGreatest_untilMicros_replay gate other) (Set.insert_subset_insert ?_)
  rintro stop ⟨entry, member, asked⟩
  exact ⟨entry, subset member, asked⟩

theorem stop_replay_mono (gate : Gate) {history other : History} (subset : history ⊆ other) :
    (gate.replay history).lockout.stop ≤ (gate.replay other).lockout.stop := by
  have ordered := gate.untilMicros_replay_mono subset
  rw [Lockout.stop, Lockout.stop, replay_origin, replay_origin]
  exact Nat.add_le_add_left (Nat.mul_le_mul_right _ ordered) _

theorem stop_le_replay (gate : Gate) (history : History) :
    gate.lockout.stop ≤ (gate.replay history).lockout.stop :=
  gate.stop_replay_mono (List.nil_subset history)

variable {gate : Gate} {start stop : Instant}

theorem isLockedUntil_iff (began : gate.lockout.origin ≤ start) :
    gate.IsLockedUntil start stop ↔ stop ≤ start ∨ stop ≤ gate.lockout.stop := by
  constructor
  · intro locked
    by_contra short
    obtain ⟨later, early⟩ := not_or.1 short
    have within : max start gate.lockout.stop < stop :=
      Nat.max_lt.2 ⟨Nat.not_le.1 later, Nat.not_le.1 early⟩
    have active := locked [] (max start gate.lockout.stop) (Nat.le_max_left _ _) within
    have before := Lockout.lt_stop_of_isActive active
    exact Nat.lt_irrefl _ (Nat.lt_of_le_of_lt (Nat.le_max_right _ _) before)
  · rintro (empty | stored) history now after before
    · exact absurd (Nat.lt_of_lt_of_le before empty) (Nat.not_lt.2 after)
    · have origin : (gate.replay history).lockout.origin ≤ now := by
        rw [replay_origin]
        exact Nat.le_trans began after
      rw [Lockout.isActive_iff_lt_stop origin]
      exact Nat.lt_of_lt_of_le before (Nat.le_trans stored (gate.stop_le_replay history))

/-! ## Who is let in -/

/-- An admission among others has not gone on to its bucket before the lockout ended that was there
when it began. -/
structure Heeds (first : Lockout) (moment : Moment) : Prop where
  origin_eq : moment.gate.lockout.origin = first.origin
  began : first.origin ≤ moment.now
  stop_le : first.stop ≤ moment.gate.lockout.stop
  ended : moment.admission.isCleared = true → first.stop ≤ moment.now

theorem Heeds.next {first : Lockout} {route : RouteKey} {moment later : Moment}
    (heeds : Heeds first moment) (happens : moment.Next route later) : Heeds first later := by
  obtain ⟨origin, began, least, ended⟩ := heeds
  cases happens with
  | move moved =>
    refine ⟨origin, began, least, fun cleared => ?_⟩
    rcases Admission.isCleared_of_step moved cleared with ⟨-, off⟩ | before
    · have finished : ¬moment.now < moment.gate.lockout.stop := by
        rw [← Lockout.isActive_iff_lt_stop (origin ▸ began), off]
        exact Bool.noConfusion
      exact Nat.le_trans least (Nat.not_lt.1 finished)
    · exact ended before
  | happen event other =>
    refine ⟨(apply_origin _ event _).trans origin, began, ?_, ended⟩
    exact Nat.le_trans least (moment.gate.stop_le_replay [(moment.now, event)])
  | pass instant ordered stuck timers =>
    refine ⟨origin, Nat.le_trans began ordered, least, fun cleared => ?_⟩
    exact Nat.le_trans (ended cleared) ordered

theorem Heeds.leads {first : Lockout} {route : RouteKey} {moment later : Moment}
    (heeds : Heeds first moment) (leads : moment.Leads route later) : Heeds first later := by
  induction leads with
  | refl => exact heeds
  | tail _ happens ih => exact ih.next happens

theorem now_le_leads {route : RouteKey} {moment later : Moment}
    (leads : moment.Leads route later) : moment.now ≤ later.now := by
  induction leads with
  | refl => exact Nat.le_refl _
  | tail _ happens ih =>
    cases happens with
    | move moved | happen event other => exact ih
    | pass instant ordered stuck timers => exact Nat.le_trans ih ordered

/-- Where the lockout is off and no bucket is known, who asks is let in at once. -/
theorem leads_admitted_of_empty {now : Instant} (off : gate.lockout.isActive now = false)
    (empty : gate.registry = .empty) (route : RouteKey) :
    Moment.Leads route ⟨now, gate, .checkingLockout⟩ ⟨now, gate, .admitted⟩ := by
  have clear : Admission.checkingLockout.step gate route now = some .checkingBucket :=
    Admission.step_eq_some_iff.2 (.isClear ((gate.lockout.wakeAt?_eq_none_iff now).2 off))
  have free : gate.registry.wakeAt? route now = none := by
    rw [empty]
    rfl
  exact .head (.move clear) (.single (.move (Admission.step_eq_some_iff.2 (.isFree free))))

theorem admitsNobodyUntil_iff (began : gate.lockout.origin ≤ start) :
    gate.AdmitsNobodyUntil start stop ↔ stop ≤ start ∨ stop ≤ gate.lockout.stop := by
  constructor
  · intro closed
    by_contra short
    obtain ⟨later, early⟩ := not_or.1 short
    have within : max start gate.lockout.stop < stop :=
      Nat.max_lt.2 ⟨Nat.not_le.1 later, Nat.not_le.1 early⟩
    let begun := max start gate.lockout.stop
    -- Whoever comes when the lockout is over, to a gate that has just forgotten all buckets.
    let cleared := gate.replay [(begun, .clear)]
    have off : cleared.lockout.isActive begun = false := by
      refine Bool.eq_false_iff.2 fun active => ?_
      have before : begun < gate.lockout.stop := Lockout.lt_stop_of_isActive active
      exact Nat.lt_irrefl _ (Nat.lt_of_le_of_lt (Nat.le_max_right _ _) before)
    have comes := closed ⟨.get, ""⟩ [(begun, .clear)] begun _ (Nat.le_max_left _ _)
      (leads_admitted_of_empty off rfl _) rfl
    exact Nat.lt_irrefl _ (Nat.lt_of_lt_of_le within comes)
  · intro either route history begun last after leads admitted
    rcases either with empty | stored
    · exact Nat.le_trans empty (Nat.le_trans after (now_le_leads leads))
    · have origin := gate.replay_origin history
      have heeds : Heeds (gate.replay history).lockout last := by
        refine Heeds.leads ⟨rfl, ?_, Nat.le_refl _, fun cleared => ?_⟩ leads
        · rw [origin]
          exact Nat.le_trans began after
        · cases cleared
      have cleared : last.admission.isCleared = true := admitted ▸ rfl
      exact Nat.le_trans stored (Nat.le_trans (gate.stop_le_replay history) (heeds.ended cleared))

/-! ## As long as was asked -/

/-- By how much a lockout falls short at most: by a nanosecond less than a microsecond twice. -/
def mostShort : Duration := 2 * Duration.microsecond - 2

/-- A lockout that is asked for lasts as long as was asked, and nobody is let in before it ends,
exactly if nothing is dropped of the time from the origin to the instant at which it is asked for
and of its length, or if the gate is locked until its end anyway. In no case does it fall short by
two microseconds. -/
theorem lasts_as_asked_iff {asked : Instant} {length : Duration}
    (began : gate.lockout.origin ≤ asked) (fits : gate.lockout.Fits length asked) :
    let locked := gate.apply (.trigger length) asked
    let exact := length = 0 ∨ asked + length ≤ gate.lockout.stop ∨
      Duration.microsecond ∣ asked.since gate.lockout.origin ∧ Duration.microsecond ∣ length
    (locked.IsLockedUntil asked (asked + length) ↔ exact) ∧
    (locked.AdmitsNobodyUntil asked (asked + length) ↔ exact) ∧
    locked.IsLockedUntil asked (asked + length - mostShort) ∧
    locked.AdmitsNobodyUntil asked (asked + length - mostShort) := by
  intro locked exact
  have origin : locked.lockout.origin ≤ asked := (apply_origin gate _ asked).trans_le began
  have stop_eq : locked.lockout.stop =
      max gate.lockout.stop (gate.lockout.storedStop length asked) := Lockout.stop_trigger fits
  have reached : asked + length ≤ asked ∨ asked + length ≤ locked.lockout.stop ↔ exact := by
    have nothing : asked + length ≤ asked ↔ length = 0 := by
      simp only [Instant, Duration] at *
      omega
    rw [stop_eq, le_max_iff, Lockout.add_le_storedStop_iff began length, nothing]
  have short : asked + length - mostShort ≤ locked.lockout.stop := by
    have made := Lockout.storedStop_add_dropped began length
    have first := Lockout.dropped_lt (asked.since gate.lockout.origin)
    have second := Lockout.dropped_lt length
    rw [stop_eq, le_max_iff]
    simp only [mostShort, Duration.microsecond, Instant, Duration] at *
    omega
  exact ⟨(isLockedUntil_iff origin).trans reached, (admitsNobodyUntil_iff origin).trans reached,
    (isLockedUntil_iff origin).2 (.inr short), (admitsNobodyUntil_iff origin).2 (.inr short)⟩

/-- A gate that is asked to lock for one millisecond and half a microsecond. -/
def lockedBriefly : Gate := (Gate.new 0 Gate.defaultFallback).apply (.trigger 1000500) 0

/-- After one millisecond, before the time that was asked for is over, the lockout is off, and who
asked for admission at once is let in. -/
theorem released_before_asked :
    lockedBriefly.lockout.isActive (Duration.ofMillis 1) = false ∧
    ∃ last : Moment, Moment.Leads ⟨.get, "a"⟩ ⟨0, lockedBriefly, .checkingLockout⟩ last ∧
      last.admission = .admitted ∧ last.now = Duration.ofMillis 1 ∧ last.now < 0 + 1000500 := by
  let wake : Instant := Duration.ofMillis 1
  have off : lockedBriefly.lockout.isActive wake = false := by decide +kernel
  have locked : Moment.Next ⟨.get, "a"⟩ ⟨0, lockedBriefly, .checkingLockout⟩
      ⟨0, lockedBriefly, .lockedOut wake⟩ := .move (by decide +kernel)
  have passed : Moment.Next ⟨.get, "a"⟩ ⟨0, lockedBriefly, .lockedOut wake⟩
      ⟨wake, lockedBriefly, .lockedOut wake⟩ :=
    .pass wake (Nat.zero_le _) (by decide +kernel) fun timer found => by
      cases found
      exact Nat.le_refl wake
  have woken : Moment.Next ⟨.get, "a"⟩ ⟨wake, lockedBriefly, .lockedOut wake⟩
      ⟨wake, lockedBriefly, .checkingLockout⟩ := .move (by decide +kernel)
  have comes := leads_admitted_of_empty off rfl ⟨.get, "a"⟩
  exact ⟨off, _, .head locked (.head passed (.head woken comes)), rfl, rfl, by decide⟩

/-- Three microseconds after the origin a lockout of two seconds and a microsecond is asked for.
Nothing is dropped of either. -/
theorem locked_for_wholeMicros :
    ((Gate.new 0 Gate.defaultFallback).apply (.trigger 2000001000) 3000).IsLockedUntil 3000
        2000004000 ∧
    ((Gate.new 0 Gate.defaultFallback).apply (.trigger 2000001000) 3000).AdmitsNobodyUntil 3000
        2000004000 := by
  let gate := Gate.new 0 Gate.defaultFallback
  have fits : gate.lockout.Fits 2000001000 3000 := by
    unfold Lockout.Fits
    decide
  have whole : Duration.microsecond ∣ Instant.since 3000 gate.lockout.origin ∧
      Duration.microsecond ∣ 2000001000 := by decide
  obtain ⟨locked, closed, -, -⟩ := lasts_as_asked_iff (Nat.zero_le _) fits
  exact ⟨locked.2 (.inr (.inr whole)), closed.2 (.inr (.inr whole))⟩

end Gate

end QuotaGate
