import QuotaGate.Proofs.Lockout.Lasting
import QuotaGate.Proofs.Session.Pruners

/-!
# Three views of a lockout

Whether a lockout is on, how much time is left of it, and when it ends are three questions, and the
answer to each is cut in its own way. The time from the origin is counted in whole microseconds, and
no further than can be stored. The time left is a difference that stops at zero. Where no
microsecond is stored no end is shown, and neither is one for which the clock has no instant.

The answers agree all the same: at every nanosecond, for an end that was cut off at the greatest
number that can be stored, and on a clock that has gone on past that number. So whoever finds the
lockout on and sleeps for the time left wakes when it is over, and not before.

All it takes is that the clock has an instant for every end that can be stored (`HasRoom`). The
clock lasts half a million times as long as can be stored, so this is no restriction on the gates
there are: a gate without room would have to be new in the last 585 thousand of the 292 billion
years that the clock has from its origin on. A session makes its gate at the origin
(`hasRoom_zero`).

Results:
1. `Lockout.endsAt?_eq_some_iff`, `Lockout.endsAt?_eq_none_iff`: which end is shown, and when.
2. `Lockout.add_remaining_le_latest`: where the clock has room, the time left does not outlast it.
3. `Lockout.viewsAgree_of_inRange`: the views agree where the time left does not outlast the clock.
4. `Session.viewsAgree_of_performEach`: in a session it never does.
5. `Gate.views_agree`: all of it for whatever has happened at a gate that was new.
-/

namespace QuotaGate

namespace Instant

/-- After an instant the clock goes on for longer than microseconds can be stored. -/
def HasRoom (instant : Instant) : Prop := instant + UInt64.size * Duration.microsecond ≤ latest

instance (instant : Instant) : Decidable instant.HasRoom :=
  inferInstanceAs (Decidable (instant + UInt64.size * Duration.microsecond ≤ latest))

theorem hasRoom_zero : HasRoom 0 := by decide

end Instant

namespace Lockout

/-- What is said about a lockout at an instant agrees. -/
structure ViewsAgree (lockout : Lockout) (now : Instant) : Prop where
  /-- Time is left exactly while the lockout is on. -/
  remaining : lockout.isActive now = true ↔ lockout.remaining now ≠ 0
  /-- Exactly then an end is shown that lies ahead. -/
  ahead : lockout.isActive now = true ↔ ∃ stop, lockout.endsAt? = some stop ∧ now < stop
  /-- The time left is the time until that end, or longer by less than a microsecond. -/
  close : ∀ stop, lockout.endsAt? = some stop → now < stop →
    stop.since now ≤ lockout.remaining now ∧
      lockout.remaining now < stop.since now + Duration.microsecond
  /-- A sleep for the time left does not end before that end. -/
  sleeps : ∀ stop, lockout.endsAt? = some stop → now < stop →
    stop ≤ now.wakeAfter (lockout.remaining now)
  /-- Who sleeps until it is time to look again finds that the lockout is over, unless it was
  extended. -/
  woken : ∀ wake, lockout.wakeAt? now = some wake → lockout.isActive wake = false

variable {lockout : Lockout} {now stop : Instant}

/-- The end that is shown is the end that is stored. -/
theorem endsAt?_eq_some_iff : lockout.endsAt? = some stop ↔
    lockout.untilMicros ≠ 0 ∧ lockout.stop = stop ∧ lockout.stop ≤ Instant.latest := by
  unfold endsAt?
  split
  · next none => simp [none]
  · next stored =>
    rw [Instant.add?]
    split
    · next inRange =>
      rw [Option.some_inj]
      exact ⟨fun same => ⟨stored, same, inRange⟩, fun shown => shown.2.1⟩
    · next late =>
      exact iff_of_false (Option.some_ne_none stop).symm fun shown => late shown.2.2

theorem endsAt?_eq_none_iff : lockout.endsAt? = none ↔
    lockout.untilMicros = 0 ∨ Instant.latest < lockout.stop := by
  have shown (stop : Instant) := @endsAt?_eq_some_iff lockout stop
  rw [Option.eq_none_iff_forall_ne_some]
  simp only [ne_eq, shown, not_and, Nat.not_le]
  constructor
  · intro hidden
    by_cases none : lockout.untilMicros = 0
    · exact .inl none
    · exact .inr (hidden _ none rfl)
  · rintro (none | late) stop stored rfl
    · exact absurd none stored
    · exact late

/-- A sleep for the time left ends at or after the end of the lockout, if the clock has an instant
for its end. -/
theorem stop_le_wakeAfter (began : lockout.origin ≤ now) (active : lockout.isActive now = true)
    (inRange : now + lockout.remaining now ≤ Instant.latest) :
    lockout.stop ≤ now.wakeAfter (lockout.remaining now) := by
  rw [Instant.wakeAfter_of_le inRange]
  exact Nat.le_trans (stop_le_add_remaining began active) (Instant.le_ceilMillis _)

/-- An end is shown and lies ahead exactly while the lockout is on, if the clock has an instant for
it. -/
theorem isActive_iff_endsAt? (began : lockout.origin ≤ now)
    (inRange : lockout.isActive now = true → lockout.stop ≤ Instant.latest) :
    lockout.isActive now = true ↔ ∃ stop, lockout.endsAt? = some stop ∧ now < stop := by
  constructor
  · intro active
    have stored : lockout.untilMicros ≠ 0 :=
      Nat.ne_of_gt (Nat.zero_lt_of_lt ((lockout.isActive_iff now).1 active))
    exact ⟨lockout.stop, endsAt?_eq_some_iff.2 ⟨stored, rfl, inRange active⟩,
      lt_stop_of_isActive active⟩
  · rintro ⟨stop, shown, early⟩
    obtain ⟨-, rfl, -⟩ := endsAt?_eq_some_iff.1 shown
    exact (isActive_iff_lt_stop began).2 early

/-- The views agree where the time left does not outlast the clock. -/
theorem viewsAgree_of_inRange (began : lockout.origin ≤ now)
    (inRange : lockout.isActive now = true → now + lockout.remaining now ≤ Instant.latest) :
    lockout.ViewsAgree now where
  remaining := by rw [Ne, remaining_eq_zero_iff, Bool.not_eq_false]
  ahead := isActive_iff_endsAt? began fun active =>
    Nat.le_trans (stop_le_add_remaining began active) (inRange active)
  close stop shown early := by
    obtain ⟨-, rfl, -⟩ := endsAt?_eq_some_iff.1 shown
    have active := (isActive_iff_lt_stop began).2 early
    have reaches := stop_le_add_remaining began active
    have short := add_remaining_lt began active
    simp only [Instant.since, Instant, Duration] at *
    omega
  sleeps stop shown early := by
    obtain ⟨-, rfl, -⟩ := endsAt?_eq_some_iff.1 shown
    have active := (isActive_iff_lt_stop began).2 early
    exact stop_le_wakeAfter began active (inRange active)
  woken wake sleeps := by
    have active := isActive_of_wakeAt? sleeps
    rw [wakeAt?_of_isActive active, Option.some_inj] at sleeps
    have ended : lockout.stop ≤ wake :=
      sleeps ▸ stop_le_wakeAfter began active (inRange active)
    exact Bool.eq_false_iff.2 fun still => Nat.not_lt.2 ended (lt_stop_of_isActive still)

/-- Where the clock has room after the origin, no lockout outlasts it. -/
theorem add_remaining_le_latest (room : lockout.origin.HasRoom) (began : lockout.origin ≤ now)
    (active : lockout.isActive now = true) : now + lockout.remaining now ≤ Instant.latest := by
  have short := add_remaining_lt began active
  have stored : lockout.untilMicros + 1 ≤ UInt64.size := Nat.succ_le_succ lockout.untilMicros_le
  have counted : lockout.stop + Duration.microsecond ≤ Instant.latest :=
    calc lockout.stop + Duration.microsecond
      _ = lockout.origin + (lockout.untilMicros + 1) * Duration.microsecond := by
        rw [Nat.succ_mul, ← Nat.add_assoc]
        rfl
      _ ≤ lockout.origin + UInt64.size * Duration.microsecond :=
        Nat.add_le_add_left (Nat.mul_le_mul_right _ stored) _
      _ ≤ Instant.latest := room
  exact Nat.le_of_lt (Nat.lt_of_lt_of_le short counted)

theorem viewsAgree_of_hasRoom (room : lockout.origin.HasRoom) (began : lockout.origin ≤ now) :
    lockout.ViewsAgree now :=
  viewsAgree_of_inRange began (add_remaining_le_latest room began)

end Lockout

/-! ## Sessions -/

namespace Session

/-- No step of a session moves the origin from which its lockout is counted. -/
theorem origin_of_performEach {session : Session} (current : session.upkeep.IsCurrent)
    {steps : List (List (Duration × Action))} {outcome : List (Result × Instant) × Session}
    (member : outcome ∈ session.performEach steps) :
    outcome.2.world.gate.lockout.origin = session.world.gate.lockout.origin := by
  obtain ⟨deeds, runs⟩ := exists_runs_performEach session steps current outcome member
  have replayed : outcome.2.world.gate = session.world.gate.replay (deeds.map Deed.entry) :=
    runs.gate_eq
  rw [replayed, Gate.replay_origin]

/-- A session whose gate is new at the origin of the clock always has room. -/
theorem viewsAgree_of_performEach {session : Session} (current : session.upkeep.IsCurrent)
    (origin : session.world.gate.lockout.origin = 0) {steps : List (List (Duration × Action))}
    {outcome : List (Result × Instant) × Session} (member : outcome ∈ session.performEach steps)
    (now : Instant) : outcome.2.world.gate.lockout.ViewsAgree now := by
  have same : outcome.2.world.gate.lockout.origin = 0 :=
    (origin_of_performEach current member).trans origin
  refine Lockout.viewsAgree_of_hasRoom (same.symm ▸ Instant.hasRoom_zero) ?_
  rw [same]
  exact Nat.zero_le now

end Session

/-! ## All gates -/

namespace Gate

/-- Whatever has happened at a gate since it was new, at every instant from then on the views of its
lockout agree, if the clock has room after the gate was new. In a session it always has: whatever
is done, by a gate's session or a client's, the views agree after every step at every instant. -/
theorem views_agree (fallback : Duration) :
    (∀ origin : Instant, origin.HasRoom → ∀ (history : History) (now : Instant), origin ≤ now →
      ((Gate.new origin fallback).replay history).lockout.ViewsAgree now) ∧
    (∀ replies steps, ∀ outcome ∈ (Session.ofGate fallback replies).performEach steps,
      ∀ now, outcome.2.world.gate.lockout.ViewsAgree now) ∧
    ∀ settings replies steps, ∀ outcome ∈ (Session.ofSettings settings replies).performEach steps,
      ∀ now, outcome.2.world.gate.lockout.ViewsAgree now := by
  refine ⟨fun origin room history now began => ?_, fun replies steps outcome member now => ?_,
    fun settings replies steps outcome member now => ?_⟩
  · have same : ((Gate.new origin fallback).replay history).lockout.origin = origin :=
      replay_origin (Gate.new origin fallback) history
    exact Lockout.viewsAgree_of_hasRoom (same.symm ▸ room) (same.trans_le began)
  · exact Session.viewsAgree_of_performEach (Session.isCurrent_ofGate fallback replies) rfl member
      now
  · exact Session.viewsAgree_of_performEach (Session.isCurrent_ofSettings settings replies) rfl
      member now

/-- A gate that was new at the first nanosecond and is locked between two microseconds for as long
as can be asked for. The end is cut off. -/
def lockedForever : Gate := (Gate.new 1 defaultFallback).replay [(1500, .trigger Duration.longest)]

/-- Between two microseconds the lockout is on, and it is over once the clock has gone past all the
microseconds that can be stored. The views agree at both instants. -/
theorem views_agree_of_lockedForever :
    lockedForever.lockout.endsAt? = some (1 + (UInt64.size - 1) * Duration.microsecond) ∧
    lockedForever.lockout.isActive 2001 = true ∧ lockedForever.lockout.ViewsAgree 2001 ∧
    lockedForever.lockout.isActive (2 + UInt64.size * Duration.microsecond) = false ∧
    lockedForever.lockout.ViewsAgree (2 + UInt64.size * Duration.microsecond) := by
  have room : Instant.HasRoom 1 := by decide
  have agree := (views_agree defaultFallback).1 1 room [(1500, .trigger Duration.longest)]
  exact ⟨by decide +kernel, by decide +kernel, agree 2001 (by decide), by decide +kernel,
    agree (2 + UInt64.size * Duration.microsecond) (by decide)⟩

end Gate

end QuotaGate
