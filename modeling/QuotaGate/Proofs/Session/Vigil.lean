import Mathlib
import QuotaGate.Proofs.Lockout.Lasting
import QuotaGate.Proofs.Session.Plans

/-!
# Waiting for the end of a lockout

A task of a session waits until the lockout is over, while others go on making things happen to the
gate, lockouts among them. The task sleeps to the end of the lockout that it knows, and looks again
when it wakes. What happened meanwhile may have moved the end, so it may have to sleep again; but
each of its sleeps after the first goes to an end that was asked for, and so there are at most one
more sleeps than ends.

The first sleep is the one that may go past its end. It is as long as the time that is left, counted
in whole microseconds, and where the wait does not begin at a whole microsecond it ends less than a
microsecond after the lockout, rounded up to a whole millisecond. All later looks are at whole
milliseconds, and the sleeps from there end with the lockout. A clock that moves from timer to
timer, as that of `perform` does, begins every wait at a whole millisecond.

Results:
1. `Gate.stop_mem_releases`: the lockout can end at no more instants than are asked for.
2. `Vigil.IsUnderWay.poll`, `Vigil.IsUnderWay.pass`: what holds of the task that waits and of the
   others, from one stop of the clock to the next.
3. `drive_awaitLockout`: the wait ends, whenever it begins, and when it ends.
-/

namespace QuotaGate

/-- Between a whole millisecond and a later one there is a last one before the later one. -/
theorem Instant.exists_isWhole_before {earlier now : Instant} (wholeEarlier : earlier.IsWhole)
    (whole : now.IsWhole) (later : earlier < now) :
    ∃ before : Instant, before.IsWhole ∧ earlier ≤ before ∧ before < now ∧
      ∀ instant : Instant, before < instant → now ≤ instant.ceilMillis := by
  refine ⟨(now - 1) / Duration.millisecond * Duration.millisecond, ?_, ?_, ?_,
    fun instant after => ?_⟩
  · simp only [IsWhole, ceilMillis, Duration.millisecond, Instant, Duration]
    omega
  all_goals
    simp only [IsWhole, ceilMillis, Duration.millisecond, Instant, Duration] at *
    omega

namespace Gate

/-! ## The order of a history -/

/-- To the lockout it only matters what has happened, with its instants. -/
theorem LocksLike.of_mem_iff (gate : Gate) {history other : History}
    (same : ∀ entry, entry ∈ history ↔ entry ∈ other) :
    (gate.replay history).LocksLike (gate.replay other) where
  lockout_eq := by
    refine Lockout.eq_of_untilMicros_eq ?_ (Nat.le_antisymm ?_ ?_)
    · rw [replay_origin, replay_origin]
    · exact gate.untilMicros_replay_mono fun entry => (same entry).1
    · exact gate.untilMicros_replay_mono fun entry => (same entry).2
  fallback_eq := by rw [replay_fallback, replay_fallback]

/-! ## What has happened when a task goes on -/

/-- What has happened when a task goes on at an instant, if the first history is made by those who
go on before it there and the second by those who go on after it. -/
def History.amid (before after : History) (now : Instant) : History :=
  before.filter (·.1 ≤ now) ++ after.filter (·.1 < now)

section Amid

variable {before after : History} {now : Instant} {entry : Instant × Event}

theorem mem_amid : entry ∈ before.amid after now ↔
    entry ∈ before ∧ entry.1 ≤ now ∨ entry ∈ after ∧ entry.1 < now := by
  simp only [History.amid, List.mem_append, List.mem_filter, decide_eq_true_eq]

theorem amid_subset (before after : History) (now : Instant) :
    before.amid after now ⊆ before ++ after := fun _ member =>
  List.mem_append.2 ((mem_amid.1 member).imp And.left And.left)

theorem amid_mono (before after : History) {later : Instant} (ordered : now ≤ later) :
    before.amid after now ⊆ before.amid after later := fun _ member =>
  mem_amid.2 ((mem_amid.1 member).imp
    (And.imp_right fun early => Nat.le_trans early ordered)
    (And.imp_right fun early => Nat.lt_of_lt_of_le early ordered))

/-- Those who go on before the task have made what is due. -/
theorem mem_append_due_iff_mem_amid :
    entry ∈ before.filter (·.1 < now) ++ after.filter (·.1 < now) ++ before.filter (·.1 = now) ↔
      entry ∈ before.amid after now := by
  simp only [mem_amid, List.mem_append, List.mem_filter, decide_eq_true_eq, Nat.le_iff_lt_or_eq,
    and_or_left]
  exact or_right_comm

/-- Those who go on after the task make what is still due. -/
theorem mem_amid_append_due_iff :
    entry ∈ before.amid after now ++ after.filter (·.1 = now) ↔
      entry ∈ before.filter (·.1 < now + 1) ++ after.filter (·.1 < now + 1) := by
  simp only [mem_amid, List.mem_append, List.mem_filter, decide_eq_true_eq, Nat.lt_succ_iff,
    Nat.le_iff_lt_or_eq, and_or_left, or_assoc]

/-- The lockout as a task finds it that goes on at an instant. -/
def lockoutAmid (gate : Gate) (before after : History) (now : Instant) : Lockout :=
  (gate.replay (before.amid after now)).lockout

end Amid

/-! ## Where a lockout can end -/

/-- The whole milliseconds from which on the lockout may be off: it is off from its end on, or from
an end that a history asks for. -/
def releases (gate : Gate) (history : History) : List Instant :=
  (gate.lockout.untilMicros :: history.filterMap gate.lockoutEnd?).map fun micros =>
    Instant.ceilMillis (gate.lockout.origin + micros * Duration.microsecond : Nat)

theorem length_releases_le (gate : Gate) (history : History) :
    (gate.releases history).length ≤ history.length + 1 := by
  rw [releases, List.length_map, List.length_cons]
  exact Nat.succ_le_succ (List.length_filterMap_le _ _)

theorem stop_mem_releases (gate : Gate) {history other : History} (subset : history ⊆ other) :
    (gate.replay history).lockout.stop.ceilMillis ∈ gate.releases other := by
  rw [Lockout.stop, replay_origin, releases]
  refine List.mem_map_of_mem ?_
  rcases (isGreatest_untilMicros_replay gate history).1 with same | asked
  · rw [same]
    exact List.mem_cons_self
  · obtain ⟨entry, member, found⟩ := (mem_lockoutEnds_iff gate history _).1 asked
    exact List.mem_cons_of_mem _ (List.mem_filterMap.2 ⟨entry, subset member, found⟩)

end Gate

namespace Session

theorem locksLike_runPruners (world : World) (now : Instant) :
    (world.runPruners now).gate.LocksLike world.gate where
  lockout_eq := world.lockout_runPruners now
  fallback_eq := by
    rw [World.runPruners_eq]
    exact Gate.replay_fallback world.gate _

/-- A task that waits from an instant on until the lockout is over. Some of those who make things
happen go on before it at an instant, and some after it. -/
structure Vigil where
  /-- The gate as it was when the others began with their plans. -/
  first : Gate
  before : Gate.History
  after : Gate.History
  begun : Instant
  began : first.lockout.origin ≤ begun
  inRange : (first.replay (before ++ after)).lockout.stop.ceilMillis ≤ Instant.latest

namespace Vigil

variable {vigil : Vigil} {now wake : Instant}

/-- The lockout as it stands when the task goes on at an instant. -/
def lockoutAt (vigil : Vigil) (now : Instant) : Lockout :=
  vigil.first.lockoutAmid vigil.before vigil.after now

/-- When the task looks again that has looked at the beginning, if the lockout is on there. -/
def wakesAt (vigil : Vigil) : Instant := (vigil.lockoutAt vigil.begun).releaseAt vigil.begun

/-- The instants at which the clock may stop. -/
def stops (vigil : Vigil) : Finset Instant :=
  (vigil.begun :: vigil.wakesAt :: ((vigil.before ++ vigil.after).map Prod.fst ++
    vigil.first.releases (vigil.before ++ vigil.after))).toFinset

theorem origin_lockoutAt (vigil : Vigil) (now : Instant) :
    (vigil.lockoutAt now).origin = vigil.first.lockout.origin :=
  vigil.first.replay_origin _

theorem stop_lockoutAt_mono (vigil : Vigil) {later : Instant} (ordered : now ≤ later) :
    (vigil.lockoutAt now).stop ≤ (vigil.lockoutAt later).stop :=
  vigil.first.stop_replay_mono (Gate.amid_mono _ _ ordered)

theorem isActive_lockoutAt_iff (vigil : Vigil) (begun : vigil.begun ≤ now) :
    (vigil.lockoutAt now).isActive now = true ↔ now < (vigil.lockoutAt now).stop :=
  Lockout.isActive_iff_lt_stop
    ((vigil.origin_lockoutAt now).trans_le (Nat.le_trans vigil.began begun))

theorem card_stops_le (vigil : Vigil) :
    vigil.stops.card ≤ 2 * (vigil.before ++ vigil.after).length + 3 := by
  have releases := vigil.first.length_releases_le (vigil.before ++ vigil.after)
  have stops := List.toFinset_card_le (vigil.begun :: vigil.wakesAt ::
    ((vigil.before ++ vigil.after).map Prod.fst ++
      vigil.first.releases (vigil.before ++ vigil.after)))
  rw [List.length_cons, List.length_cons, List.length_append, List.length_map] at stops
  unfold Vigil.stops
  omega

theorem begun_le_wakesAt (vigil : Vigil) : vigil.begun ≤ vigil.wakesAt :=
  Nat.le_trans (Nat.le_max_left _ _) (Lockout.le_releaseAt _ _)

/-- From a whole microsecond on the first sleep ends with the lockout. -/
theorem wakesAt_eq_stop (vigil : Vigil) (whole : Duration.microsecond ∣ vigil.begun)
    (early : vigil.begun < (vigil.lockoutAt vigil.begun).stop) :
    vigil.wakesAt = (vigil.lockoutAt vigil.begun).stop.ceilMillis :=
  Lockout.releaseAt_of_dvd ((vigil.origin_lockoutAt _).trans_le vigil.began) whole early

/-- Up to an instant at which the task may look, the lockout has been on at every whole millisecond,
but for those that the first sleep goes past its end. -/
structure IsLockedTo (vigil : Vigil) (instant : Instant) : Prop where
  begun_le : vigil.begun ≤ instant
  looks : instant = vigil.begun ∨ instant.IsWhole ∧ vigil.wakesAt ≤ instant ∧
    (vigil.lockoutAt vigil.begun).isActive vigil.begun = true
  locked : ∀ earlier : Instant, earlier.IsWhole → vigil.begun ≤ earlier → earlier < instant →
    earlier < (vigil.lockoutAt vigil.begun).stop ∨ vigil.wakesAt ≤ earlier →
    (vigil.lockoutAt earlier).isActive earlier = true

/-- Where the task looks and the lockout is off. -/
structure IsOverAt (vigil : Vigil) (instant : Instant) : Prop extends vigil.IsLockedTo instant where
  off : (vigil.lockoutAt instant).isActive instant = false

theorem isLockedTo_begun (vigil : Vigil) : vigil.IsLockedTo vigil.begun where
  begun_le := Nat.le_refl _
  looks := .inl rfl
  locked _ _ after before := absurd before (Nat.not_lt.2 after)

theorem le_latest (vigil : Vigil) (now : Instant) :
    (vigil.lockoutAt now).stop.ceilMillis ≤ Instant.latest := by
  refine Nat.le_trans (Instant.ceilMillis_mono ?_) vigil.inRange
  exact vigil.first.stop_replay_mono (Gate.amid_subset _ _ now)

/-- Whoever looks and finds the lockout on sleeps to its end, or a little longer if it is the first
look, and until the end the lockout stays on. -/
theorem IsLockedTo.sleeps (locked : vigil.IsLockedTo now)
    (active : (vigil.lockoutAt now).isActive now = true) :
    ∃ wake ∈ vigil.stops, (vigil.lockoutAt now).wakeAt? now = some wake ∧ now < wake ∧
      vigil.IsLockedTo wake := by
  let wake := (vigil.lockoutAt now).releaseAt now
  have began : (vigil.lockoutAt now).origin ≤ now :=
    (vigil.origin_lockoutAt now).trans_le (Nat.le_trans vigil.began locked.begun_le)
  have early : now < (vigil.lockoutAt now).stop := Lockout.lt_stop_of_isActive active
  have later : now < wake := Nat.lt_of_lt_of_le early
    (Nat.le_trans (Nat.le_max_right _ _) (Lockout.le_releaseAt _ _))
  have sleeps : (vigil.lockoutAt now).wakeAt? now = some wake := by
    rw [Lockout.wakeAt?_eq began (vigil.le_latest now), if_pos early]
  have still : ∀ earlier : Instant, vigil.begun ≤ earlier → now ≤ earlier →
      earlier < (vigil.lockoutAt now).stop → (vigil.lockoutAt earlier).isActive earlier = true :=
    fun earlier after present before => (isActive_lockoutAt_iff vigil after).2
      (Nat.lt_of_lt_of_le before (vigil.stop_lockoutAt_mono present))
  have whole : wake.IsWhole := Lockout.isWhole_releaseAt early
  rcases locked.looks with first | ⟨wholeNow, woken, on⟩
  · -- The first sleep may go past the end that it was set for.
    subst first
    refine ⟨wake, List.mem_toFinset.2 (List.mem_cons_of_mem _ List.mem_cons_self), sleeps, later,
      Nat.le_of_lt later, .inr ⟨whole, Nat.le_refl _, active⟩,
      fun earlier _ after before known => ?_⟩
    exact still earlier after after (known.resolve_right (Nat.not_le.2 before))
  · -- Every other sleep ends where the lockout does.
    have ends : wake = (vigil.lockoutAt now).stop.ceilMillis :=
      Lockout.releaseAt_of_dvd began wholeNow.dvd early
    have stop : wake ∈ vigil.stops := by
      refine List.mem_toFinset.2 (List.mem_cons_of_mem _ (List.mem_cons_of_mem _
        (List.mem_append_right _ ?_)))
      rw [ends]
      exact vigil.first.stop_mem_releases (Gate.amid_subset _ _ now)
    refine ⟨wake, stop, sleeps, later, Nat.le_trans locked.begun_le (Nat.le_of_lt later),
      .inr ⟨whole, Nat.le_trans woken (Nat.le_of_lt later), on⟩,
      fun earlier wholeEarlier after before known => ?_⟩
    -- Before the look it is known already; after it nothing moves the end back.
    rcases Nat.lt_or_ge earlier now with past | present
    · exact locked.locked earlier wholeEarlier after past known
    · refine still earlier after present (Nat.lt_of_not_le fun late => ?_)
      exact Nat.not_le.2 before (ends ▸ (wholeEarlier.ceilMillis_le_iff _).2 late)

/-- Where the lockout is off at the beginning, it is over there. -/
theorem IsOverAt.eq_begun (isOver : vigil.IsOverAt now)
    (off : (vigil.lockoutAt vigil.begun).isActive vigil.begun = false) : now = vigil.begun := by
  rcases isOver.looks with first | ⟨-, -, active⟩
  · exact first
  · rw [off] at active
    cases active

/-- Where the lockout is on at the beginning, it is over at the first whole millisecond at or after
its end, as it stands then, but not before the task looks again for the first time. -/
theorem IsOverAt.eq_max (isOver : vigil.IsOverAt now)
    (active : (vigil.lockoutAt vigil.begun).isActive vigil.begun = true) :
    now = max vigil.wakesAt (vigil.lockoutAt now).stop.ceilMillis := by
  rcases isOver.looks with rfl | ⟨whole, woken, -⟩
  · rw [isOver.off] at active
    cases active
  have ended : (vigil.lockoutAt now).stop ≤ now := by
    refine Nat.not_lt.1 fun early => ?_
    rw [← isActive_lockoutAt_iff vigil isOver.begun_le, isOver.off] at early
    cases early
  refine Nat.le_antisymm (Nat.le_of_not_lt fun late => ?_)
    (Nat.max_le.2 ⟨woken, (whole.ceilMillis_le_iff _).2 ended⟩)
  obtain ⟨past, beyond⟩ := Nat.max_lt.1 late
  have wholeWake : vigil.wakesAt.IsWhole :=
    Lockout.isWhole_releaseAt (Lockout.lt_stop_of_isActive active)
  obtain ⟨before, wholeBefore, after, earlier, next⟩ :=
    Instant.exists_isWhole_before wholeWake whole past
  have begun := Nat.le_trans vigil.begun_le_wakesAt after
  have still := isOver.locked before wholeBefore begun earlier (.inr after)
  rw [isActive_lockoutAt_iff vigil begun] at still
  exact Nat.not_le.2 beyond
    (next _ (Nat.lt_of_lt_of_le still (vigil.stop_lockoutAt_mono (Nat.le_of_lt earlier))))

/-- Where the wait begins at a whole microsecond, it is over where the lockout ends. -/
theorem IsOverAt.eq_stop (isOver : vigil.IsOverAt now)
    (active : (vigil.lockoutAt vigil.begun).isActive vigil.begun = true)
    (whole : Duration.microsecond ∣ vigil.begun) :
    now = (vigil.lockoutAt now).stop.ceilMillis := by
  have first := vigil.wakesAt_eq_stop whole (Lockout.lt_stop_of_isActive active)
  have ends := isOver.eq_max active
  rwa [first, Nat.max_eq_right
    (Instant.ceilMillis_mono (vigil.stop_lockoutAt_mono isOver.begun_le))] at ends

/-- Wherever the wait begins, it is over a millisecond later at most. -/
theorem IsOverAt.le_stop (isOver : vigil.IsOverAt now)
    (active : (vigil.lockoutAt vigil.begun).isActive vigil.begun = true) :
    now ≤ (vigil.lockoutAt now).stop.ceilMillis + Duration.millisecond := by
  have early := Lockout.lt_stop_of_isActive active
  have first : vigil.wakesAt ≤
      (vigil.lockoutAt vigil.begun).stop.ceilMillis + Duration.millisecond := by
    have bound := (vigil.lockoutAt vigil.begun).releaseAt_le vigil.begun
    rwa [Nat.max_eq_right (Nat.le_trans (Nat.le_of_lt early) (Instant.le_ceilMillis _))] at bound
  refine (Nat.le_of_eq (isOver.eq_max active)).trans (Nat.max_le.2 ⟨first.trans ?_, ?_⟩)
  · exact Nat.add_le_add_right
      (Instant.ceilMillis_mono (vigil.stop_lockoutAt_mono isOver.begun_le)) _
  · exact Nat.le_add_right _ _

/-! ### How the task goes on -/

/-- How the task stands when everything before an instant has happened. -/
inductive Watches (vigil : Vigil) (now : Instant) : Task → Prop
  | yet : now ≤ vigil.begun → Watches vigil now (.delayed vigil.begun .awaitLockout)
  | asleep {wake : Instant} : now ≤ wake → wake ∈ vigil.stops → vigil.IsLockedTo wake →
      Watches vigil now (.lockedOut wake vigil.begun)
  | ended {ended : Instant} : ended < now → vigil.IsOverAt ended →
      Watches vigil now (.done
        (.waited (ended.since vigil.begun) (ended.since vigil.begun)) ended)

theorem Watches.look {world : World} (locked : vigil.IsLockedTo now)
    (current : world.gate.lockout = vigil.lockoutAt now) :
    ∃ later, (Task.lockedOut now vigil.begun).advance world now = (later, world) ∧
      vigil.Watches (now + 1) later := by
  rw [Task.advance, if_pos (Nat.le_refl now), current]
  cases active : (vigil.lockoutAt now).isActive now with
  | true =>
    obtain ⟨wake, stop, sleeps, later, still⟩ := locked.sleeps active
    simp only [sleeps]
    exact ⟨_, rfl, .asleep later stop still⟩
  | false =>
    simp only [(Lockout.wakeAt?_eq_none_iff _ now).2 active]
    exact ⟨_, rfl, .ended (Nat.lt_succ_self now) ⟨locked, active⟩⟩

theorem Watches.poll {task : Task} (watches : vigil.Watches now task) {world : World}
    (current : world.gate.lockout = vigil.lockoutAt now) :
    ∃ later, task.poll world now = (later, world) ∧ vigil.Watches (now + 1) later := by
  cases watches with
  | yet early =>
    rcases Nat.eq_or_lt_of_le early with rfl | later
    · rw [Task.poll, if_pos (Nat.le_refl _)]
      exact look vigil.isLockedTo_begun current
    · rw [Task.poll, if_neg (Nat.not_le.2 later)]
      exact ⟨_, rfl, .yet later⟩
  | @asleep wake early stop locked =>
    rw [Task.poll_of_begun rfl]
    rcases Nat.eq_or_lt_of_le early with rfl | later
    · exact look locked current
    · rw [Task.advance, if_neg (Nat.not_le.2 later)]
      exact ⟨_, rfl, .asleep later stop locked⟩
  | ended past isOver => exact ⟨_, rfl, .ended (Nat.lt_succ_of_lt past) isOver⟩

/-! ### How all of them go on -/

/-- How all of them stand when everything before an instant has happened: those who go on before
the task at an instant, the task itself, and those who go on after it. -/
structure IsUnderWay (vigil : Vigil) (now : Instant) (others : List Task) (task : Task)
    (rest : List Task) (world : World) : Prop where
  before : MakesAll now vigil.before others
  watches : vigil.Watches now task
  after : MakesAll now vigil.after rest
  alike : world.gate.LocksLike (vigil.first.replay
    (vigil.before.filter (·.1 < now) ++ vigil.after.filter (·.1 < now)))

/-- Those who go on before the task make what is due, the task looks at the lockout, and those who
go on after it make what is due. -/
theorem IsUnderWay.poll {others rest : List Task} {task : Task} {world : World}
    (underWay : vigil.IsUnderWay now others task rest world) :
    ∃ others' task' rest' world',
      pollAll (others ++ task :: rest) world now = (others' ++ task' :: rest', world') ∧
      vigil.IsUnderWay (now + 1) others' task' rest' world' := by
  obtain ⟨before, watches, after, alike⟩ := underWay
  obtain ⟨made, gate⟩ := before.poll world
  have seen : (pollAll others world now).2.gate.LocksLike
      (vigil.first.replay (vigil.before.amid vigil.after now)) := by
    rw [gate]
    refine (alike.replay _).trans ?_
    rw [← Gate.replay_append]
    exact .of_mem_iff _ fun entry => Gate.mem_append_due_iff_mem_amid
  obtain ⟨task', polled, still⟩ := watches.poll seen.lockout_eq
  obtain ⟨madeAfter, gateAfter⟩ := after.poll (pollAll others world now).2
  refine ⟨_, task', _, (pollAll rest (pollAll others world now).2 now).2, ?_, made, still,
    madeAfter, ?_⟩
  · rw [pollAll_append]
    simp only [pollAll, polled]
  · rw [gateAfter]
    refine (seen.replay _).trans ?_
    rw [← Gate.replay_append]
    exact .of_mem_iff _ fun entry => Gate.mem_amid_append_due_iff

theorem Watches.pass {task : Task} (watches : vigil.Watches now task) (later : now ≤ wake)
    (none : ∀ due, task.wake? = some due → wake ≤ due) : vigil.Watches wake task := by
  cases watches with
  | yet early => exact .yet (none _ rfl)
  | asleep early stop locked => exact .asleep (none _ rfl) stop locked
  | ended past isOver => exact .ended (Nat.lt_of_lt_of_le past later) isOver

/-- Until one of them wakes only pruners do something. -/
theorem IsUnderWay.pass {others rest : List Task} {task : Task} {world : World}
    (underWay : vigil.IsUnderWay now others task rest world) (later : now ≤ wake)
    (none : NoneBefore (others ++ task :: rest) wake) (tick : Instant) :
    vigil.IsUnderWay wake others task rest (world.runPruners tick) := by
  obtain ⟨before, watches, after, alike⟩ := underWay
  obtain ⟨makes, same⟩ := before.pass later fun other member =>
    none other (List.mem_append_left _ member)
  obtain ⟨makesAfter, sameAfter⟩ := after.pass later fun other member =>
    none other (List.mem_append_right _ (List.mem_cons_of_mem task member))
  refine ⟨makes, watches.pass later ?_, makesAfter, ?_⟩
  · exact none task (List.mem_append_right _ List.mem_cons_self)
  · rw [← same, ← sameAfter]
    exact (locksLike_runPruners world tick).trans alike

theorem IsUnderWay.wake_mem_stops {others rest : List Task} {task : Task} {world : World}
    (underWay : vigil.IsUnderWay now others task rest world)
    (next : nextWake? (others ++ task :: rest) = some wake) : wake ∈ vigil.stops := by
  obtain ⟨sleeper, member, waits⟩ := exists_of_nextWake? next
  have made : ∀ entry ∈ vigil.before ++ vigil.after, entry.1 ∈ vigil.stops := fun entry member =>
    List.mem_toFinset.2 (List.mem_cons_of_mem _ (List.mem_cons_of_mem _
      (List.mem_append_left _ (List.mem_map_of_mem member))))
  rcases List.mem_append.1 member with earlier | later
  · obtain ⟨entry, present, rfl⟩ := underWay.before.wakes earlier waits
    exact made entry (List.mem_append_left _ present)
  · rcases List.mem_cons.1 later with rfl | later
    · cases underWay.watches with
      | yet early =>
        cases waits
        exact List.mem_toFinset.2 List.mem_cons_self
      | asleep early stop locked =>
        cases waits
        exact stop
      | ended past isOver => cases waits
    · obtain ⟨entry, present, rfl⟩ := underWay.after.wakes later waits
      exact made entry (List.mem_append_right _ present)

/-- When nobody wakes any more the wait is over, and the task still stands behind those who go on
before it. -/
theorem IsUnderWay.result {others rest : List Task} {task : Task} {world : World}
    (underWay : vigil.IsUnderWay now others task rest world)
    (rests : nextWake? (others ++ task :: rest) = none) :
    ∃ ended, vigil.IsOverAt ended ∧
      (others ++ task :: rest)[vigil.before.length]? = some (.done
        (.waited (ended.since vigil.begun) (ended.since vigil.begun)) ended) := by
  have last := wake?_eq_none_of_nextWake? rests (List.mem_append_right _ List.mem_cons_self)
  have place : vigil.before.length = others.length := underWay.before.length_eq
  rw [place, List.getElem?_append_right (Nat.le_refl _), Nat.sub_self, List.getElem?_cons_zero]
  cases underWay.watches with
  | yet early | asleep early stop locked => cases last
  | ended past isOver => exact ⟨_, isOver, rfl⟩

/-- At a stop of the clock all of them are under way. -/
def Sound (vigil : Vigil) (tasks : List Task) (session : Session) : Prop :=
  ∃ others task rest, tasks = others ++ task :: rest ∧
    vigil.IsUnderWay session.now others task rest session.world

theorem Sound.next {tasks : List Task} {session : Session} (sound : vigil.Sound tasks session)
    (next : nextWake? (pollAll tasks session.world session.now).1 = some wake) :
    wake ∈ vigil.stops ∧ vigil.Sound (pollAll tasks session.world session.now).1
      ⟨wake, (pollAll tasks session.world session.now).2.runPruners (wake - 1)⟩ := by
  obtain ⟨others, task, rest, rfl, underWay⟩ := sound
  have later := lt_of_nextWake?_pollAll next
  obtain ⟨others, task, rest, world, polled, underWay⟩ := underWay.poll
  rw [polled] at next ⊢
  exact ⟨underWay.wake_mem_stops next, others, task, rest, rfl,
    underWay.pass later (noneBefore_of_nextWake? next) (wake - 1)⟩

/-- With enough moves of the clock the wait comes to its end. -/
theorem Sound.exists_result {fuel : Nat} {tasks : List Task} {session : Session}
    (sound : vigil.Sound tasks session)
    (enough : 2 * (vigil.before ++ vigil.after).length + 3 < fuel) :
    ∃ ended, vigil.IsOverAt ended ∧
      (drive fuel tasks session).1[vigil.before.length]? = some (.done
        (.waited (ended.since vigil.begun) (ended.since vigil.begun)) ended) := by
  have few : (vigil.stops.filter (session.now < ·)).card < fuel :=
    Nat.lt_of_le_of_lt (Nat.le_trans (Finset.card_filter_le _ _) vigil.card_stops_le) enough
  obtain ⟨before, last, ⟨others, task, rest, rfl, underWay⟩, drives, rests⟩ :=
    drive_settles vigil.Sound vigil.stops (fun _ _ _ => Sound.next) sound few
  obtain ⟨others, task, rest, world, polled, underWay⟩ := underWay.poll
  rw [drives, polled] at rests ⊢
  exact underWay.result rests

/-- The wait is sound when it and the plans of the others are still to come. -/
theorem sound_of_ahead {session : Session} (first : session.world.gate = vigil.first)
    (begins : session.now ≤ vigil.begun)
    (ahead : ∀ entry ∈ vigil.before ++ vigil.after, session.now ≤ entry.1) :
    vigil.Sound (vigil.before.map Task.planned ++
      .delayed vigil.begun .awaitLockout :: vigil.after.map Task.planned) session := by
  have aheadBefore : ∀ entry ∈ vigil.before, session.now ≤ entry.1 := fun entry member =>
    ahead entry (List.mem_append_left _ member)
  have aheadAfter : ∀ entry ∈ vigil.after, session.now ≤ entry.1 := fun entry member =>
    ahead entry (List.mem_append_right _ member)
  refine ⟨_, _, _, rfl, makesAll_planned aheadBefore, .yet begins, makesAll_planned aheadAfter, ?_⟩
  rw [filter_eq_nil_of_ahead aheadBefore, filter_eq_nil_of_ahead aheadAfter, first]
  exact ⟨rfl, rfl⟩

end Vigil

/-- A task waits for the end of the lockout from any instant on, and others make events happen
meanwhile, at any instants of theirs, whatever the gate knows and whatever pruners do. The wait
ends, never while the lockout is on, and what the task gives as its length is the time that passed.
If the lockout is off when the wait begins it ends at once. Else it ends at the first whole
millisecond at or after the end of the lockout, as that stands when the wait ends, though not before
the task looks again for the first time (`Lockout.releaseAt`). For a wait that begins at a whole
microsecond that is no later than the end of the lockout: it ends exactly there, and the lockout is
on at every whole millisecond before. For any other it may be up to a millisecond later. -/
theorem drive_awaitLockout (session : Session) (before after : Gate.History) {begun : Instant}
    (begins : session.now ≤ begun)
    (ahead : ∀ entry ∈ before ++ after, session.now ≤ entry.1)
    (began : session.world.gate.lockout.origin ≤ begun)
    (inRange : (session.world.gate.replay (before ++ after)).lockout.stop.ceilMillis ≤
      Instant.latest) {fuel : Nat}
    (enough : mostMoves (before.length + after.length + 1)
      session.world.exchange.wire.replies.length ≤ fuel) :
    let lockoutAt : Instant → Lockout := session.world.gate.lockoutAmid before after
    let wakesAt := (lockoutAt begun).releaseAt begun
    let tasks :=
      before.map Task.planned ++ .delayed begun .awaitLockout :: after.map Task.planned
    ∃ ended : Instant,
      (drive fuel tasks session).1[before.length]? =
        some (.done (.waited (ended.since begun) (ended.since begun)) ended) ∧
      begun ≤ ended ∧
      (lockoutAt ended).isActive ended = false ∧
      ((lockoutAt begun).isActive begun = false → ended = begun) ∧
      ((lockoutAt begun).isActive begun = true →
        ended = max wakesAt (lockoutAt ended).stop.ceilMillis ∧
        ended ≤ (lockoutAt ended).stop.ceilMillis + Duration.millisecond ∧
        (Duration.microsecond ∣ begun → ended = (lockoutAt ended).stop.ceilMillis)) ∧
      ∀ instant : Instant, instant.IsWhole → begun ≤ instant → instant < ended →
        Duration.microsecond ∣ begun ∨ instant < (lockoutAt begun).stop ∨ wakesAt ≤ instant →
        (lockoutAt instant).isActive instant = true := by
  intro lockoutAt wakesAt tasks
  let vigil : Vigil := ⟨session.world.gate, before, after, begun, began, inRange⟩
  have sound : vigil.Sound tasks session := vigil.sound_of_ahead rfl begins ahead
  have allowed : 2 * (before ++ after).length + 3 < fuel := by
    refine Nat.lt_of_lt_of_le (Nat.lt_of_le_of_lt (Nat.le_of_eq ?_) (two_mul_lt_mostMoves _ _))
      enough
    rw [List.length_append]
    omega
  obtain ⟨ended, isOver, result⟩ := sound.exists_result allowed
  refine ⟨ended, result, isOver.begun_le, isOver.off, isOver.eq_begun,
    fun active => ⟨isOver.eq_max active, isOver.le_stop active, isOver.eq_stop active⟩,
    fun instant whole after before known => isOver.locked instant whole after before ?_⟩
  rcases known with wholeBegun | known
  · -- From a whole microsecond on the first sleep goes past no whole millisecond.
    refine (Nat.lt_or_ge instant (lockoutAt begun).stop).imp id fun late => ?_
    rcases Nat.lt_or_ge begun (lockoutAt begun).stop with early | ended
    · exact (vigil.wakesAt_eq_stop wholeBegun early).trans_le ((whole.ceilMillis_le_iff _).2 late)
    · exact (Lockout.releaseAt_of_le ended).trans_le after
  · exact known

/-- A session whose gate has just been locked for a second. -/
def lockedForOneSecond : Session :=
  ⟨0, (ofGate Gate.defaultFallback []).world.apply (.trigger (.ofSeconds 1)) 0⟩

/-- After half a second the lockout is extended. -/
def extending : Gate.History := [(Duration.ofMillis 500, .trigger (.ofSeconds 2))]

/-- One lockout is over sooner than the present one, and another is asked for when that is over. -/
def asking : Gate.History :=
  [(Duration.ofSeconds 1, .trigger (.ofMillis 200)),
    (Duration.ofMillis 2500, .trigger (.ofSeconds 1))]

/-- The wait of a task that begins between two milliseconds goes on through the extension, to the
end of the lockout. The lockout that is over sooner does not keep it, and neither does the one that
is asked for just after it has come to its end. Without the extension it would have gone on to a
millisecond after the end. -/
theorem waits_through_extension :
    let session := lockedForOneSecond
    let lockoutAt := session.world.gate.lockoutAmid extending asking
    (drive 288 (extending.map Task.planned ++ .delayed 300 .awaitLockout ::
        asking.map Task.planned) session).1[1]? =
      some (.done (.waited 2499999700 2499999700) (Duration.ofMillis 2500)) ∧
    (lockoutAt 300).releaseAt 300 = Duration.ofMillis 1001 ∧
    ∀ instant : Instant, instant.IsWhole → Duration.ofMillis 1001 ≤ instant →
      instant < Duration.ofMillis 2500 → (lockoutAt instant).isActive instant = true := by
  intro session lockoutAt
  have result : (drive 288 (extending.map Task.planned ++ .delayed 300 .awaitLockout ::
      asking.map Task.planned) session).1[1]? =
        some (.done (.waited 2499999700 2499999700) (Duration.ofMillis 2500)) := by cbv
  have wakes : (lockoutAt 300).releaseAt 300 = Duration.ofMillis 1001 := by decide +kernel
  obtain ⟨ended, same, -, -, -, -, locked⟩ :=
    drive_awaitLockout session extending asking (Nat.zero_le 300)
      (fun entry _ => Nat.zero_le entry.1) (Nat.zero_le 300) (by decide +kernel) (Nat.le_refl 288)
  have ends : Duration.ofMillis 2500 = ended := by
    have done := Option.some.inj (result.symm.trans same)
    simp only [Task.done.injEq] at done
    exact done.2
  refine ⟨result, wakes, fun instant whole after before => ?_⟩
  exact locked instant whole (Nat.le_trans (by decide) after) (ends ▸ before)
    (.inr (.inr (wakes.trans_le after)))

/-- A wait does not always end at the first whole millisecond at or after the end of the lockout. If
it begins between two microseconds it may go on for a millisecond more. And it ends before a lockout
has lasted as long as was asked for, if that is no whole number of microseconds. -/
theorem waits_too_long_or_short :
    let longer := drive 96 [.delayed 300 .awaitLockout] lockedForOneSecond
    let asked := Duration.ofSeconds 1 + 500
    let shorter := drive 288
      [.delayed 0 .awaitLockout, .planned (Duration.ofMillis 500, .trigger asked)]
      lockedForOneSecond
    (longer.1 = [.done (.waited 1000999700 1000999700) (Duration.ofMillis 1001)] ∧
      longer.2.world.gate.lockout.stop.ceilMillis = Duration.ofMillis 1000) ∧
    shorter.1[0]? = some (.done (.waited 1500000000 1500000000) (Duration.ofMillis 1500)) ∧
      Duration.ofMillis 1500 < Duration.ofMillis 500 + asked := by
  exact ⟨⟨by cbv, by cbv⟩, by cbv, by decide⟩

end Session

end QuotaGate
