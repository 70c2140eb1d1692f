import QuotaGate.Proofs.Admission.Pruning
import QuotaGate.Proofs.Admission.Release
import QuotaGate.Proofs.Delivery.Deadline

/-!
# An acquisition with a deadline

A session that runs one acquisition and nothing else leaves the gate as it is. So the admission
finds the same gate at every look, and it comes, because a lockout ends that nobody extends.

The deadline takes no part in that. At each instant the admission goes on first, and what it waits
for is compared with the deadline only after that. So an admission that comes at the deadline still
counts, and one that would come later ends at the deadline, in whichever of its sleeps it is then.

Results:
1. `Timeline.exists_comes_iff`: at a gate to which nothing happens an admission comes, at one
   instant.
2. `Session.drive_acquiring`: how the clock of a session ends an acquisition.
3. `Session.acquires_by_deadline`: an acquisition with and without a deadline, in one statement.
-/

namespace QuotaGate

/-! ## A gate to which nothing happens -/

namespace Timeline

/-- Every look finds the same gate. -/
def still (gate : Gate) : Timeline := fun _ => gate

theorem exists_clears (gate : Gate) (route : RouteKey) (start : Instant) :
    ∃ look, (still gate).Clears route start look := by
  -- Each look at the lockout comes later than the last one, and none after the end finds it on.
  induction rest : gate.lockout.stop - start using Nat.strongRecOn generalizing start with
  | ind rest ih =>
    cases sleeps : gate.lockout.wakeAt? start with
    | none => exact ⟨start, .single (.move (Admission.step_eq_some_iff.2 (.isClear sleeps)))⟩
    | some wake =>
      have later := Lockout.lt_of_wakeAt? sleeps
      have before := Lockout.lt_stop_of_isActive (Lockout.isActive_of_wakeAt? sleeps)
      obtain ⟨look, cleared⟩ := ih _ (rest ▸ Nat.sub_lt_sub_left before later) wake rfl
      have asleep : (still gate).Next route (start, .checkingLockout) (start, .lockedOut wake) :=
        .move (Admission.step_eq_some_iff.2 (.isLocked sleeps))
      have awake : (still gate).Next route (start, .lockedOut wake) (wake, .lockedOut wake) :=
        .sleep (Admission.step_eq_none_of_lt rfl later gate route) rfl
      have looks : (still gate).Next route (wake, .lockedOut wake) (wake, .checkingLockout) :=
        .move (Admission.step_eq_some_iff.2 (.looksAgain (Nat.le_refl wake)))
      exact ⟨look, .head asleep (.head awake (.head looks cleared))⟩

/-- An admission comes at one instant, and not at any other. -/
theorem exists_comes_iff (gate : Gate) (route : RouteKey) (start : Instant) :
    ∃ ended, ∀ stop, (still gate).Comes route start stop ↔ stop = ended := by
  obtain ⟨look, cleared⟩ := exists_clears gate route start
  exact ⟨_, fun stop => cleared.comes_iff⟩

/-- Where there is nothing to wait for, an admission comes at once. -/
theorem comes_at_once {gate : Gate} {route : RouteKey} {start : Instant}
    (off : gate.lockout.isActive start = false) (free : gate.registry.waitAt route start = 0) :
    (still gate).Comes route start start := by
  have clear := (gate.lockout.wakeAt?_eq_none_iff start).2 off
  have cleared : (still gate).Clears route start start :=
    .single (.move (Admission.step_eq_some_iff.2 (.isClear clear)))
  have nothing : gate.registry.wakeAt? route start = none := if_pos free
  refine cleared.comes_iff.2 ?_
  show start = (gate.registry.wakeAt? route start).getD start
  rw [nothing, Option.getD_none]

end Timeline

/-! ## An acquisition alone in a session -/

namespace Session

/-- The session at an instant, with its one acquisition done. -/
def acquired (world : World) (result : Except Failure Unit) (since ended : Instant) :
    List Task × Session :=
  ([.done (.acquired result (ended.since since)) ended], ⟨ended, world⟩)

section Acquiring

variable {acquisition : Acquisition} {world : World} {now since : Instant}

/-- An acquisition without a result makes the clock move. -/
theorem drive_of_asleep {wake : Instant} (alone : world.pruners = [])
    (stuck : acquisition.admission.step world.gate acquisition.route now = none)
    (running : acquisition.result? now = none) (waits : acquisition.wake? = some wake)
    (fuel : Nat) :
    drive (fuel + 1) [.acquiring acquisition since] ⟨now, world⟩ =
      drive fuel [.acquiring acquisition since] ⟨wake, world⟩ := by
  have still := Acquisition.poll_of_step_eq_none stuck
  have polled : (Task.acquiring acquisition since).poll world now =
      (.acquiring acquisition since, world) := by
    simp only [Task.poll, Task.advance, still, running]
  rw [drive_of_waits polled waits, World.runPruners_of_alone alone]

/-- An acquisition that has its result ends the session. -/
theorem drive_of_acquired {result : Except Failure Unit}
    (stuck : acquisition.admission.step world.gate acquisition.route now = none)
    (known : acquisition.result? now = some result) (fuel : Nat) :
    drive (fuel + 1) [.acquiring acquisition since] ⟨now, world⟩ =
      acquired world result since now := by
  have still := Acquisition.poll_of_step_eq_none stuck
  refine drive_of_rests ?_ rfl fuel
  simp only [Task.poll, Task.advance, still, known]

/-- A sleep that ends by the deadline is slept through. -/
theorem drive_of_inTime {wake : Instant} (alone : world.pruners = [])
    (stuck : acquisition.admission.step world.gate acquisition.route now = none)
    (waits : acquisition.admission.wake? = some wake)
    (inTime : ∀ stop, acquisition.deadline = some stop → wake ≤ stop) (fuel : Nat) :
    drive (fuel + 1) [.acquiring acquisition since] ⟨now, world⟩ =
      drive fuel [.acquiring acquisition since] ⟨wake, world⟩ := by
  have early : now < wake := Admission.lt_of_step_eq_none stuck waits
  refine drive_of_asleep alone stuck ?_ ?_ fuel
  · rw [Acquisition.result?_of_waits waits, if_neg]
    intro passed
    obtain ⟨stop, dated, expired⟩ := Option.any_eq_true _ _ |>.1 passed
    exact Nat.not_le.2 (Nat.lt_of_lt_of_le early (inTime stop dated)) (of_decide_eq_true expired)
  · rw [Acquisition.wake?_of_waits waits]
    cases dated : acquisition.deadline with
    | none => rfl
    | some stop => exact congrArg some (Nat.min_eq_left (inTime stop dated))

/-- A sleep that ends after the deadline is cut off at the deadline. -/
theorem drive_of_late {wake stop : Instant} (alone : world.pruners = [])
    (stuck : acquisition.admission.step world.gate acquisition.route now = none)
    (waits : acquisition.admission.wake? = some wake) (dated : acquisition.deadline = some stop)
    (early : now ≤ stop) (late : stop < wake) (fuel : Nat) :
    drive (fuel + 2) [.acquiring acquisition since] ⟨now, world⟩ =
      acquired world (.error (.timedOut acquisition.route)) since stop := by
  have expired : ∀ fuel, drive (fuel + 1) [.acquiring acquisition since] ⟨stop, world⟩ =
      acquired world (.error (.timedOut acquisition.route)) since stop := by
    intro fuel
    refine drive_of_acquired (Admission.step_eq_none_of_lt waits late _ _) ?_ fuel
    rw [Acquisition.result?_of_waits waits, dated]
    exact if_pos (decide_eq_true (Nat.le_refl stop))
  rcases Nat.eq_or_lt_of_le early with rfl | before
  · exact expired (fuel + 1)
  · refine (drive_of_asleep alone stuck ?_ ?_ (fuel + 1)).trans (expired fuel)
    · rw [Acquisition.result?_of_waits waits, dated]
      exact if_neg fun passed => Nat.not_le.2 before (of_decide_eq_true passed)
    · rw [Acquisition.wake?_of_waits waits, dated]
      exact congrArg some (Nat.min_eq_right (Nat.le_of_lt late))

end Acquiring

/-- What becomes of an acquisition whose admission comes at `ended`, and when. -/
def outcome (route : RouteKey) (deadline : Option Instant) (ended : Instant) :
    Except Failure Unit × Instant :=
  match deadline with
  | none => (.ok (), ended)
  | some stop => if ended ≤ stop then (.ok (), ended) else (.error (.timedOut route), stop)

theorem outcome_of_le {route : RouteKey} {deadline : Option Instant} {ended : Instant}
    (inTime : ∀ stop, deadline = some stop → ended ≤ stop) :
    outcome route deadline ended = (.ok (), ended) := by
  cases deadline with
  | none => rfl
  | some stop => exact if_pos (inTime stop rfl)

/-- The clock of the session goes along with the admission until it comes or the deadline passes. -/
theorem drive_acquiring {world : World} (alone : world.pruners = []) {route : RouteKey}
    {moment : Instant × Admission} {ended : Instant}
    (leads : (Timeline.still world.gate).Leads route moment (ended, .admitted))
    {deadline : Option Instant} (early : ∀ stop, deadline = some stop → moment.1 ≤ stop)
    (since : Instant) :
    ∃ moves, ∀ fuel,
      drive (fuel + moves + 1) [.acquiring ⟨route, moment.2, deadline⟩ since] ⟨moment.1, world⟩ =
        acquired world (outcome route deadline ended).1 since (outcome route deadline ended).2 := by
  induction leads using Relation.ReflTransGen.head_induction_on with
  | refl =>
    refine ⟨0, fun fuel => ?_⟩
    rw [outcome_of_le early]
    refine drive_of_acquired rfl ?_ fuel
    rw [Acquisition.result?, if_pos rfl]
  | head first rest ih =>
    cases first with
    | @move now admission next moved =>
      obtain ⟨moves, driven⟩ := ih early
      have polled : admission.poll world.gate route now = next.poll world.gate route now :=
        Admission.poll_of_step moved
      refine ⟨moves, fun fuel => (drive_congr ?_ _).trans (driven fuel)⟩
      simp only [Task.poll, Task.advance, Acquisition.poll, polled]
    | @sleep now wake admission stuck waits =>
      let asleep : Acquisition := ⟨route, admission, deadline⟩
      have still : asleep.admission.step world.gate asleep.route now = none := stuck
      have sleeps : asleep.admission.wake? = some wake := waits
      by_cases inTime : ∀ stop, deadline = some stop → wake ≤ stop
      · obtain ⟨moves, driven⟩ := ih inTime
        refine ⟨moves + 1, fun fuel => Eq.trans ?_ (driven fuel)⟩
        exact drive_of_inTime alone still sleeps inTime _
      · simp only [not_forall, Nat.not_le] at inTime
        obtain ⟨stop, rfl, late⟩ := inTime
        have after : wake ≤ ended := Timeline.Leads.le_now rest
        have missed : ¬ended ≤ stop := Nat.not_le.2 (Nat.lt_of_lt_of_le late after)
        refine ⟨1, fun fuel => ?_⟩
        rw [outcome, if_neg missed]
        exact drive_of_late alone still sleeps rfl (early stop rfl) late fuel

/-- A deadline is not over when it is set. -/
theorem le_of_dated {longest : Option Duration} {now stop : Instant}
    (dated : longest.map now.wakeAfter = some stop) : now ≤ stop := by
  obtain ⟨length, -, rfl⟩ := Option.map_eq_some_iff.1 dated
  exact Instant.le_wakeAfter now length

/-- The same for an action that begins now. -/
theorem drive_acquire (session : Session) (alone : session.world.pruners = []) {route : RouteKey}
    {ended : Instant}
    (comes : (Timeline.still session.world.gate).Comes route session.now ended)
    (longest : Option Duration) :
    let deadline := longest.map session.now.wakeAfter
    ∃ moves, ∀ fuel, moves ≤ fuel →
      drive fuel [.delayed session.now (.acquire route longest)] session =
        acquired session.world (outcome route deadline ended).1 session.now
          (outcome route deadline ended).2 := by
  intro deadline
  obtain ⟨moves, driven⟩ := drive_acquiring alone comes (fun _ => le_of_dated) session.now
  refine ⟨moves + 1, fun fuel enough => ?_⟩
  obtain ⟨more, rfl⟩ := Nat.exists_eq_add_of_le' enough
  refine Eq.trans (drive_congr ?_ (more + moves)) (driven more)
  simp only [Task.poll, Nat.le_refl, if_true, Task.begin, Acquisition.begin]

/-- A session that does nothing but acquire a route. Without a deadline the acquisition ends when
its admission comes, which is at one instant. With a deadline it ends so as well if that is by the
deadline, which is a whole millisecond, and otherwise it times out just then. Where there is nothing
to wait for, no deadline is too short. The gate stays as it is. -/
theorem acquires_by_deadline (session : Session) (alone : session.world.pruners = [])
    (route : RouteKey) :
    ∃ ended,
      (∀ stop, (Timeline.still session.world.gate).Comes route session.now stop ↔ stop = ended) ∧
      (∃ moves, ∀ fuel, moves ≤ fuel →
        drive fuel [.delayed session.now (.acquire route none)] session =
          acquired session.world (.ok ()) session.now ended) ∧
      (∀ longest, session.now + longest ≤ Instant.latest →
        let stop := Instant.ceilMillis (session.now + longest)
        ∃ moves, ∀ fuel, moves ≤ fuel →
          drive fuel [.delayed session.now (.acquire route (some longest))] session =
            if ended ≤ stop then acquired session.world (.ok ()) session.now ended
            else acquired session.world (.error (.timedOut route)) session.now stop) ∧
      (session.world.gate.lockout.isActive session.now = false →
        session.world.gate.registry.waitAt route session.now = 0 →
        ∀ longest, ∃ moves, ∀ fuel, moves ≤ fuel →
          drive fuel [.delayed session.now (.acquire route longest)] session =
            acquired session.world (.ok ()) session.now session.now) := by
  obtain ⟨ended, comesIff⟩ := Timeline.exists_comes_iff session.world.gate route session.now
  have comes := (comesIff ended).2 rfl
  refine ⟨ended, comesIff, session.drive_acquire alone comes none, ?_, ?_⟩
  · intro longest near stop
    obtain ⟨moves, driven⟩ := session.drive_acquire alone comes (some longest)
    refine ⟨moves, fun fuel enough => ?_⟩
    rw [driven fuel enough, Option.map_some, Instant.wakeAfter_of_le near]
    by_cases inTime : ended ≤ stop
    · rw [outcome, if_pos inTime, if_pos inTime]
    · rw [outcome, if_neg inTime, if_neg inTime]
  · intro off free longest
    obtain ⟨moves, driven⟩ :=
      session.drive_acquire alone (Timeline.comes_at_once off free) longest
    refine ⟨moves, fun fuel enough => ?_⟩
    rw [driven fuel enough, outcome_of_le fun _ => le_of_dated]

open Duration (ofSeconds ofMillis microsecond)

/-- A session on a gate that is locked for one second and whose bucket is empty for three. -/
def heldSession : Session := ⟨0, ⟨⟨Admission.Moment.heldGate, .ofReplies []⟩, []⟩⟩

/-- The admission sleeps through the lockout and then until the bucket refills. -/
theorem comes_heldSession :
    (Timeline.still heldSession.world.gate).Comes ⟨.get, "a"⟩ 0 (ofSeconds 3) := by
  let timeline := Timeline.still heldSession.world.gate
  have locked : timeline.Next ⟨.get, "a"⟩ (0, .checkingLockout) (0, .lockedOut (ofSeconds 1)) :=
    .move (by decide +kernel)
  have awake : timeline.Next ⟨.get, "a"⟩ (0, .lockedOut (ofSeconds 1))
      (ofSeconds 1, .lockedOut (ofSeconds 1)) := .sleep (by decide +kernel) rfl
  have looks : timeline.Next ⟨.get, "a"⟩ (ofSeconds 1, .lockedOut (ofSeconds 1))
      (ofSeconds 1, .checkingLockout) := .move (by decide +kernel)
  have clear : timeline.Next ⟨.get, "a"⟩ (ofSeconds 1, .checkingLockout)
      (ofSeconds 1, .checkingBucket) := .move (by decide +kernel)
  have cleared : timeline.Clears ⟨.get, "a"⟩ 0 (ofSeconds 1) :=
    .head locked (.head awake (.head looks (.single clear)))
  rw [cleared.comes_iff]
  decide +kernel

/-- A deadline in the middle of a millisecond counts up to the end of it. At the deadline itself the
admission still counts. -/
theorem acquires_by_deadline_held :
    ∃ moves, ∀ fuel, moves ≤ fuel →
      drive fuel [.delayed 0 (.acquire ⟨.get, "a"⟩ (some (ofSeconds 2 + microsecond)))]
          heldSession =
        acquired heldSession.world (.error (.timedOut ⟨.get, "a"⟩)) 0 (ofMillis 2001) ∧
      drive fuel [.delayed 0 (.acquire ⟨.get, "a"⟩ (some (ofSeconds 3)))] heldSession =
        acquired heldSession.world (.ok ()) 0 (ofSeconds 3) := by
  obtain ⟨ended, comesIff, -, bounded, -⟩ := acquires_by_deadline heldSession rfl ⟨.get, "a"⟩
  obtain rfl := (comesIff (ofSeconds 3)).1 comes_heldSession
  obtain ⟨first, late⟩ := bounded (ofSeconds 2 + microsecond) (by decide)
  obtain ⟨second, inTime⟩ := bounded (ofSeconds 3) (by decide)
  refine ⟨max first second, fun fuel enough => ⟨?_, ?_⟩⟩
  · exact (late fuel (Nat.le_trans (Nat.le_max_left first second) enough)).trans
      (if_neg (by decide))
  · exact (inTime fuel (Nat.le_trans (Nat.le_max_right first second) enough)).trans
      (if_pos (by decide))

end Session

end QuotaGate
