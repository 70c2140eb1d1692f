import QuotaGate.Proofs.Delivery.Moment
import QuotaGate.Proofs.Pruner.Ticks

/-!
# A session at an instant

The clock of a session moves from one instant that a task waits for to the next. Between two of
them only the pruners do something. So there is a state at every instant (`stateAt`), and a look at
the session at an instant that nobody waits for does not change what comes later.

Results:
1. `Task.waits_poll`: a task that was polled waits for instants that are still to come, and until
   then polling it again changes nothing.
2. `stateAt_of_waits`: the clock may stop at any instant before the next one.
3. `stateAt_eq_drive`: once the clock has run until all tasks were done, the state is what it was
   then, but for the pruners.
-/

namespace QuotaGate

/-- What comes before a timer and a deadline. -/
theorem Instant.lt_merge_iff {due instant : Instant} {deadline : Option Instant} :
    (∀ wake, (some due).merge min deadline = some wake → instant < wake) ↔
      instant < due ∧ ¬deadline.any (· ≤ instant) = true := by
  cases deadline with
  | none => simp [Option.merge]
  | some deadline =>
    have merged : (some due).merge min (some deadline) = some (min due deadline) := rfl
    rw [merged, Option.any_some, decide_eq_true_eq, Nat.not_le, ← Nat.lt_min]
    constructor
    · exact fun before => before _ rfl
    · rintro before _ ⟨⟩
      exact before

namespace Admission

theorem step_poll_eq_none (admission : Admission) (gate : Gate) (route : RouteKey)
    (now : Instant) : (admission.poll gate route now).step gate route now = none := by
  cases moved : admission.step gate route now with
  | none => rwa [poll_of_step_eq_none moved]
  | some next =>
    have fewer := rank_lt_of_step moved
    rw [poll_of_step moved]
    exact step_poll_eq_none next gate route now
termination_by admission.rank now

end Admission

namespace Session

/-! ## Tasks that wait -/

/-- A task waits at an instant: what it waits for is still to come, and until then polling it
changes nothing. -/
structure Task.Waits (task : Task) (now : Instant) : Prop where
  later : ∀ wake, task.wake? = some wake → now < wake
  idle : ∀ instant, (∀ wake, task.wake? = some wake → instant < wake) →
    ∀ world, task.poll world instant = (task, world)

namespace Task

/-- Whether a task has yet to begin. -/
def isDelayed : Task → Bool
  | delayed .. => true
  | _ => false

theorem poll_of_begun {task : Task} (begun : task.isDelayed = false) (world : World)
    (now : Instant) : task.poll world now = task.advance world now := by
  cases task with
  | delayed wake action => cases begun
  | _ => rfl

theorem waits_done (result : Result) (finishedAt now : Instant) :
    (done result finishedAt).Waits now where
  later := nofun
  idle _ _ _ := rfl

theorem waits_delayed {wake now : Instant} (action : Action) (early : now < wake) :
    (delayed wake action).Waits now where
  later other same := by
    cases same
    exact early
  idle instant before world := if_neg (Nat.not_le.2 (before wake rfl))

theorem waits_asleep {wake now : Instant} (early : now < wake) : (asleep wake).Waits now where
  later other same := by
    cases same
    exact early
  idle instant before world := by
    rw [poll_of_begun rfl, advance, if_neg (Nat.not_le.2 (before wake rfl))]

theorem waits_lockedOut {wake now : Instant} (since : Instant) (early : now < wake) :
    (lockedOut wake since).Waits now where
  later other same := by
    cases same
    exact early
  idle instant before world := by
    rw [poll_of_begun rfl, advance, if_neg (Nat.not_le.2 (before wake rfl))]

theorem waits_awaitingReset {wake now : Instant} (announced : Duration) (since : Instant)
    (early : now < wake) : (awaitingReset wake announced since).Waits now where
  later other same := by
    cases same
    exact early
  idle instant before world := by
    rw [poll_of_begun rfl, advance, if_neg (Nat.not_le.2 (before wake rfl))]

/-- An acquisition that was polled and has no result waits. -/
theorem waits_acquiring (acquisition : Acquisition) (gate : Gate) {now : Instant}
    (unsettled : (acquisition.poll gate now).result? now = none) (since : Instant) :
    (acquiring (acquisition.poll gate now) since).Waits now := by
  have stuck := acquisition.admission.step_poll_eq_none gate acquisition.route now
  generalize polled : acquisition.poll gate now = next at *
  have admission : next.admission = acquisition.admission.poll gate acquisition.route now := by
    rw [← polled]
    rfl
  rw [← admission] at stuck
  unfold Acquisition.result? at unsettled
  split at unsettled
  · cases unsettled
  · next waiting =>
    split at unsettled
    · cases unsettled
    · next early =>
      obtain ⟨due, found, later⟩ :=
        (Admission.due_of_step_eq_none stuck).resolve_right waiting
      have wake : (acquiring next since).wake? = (some due).merge min next.deadline :=
        Acquisition.wake?_of_waits found
      refine ⟨wake ▸ Instant.lt_merge_iff.2 ⟨later, early⟩, fun instant before world => ?_⟩
      obtain ⟨beforeDue, beforeDeadline⟩ := Instant.lt_merge_iff.1 (wake ▸ before)
      have still : next.poll world.gate instant = next :=
        Acquisition.poll_of_step_eq_none (Admission.step_eq_none_of_lt found beforeDue _ _)
      have none : next.result? instant = none := by
        rw [Acquisition.result?_of_waits found, if_neg beforeDeadline]
      rw [poll_of_begun rfl, advance, still]
      simp only [none]

/-- A delivery that was polled and has no result waits, and its deadline is still to come. -/
theorem waits_delivery {delivery : Delivery} {exchange : Exchange} {now : Instant}
    (running : (delivery.poll exchange now).1.result? = none) :
    (∀ wake, (delivery.poll exchange now).1.wake? = some wake → now < wake) ∧
      ∀ instant, (∀ wake, (delivery.poll exchange now).1.wake? = some wake → instant < wake) →
        ∀ other, (delivery.poll exchange now).1.poll other instant =
          ((delivery.poll exchange now).1, other) := by
  obtain ⟨next, after, ran, -, stuck⟩ := delivery.exists_run exchange now
  simp only [Delivery.poll, ran] at *
  unfold Delivery.expire at running ⊢
  split at running
  · cases running
  · next early =>
    rw [if_neg early]
    obtain ⟨due, found, later⟩ : ∃ due, next.phase.due? = some due ∧ now < due := by
      refine (Delivery.due_of_step_eq_none stuck).resolve_right ?_
      rintro ⟨result, finished⟩
      exact Delivery.result?_eq_none_iff.1 running result finished
    have undue : ¬next.deadline.any (· ≤ now) = true := fun passed =>
      early ⟨by rw [running]; rfl, passed⟩
    rw [Delivery.wake?_eq_merge, found]
    refine ⟨Instant.lt_merge_iff.2 ⟨later, undue⟩, fun instant before other => ?_⟩
    obtain ⟨beforeDue, beforeDeadline⟩ := Instant.lt_merge_iff.1 before
    rw [Delivery.run_of_step_eq_none
      (Delivery.step_eq_none_of_not_due found (Nat.not_le.2 beforeDue))]
    exact congrArg (·, other) (if_neg fun passed => beforeDeadline passed.2)

/-- A task that goes on as far as the instant allows waits there. -/
theorem waits_advance {task : Task} (begun : task.isDelayed = false) (world : World)
    (now : Instant) : (task.advance world now).1.Waits now := by
  cases task with
  | delayed wake action => cases begun
  | done result finishedAt => exact waits_done result finishedAt now
  | asleep wake =>
    rw [advance]
    split
    · exact waits_done _ _ _
    · next early => exact waits_asleep (Nat.not_le.1 early)
  | lockedOut wake since =>
    rw [advance]
    split
    · split
      · next later sleeps => exact waits_lockedOut since (Lockout.lt_of_wakeAt? sleeps)
      · exact waits_done _ _ _
    · next early => exact waits_lockedOut since (Nat.not_le.1 early)
  | awaitingReset wake announced since =>
    rw [advance]
    split
    · exact waits_done _ _ _
    · next early => exact waits_awaitingReset announced since (Nat.not_le.1 early)
  | acquiring acquisition since =>
    rw [advance]
    split
    · exact waits_done _ _ _
    · next unsettled => exact waits_acquiring acquisition world.gate unsettled since
  | delivering delivery since =>
    rw [advance]
    dsimp only
    split
    · exact waits_done _ _ _
    · next running =>
      obtain ⟨later, idle⟩ := waits_delivery running
      refine ⟨later, fun instant before other => ?_⟩
      rw [poll_of_begun rfl, advance, idle instant before]
      simp only [running]
  | answering delivery since =>
    rw [advance]
    dsimp only
    split
    · exact waits_done _ _ _
    · next running =>
      obtain ⟨later, idle⟩ := waits_delivery running
      refine ⟨later, fun instant before other => ?_⟩
      rw [poll_of_begun rfl, advance, idle instant before]
      simp only [running]

theorem isDelayed_begin (action : Action) (world : World) (now : Instant) :
    (begin action world now).1.isDelayed = false := by
  cases action <;> rfl

theorem waits_poll (task : Task) (world : World) (now : Instant) :
    (task.poll world now).1.Waits now := by
  cases task with
  | delayed wake action =>
    rw [poll]
    split
    · exact waits_advance (isDelayed_begin action world now) _ now
    · next early => exact waits_delayed action (Nat.not_le.1 early)
  | asleep wake | acquiring acquisition since | lockedOut wake since
  | awaitingReset wake announced since | delivering delivery since | answering delivery since
  | done result finishedAt => exact waits_advance rfl world now

end Task

/-! ## All tasks of a session -/

theorem waits_of_mem_pollAll {tasks : List Task} {world : World} {now : Instant} {task : Task}
    (member : task ∈ (pollAll tasks world now).1) : task.Waits now := by
  induction tasks generalizing world with
  | nil => cases member
  | cons first rest ih =>
    rcases List.mem_cons.1 member with rfl | later
    · exact first.waits_poll world now
    · exact ih later

/-- No task waits for an instant before this one. -/
def NoneBefore (tasks : List Task) (instant : Instant) : Prop :=
  ∀ task ∈ tasks, ∀ wake, task.wake? = some wake → instant ≤ wake

theorem noneBefore_of_nextWake? {tasks : List Task} {wake : Instant}
    (next : nextWake? tasks = some wake) : NoneBefore tasks wake := by
  intro task member other waits
  exact (List.min?_eq_some_iff.1 next).2 other (List.mem_filterMap.2 ⟨task, member, waits⟩)

theorem exists_of_nextWake? {tasks : List Task} {wake : Instant}
    (next : nextWake? tasks = some wake) : ∃ task ∈ tasks, task.wake? = some wake :=
  List.mem_filterMap.1 (List.min?_mem next)

theorem wake?_eq_none_of_nextWake? {tasks : List Task} (rests : nextWake? tasks = none)
    {task : Task} (member : task ∈ tasks) : task.wake? = none := by
  have empty : tasks.filterMap Task.wake? = [] := List.min?_eq_none_iff.1 rests
  exact List.filterMap_eq_nil_iff.1 empty task member

theorem lt_of_nextWake?_pollAll {tasks : List Task} {world : World} {now wake : Instant}
    (next : nextWake? (pollAll tasks world now).1 = some wake) : now < wake := by
  obtain ⟨task, member, waits⟩ := exists_of_nextWake? next
  exact (waits_of_mem_pollAll member).later wake waits

/-- Tasks that wait change nothing before they wake. -/
theorem pollAll_of_waits {tasks : List Task} {now instant : Instant}
    (waits : ∀ task ∈ tasks, task.Waits now)
    (early : ∀ task ∈ tasks, ∀ wake, task.wake? = some wake → instant < wake) (world : World) :
    pollAll tasks world instant = (tasks, world) := by
  induction tasks with
  | nil => rfl
  | cons first rest ih =>
    have idle := (waits first List.mem_cons_self).idle instant
      (early first List.mem_cons_self) world
    have others := ih (fun task member => waits task (List.mem_cons_of_mem first member))
      fun task member => early task (List.mem_cons_of_mem first member)
    simp only [pollAll, idle, others]

/-! ## The state at an instant -/

/-- The tasks and what they share once everything that is due up to an instant has happened. -/
def stateAt (limit : Instant) (tasks : List Task) (session : Session) : List Task × World :=
  let polled := pollAll tasks session.world session.now
  match nextWake? polled.1 with
  | none => (polled.1, polled.2.runPruners limit)
  | some wake =>
    if session.now < wake ∧ wake ≤ limit then
      stateAt limit polled.1 ⟨wake, polled.2.runPruners (wake - 1)⟩
    else (polled.1, polled.2.runPruners limit)
termination_by limit - session.now
decreasing_by
  next within => exact Nat.sub_lt_sub_left (Nat.lt_of_lt_of_le within.1 within.2) within.1

/-- Goes on from tasks that have been polled. -/
def resume (limit : Instant) (tasks : List Task) (world : World) : List Task × World :=
  match nextWake? tasks with
  | none => (tasks, world.runPruners limit)
  | some wake =>
    if wake ≤ limit then stateAt limit tasks ⟨wake, world.runPruners (wake - 1)⟩
    else (tasks, world.runPruners limit)

theorem stateAt_eq_resume (limit : Instant) (tasks : List Task) (session : Session) :
    stateAt limit tasks session =
      resume limit (pollAll tasks session.world session.now).1
        (pollAll tasks session.world session.now).2 := by
  rw [stateAt, resume]
  split
  · rfl
  · next wake next =>
    have later := lt_of_nextWake?_pollAll next
    simp only [later, true_and]

/-- The clock may stop before anyone wakes: a look at tasks that wait changes nothing. -/
theorem stateAt_of_waits {tasks : List Task} {now stop limit : Instant}
    (waits : ∀ task ∈ tasks, task.Waits now) (early : NoneBefore tasks stop) (inTime : stop ≤ limit)
    (world : World) :
    stateAt limit tasks ⟨stop, world.runPruners (stop - 1)⟩ = resume limit tasks world := by
  cases next : nextWake? tasks with
  | none =>
    have idle : pollAll tasks (world.runPruners (stop - 1)) stop =
        (tasks, world.runPruners (stop - 1)) := by
      refine pollAll_of_waits waits (fun task member wake found => ?_) _
      rw [wake?_eq_none_of_nextWake? next member] at found
      cases found
    rw [stateAt_eq_resume]
    simp only [idle, resume, next]
    rw [World.runPruners_runPruners world (Nat.le_trans (Nat.sub_le stop 1) inTime)]
  | some wake =>
    obtain ⟨task, member, found⟩ := exists_of_nextWake? next
    rcases Nat.eq_or_lt_of_le (early task member wake found) with rfl | later
    · simp only [resume, next, inTime, if_true]
    · have idle := pollAll_of_waits waits (fun task member other found =>
        Nat.lt_of_lt_of_le later (noneBefore_of_nextWake? next task member other found))
        (world.runPruners (stop - 1))
      rw [stateAt_eq_resume]
      simp only [idle, resume, next]
      rw [World.runPruners_runPruners world (Nat.sub_le_sub_right (Nat.le_of_lt later) 1),
        World.runPruners_runPruners world (Nat.le_trans (Nat.sub_le stop 1) inTime)]

/-- The results of each step of actions, and the session after it. -/
def performEach (session : Session) :
    List (List (Duration × Action)) → List (List (Result × Instant) × Session)
  | [] => []
  | actions :: rest => session.perform actions :: performEach (session.perform actions).2 rest

/-! ## The clock of a session -/

theorem now_le_drive (fuel : Nat) (tasks : List Task) (session : Session) :
    session.now ≤ (drive fuel tasks session).2.now := by
  induction fuel generalizing tasks session with
  | zero => exact Nat.le_refl _
  | succ fuel ih =>
    simp only [drive]
    split
    · exact Nat.le_refl _
    · next wake next =>
      have onwards := ih (pollAll tasks session.world session.now).1
        ⟨wake, (pollAll tasks session.world session.now).2.runPruners (wake - 1)⟩
      exact Nat.le_trans (Nat.le_of_lt (lt_of_nextWake?_pollAll next)) onwards

theorem pollAll_of_done {tasks : List Task} (done : ∀ task ∈ tasks, task.result?.isSome)
    (world : World) (now : Instant) : pollAll tasks world now = (tasks, world) := by
  induction tasks with
  | nil => rfl
  | cons first rest ih =>
    have others := ih fun task member => done task (List.mem_cons_of_mem first member)
    have ended := done first List.mem_cons_self
    cases first with
    | done result finishedAt => simp only [pollAll, Task.poll, Task.advance, others]
    | _ => cases ended

theorem nextWake?_of_done {tasks : List Task} (done : ∀ task ∈ tasks, task.result?.isSome) :
    nextWake? tasks = none := by
  rw [nextWake?, List.filterMap_eq_nil_iff.2, List.min?_nil]
  intro task member
  have ended := done task member
  cases task with
  | done result finishedAt => rfl
  | _ => cases ended

/-- Once all tasks are done, time changes nothing but what the pruners do. -/
theorem stateAt_eq_drive {fuel : Nat} {limit : Instant} {tasks : List Task} {session : Session}
    (done : ∀ task ∈ (drive fuel tasks session).1, task.result?.isSome)
    (late : (drive fuel tasks session).2.now ≤ limit) :
    stateAt limit tasks session =
      ((drive fuel tasks session).1, (drive fuel tasks session).2.world.runPruners limit) := by
  induction fuel generalizing tasks session with
  | zero =>
    simp only [drive] at done ⊢
    rw [stateAt_eq_resume, pollAll_of_done done, resume, nextWake?_of_done done]
  | succ fuel ih =>
    rw [stateAt_eq_resume, resume]
    simp only [drive] at *
    cases next : nextWake? (pollAll tasks session.world session.now).1 with
    | none => rfl
    | some wake =>
      simp only [next] at done late ⊢
      rw [if_pos (Nat.le_trans (now_le_drive ..) late)]
      exact ih done late

end Session

end QuotaGate
