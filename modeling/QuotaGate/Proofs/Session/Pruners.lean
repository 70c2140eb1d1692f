import QuotaGate.Proofs.Pruner.Upkeep
import QuotaGate.Proofs.Session.Instants

/-!
# Pruners come on time

A pruner that starts at a whole millisecond, with a period of whole milliseconds, prunes one period
later, two periods later and so on, and at no other instant. So no record is kept that was stale at
its last tick, and none is dropped before it is stale. A pruner that was stopped never comes again.

The one exception is a tick so far away that no instant can hold it. From there on the pruner comes
every thirty years instead, whatever its period is (`prunes_after_thirtyYears`).

Results:
1. `isOnTime_of_runs`: what a pruner has done at any instant, and what is left.
2. `gate_eq_of_stopped`: where all pruners were stopped, time alone changes nothing.
3. `exists_runs_stateAt`, `exists_runs_perform`: what the tasks and pruners of a session do to the
   gate is such an upkeep.
4. `prunes_on_time`: all of it in one statement.
-/

namespace QuotaGate

open Gate (Event)

namespace Upkeep

/-! ## What a pruner has done -/

/-- The pruner at a place, which began at `start`, has pruned `count` times, each time as it should,
and has left out no tick. Nothing is left that was reported before the last tick and was stale
then. -/
structure IsOnTime (upkeep : Upkeep) (place : Nat) (start : Instant) (every grace : Duration)
    (deeds : List Deed) (count : Nat) : Prop where
  made : Deed.made deeds place =
    (List.range count).map fun tick => (Pruner.scheduled start every (tick + 1), .prune grace)
  past : 0 < count → Pruner.scheduled start every count ≤ upkeep.now
  complete : (∀ pruner, upkeep.pruners[place]? = some pruner → pruner.stopped = false) →
    ∀ tick, Pruner.scheduled start every tick < upkeep.now → tick ≤ count
  spared : 0 < count → upkeep.now ≤ Instant.latest → ∀ id bucket,
    upkeep.gate.registry.bucket? id = some bucket →
    bucket.cachedAt < Pruner.scheduled start every count →
    Pruner.scheduled start every count < bucket.resetsAt + grace

theorem isWhole_add {start : Instant} {length : Duration} (wholeStart : start.IsWhole)
    (wholeLength : Instant.IsWhole length) : Instant.IsWhole (start + length) := by
  obtain ⟨starts, rfl⟩ : ∃ starts, start = starts * Duration.millisecond := ⟨_, wholeStart.symm⟩
  obtain ⟨lengths, rfl⟩ : ∃ lengths, length = lengths * Duration.millisecond :=
    ⟨_, wholeLength.symm⟩
  rw [← Nat.add_mul]
  generalize starts + lengths = count
  simp only [Instant.IsWhole, Instant.ceilMillis, Duration.millisecond, Instant, Duration]
  omega

theorem isWhole_scheduled {start : Instant} {every : Duration} (wholeStart : start.IsWhole)
    (wholeEvery : Instant.IsWhole every) (tick : Nat) :
    (Pruner.scheduled start every tick).IsWhole := by
  induction tick with
  | zero => exact wholeStart
  | succ tick ih =>
    rw [Pruner.scheduled, Instant.addSaturating, Instant.add?]
    split
    · exact isWhole_add ih wholeEvery
    · have wholeYears : Instant.IsWhole Duration.thirtyYears := by decide
      exact isWhole_add ih wholeYears

theorem scheduled_mono (start : Instant) (every : Duration) :
    Monotone (Pruner.scheduled start every) :=
  monotone_nat_of_le_succ fun _ => Instant.le_addSaturating _ every

/-- The ticks of an interval that starts at a whole millisecond are due when they should be. -/
theorem iterate_tick_eq_scheduled {start : Instant} {every : Duration} (positive : 0 < every)
    (wholeStart : start.IsWhole) (wholeEvery : Instant.IsWhole every) (tick : Nat) :
    Interval.tick^[tick] ⟨every, positive, start⟩ =
      ⟨every, positive, Pruner.scheduled start every tick⟩ := by
  induction tick with
  | zero => rfl
  | succ tick ih =>
    have wake : Interval.wake ⟨every, positive, Pruner.scheduled start every tick⟩ =
        Pruner.scheduled start every tick := isWhole_scheduled wholeStart wholeEvery tick
    rw [Function.iterate_succ_apply', ih, Interval.tick, wake]
    rfl

section OnTime

variable {upkeep later : Upkeep} {every grace : Duration} {deeds : List Deed}

/-- Whatever happens, a pruner comes on time. -/
theorem isOnTime_of_runs (wholeStart : upkeep.now.IsWhole) (wholeEvery : Instant.IsWhole every)
    (positive : 0 < every) (runs : (upkeep.spawn every grace).Runs deeds later) :
    ∃ count, later.IsOnTime upkeep.pruners.length upkeep.now every grace deeds count := by
  obtain ⟨count, pruner, onTime⟩ := runs.onSchedule (upkeep.onSchedule_spawn positive grace)
  rw [List.nil_append] at onTime
  have instants (tick : Nat) :
      Interval.tickAt (Interval.tick ⟨every, positive, upkeep.now⟩) tick =
        Pruner.scheduled upkeep.now every (tick + 1) := by
    rw [Interval.tickAt, ← Function.iterate_succ_apply,
      iterate_tick_eq_scheduled positive wholeStart wholeEvery]
    exact isWhole_scheduled wholeStart wholeEvery (tick + 1)
  have made := onTime.made
  have past := onTime.past
  have spared := onTime.spared
  simp only [instants] at made past spared
  refine ⟨count, made, fun counted => ?_, fun running tick early => ?_,
    fun counted inRange id bucket known early => ?_⟩
  · obtain ⟨last, rfl⟩ := Nat.exists_eq_succ_of_ne_zero (Nat.ne_of_gt counted)
    exact past last (Nat.lt_succ_self last)
  · refine Nat.le_of_not_lt fun missed => ?_
    obtain ⟨interval, waiting⟩ :=
      Option.isSome_iff_exists.1 (Option.isNone_eq_false_iff.1 (running pruner onTime.seated))
    obtain ⟨rfl, timely⟩ := onTime.waits interval waiting
    have next : later.now ≤ Pruner.scheduled upkeep.now every (count + 1) :=
      Nat.le_trans timely (Nat.le_of_eq (instants count))
    exact Nat.not_le.2 early (Nat.le_trans next (scheduled_mono _ _ missed))
  · obtain ⟨last, rfl⟩ := Nat.exists_eq_succ_of_ne_zero (Nat.ne_of_gt counted)
    refine Nat.lt_of_not_le fun stale => spared last (Nat.lt_succ_self last) id bucket known early
      ⟨?_, stale⟩
    exact Nat.le_trans stale (Nat.le_trans (past last (Nat.lt_succ_self last)) inRange)

/-- A tick drops nothing whose window ended less than the grace ago. -/
theorem resetsAt_add_le_of_dropped {place count : Nat} {start : Instant}
    (onTime : later.IsOnTime place start every grace deeds count) {earlier rest : List Deed}
    {deed : Deed} (split : deeds = earlier ++ deed :: rest) (made : deed.pruner = some place)
    {id : String} {bucket : Bucket}
    (known : (upkeep.gate.replay (earlier.map Deed.entry)).registry.bucket? id = some bucket)
    (dropped : (upkeep.gate.replay ((earlier ++ [deed]).map Deed.entry)).registry.bucket? id =
      none) : bucket.resetsAt + grace ≤ deed.instant := by
  have listed : deed.entry ∈ Deed.made deeds place := by
    rw [split]
    exact List.mem_map_of_mem (List.mem_filter.2 ⟨by simp, by simp [made]⟩)
  rw [onTime.made] at listed
  obtain ⟨tick, -, same⟩ := List.mem_map.1 listed
  have event : deed.event = .prune grace := (congrArg Prod.snd same).symm
  rw [List.map_append, Gate.replay_append, List.map_singleton, Deed.entry, event,
    Gate.replay_cons, Gate.replay_nil, Gate.apply, Registry.bucket?_prune, known] at dropped
  have stale : bucket.isStale grace deed.instant = true := by
    simpa [Option.filter_eq_none_iff] using dropped
  exact ((Registry.isStale_iff bucket grace deed.instant).1 stale).2

end OnTime

/-! ## Pruners that were stopped -/

/-- What time alone does, and stopping the first pruner again. -/
def Idles : Upkeep → Upkeep → Prop :=
  Relation.ReflTransGen fun upkeep later =>
    (∃ deeds, upkeep.Elapses deeds later) ∨ later = upkeep.shutdown

section Stopped

variable {upkeep later : Upkeep}

/-- Where all pruners were stopped, time alone changes nothing. -/
theorem gate_eq_of_stopped (stopped : ∀ pruner ∈ upkeep.pruners, pruner.stopped = true)
    (idles : upkeep.Idles later) :
    later.gate = upkeep.gate ∧ ∀ pruner ∈ later.pruners, pruner.stopped = true := by
  induction idles with
  | refl => exact ⟨rfl, stopped⟩
  | tail _ next ih =>
    obtain ⟨same, still⟩ := ih
    rcases next with ⟨deeds, elapses⟩ | rfl
    · cases elapses with
      | tick present due =>
        have running := Pruner.stopped_of_wake? due
        rw [still _ (List.mem_of_getElem? present)] at running
        cases running
      | pass ordered timers => exact ⟨same, still⟩
    · refine ⟨same, fun pruner member => (mem_shutdown member).elim (fun old => ?_) id⟩
      exact still pruner (List.mem_of_mem_tail old)

/-- Where all others were stopped, stopping the first pruner leaves none that runs. -/
theorem stopped_shutdown (others : ∀ pruner ∈ upkeep.pruners.tail, pruner.stopped = true) :
    ∀ pruner ∈ upkeep.shutdown.pruners, pruner.stopped = true := by
  intro pruner member
  exact (mem_shutdown member).elim (others pruner) id

theorem Next.stopped {place : Nat} {pruner : Pruner} {deeds : List Deed}
    (happens : upkeep.Next deeds later) (present : upkeep.pruners[place]? = some pruner)
    (stopped : pruner.stopped = true) :
    (∃ still, later.pruners[place]? = some still ∧ still.stopped = true) ∧
      ∀ deed ∈ deeds, deed.pruner ≠ some place := by
  cases happens with
  | happen event => exact ⟨⟨pruner, present, stopped⟩, by simp⟩
  | spawn every grace => exact ⟨⟨pruner, getElem?_spawn present every grace, stopped⟩, by simp⟩
  | shutdown =>
    have seated := getElem?_shutdown present
    refine ⟨⟨_, seated, ?_⟩, by simp⟩
    split
    · rfl
    · exact stopped
  | elapse elapses =>
    cases elapses with
    | @tick other ticking found due =>
      have different : other ≠ place := by
        rintro rfl
        rw [present] at found
        cases found
        rw [Pruner.stopped_of_wake? due] at stopped
        cases stopped
      have seated := (getElem?_tick_of_ne different ticking).trans present
      exact ⟨⟨pruner, seated, stopped⟩, by simpa using different⟩
    | pass ordered timers => exact ⟨⟨pruner, present, stopped⟩, by simp⟩

/-- A pruner that was stopped never prunes again, whatever happens. -/
theorem Runs.stopped {place : Nat} {pruner : Pruner} {deeds : List Deed}
    (runs : upkeep.Runs deeds later) (present : upkeep.pruners[place]? = some pruner)
    (stopped : pruner.stopped = true) :
    (∃ still, later.pruners[place]? = some still ∧ still.stopped = true) ∧
      ∀ deed ∈ deeds, deed.pruner ≠ some place := by
  induction runs with
  | refl => exact ⟨⟨pruner, present, stopped⟩, by simp⟩
  | tail _ happens ih =>
    obtain ⟨⟨still, found, ended⟩, before⟩ := ih
    obtain ⟨on, after⟩ := happens.stopped found ended
    exact ⟨on, fun deed member => (List.mem_append.1 member).elim (before deed) (after deed)⟩

end Stopped

end Upkeep

/-! ## The tasks and pruners of a session -/

namespace Session

namespace World

/-- The gate of a world with its pruners. -/
def upkeep (world : World) (now : Instant) : Upkeep := ⟨now, world.gate, world.pruners⟩

theorem upkeep_runPruners (world : World) (now limit later : Instant) :
    (world.runPruners limit).upkeep later =
      { (world.upkeep now).tended limit with now := later } := by
  rw [runPruners_eq]
  rfl

end World

section Runs

variable (world : World) (now : Instant)

/-- Something is done to the gate. -/
theorem runs_apply (event : Event) :
    (world.upkeep now).Runs [⟨none, now, event⟩] ((world.apply event now).upkeep now) :=
  (Upkeep.Next.happen event).runs

theorem exists_runs_step {delivery next : Delivery} {exchange after : Exchange}
    (moved : delivery.step exchange now = some (next, after)) (pruners : List Pruner) :
    ∃ deeds, ((⟨exchange, pruners⟩ : World).upkeep now).Runs deeds
      ((⟨after, pruners⟩ : World).upkeep now) := by
  show ∃ deeds, Upkeep.Runs ⟨now, exchange.gate, pruners⟩ deeds ⟨now, after.gate, pruners⟩
  rcases Delivery.gate_of_step moved with same | ⟨event, changed⟩
  · rw [same]
    exact ⟨[], .refl⟩
  · rw [changed]
    exact ⟨_, (Upkeep.Next.happen event).runs⟩

/-- What a delivery does to the gate as far as the instant allows. -/
theorem exists_runs_poll_delivery (delivery : Delivery) :
    ∃ deeds, (world.upkeep now).Runs deeds
      (World.upkeep { world with exchange := (delivery.poll world.exchange now).2 } now) := by
  refine (@Delivery.run_invariant (fun _ after => ∃ deeds, (world.upkeep now).Runs deeds
      (World.upkeep { world with exchange := after } now)) now ?_ delivery world.exchange
    ⟨[], .refl⟩).1
  rintro delivery next exchange after ⟨deeds, runs⟩ moved
  obtain ⟨more, on⟩ := exists_runs_step now moved world.pruners
  exact ⟨deeds ++ more, runs.trans on⟩

theorem exists_runs_advance (task : Task) :
    ∃ deeds, (world.upkeep now).Runs deeds ((task.advance world now).2.upkeep now) := by
  cases task with
  | delayed wake action | asleep wake | awaitingReset wake announced since
  | done result finishedAt => exact ⟨[], .refl⟩
  | acquiring acquisition since =>
    rw [Task.advance]
    split <;> exact ⟨[], .refl⟩
  | lockedOut wake since =>
    rw [Task.advance]
    split
    · split <;> exact ⟨[], .refl⟩
    · exact ⟨[], .refl⟩
  | delivering delivery since | answering delivery since =>
    rw [Task.advance]
    dsimp only
    split <;> exact exists_runs_poll_delivery world now delivery

theorem exists_runs_begin (action : Action) :
    ∃ deeds, (world.upkeep now).Runs deeds ((Task.begin action world now).2.upkeep now) := by
  cases action with
  | sleep length | acquire route longest | tryAcquire route | awaitLockout | awaitBucket route
  | send route request budget timeout | call client route body => exact ⟨[], .refl⟩
  | observe route report verdict =>
    exact ⟨_, runs_apply world now (.observe route report verdict)⟩
  | record route report => exact ⟨_, runs_apply world now (.record route report)⟩
  | trigger length => exact ⟨_, runs_apply world now (.trigger length)⟩
  | prune grace => exact ⟨_, runs_apply world now (.prune grace)⟩
  | clear => exact ⟨_, runs_apply world now .clear⟩
  | spawnPruner every grace => exact ⟨_, (Upkeep.Next.spawn every grace).runs⟩
  | shutdown => exact ⟨_, Upkeep.Next.shutdown.runs⟩

theorem exists_runs_poll (task : Task) :
    ∃ deeds, (world.upkeep now).Runs deeds ((task.poll world now).2.upkeep now) := by
  cases begun : task.isDelayed with
  | false =>
    rw [Task.poll_of_begun begun]
    exact exists_runs_advance world now task
  | true =>
    cases task with
    | delayed wake action =>
      rw [Task.poll]
      split
      · obtain ⟨deeds, runs⟩ := exists_runs_begin world now action
        obtain ⟨more, on⟩ := exists_runs_advance (Task.begin action world now).2 now
          (Task.begin action world now).1
        exact ⟨deeds ++ more, runs.trans on⟩
      · exact ⟨[], .refl⟩
    | _ => cases begun

theorem exists_runs_pollAll (tasks : List Task) :
    ∃ deeds, (world.upkeep now).Runs deeds ((pollAll tasks world now).2.upkeep now) := by
  induction tasks generalizing world with
  | nil => exact ⟨[], .refl⟩
  | cons task rest ih =>
    obtain ⟨deeds, runs⟩ := exists_runs_poll world now task
    obtain ⟨more, on⟩ := ih (task.poll world now).2
    exact ⟨deeds ++ more, runs.trans on⟩

end Runs

/-- The gate of a session with its pruners. -/
def upkeep (session : Session) : Upkeep := session.world.upkeep session.now

/-- Looking after the pruners, and moving the clock. -/
theorem exists_runs_runPruners {world : World} {now limit later : Instant}
    (current : (world.upkeep now).IsCurrent) (ordered : now ≤ later) (past : limit ≤ later)
    (near : later ≤ limit + 1) :
    ∃ deeds, (world.upkeep now).Runs deeds ((world.runPruners limit).upkeep later) := by
  rw [world.upkeep_runPruners now limit later]
  exact (world.upkeep now).exists_runs_tended current ordered past near

/-- From one stop of the clock to the next. -/
theorem exists_runs_stop {tasks : List Task} {session : Session} {wake : Instant}
    (current : session.upkeep.IsCurrent)
    (next : nextWake? (pollAll tasks session.world session.now).1 = some wake) :
    ∃ deeds, session.upkeep.Runs deeds
      (((pollAll tasks session.world session.now).2.runPruners (wake - 1)).upkeep wake) := by
  have later := lt_of_nextWake?_pollAll next
  obtain ⟨deeds, runs⟩ := exists_runs_pollAll session.world session.now tasks
  obtain ⟨more, on⟩ := exists_runs_runPruners (current.runs runs) (Nat.le_of_lt later)
    (Nat.sub_le wake 1) (Nat.le_add_of_sub_le (Nat.le_refl _))
  exact ⟨deeds ++ more, runs.trans on⟩

/-- What the tasks and pruners of a session do up to an instant. -/
theorem exists_runs_stateAt (limit : Instant) (tasks : List Task) (session : Session)
    (began : session.now ≤ limit) (current : session.upkeep.IsCurrent) :
    ∃ deeds, session.upkeep.Runs deeds ((stateAt limit tasks session).2.upkeep limit) := by
  obtain ⟨polled, polls⟩ := exists_runs_pollAll session.world session.now tasks
  obtain ⟨waited, waits⟩ := exists_runs_runPruners (current.runs polls) began (Nat.le_refl limit)
    (Nat.le_succ limit)
  rw [stateAt_eq_resume, resume]
  split
  · exact ⟨_, polls.trans waits⟩
  · next wake next =>
    split
    · next inTime =>
      have later := lt_of_nextWake?_pollAll next
      have ends : limit - wake < limit - session.now :=
        Nat.sub_lt_sub_left (Nat.lt_of_lt_of_le later inTime) later
      obtain ⟨deeds, runs⟩ := exists_runs_stop current next
      obtain ⟨more, on⟩ := exists_runs_stateAt limit _ ⟨wake, _⟩ inTime (current.runs runs)
      exact ⟨deeds ++ more, runs.trans on⟩
    · exact ⟨_, polls.trans waits⟩
termination_by limit - session.now

theorem exists_runs_drive (fuel : Nat) (tasks : List Task) (session : Session)
    (current : session.upkeep.IsCurrent) :
    ∃ deeds, session.upkeep.Runs deeds (drive fuel tasks session).2.upkeep := by
  induction fuel generalizing tasks session with
  | zero => exact ⟨[], .refl⟩
  | succ fuel ih =>
    simp only [drive]
    split
    · exact exists_runs_pollAll session.world session.now tasks
    · next wake next =>
      obtain ⟨deeds, runs⟩ := exists_runs_stop current next
      obtain ⟨more, on⟩ := ih _ ⟨wake, _⟩ (current.runs runs)
      exact ⟨deeds ++ more, runs.trans on⟩

/-- What the actions and pruners of a session do. -/
theorem exists_runs_perform (session : Session) (actions : List (Duration × Action))
    (current : session.upkeep.IsCurrent) :
    ∃ deeds, session.upkeep.Runs deeds (session.perform actions).2.upkeep := by
  rw [perform]
  generalize actions.map _ = tasks
  generalize mostMoves _ _ = fuel
  obtain ⟨deeds, runs⟩ := exists_runs_drive fuel tasks session current
  obtain ⟨more, on⟩ := exists_runs_runPruners (current.runs runs) (Nat.le_refl _) (Nat.le_refl _)
    (Nat.le_succ _)
  exact ⟨deeds ++ more, runs.trans on⟩

theorem exists_runs_performEach (session : Session) (steps : List (List (Duration × Action)))
    (current : session.upkeep.IsCurrent) :
    ∀ outcome ∈ session.performEach steps, ∃ deeds, session.upkeep.Runs deeds outcome.2.upkeep := by
  induction steps generalizing session with
  | nil => exact fun outcome member => absurd member List.not_mem_nil
  | cons actions rest ih =>
    obtain ⟨deeds, runs⟩ := exists_runs_perform session actions current
    intro outcome member
    rcases List.mem_cons.1 member with rfl | later
    · exact ⟨deeds, runs⟩
    · obtain ⟨more, on⟩ := ih (session.perform actions).2 (current.runs runs) outcome later
      exact ⟨deeds ++ more, runs.trans on⟩

theorem isCurrent_ofGate (fallback : Duration) (replies : List Http.Prepared) :
    (ofGate fallback replies).upkeep.IsCurrent :=
  fun _ member => absurd member List.not_mem_nil

/-- The pruner of a client starts with its session. -/
theorem upkeep_ofSettings (settings : Settings) (replies : List Http.Prepared) :
    (ofSettings settings replies).upkeep =
      (ofGate settings.fallback replies).upkeep.spawn settings.pruneEvery settings.pruneGrace := rfl

theorem isCurrent_ofSettings (settings : Settings) (replies : List Http.Prepared) :
    (ofSettings settings replies).upkeep.IsCurrent := by
  rw [upkeep_ofSettings]
  exact (isCurrent_ofGate settings.fallback replies).next (.spawn _ _)

/-! ## A period that is too long -/

/-- A period that ends after the last instant, whenever it begins. -/
def overlong : Duration := Duration.ofSeconds (2 ^ 63)

def prunedRoute : RouteKey := ⟨.get, "a"⟩

/-- A bucket that is empty for a second. -/
def oneSecondReport : Report where
  bucket := some "b"
  limit := some 5
  remaining := some 0
  reset := none
  resetAfter := some Duration.second
  retryAfter := none
  scope := none

/-- A report, a pruner, and thirty years of sleep. -/
def thirtyYearsAsleep : List (List (Duration × Action)) :=
  [[(0, .record prunedRoute oneSecondReport)], [(0, .spawnPruner overlong 0)],
    [(0, .sleep Duration.thirtyYears)]]

/-- A pruner whose first tick no instant can hold prunes after thirty years, long before its period
is over. -/
theorem prunes_after_thirtyYears :
    (((ofGate 0 []).performEach thirtyYearsAsleep).map fun outcome =>
        (outcome.2.now, outcome.2.world.gate.registry.bucketId? prunedRoute)) =
      [(0, some "b"), (0, some "b"), (Duration.thirtyYears, none)] ∧
    ∀ tick : Nat, 0 < tick → Duration.thirtyYears < 0 + tick * overlong := by
  constructor
  · cbv
  · intro tick counted
    have enough : 1 * overlong ≤ tick * overlong := Nat.mul_le_mul_right overlong counted
    have shorter : Duration.thirtyYears < 1 * overlong := by decide
    rw [Nat.zero_add]
    exact Nat.lt_of_lt_of_le shorter enough

end Session

/-! ## Pruners come on time -/

open Session in
/-- A pruner that starts at a whole millisecond prunes once in each period of whole milliseconds,
never at its start, and never at any other instant. From the first tick on that no instant can hold,
the ticks come every thirty years. So nothing is known that was reported before the last tick and
was stale then, and nothing is dropped by a tick before it is stale. Once it was stopped it never
prunes again, and if no other pruner runs, time changes nothing any more. Whatever happens in a
session happens so. -/
theorem prunes_on_time (upkeep : Upkeep) {every grace : Duration}
    (wholeStart : upkeep.now.IsWhole) (wholeEvery : Instant.IsWhole every) (positive : 0 < every) :
    (∀ tick : Nat, upkeep.now + tick * every ≤ Instant.latest →
      Pruner.scheduled upkeep.now every tick = upkeep.now + tick * every) ∧
    (∀ deeds later, (upkeep.spawn every grace).Runs deeds later →
      later.gate = upkeep.gate.replay (deeds.map Deed.entry) ∧
      deeds.Pairwise (fun earlier later => earlier.instant ≤ later.instant) ∧
      (∃ count, later.IsOnTime upkeep.pruners.length upkeep.now every grace deeds count) ∧
      ∀ earlier deed rest, deeds = earlier ++ deed :: rest →
        deed.pruner = some upkeep.pruners.length → ∀ id bucket,
        (upkeep.gate.replay (earlier.map Deed.entry)).registry.bucket? id = some bucket →
        (upkeep.gate.replay ((earlier ++ [deed]).map Deed.entry)).registry.bucket? id = none →
        bucket.resetsAt + grace ≤ deed.instant) ∧
    (∀ running : Upkeep,
      (running.pruners ≠ [] → ∀ deeds later, running.shutdown.Runs deeds later →
        ∀ deed ∈ deeds, deed.pruner ≠ some 0) ∧
      ((∀ pruner ∈ running.pruners.tail, pruner.stopped = true) → ∀ later,
        running.shutdown.Idles later → later.gate = running.gate)) ∧
    ∀ session : Session, session.upkeep.IsCurrent →
      (∀ limit tasks, session.now ≤ limit →
        ∃ deeds, session.upkeep.Runs deeds ((stateAt limit tasks session).2.upkeep limit)) ∧
      ∀ steps, ∀ outcome ∈ session.performEach steps,
        ∃ deeds, session.upkeep.Runs deeds outcome.2.upkeep := by
  refine ⟨fun tick fits => Pruner.scheduled_of_le fits, fun deeds later runs => ?_,
    fun running => ⟨fun seated deeds later runs => ?_, fun others later idles => ?_⟩,
    fun session current => ⟨fun limit tasks began => ?_, fun steps => ?_⟩⟩
  · obtain ⟨count, onTime⟩ := Upkeep.isOnTime_of_runs wholeStart wholeEvery positive runs
    refine ⟨runs.gate_eq, runs.ordered.2.2, ⟨count, onTime⟩, ?_⟩
    exact fun earlier deed rest split made id bucket known dropped =>
      Upkeep.resetsAt_add_le_of_dropped onTime split made known dropped
  · obtain ⟨first, rest, pruners⟩ := List.exists_cons_of_ne_nil seated
    have present : running.shutdown.pruners[0]? = some first.stop :=
      Upkeep.getElem?_shutdown (by rw [pruners]; rfl)
    exact (runs.stopped present rfl).2
  · exact (Upkeep.gate_eq_of_stopped (Upkeep.stopped_shutdown others) idles).1
  · exact exists_runs_stateAt limit tasks session began current
  · exact exists_runs_performEach session steps current

/-- A bucket that is empty for a second is known. -/
def tidied : Upkeep where
  now := 0
  gate := (Gate.new 0 0).apply (.record Session.prunedRoute Session.oneSecondReport) 0
  pruners := []

/-- A pruner that comes every second drops the bucket when its window ends. Once it was stopped,
nothing happens in the next second. What a client's session does in thirty years is such a run. -/
theorem prunes_after_one_second :
    ∃ deeds later, (tidied.spawn Duration.second 0).Runs deeds later ∧
      (∃ count, later.IsOnTime 0 0 Duration.second 0 deeds count) ∧
      Deed.made deeds 0 = [(Duration.second, .prune 0)] ∧
      tidied.gate.registry.bucketId? Session.prunedRoute = some "b" ∧
      later.gate.registry.bucketId? Session.prunedRoute = none ∧
      (∃ idle, later.shutdown.Idles idle ∧ idle.now = Duration.ofSeconds 2 ∧
        idle.gate = later.gate) ∧
      ∀ outcome ∈ (Session.ofSettings .default []).performEach Session.thirtyYearsAsleep,
        ∃ deeds, (Session.ofSettings .default []).upkeep.Runs deeds outcome.2.upkeep := by
  let began := Pruner.spawn Duration.second 0 0
  let waited : Upkeep := { tidied.spawn Duration.second 0 with now := Duration.second }
  have passes : (tidied.spawn Duration.second 0).Next [] waited := by
    refine .elapse (.pass (Nat.zero_le _) fun pruner member wake wakes => ?_)
    rw [List.mem_singleton.1 member] at wakes
    cases wakes
    decide
  have due : (Pruner.spawn Duration.second 0 0).wake? = some Duration.second := by decide
  have ticks : waited.Next [⟨some 0, waited.now, .prune began.grace⟩] (waited.tick 0 began) :=
    .elapse (.tick rfl due)
  have runs := passes.runs.tail ticks
  have wholeStart : tidied.now.IsWhole := by decide
  have wholeEvery : Instant.IsWhole Duration.second := by decide
  obtain ⟨-, onTime, stopped, sessions⟩ :=
    @prunes_on_time tidied Duration.second 0 wholeStart wholeEvery (by decide)
  let idle : Upkeep := { (waited.tick 0 began).shutdown with now := Duration.ofSeconds 2 }
  have idles : (waited.tick 0 began).shutdown.Idles idle := by
    refine .single (.inl ⟨[], .pass (by decide) fun pruner member wake wakes => ?_⟩)
    rw [List.mem_singleton.1 member] at wakes
    cases wakes
  refine ⟨_, _, runs, (onTime _ _ runs).2.2.1, rfl, by cbv, by cbv, ⟨idle, idles, rfl, ?_⟩, ?_⟩
  · exact (stopped (waited.tick 0 began)).2 (fun pruner member => absurd member List.not_mem_nil)
      idle idles
  · exact (sessions _ (Session.isCurrent_ofSettings .default [])).2 Session.thirtyYearsAsleep

end QuotaGate
