import Mathlib
import QuotaGate.Proofs.Session.Instants

/-!
# Waiters disturb nobody

A waiter is a task that asks for admission, or sleeps, and does nothing else. It looks at the gate
and never changes it. Its timers make the clock stop more often, but a look at a session at an
instant that nobody else waits for changes nothing. So the other tasks of a session do not notice
whether there are waiters, and no waiter notices another one.

The clock of a session polls every task whenever it stops. What if the tasks are polled in another
order, or some of them are dropped on the way? A `Company` is a session in which anyone may come,
be polled or leave at any moment, as long as no timer is passed over. What the others do there is
what they do if every step of the waiters is left out.

Results:
1. `IsWaiter.poll`: a waiter leaves the shared state alone.
2. `stateAt_others`: without its waiters a session is in the same state at every instant.
3. `Company.Follows.without`: without the steps of the waiters a schedule leads to the same state.
4. `waiters_disturb_nobody`: both in one statement.
-/

namespace QuotaGate.Session

/-! ## Waiters -/

/-- An action that only waits. -/
inductive Action.IsWait : Action → Prop
  | sleep (length : Duration) : IsWait (.sleep length)
  | acquire (route : RouteKey) (longest : Option Duration) : IsWait (.acquire route longest)
  | tryAcquire (route : RouteKey) : IsWait (.tryAcquire route)
  | awaitLockout : IsWait .awaitLockout
  | awaitBucket (route : RouteKey) : IsWait (.awaitBucket route)

/-- A task that only waits, or is done. -/
inductive Task.IsWaiter : Task → Prop
  | delayed (wake : Instant) {action : Action} : action.IsWait → IsWaiter (.delayed wake action)
  | asleep (wake : Instant) : IsWaiter (.asleep wake)
  | acquiring (acquisition : Acquisition) (since : Instant) :
      IsWaiter (.acquiring acquisition since)
  | lockedOut (wake since : Instant) : IsWaiter (.lockedOut wake since)
  | awaitingReset (wake : Instant) (announced : Duration) (since : Instant) :
      IsWaiter (.awaitingReset wake announced since)
  | done (result : Result) (finishedAt : Instant) : IsWaiter (.done result finishedAt)

namespace Task.IsWaiter

theorem advance {task : Task} (waiter : task.IsWaiter) (world : World) (now : Instant) :
    (task.advance world now).1.IsWaiter ∧ (task.advance world now).2 = world := by
  cases waiter with
  | delayed wake waits => exact ⟨.delayed wake waits, rfl⟩
  | asleep wake =>
    refine ⟨?_, rfl⟩
    rw [Task.advance]
    split
    · exact .done _ _
    · exact .asleep wake
  | acquiring acquisition since =>
    rw [Task.advance]
    split
    · exact ⟨.done _ _, rfl⟩
    · exact ⟨.acquiring _ since, rfl⟩
  | lockedOut wake since =>
    rw [Task.advance]
    split
    · split
      · exact ⟨.lockedOut _ since, rfl⟩
      · exact ⟨.done _ _, rfl⟩
    · exact ⟨.lockedOut wake since, rfl⟩
  | awaitingReset wake announced since =>
    refine ⟨?_, rfl⟩
    rw [Task.advance]
    split
    · exact .done _ _
    · exact .awaitingReset wake announced since
  | done result finishedAt => exact ⟨.done result finishedAt, rfl⟩

theorem begin {action : Action} (waits : action.IsWait) (world : World) (now : Instant) :
    (Task.begin action world now).1.IsWaiter ∧ (Task.begin action world now).2 = world := by
  cases waits with
  | sleep length => exact ⟨.asleep _, rfl⟩
  | acquire route longest => exact ⟨.acquiring _ now, rfl⟩
  | tryAcquire route => exact ⟨.done _ now, rfl⟩
  | awaitLockout => exact ⟨.lockedOut now now, rfl⟩
  | awaitBucket route => exact ⟨.awaitingReset _ _ now, rfl⟩

/-- A waiter leaves the shared state alone, and stays a waiter. -/
theorem poll {task : Task} (waiter : task.IsWaiter) (world : World) (now : Instant) :
    (task.poll world now).1.IsWaiter ∧ (task.poll world now).2 = world := by
  cases waiter with
  | delayed wake waits =>
    rw [Task.poll]
    split
    · obtain ⟨begun, same⟩ := begin waits world now
      obtain ⟨advanced, still⟩ := begun.advance (Task.begin _ world now).2 now
      exact ⟨advanced, still.trans same⟩
    · exact ⟨.delayed wake waits, rfl⟩
  | asleep wake => exact advance (.asleep wake) world now
  | acquiring acquisition since => exact advance (.acquiring acquisition since) world now
  | lockedOut wake since => exact advance (.lockedOut wake since) world now
  | awaitingReset wake announced since =>
    exact advance (.awaitingReset wake announced since) world now
  | done result finishedAt => exact advance (.done result finishedAt) world now

end Task.IsWaiter

/-! ## Without the waiters the clock finds the same -/

/-- The tasks that stand at no guest's place. -/
def others : List Bool → List Task → List Task
  | [], tasks => tasks
  | _ :: _, [] => []
  | true :: guests, _ :: tasks => others guests tasks
  | false :: guests, task :: tasks => task :: others guests tasks

/-- Every task that stands at a guest's place is a waiter. -/
def AreWaiters : List Bool → List Task → Prop
  | [], _ => True
  | _ :: _, [] => True
  | true :: guests, task :: tasks => task.IsWaiter ∧ AreWaiters guests tasks
  | false :: guests, _ :: tasks => AreWaiters guests tasks

theorem mem_of_mem_others {guests : List Bool} {tasks : List Task} {task : Task}
    (member : task ∈ others guests tasks) : task ∈ tasks := by
  induction tasks generalizing guests with
  | nil =>
    rcases guests with _ | ⟨_ | _, guests⟩ <;> exact member
  | cons first rest ih =>
    rcases guests with _ | ⟨_ | _, guests⟩
    · exact member
    · rcases List.mem_cons.1 member with rfl | later
      · exact List.mem_cons_self
      · exact List.mem_cons_of_mem first (ih later)
    · exact List.mem_cons_of_mem first (ih member)

theorem pollAll_others {guests : List Bool} {tasks : List Task} (waiters : AreWaiters guests tasks)
    (world : World) (now : Instant) :
    pollAll (others guests tasks) world now =
        (others guests (pollAll tasks world now).1, (pollAll tasks world now).2) ∧
      AreWaiters guests (pollAll tasks world now).1 := by
  induction tasks generalizing guests world with
  | nil => rcases guests with _ | ⟨_ | _, guests⟩ <;> exact ⟨rfl, waiters⟩
  | cons first rest ih =>
    rcases guests with _ | ⟨_ | _, guests⟩
    · exact ⟨rfl, trivial⟩
    · obtain ⟨same, still⟩ := ih waiters (first.poll world now).2
      refine ⟨?_, still⟩
      simp only [others, pollAll, same]
    · obtain ⟨waiter, remaining⟩ := waiters
      obtain ⟨polled, alone⟩ := waiter.poll world now
      obtain ⟨same, still⟩ := ih remaining world
      simp only [others, pollAll, alone]
      exact ⟨same, polled, still⟩

/-- Without its waiters a session is in the same state at every instant. -/
theorem stateAt_others {guests : List Bool} {tasks : List Task}
    (waiters : AreWaiters guests tasks) (limit : Instant) (session : Session) :
    stateAt limit (others guests tasks) session =
      (others guests (stateAt limit tasks session).1, (stateAt limit tasks session).2) := by
  obtain ⟨same, still⟩ := pollAll_others waiters session.world session.now
  rw [stateAt_eq_resume, stateAt_eq_resume, same]
  dsimp only
  generalize polled : pollAll tasks session.world session.now = state at *
  have waits : ∀ task ∈ others guests state.1, task.Waits session.now := by
    intro task member
    rw [← polled] at member
    exact waits_of_mem_pollAll (mem_of_mem_others member)
  cases next : nextWake? state.1 with
  | none =>
    have alone : nextWake? (others guests state.1) = none := by
      rw [nextWake?, List.filterMap_eq_nil_iff.2, List.min?_nil]
      exact fun task member => wake?_eq_none_of_nextWake? next (mem_of_mem_others member)
    simp only [resume, next, alone]
  | some wake =>
    have early : NoneBefore (others guests state.1) wake := fun task member =>
      noneBefore_of_nextWake? next task (mem_of_mem_others member)
    have later : session.now < wake := by
      rw [← polled] at next
      exact lt_of_nextWake?_pollAll next
    by_cases inTime : wake ≤ limit
    · -- The clock stops for a waiter, perhaps, and the others do not mind.
      have ends : limit - wake < limit - session.now :=
        Nat.sub_lt_sub_left (Nat.lt_of_lt_of_le later inTime) later
      rw [← stateAt_of_waits waits early inTime, stateAt_others still]
      simp only [resume, next, inTime, if_true]
    · simp only [resume, next, inTime, if_false]
      cases found : nextWake? (others guests state.1) with
      | none => rfl
      | some other =>
        obtain ⟨task, member, wakes⟩ := exists_of_nextWake? found
        have tooLate : ¬other ≤ limit := fun inTime' =>
          inTime (Nat.le_trans (early task member other wakes) inTime')
        simp only [tooLate, if_false]
termination_by limit - session.now

/-- Once all are done, the others have done without the waiters what they did with them, and the
shared state is the same from then on. -/
theorem drive_others {guests : List Bool} {tasks : List Task} (waiters : AreWaiters guests tasks)
    (session : Session) {fuel less : Nat}
    (done : ∀ task ∈ (drive fuel tasks session).1, task.result?.isSome)
    (alone : ∀ task ∈ (drive less (others guests tasks) session).1, task.result?.isSome) :
    (drive less (others guests tasks) session).1 = others guests (drive fuel tasks session).1 ∧
      ∀ limit, (drive fuel tasks session).2.now ≤ limit →
        (drive less (others guests tasks) session).2.now ≤ limit →
        (drive less (others guests tasks) session).2.world.runPruners limit =
          (drive fuel tasks session).2.world.runPruners limit := by
  have same (limit : Instant) (late : (drive fuel tasks session).2.now ≤ limit)
      (later : (drive less (others guests tasks) session).2.now ≤ limit) :
      ((drive less (others guests tasks) session).1,
          (drive less (others guests tasks) session).2.world.runPruners limit) =
        (others guests (drive fuel tasks session).1,
          (drive fuel tasks session).2.world.runPruners limit) := by
    rw [← stateAt_eq_drive alone later, stateAt_others waiters, stateAt_eq_drive done late]
  refine ⟨?_, fun limit late later => congrArg Prod.snd (same limit late later)⟩
  exact congrArg Prod.fst (same _ (Nat.le_max_left _ _) (Nat.le_max_right _ _))

/-! ## Without the waiters every schedule does the same -/

/-- Tasks that come and go, with the present instant and what they share. -/
structure Company where
  now : Instant
  world : World
  /-- The task at each place that is taken. -/
  tasks : Nat → Option Task

namespace Company

/-- What can happen next. -/
inductive Step where
  /-- A task comes to a place, to begin its action when it is polled. -/
  | come (place : Nat) (action : Action)
  /-- The task at a place goes on as far as the instant allows. -/
  | poll (place : Nat)
  /-- The task at a place is dropped, wherever it is. -/
  | leave (place : Nat)
  /-- The pruners make the ticks that are due by an instant. -/
  | tend (tick : Instant)
  /-- The clock moves on. -/
  | pass (later : Instant)

/-- The same with another task, or none, at a place, and with something else shared. -/
def seat (company : Company) (place : Nat) (task : Option Task) (world : World) : Company :=
  ⟨company.now, world, Function.update company.tasks place task⟩

/-- What each step does. No timer is passed over. -/
inductive Does (company : Company) : Step → Company → Prop
  | come {place : Nat} (action : Action) : company.tasks place = none →
      Does company (.come place action)
        (company.seat place (some (.delayed company.now action)) company.world)
  | poll {place : Nat} {task : Task} : company.tasks place = some task →
      Does company (.poll place)
        (company.seat place (some (task.poll company.world company.now).1)
          (task.poll company.world company.now).2)
  | leave (place : Nat) : Does company (.leave place) (company.seat place none company.world)
  | tend {tick : Instant} : tick ≤ company.now →
      Does company (.tend tick) { company with world := company.world.runPruners tick }
  | pass {later : Instant} : company.now ≤ later →
      (∀ place task wake, company.tasks place = some task → task.wake? = some wake →
        later ≤ wake) →
      Does company (.pass later) { company with now := later }

/-- What a schedule leads to. -/
inductive Follows : Company → List Step → Company → Prop
  | nil (company : Company) : Follows company [] company
  | cons {company middle later : Company} {step : Step} {steps : List Step} :
      company.Does step middle → Follows middle steps later → Follows company (step :: steps) later

theorem Does.unique {company later other : Company} {step : Step} (does : company.Does step later)
    (also : company.Does step other) : later = other := by
  cases does with
  | come action free =>
    cases also
    rfl
  | poll present =>
    cases also with
    | poll found =>
      rw [present] at found
      cases found
      rfl
  | leave place =>
    cases also
    rfl
  | tend past =>
    cases also
    rfl
  | pass ordered timers =>
    cases also
    rfl

/-- A schedule leads to one state at most. -/
theorem Follows.unique {company later other : Company} {steps : List Step}
    (follows : company.Follows steps later) (also : company.Follows steps other) :
    later = other := by
  induction follows with
  | nil company =>
    cases also
    rfl
  | cons does follows ih =>
    cases also with
    | cons doing following =>
      rw [← does.unique doing] at following
      exact ih following

/-! ### Leaving the guests out -/

variable (guests : Nat → Bool)

/-- The company without those at the guests' places. -/
def without (company : Company) : Company :=
  { company with tasks := fun place => if guests place then none else company.tasks place }

/-- Whether a step is about a guest. -/
def Step.isGuest : Step → Bool
  | come place _ | poll place | leave place => guests place
  | tend _ | pass _ => false

/-- All guests only wait. -/
def HasWaiters (company : Company) : Prop :=
  ∀ place task, guests place = true → company.tasks place = some task → task.IsWaiter

/-- Guests come to wait, and for nothing else. -/
def Step.Admits : Step → Prop
  | come place action => guests place = true → action.IsWait
  | poll _ | leave _ | tend _ | pass _ => True

variable {guests}

theorem without_seat_of_guest (company : Company) {place : Nat} (guest : guests place = true)
    (task : Option Task) :
    (company.seat place task company.world).without guests = company.without guests := by
  unfold without seat
  congr 1
  funext other
  by_cases same : other = place
  · simp [same, guest]
  · simp [Function.update_of_ne same]

theorem without_seat_of_other (company : Company) {place : Nat} (other : guests place = false)
    (task : Option Task) (world : World) :
    (company.seat place task world).without guests =
      (company.without guests).seat place task world := by
  unfold without seat
  congr 1
  funext another
  by_cases same : another = place
  · simp [same, other]
  · simp [Function.update_of_ne same]

theorem tasks_without_of_other (company : Company) {place : Nat} (other : guests place = false) :
    (company.without guests).tasks place = company.tasks place :=
  if_neg (Bool.eq_false_iff.1 other)

theorem HasWaiters.seat {company : Company} (waiters : company.HasWaiters guests) {place : Nat}
    {task : Option Task} (world : World)
    (waits : ∀ seated, guests place = true → task = some seated → seated.IsWaiter) :
    (company.seat place task world).HasWaiters guests := by
  intro another seated guest found
  unfold Company.seat at found
  by_cases same : another = place
  · subst same
    simp only [Function.update_self] at found
    exact waits seated guest found
  · simp only [Function.update_of_ne same] at found
    exact waiters another seated guest found

/-- Guests go on waiting. -/
theorem HasWaiters.does {company later : Company} {step : Step}
    (waiters : company.HasWaiters guests) (does : company.Does step later)
    (admits : step.Admits guests) : later.HasWaiters guests := by
  cases does with
  | come action free =>
    refine waiters.seat _ fun seated guest same => ?_
    cases same
    exact .delayed _ (admits guest)
  | @poll place task present =>
    refine waiters.seat _ fun seated guest same => ?_
    cases same
    exact ((waiters place task guest present).poll company.world company.now).1
  | leave place =>
    refine waiters.seat _ fun seated guest same => ?_
    cases same
  | tend past => exact waiters
  | pass ordered timers => exact waiters

/-- A guest's step leaves the others, and what they share, as they are. -/
theorem Does.without_of_guest {company later : Company} {step : Step}
    (does : company.Does step later) (waiters : company.HasWaiters guests)
    (guest : step.isGuest guests = true) : later.without guests = company.without guests := by
  cases does with
  | come action free => exact company.without_seat_of_guest guest _
  | @poll place task present =>
    obtain ⟨-, alone⟩ := (waiters place task guest present).poll company.world company.now
    rw [alone]
    exact company.without_seat_of_guest guest _
  | leave place => exact company.without_seat_of_guest guest _
  | tend past | pass ordered timers => cases guest

/-- Any other step is possible without the guests. -/
theorem Does.without_of_other {company later : Company} {step : Step}
    (does : company.Does step later) (other : step.isGuest guests = false) :
    (company.without guests).Does step (later.without guests) := by
  cases does with
  | @come place action free =>
    rw [company.without_seat_of_other other]
    rw [← company.tasks_without_of_other other] at free
    exact .come action free
  | @poll place task present =>
    rw [company.without_seat_of_other other]
    rw [← company.tasks_without_of_other other] at present
    exact .poll present
  | leave place =>
    rw [company.without_seat_of_other other]
    exact .leave place
  | tend past => exact .tend past
  | pass ordered timers =>
    refine .pass ordered fun place task wake found => timers place task wake ?_
    simp only [Company.without] at found
    split at found
    · cases found
    · exact found

/-- Without the steps of the waiters a schedule leads to the same state, but for the waiters. -/
theorem Follows.without {company later : Company} {steps : List Step}
    (follows : company.Follows steps later) (waiters : company.HasWaiters guests)
    (admits : ∀ step ∈ steps, step.Admits guests) :
    (company.without guests).Follows (steps.filter fun step => !step.isGuest guests)
      (later.without guests) := by
  induction follows with
  | nil company => exact .nil _
  | @cons company middle later step steps does follows ih =>
    have still := waiters.does does (admits step List.mem_cons_self)
    have rest := ih still fun other member => admits other (List.mem_cons_of_mem step member)
    cases guest : step.isGuest guests with
    | true =>
      rw [List.filter_cons_of_neg (by simp [guest]), ← does.without_of_guest waiters guest]
      exact rest
    | false =>
      rw [List.filter_cons_of_pos (by simp [guest])]
      exact .cons (does.without_of_other guest) rest

end Company

/-! ## Waiters disturb nobody -/

/-- Waiters may come with any routes and deadlines, and may be dropped wherever they are: what is
shared is the same without them at every instant, and so are the results of all the others and the
instants at which they come. A deadline that passes for one of them releases nobody else. -/
theorem waiters_disturb_nobody :
    (∀ (guests : List Bool) (tasks : List Task), AreWaiters guests tasks → ∀ session : Session,
      (∀ limit, stateAt limit (others guests tasks) session =
        (others guests (stateAt limit tasks session).1, (stateAt limit tasks session).2)) ∧
      ∀ fuel less, (∀ task ∈ (drive fuel tasks session).1, task.result?.isSome) →
        (∀ task ∈ (drive less (others guests tasks) session).1, task.result?.isSome) →
        (drive less (others guests tasks) session).1 = others guests (drive fuel tasks session).1 ∧
        ∀ limit, (drive fuel tasks session).2.now ≤ limit →
          (drive less (others guests tasks) session).2.now ≤ limit →
          (drive less (others guests tasks) session).2.world.runPruners limit =
            (drive fuel tasks session).2.world.runPruners limit) ∧
    ∀ (guests : Nat → Bool) (company later : Company) (steps : List Company.Step),
      company.HasWaiters guests → (∀ step ∈ steps, step.Admits guests) →
      company.Follows steps later →
      ∀ alone,
        (company.without guests).Follows (steps.filter fun step => !step.isGuest guests) alone ↔
          alone = later.without guests := by
  constructor
  · intro guests tasks waiters session
    refine ⟨fun limit => stateAt_others waiters limit session, fun fuel less done alone => ?_⟩
    exact drive_others waiters session done alone
  · intro guests company later steps waiters admits follows alone
    have same := follows.without waiters admits
    constructor
    · exact fun also => also.unique same
    · rintro rfl
      exact same

/-! ### A deadline that passes for one of two waiters -/

def refillingRoute : RouteKey := ⟨.get, "a"⟩

/-- One request in two seconds, and it has been made. -/
def spentReport : Report where
  bucket := some "b"
  limit := some 1
  remaining := some 0
  reset := none
  resetAfter := some (Duration.ofSeconds 2)
  retryAfter := none
  scope := none

def refilling : Session where
  now := 0
  world := {
    exchange := ⟨(Gate.new 0 0).apply (.record refillingRoute spentReport) 0, .ofReplies []⟩
    pruners := [] }

/-- The first waits half a second at most, the second as long as it has to. -/
def impatientAndPatient : List Task :=
  [.delayed 0 (.acquire refillingRoute (some (Duration.ofMillis 500))),
    .delayed 0 (.acquire refillingRoute none)]

/-- Nobody is there yet. -/
def emptyCompany : Company := ⟨0, refilling.world, fun _ => none⟩

/-- The first goes to sleep and is dropped while the second locks the gate. -/
def comingAndGoing : List Company.Step :=
  [.come 0 (.acquire refillingRoute none), .poll 0, .come 1 (.trigger Duration.second), .leave 0,
    .poll 1]

/-- The first gives up after half a second. The second is let in when the window ends, as it is when
it waits alone. And who is dropped in its sleep leaves no trace. -/
theorem deadline_of_another :
    (drive 3 impatientAndPatient refilling).1 =
      [.done (.acquired (.error (.timedOut refillingRoute)) (Duration.ofMillis 500))
          (Duration.ofMillis 500),
        .done (.acquired (.ok ()) (Duration.ofSeconds 2)) (Duration.ofSeconds 2)] ∧
    (drive 2 (others [true] impatientAndPatient) refilling).1 =
      others [true] (drive 3 impatientAndPatient refilling).1 ∧
    ∃ later, emptyCompany.Follows comingAndGoing later ∧
      (emptyCompany.without (· == 0)).Follows
        [.come 1 (.trigger Duration.second), .poll 1] (later.without (· == 0)) := by
  have both : (drive 3 impatientAndPatient refilling).1 =
      [.done (.acquired (.error (.timedOut refillingRoute)) (Duration.ofMillis 500))
          (Duration.ofMillis 500),
        .done (.acquired (.ok ()) (Duration.ofSeconds 2)) (Duration.ofSeconds 2)] := by cbv
  have one : ∀ task ∈ (drive 2 (others [true] impatientAndPatient) refilling).1,
      task.result?.isSome := by
    have ended : (drive 2 (others [true] impatientAndPatient) refilling).1 =
        [.done (.acquired (.ok ()) (Duration.ofSeconds 2)) (Duration.ofSeconds 2)] := by cbv
    simp [ended, Task.result?]
  have waiters : AreWaiters [true] impatientAndPatient := ⟨.delayed 0 (.acquire _ _), trivial⟩
  have follows : ∃ later, emptyCompany.Follows comingAndGoing later :=
    ⟨_, .cons (.come _ rfl) (.cons (.poll rfl) (.cons (.come _ rfl) (.cons (.leave 0)
      (.cons (.poll rfl) (.nil _)))))⟩
  have empty : emptyCompany.HasWaiters (· == 0) := by
    intro place task guest found
    cases found
  have admits : ∀ step ∈ comingAndGoing, step.Admits (· == 0) := by
    simp [comingAndGoing, Company.Step.Admits, Action.IsWait.acquire]
  obtain ⟨later, leads⟩ := follows
  refine ⟨both, ?_, later, leads, ?_⟩
  · refine ((waiters_disturb_nobody.1 [true] impatientAndPatient waiters refilling).2 3 2 ?_ one).1
    simp [both, Task.result?]
  · exact (waiters_disturb_nobody.2 (· == 0) emptyCompany later comingAndGoing empty admits leads
      (later.without (· == 0))).2 rfl

end QuotaGate.Session
