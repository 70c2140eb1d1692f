import QuotaGate.Proofs.Delivery.Convoy
import QuotaGate.Proofs.Delivery.Deadline

/-!
# Deliveries as tasks of a session

A session polls its tasks one after the other, and then moves the clock to the next instant that one
of them waits for. Among tasks of all kinds a task that sends a request does what some run of its
delivery does. If every task sends a request and there are no pruners, the session is a convoy whose
deliveries make their moves in the order of the polls.

Results:
1. `Session.sends_drive`: in any session, a task that sends a request shows a run of its delivery.
2. `Convoy.exists_polled`: polling a task takes the convoy on, and changes no other delivery.
3. `Session.reaches_drive`: so does the clock of the session, whatever the delays of the requests
   are.
-/

namespace QuotaGate

open Session (Task World)

/-- A task that sends a request, and its delivery once that has begun. -/
inductive Session.Task.Shows : Task → Option Delivery → Prop
  | delayed (wake : Instant) (route : RouteKey) (request : Http.Request) (budget : Nat)
      (timeout : Option Duration) :
      Shows (.delayed wake (.send route request budget timeout)) none
  | delivering (delivery : Delivery) (since : Instant) :
      Shows (.delivering delivery since) (some delivery)
  | done {delivery : Delivery} {result : Except Failure Http.Response} (waited : Duration)
      (finishedAt : Instant) : delivery.result? = some result →
      Shows (.done (.delivered result delivery.changes waited) finishedAt) (some delivery)

/-- A delivery is taken as far as the instant allows, and its task shows it. -/
theorem Session.Task.exists_advance_delivering {delivery next : Delivery} {world : World}
    {after : Exchange} {now : Instant} (polled : delivery.poll world.exchange now = (next, after))
    (since : Instant) :
    ∃ task, (delivering delivery since).advance world now = (task, { world with exchange := after }) ∧
      task.Shows (some next) ∧
      ∀ wake, task.wake? = some wake → next.result? = none ∧ next.wake? = some wake := by
  simp only [advance, polled]
  split
  · next result ended =>
    refine ⟨_, rfl, .done _ _ ended, fun wake none => ?_⟩
    exact absurd none (Option.some_ne_none wake).symm
  · next running => exact ⟨_, rfl, .delivering _ _, fun wake waits => ⟨running, waits⟩⟩

/-! ## Among tasks of all kinds -/

/-- What happens to a delivery from moment to moment is a run of it. -/
theorem Delivery.Moment.Leads.exists_runs {moment later : Moment} (leads : moment.Leads later) :
    ∃ journal, moment.delivery.Runs journal later.delivery := by
  induction leads with
  | refl => exact ⟨[], .refl⟩
  | tail _ happens ih =>
    obtain ⟨journal, runs⟩ := ih
    cases happens with
    | move moved => exact ⟨_, runs.move moved⟩
    | prune grace past | pass ordered stuck timers => exact ⟨journal, runs⟩
    | expire stuck => exact ⟨journal, runs.expire stuck⟩

namespace Session

/-- A task that has yet to send a request, or that shows a run of its delivery. -/
inductive Task.Sends (route : RouteKey) (request : Http.Request) (budget : Nat)
    (timeout : Option Duration) : Task → Prop
  | delayed (wake : Instant) :
      Sends route request budget timeout (.delayed wake (.send route request budget timeout))
  | begun {task : Task} {began : Instant} {journal : Delivery.Journal} {delivery : Delivery} :
      (Delivery.begin route request budget timeout began).Runs journal delivery →
      task.Shows (some delivery) → Sends route request budget timeout task

section Sends

variable {route : RouteKey} {request : Http.Request} {budget : Nat} {timeout : Option Duration}

theorem Task.Sends.delivering {began : Instant} {journal : Delivery.Journal} {delivery : Delivery}
    (runs : (Delivery.begin route request budget timeout began).Runs journal delivery)
    (since : Instant) (world : World) (now : Instant) :
    ((Task.delivering delivery since).advance world now).1.Sends route request budget timeout := by
  obtain ⟨next, after, polled, leads, -⟩ := delivery.exists_poll world.exchange now
  obtain ⟨noted, on⟩ := leads.exists_runs
  obtain ⟨task, advanced, shows, -⟩ := Task.exists_advance_delivering polled since
  rw [advanced]
  exact .begun (runs.trans on) shows

theorem Task.Sends.poll {task : Task} (sends : task.Sends route request budget timeout)
    (world : World) (now : Instant) :
    (task.poll world now).1.Sends route request budget timeout := by
  cases sends with
  | delayed wake =>
    rw [Task.poll]
    split
    · exact .delivering .refl now world now
    · exact .delayed wake
  | begun runs shows =>
    cases shows with
    | delivering delivery since => exact .delivering runs since world now
    | done waited finishedAt ended => exact .begun runs (.done waited finishedAt ended)

theorem sends_pollAll {tasks : List Task} {place : Nat} {task : Task}
    (located : tasks[place]? = some task) (sends : task.Sends route request budget timeout)
    (world : World) (now : Instant) :
    ∃ later, (pollAll tasks world now).1[place]? = some later ∧
      later.Sends route request budget timeout := by
  induction tasks generalizing place world with
  | nil => cases located
  | cons first rest ih =>
    cases place with
    | zero =>
      cases located
      exact ⟨_, rfl, sends.poll world now⟩
    | succ place => exact ih located _

/-- Among any tasks, a task that sends a request shows a run of its delivery. -/
theorem sends_drive (fuel : Nat) {tasks : List Task} {place : Nat} {task : Task}
    (located : tasks[place]? = some task) (sends : task.Sends route request budget timeout)
    (session : Session) :
    ∃ later, (drive fuel tasks session).1[place]? = some later ∧
      later.Sends route request budget timeout := by
  induction fuel generalizing tasks task session with
  | zero => exact ⟨task, located, sends⟩
  | succ fuel ih =>
    obtain ⟨polled, found, sending⟩ := sends_pollAll located sends session.world session.now
    simp only [drive]
    split
    · exact ⟨polled, found, sending⟩
    · exact ih found sending _

end Sends

end Session

/-! ## Among deliveries only -/

namespace Convoy

/-- At one instant the delivery at a place moves on, and no other one does. -/
structure Advances (convoy : Convoy) (place : Nat) (next : Delivery) (later : Convoy) : Prop where
  reaches : convoy.Reaches later
  now : later.now = convoy.now
  deliveries : later.deliveries = Function.update convoy.deliveries place (some next)

theorem Advances.refl {convoy : Convoy} {place : Nat} {delivery : Delivery}
    (present : convoy.deliveries place = some delivery) :
    convoy.Advances place delivery convoy :=
  ⟨.refl, rfl, by rw [← present, Function.update_eq_self]⟩

theorem Advances.located {convoy later : Convoy} {place : Nat} {delivery : Delivery}
    (advances : convoy.Advances place delivery later) :
    later.deliveries place = some delivery := by
  rw [advances.deliveries, Function.update_self]

theorem Advances.follow {convoy later : Convoy} {place : Nat} {delivery next : Delivery}
    {after : Exchange} {noted : Delivery.Journal} (advances : convoy.Advances place delivery later)
    (happens : later.Next (later.follow place next after noted)) :
    convoy.Advances place next (later.follow place next after noted) where
  reaches := advances.reaches.tail happens
  now := advances.now
  deliveries := by rw [deliveries_follow, advances.deliveries, Function.update_idem]

/-- A delivery moves on as far as the instant allows. -/
theorem exists_run (convoy : Convoy) {place : Nat} {delivery : Delivery}
    (present : convoy.deliveries place = some delivery) :
    ∃ later next, delivery.run convoy.exchange convoy.now = (next, later.exchange) ∧
      convoy.Advances place next later ∧ next.step later.exchange convoy.now = none := by
  obtain ⟨⟨later, exchange, advances⟩, stuck⟩ := @Delivery.run_invariant
    (fun next after => ∃ later, later.exchange = after ∧ convoy.Advances place next later)
    convoy.now
    (by
      rintro delivery next _ after ⟨later, rfl, advances⟩ moved
      rw [← advances.now] at moved
      exact ⟨_, rfl, advances.follow (.move advances.located moved)⟩)
    delivery convoy.exchange ⟨convoy, rfl, .refl present⟩
  exact ⟨later, _, by rw [exchange], advances, exchange ▸ stuck⟩

/-- What polling the task at a place comes to. -/
structure Polled (convoy : Convoy) (place : Nat) (world : World) (polled : Task × World)
    (later : Convoy) : Prop where
  reaches : convoy.Reaches later
  now : later.now = convoy.now
  world : polled.2 = { world with exchange := later.exchange }
  shown : polled.1.Shows (later.deliveries place)
  others : ∀ other, other ≠ place → later.deliveries other = convoy.deliveries other
  waits : ∀ wake, polled.1.wake? = some wake → convoy.now ≤ wake

theorem exists_polled_delivering {convoy : Convoy} {place : Nat} {delivery : Delivery}
    (present : convoy.deliveries place = some delivery) (since : Instant) {world : World}
    (shared : world.exchange = convoy.exchange) :
    ∃ later, convoy.Polled place world
      ((Task.delivering delivery since).advance world convoy.now) later := by
  obtain ⟨middle, next, ran, advances, stuck⟩ := convoy.exists_run present
  have expires := @Next.expire middle place next advances.located (advances.now.symm ▸ stuck)
  rw [advances.now] at expires
  have expired := advances.follow expires
  have polled : delivery.poll world.exchange convoy.now =
      (next.expire convoy.now, middle.exchange) := by
    rw [Delivery.poll, shared, ran]
  obtain ⟨_, _, same, -, waits⟩ := delivery.exists_poll world.exchange convoy.now
  rw [polled] at same
  cases same
  obtain ⟨task, advanced, shows, wakes⟩ := Task.exists_advance_delivering polled since
  rw [advanced]
  refine ⟨_, expired.reaches, expired.now, rfl, ?_, ?_, ?_⟩
  · rwa [expired.located]
  · intro other different
    rw [expired.deliveries, Function.update_of_ne different]
  · intro wake found
    obtain ⟨running, waiting⟩ := wakes wake found
    exact (waits running).2 wake waiting

/-- Polling a task takes the convoy on. -/
theorem exists_polled {convoy : Convoy} {place : Nat} {task : Task}
    (shows : task.Shows (convoy.deliveries place)) {world : World}
    (shared : world.exchange = convoy.exchange) :
    ∃ later, convoy.Polled place world (task.poll world convoy.now) later := by
  have still : ∀ {task : Task}, task.Shows (convoy.deliveries place) →
      (∀ wake, task.wake? = some wake → convoy.now ≤ wake) →
      convoy.Polled place world (task, world) convoy := by
    intro task shown waits
    exact ⟨.refl, rfl, by rw [← shared], shown, fun _ _ => rfl, waits⟩
  generalize located : convoy.deliveries place = found at shows
  cases shows with
  | delayed wake route request budget timeout =>
    by_cases due : wake ≤ convoy.now
    · let begun := convoy.come place (.begin route request budget timeout convoy.now)
      have begins : convoy.Next begun := .begin route request budget timeout located
      have present : begun.deliveries place =
          some (.begin route request budget timeout convoy.now) := by
        rw [deliveries_come, Function.update_self]
      obtain ⟨later, polled⟩ := @exists_polled_delivering begun place _ present convoy.now world shared
      have goes : (Task.delayed wake (.send route request budget timeout)).poll world convoy.now =
          (Task.delivering (.begin route request budget timeout convoy.now) convoy.now).advance world
            convoy.now := by
        rw [Task.poll, if_pos due]
        rfl
      rw [goes]
      refine ⟨later, .head begins polled.reaches, polled.now, polled.world, polled.shown, ?_,
        polled.waits⟩
      intro other different
      rw [polled.others other different, deliveries_come, Function.update_of_ne different]
    · refine ⟨convoy, ?_⟩
      have waiting : (Task.delayed wake (.send route request budget timeout)).poll world convoy.now =
          (.delayed wake (.send route request budget timeout), world) := by
        rw [Task.poll, if_neg due]
      rw [waiting]
      refine still (located ▸ .delayed ..) fun other same => ?_
      cases same
      exact Nat.le_of_lt (Nat.not_le.1 due)
  | delivering delivery since => exact exists_polled_delivering located since shared
  | done waited finishedAt ended =>
    exact ⟨convoy, still (located ▸ .done waited finishedAt ended) fun wake none =>
      absurd none (Option.some_ne_none wake).symm⟩

/-- The tasks show the deliveries from a place on. -/
def Lines (tasks : List Task) (first : Nat) (convoy : Convoy) : Prop :=
  ∀ (index : Nat) (task : Task), tasks[index]? = some task →
    task.Shows (convoy.deliveries (first + index))

theorem exists_pollAll (tasks : List Task) {first : Nat} {convoy : Convoy}
    (lined : Lines tasks first convoy) {world : World} (shared : world.exchange = convoy.exchange) :
    ∃ later, convoy.Reaches later ∧ later.now = convoy.now ∧
      (Session.pollAll tasks world convoy.now).2 = { world with exchange := later.exchange } ∧
      Lines (Session.pollAll tasks world convoy.now).1 first later ∧
      (∀ place < first, later.deliveries place = convoy.deliveries place) ∧
      ∀ task ∈ (Session.pollAll tasks world convoy.now).1, ∀ wake, task.wake? = some wake →
        convoy.now ≤ wake := by
  induction tasks generalizing first convoy world with
  | nil =>
    refine ⟨convoy, .refl, rfl, by rw [← shared]; rfl, lined, fun _ _ => rfl, ?_⟩
    exact fun task member => absurd member List.not_mem_nil
  | cons task rest ih =>
    obtain ⟨middle, polled⟩ := exists_polled (lined 0 task rfl) shared
    have remaining : Lines rest (first + 1) middle := by
      intro index other located
      rw [polled.others _ (by omega), show first + 1 + index = first + (index + 1) by omega]
      exact lined (index + 1) other located
    obtain ⟨later, reaches, now, left, linedOn, before, waits⟩ :=
      ih remaining (congrArg World.exchange polled.world)
    rw [polled.now] at now left linedOn waits
    refine ⟨later, polled.reaches.trans reaches, now, ?_, ?_, ?_, ?_⟩
    · exact left.trans (by rw [polled.world])
    · intro index other located
      cases index with
      | zero =>
        cases located
        rw [Nat.add_zero, before first (Nat.lt_succ_self first)]
        exact polled.shown
      | succ index =>
        rw [show first + (index + 1) = first + 1 + index by omega]
        exact linedOn index other located
    · intro place earlier
      rw [before place (by omega), polled.others place (by omega)]
    · intro other member
      rcases List.mem_cons.1 member with same | new
      · exact same ▸ polled.waits
      · exact waits other new

/-- The clock of a session whose tasks send requests takes the convoy on. -/
theorem exists_drive (fuel : Nat) {tasks : List Task} {convoy : Convoy}
    (lined : Lines tasks 0 convoy) {session : Session}
    (shared : session.world.exchange = convoy.exchange) (now : session.now = convoy.now)
    (alone : session.world.pruners = []) :
    ∃ later, convoy.Reaches later ∧ Lines (Session.drive fuel tasks session).1 0 later ∧
      (Session.drive fuel tasks session).2.world.exchange = later.exchange ∧
      (Session.drive fuel tasks session).2.now = later.now := by
  induction fuel generalizing tasks convoy session with
  | zero => exact ⟨convoy, .refl, lined, shared, now⟩
  | succ fuel ih =>
    obtain ⟨now, world⟩ := session
    subst now
    obtain ⟨middle, reaches, same, left, linedOn, -, waits⟩ := exists_pollAll tasks lined shared
    simp only [Session.drive]
    split
    · exact ⟨middle, reaches, linedOn, congrArg World.exchange left, same.symm⟩
    · next wake found =>
      obtain ⟨task, member, wakes⟩ := List.mem_filterMap.1 (List.min?_mem found)
      have ordered : middle.now ≤ wake := same ▸ waits task member wake wakes
      have still : (Session.pollAll tasks world convoy.now).2.pruners = [] := by rw [left]; exact alone
      rw [Session.World.runPruners_of_alone still]
      obtain ⟨later, reachesOn, rest⟩ :=
        @ih (Session.pollAll tasks world convoy.now).1 { middle with now := wake } linedOn ⟨wake, _⟩
          (congrArg World.exchange left) rfl still
      exact ⟨later, (reaches.tail (.pass ordered)).trans reachesOn, rest⟩

end Convoy

namespace Session

/-- A session without pruners in which every task sends a request, each after its delay, is a convoy.
The tasks show how far the deliveries of the convoy have come. -/
theorem reaches_drive (fuel : Nat) {tasks : List Task}
    (sends : ∀ task ∈ tasks, ∃ wake route request budget timeout,
      task = .delayed wake (.send route request budget timeout))
    (session : Session) (alone : session.world.pruners = []) :
    ∃ convoy, (Convoy.opening session.world.exchange session.now).Reaches convoy ∧
      (drive fuel tasks session).2.world.exchange = convoy.exchange ∧
      (drive fuel tasks session).2.now = convoy.now ∧
      ∀ (place : Nat) (task : Task), (drive fuel tasks session).1[place]? = some task →
        task.Shows (convoy.deliveries place) := by
  have lined : Convoy.Lines tasks 0 (Convoy.opening session.world.exchange session.now) := by
    intro index task located
    obtain ⟨wake, route, request, budget, timeout, rfl⟩ :=
      sends task (List.mem_of_getElem? located)
    exact .delayed wake route request budget timeout
  obtain ⟨later, reaches, linedOn, exchange, now⟩ := Convoy.exists_drive fuel lined rfl rfl alone
  refine ⟨later, reaches, exchange, now, fun place task located => ?_⟩
  rw [← Nat.zero_add place]
  exact linedOn place task located

end Session

end QuotaGate
