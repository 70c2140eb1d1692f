import Mathlib.Logic.Relation
import QuotaGate.Session.Clock

/-!
# A delivery alone in a session

A session that runs one delivery and nothing else lets it make one move after the other and, where
the delivery has to wait, moves the clock to the instant it waits for. `Next` is one of these two,
and `drive_of_leads` says that the clock of the session does just that. Pruners may run meanwhile,
and they touch nothing but the registry.

What a delivery without a deadline waits for always comes: the end of a sleep (`leads_due`), and so
the admission (`admits`), because a lockout ends that nobody extends.
-/

namespace QuotaGate

/-! ## Pruners touch nothing but the registry -/

theorem Pruner.lockout_run (pruner : Pruner) (gate : Gate) (now : Instant) :
    (pruner.run gate now).2.lockout = gate.lockout :=
  @run_invariant (fun after => after.lockout = gate.lockout) pruner gate now
    (fun _ _ _ same => same) rfl

theorem Session.World.lockout_runPruners (world : World) (now : Instant) :
    (world.runPruners now).gate.lockout = world.gate.lockout := by
  unfold runPruners
  refine List.foldlRecOn world.pruners _ (motive := fun (state : List Pruner × Gate) =>
    state.2.lockout = world.gate.lockout) rfl ?_
  intro state same pruner member
  exact (pruner.lockout_run state.2 now).trans same

/-! ## A session of one task -/

namespace Session

variable {task next : Task} {world after : World} {now : Instant}

/-- Only what polling makes of a task and of the world matters to the clock. -/
theorem drive_congr (same : task.poll world now = next.poll after now) (fuel : Nat) :
    drive (fuel + 1) [task] ⟨now, world⟩ = drive (fuel + 1) [next] ⟨now, after⟩ := by
  simp only [drive, pollAll, same]

/-- A task that waits makes the clock move. -/
theorem drive_of_waits {wake : Instant} (polled : task.poll world now = (next, after))
    (waits : next.wake? = some wake) (fuel : Nat) :
    drive (fuel + 1) [task] ⟨now, world⟩ =
      drive fuel [next] ⟨wake, after.runPruners (wake - 1)⟩ := by
  simp only [drive, pollAll, polled, nextWake?, List.filterMap_cons, waits, List.filterMap_nil,
    List.min?_singleton]

/-- A task that waits for nothing ends the session. -/
theorem drive_of_rests (polled : task.poll world now = (next, after))
    (rests : next.wake? = none) (fuel : Nat) :
    drive (fuel + 1) [task] ⟨now, world⟩ = ([next], ⟨now, after⟩) := by
  simp only [drive, pollAll, polled, nextWake?, List.filterMap_cons, rests, List.filterMap_nil,
    List.min?_nil]

end Session

/-! ## What stays the same -/

namespace Delivery

/-- The same delivery later during the same attempt. Only its own attempt is noted meanwhile. -/
structure Same (delivery later : Delivery) : Prop where
  route : later.route = delivery.route
  request : later.request = delivery.request
  deadline : later.deadline = delivery.deadline
  attempt : later.attempt = delivery.attempt
  changes : ∀ change ∈ later.changes,
    change ∈ delivery.changes ∨ change.attempt = delivery.attempt

namespace Same

theorem refl (delivery : Delivery) : delivery.Same delivery :=
  ⟨rfl, rfl, rfl, rfl, fun _ => .inl⟩

theorem trans {first second third : Delivery} (before : first.Same second)
    (after : second.Same third) : first.Same third where
  route := after.route.trans before.route
  request := after.request.trans before.request
  deadline := after.deadline.trans before.deadline
  attempt := after.attempt.trans before.attempt
  changes := by
    intro change member
    rcases after.changes change member with old | new
    · exact before.changes change old
    · exact .inr (new.trans before.attempt)

theorem enter (delivery : Delivery) (stage : Stage) : delivery.Same (delivery.enter stage) := by
  refine ⟨rfl, rfl, rfl, rfl, fun change member => ?_⟩
  rcases List.mem_append.1 member with old | new
  · exact .inl old
  · rw [List.mem_singleton] at new
    rw [new]
    exact .inr rfl

/-- The phase and the attempts that are left do not count. -/
theorem with_phase {delivery later : Delivery} (same : delivery.Same later) (left : Nat)
    (phase : Phase) : delivery.Same { later with left, phase } :=
  ⟨same.route, same.request, same.deadline, same.attempt, same.changes⟩

theorem hold (delivery : Delivery) (admission : Admission) :
    delivery.Same (delivery.hold admission) := by
  unfold Delivery.hold
  dsimp only
  split
  · exact (enter delivery .waitingBucket).with_phase _ _
  · exact (refl delivery).with_phase _ _

theorem beginAttempt (delivery : Delivery) (gate : Gate) (now : Instant) :
    ({ delivery with attempt := delivery.attempt + 1 } : Delivery).Same
      (delivery.beginAttempt gate now) := by
  unfold Delivery.beginAttempt
  dsimp only
  split
  · exact (enter _ .waitingGlobal).with_phase _ _
  · exact (refl _).with_phase _ _

theorem send (delivery : Delivery) (exchange : Exchange) (now : Instant) :
    delivery.Same (delivery.send exchange now).1 :=
  (enter delivery .inFlight).with_phase _ _

end Same

def Phase.due? : Phase → Option Instant
  | held admission => admission.wake?
  | inFlight _ arrival => some arrival
  | backingOff wake => some wake
  | ready | finished _ => none

theorem wake?_eq_merge (delivery : Delivery) :
    delivery.wake? = delivery.phase.due?.merge min delivery.deadline := by
  unfold wake? Phase.due?
  cases delivery.phase <;> rfl

theorem wake?_of_deadline_eq_none {delivery : Delivery} (undated : delivery.deadline = none) :
    delivery.wake? = delivery.phase.due? := by
  rw [wake?_eq_merge, undated]
  cases delivery.phase.due? <;> rfl

/-- Before the instant that it waits for, a delivery makes no move. -/
theorem step_eq_none_of_not_due {delivery : Delivery} {exchange : Exchange} {now due : Instant}
    (waits : delivery.phase.due? = some due) (early : ¬due ≤ now) :
    delivery.step exchange now = none := by
  unfold step
  cases phase : delivery.phase with
  | held admission =>
    rw [phase] at waits
    have stuck := Admission.step_eq_none_of_lt waits (Nat.not_le.1 early) exchange.gate
      delivery.route
    cases admission with
    | lockedOut wake | awaitingReset wake => simp only [stuck, Option.map_none]
    | checkingLockout | checkingBucket | admitted => cases waits
  | inFlight reply arrival | backingOff wake =>
    rw [phase] at waits
    cases waits
    simp [early]
  | ready =>
    rw [phase] at waits
    cases waits
  | finished result => rfl

theorem result?_of_due {delivery : Delivery} {due : Instant}
    (waits : delivery.phase.due? = some due) : delivery.result? = none := by
  refine result?_eq_none_iff.2 fun result finished => ?_
  rw [finished] at waits
  cases waits

end Delivery

/-! ## Moves and sleeps -/

/-- A session that runs one delivery. -/
structure Solo where
  delivery : Delivery
  session : Session

namespace Solo

/-- What the tasks of the session share besides the pruners. -/
def exchange (solo : Solo) : Exchange := solo.session.world.exchange

def move (solo : Solo) (next : Delivery) (after : Exchange) : Solo where
  delivery := next
  session := { solo.session with world := { solo.session.world with exchange := after } }

def sleep (solo : Solo) (wake : Instant) : Solo where
  delivery := solo.delivery
  session := ⟨wake, solo.session.world.runPruners (wake - 1)⟩

/-- What happens next to a delivery without a deadline. -/
inductive Next (solo : Solo) : Solo → Prop
  | move {next : Delivery} {after : Exchange} :
      solo.delivery.step solo.exchange solo.session.now = some (next, after) →
      Next solo (solo.move next after)
  | sleep {wake : Instant} : solo.delivery.step solo.exchange solo.session.now = none →
      solo.delivery.result? = none → solo.delivery.deadline = none →
      solo.delivery.wake? = some wake → Next solo (solo.sleep wake)

def Leads : Solo → Solo → Prop := Relation.ReflTransGen Next

/-! ## The clock of the session does the same -/

/-- A move of the delivery takes the session no time. -/
theorem drive_of_move {solo : Solo} {next : Delivery} {after : Exchange}
    (moved : solo.delivery.step solo.exchange solo.session.now = some (next, after))
    (fuel : Nat) (since : Instant) :
    Session.drive (fuel + 1) [.delivering solo.delivery since] solo.session =
      Session.drive (fuel + 1) [.delivering next since] (solo.move next after).session := by
  have polled : solo.delivery.poll solo.session.world.exchange solo.session.now =
      next.poll after solo.session.now := by
    rw [Delivery.poll, Delivery.poll, ← Delivery.run_of_step moved]
    rfl
  refine Session.drive_congr ?_ fuel
  simp only [Session.Task.poll, Session.Task.advance, polled]

/-- A delivery that has to wait makes the clock move. -/
theorem drive_of_sleep {solo : Solo} {wake : Instant}
    (stuck : solo.delivery.step solo.exchange solo.session.now = none)
    (running : solo.delivery.result? = none)
    (inTime : solo.delivery.expire solo.session.now = solo.delivery)
    (waits : solo.delivery.wake? = some wake) (fuel : Nat) (since : Instant) :
    Session.drive (fuel + 1) [.delivering solo.delivery since] solo.session =
      Session.drive fuel [.delivering solo.delivery since] (solo.sleep wake).session := by
  have polled : solo.delivery.poll solo.session.world.exchange solo.session.now =
      (solo.delivery, solo.session.world.exchange) := by
    have ran : solo.delivery.run solo.session.world.exchange solo.session.now =
        (solo.delivery, solo.session.world.exchange) := Delivery.run_of_step_eq_none stuck
    simp only [Delivery.poll, ran, inTime]
  have waiting : (Session.Task.delivering solo.delivery since).wake? = some wake := waits
  refine Session.drive_of_waits ?_ waiting fuel
  simp only [Session.Task.poll, Session.Task.advance, polled, running]

/-- With enough moves of the clock, a session gets wherever its delivery leads. -/
theorem drive_of_leads {solo later : Solo} (leads : solo.Leads later) (since : Instant) :
    ∃ moves, ∀ fuel,
      Session.drive (fuel + moves + 1) [.delivering solo.delivery since] solo.session =
        Session.drive (fuel + 1) [.delivering later.delivery since] later.session := by
  -- Moves of the delivery take no move of the clock, so only the sleeps count.
  induction leads using Relation.ReflTransGen.head_induction_on with
  | refl => exact ⟨0, fun fuel => rfl⟩
  | head first _ ih =>
    obtain ⟨moves, rest⟩ := ih
    cases first with
    | move moved => exact ⟨moves, fun fuel => (drive_of_move moved _ since).trans (rest fuel)⟩
    | sleep stuck running undated waits =>
      refine ⟨moves + 1, fun fuel => ?_⟩
      have inTime := Delivery.expire_of_deadline_eq_none undated
      exact (drive_of_sleep stuck running (inTime _) waits _ since).trans (rest fuel)

/-- A delivery that has its result ends the session. -/
theorem drive_of_result {solo : Solo} {result : Except Failure Http.Response}
    (finished : solo.delivery.phase = .finished result) (fuel : Nat) (since : Instant) :
    Session.drive (fuel + 1) [.delivering solo.delivery since] solo.session =
      ([.done (.delivered result solo.delivery.changes (solo.session.now.since since))
        solo.session.now], solo.session) := by
  have known : solo.delivery.result? = some result := Delivery.result?_eq_some_iff.2 finished
  have polled : solo.delivery.poll solo.session.world.exchange solo.session.now =
      (solo.delivery, solo.session.world.exchange) := by
    have stuck : solo.delivery.step solo.session.world.exchange solo.session.now = none := by
      rw [Delivery.step, finished]
    rw [Delivery.poll, Delivery.run_of_step_eq_none stuck]
    simp [Delivery.expire, known]
  refine Session.drive_of_rests ?_ rfl fuel
  simp only [Session.Task.poll, Session.Task.advance, polled, known]

/-- With enough moves of the clock, a session ends where its delivery does. -/
theorem Leads.drive_finished {solo last : Solo} {result : Except Failure Http.Response}
    (leads : solo.Leads last) (finished : last.delivery.phase = .finished result)
    (since : Instant) :
    ∃ moves, ∀ fuel, moves ≤ fuel →
      Session.drive fuel [.delivering solo.delivery since] solo.session =
        ([.done (.delivered result last.delivery.changes (last.session.now.since since))
          last.session.now], last.session) := by
  obtain ⟨moves, driven⟩ := drive_of_leads leads since
  refine ⟨moves + 1, fun fuel enough => ?_⟩
  obtain ⟨more, rfl⟩ := Nat.exists_eq_add_of_le' enough
  exact (driven more).trans (drive_of_result finished more since)

/-! ## What a delivery waits for comes -/

/-- What stays the same while a delivery waits. -/
structure Keeps (solo later : Solo) : Prop where
  same : solo.delivery.Same later.delivery
  left : later.delivery.left = solo.delivery.left
  wire : later.exchange.wire = solo.exchange.wire
  lockout : later.exchange.gate.lockout = solo.exchange.gate.lockout

theorem Keeps.refl (solo : Solo) : solo.Keeps solo := ⟨.refl solo.delivery, rfl, rfl, rfl⟩

theorem Keeps.trans {first second third : Solo} (before : first.Keeps second)
    (after : second.Keeps third) : first.Keeps third where
  same := before.same.trans after.same
  left := after.left.trans before.left
  wire := after.wire.trans before.wire
  lockout := after.lockout.trans before.lockout

theorem Keeps.deadline {solo later : Solo} (keeps : solo.Keeps later) :
    later.delivery.deadline = solo.delivery.deadline := keeps.same.deadline

theorem keeps_sleep (solo : Solo) (wake : Instant) : solo.Keeps (solo.sleep wake) where
  same := .refl solo.delivery
  left := rfl
  wire := rfl
  lockout := Session.World.lockout_runPruners solo.session.world (wake - 1)

/-- The instant that a delivery waits for comes, and nothing else has happened to it then. -/
theorem leads_due {solo : Solo} {due : Instant} (waits : solo.delivery.phase.due? = some due)
    (undated : solo.delivery.deadline = none) :
    ∃ later, solo.Leads later ∧ solo.Keeps later ∧
      later.delivery.phase = solo.delivery.phase ∧ due ≤ later.session.now := by
  by_cases early : due ≤ solo.session.now
  · exact ⟨solo, .refl, .refl solo, rfl, early⟩
  · have stuck : solo.delivery.step solo.exchange solo.session.now = none :=
      Delivery.step_eq_none_of_not_due waits early
    have running : solo.delivery.result? = none := Delivery.result?_of_due waits
    have wakes : solo.delivery.wake? = some due := by
      rw [Delivery.wake?_of_deadline_eq_none undated, waits]
    refine ⟨solo.sleep due, .single (.sleep stuck running undated wakes), ?_, rfl, ?_⟩
    · exact solo.keeps_sleep due
    · show due ≤ due
      exact Nat.le_refl due

/-! ## The admission comes -/

/-- An admission's move is a move of the delivery. -/
theorem next_hold {solo : Solo} {admission next : Admission}
    (phase : solo.delivery.phase = .held admission)
    (moves : Admission.Moves solo.exchange.gate solo.delivery.route solo.session.now
      admission next) :
    solo.Next (solo.move (solo.delivery.hold next) solo.exchange) :=
  .move (Delivery.step_of_moves (.waits phase (Admission.step_eq_some_iff.2 moves)))

theorem keeps_hold (solo : Solo) (next : Admission) :
    solo.Keeps (solo.move (solo.delivery.hold next) solo.exchange) where
  same := .hold solo.delivery next
  left := by
    unfold move Delivery.hold
    dsimp only
    split <;> rfl
  wire := rfl
  lockout := rfl

/-- The delivery is admitted sooner or later. -/
def Admits (solo : Solo) : Prop :=
  ∃ later, solo.Leads later ∧ solo.Keeps later ∧ later.delivery.phase = .held .admitted

theorem Admits.of_leads {solo later : Solo} (leads : solo.Leads later) (keeps : solo.Keeps later)
    (admits : later.Admits) : solo.Admits := by
  obtain ⟨last, leadsOn, keepsOn, admitted⟩ := admits
  exact ⟨last, leads.trans leadsOn, keeps.trans keepsOn, admitted⟩

theorem Admits.of_hold {solo : Solo} {admission next : Admission}
    (phase : solo.delivery.phase = .held admission)
    (moves : Admission.Moves solo.exchange.gate solo.delivery.route solo.session.now
      admission next)
    (admits : (solo.move (solo.delivery.hold next) solo.exchange).Admits) : solo.Admits :=
  .of_leads (.single (next_hold phase moves)) (solo.keeps_hold next) admits

theorem Admits.of_admitted {solo : Solo} (phase : solo.delivery.phase = .held .admitted) :
    solo.Admits :=
  ⟨solo, .refl, .refl solo, phase⟩

theorem admits_of_awaitingReset {solo : Solo} {wake : Instant}
    (phase : solo.delivery.phase = .held (.awaitingReset wake))
    (undated : solo.delivery.deadline = none) : solo.Admits := by
  have waits : solo.delivery.phase.due? = some wake := by rw [phase]; rfl
  obtain ⟨due, leads, keeps, same, reached⟩ := leads_due waits undated
  exact .of_leads leads keeps (.of_hold (same.trans phase) (.isRefilled reached) (.of_admitted rfl))

theorem admits_of_checkingBucket {solo : Solo}
    (phase : solo.delivery.phase = .held .checkingBucket)
    (undated : solo.delivery.deadline = none) : solo.Admits := by
  cases sleeps : solo.exchange.gate.registry.wakeAt? solo.delivery.route solo.session.now with
  | none => exact .of_hold phase (.isFree sleeps) (.of_admitted rfl)
  | some wake =>
    have asleep := solo.keeps_hold (.awaitingReset wake)
    refine .of_hold phase (.isEmpty sleeps) ?_
    exact admits_of_awaitingReset rfl (asleep.deadline.trans undated)

theorem admits_of_checkingLockout {solo : Solo}
    (phase : solo.delivery.phase = .held .checkingLockout)
    (undated : solo.delivery.deadline = none) : solo.Admits := by
  -- Each look at the lockout comes later than the last one, and none after the end finds it on.
  induction rest : solo.exchange.gate.lockout.stop - solo.session.now using Nat.strongRecOn
    generalizing solo with
  | ind rest ih =>
    cases sleeps : solo.exchange.gate.lockout.wakeAt? solo.session.now with
    | none =>
      have off := solo.keeps_hold .checkingBucket
      refine .of_hold phase (.isClear sleeps) ?_
      exact admits_of_checkingBucket rfl (off.deadline.trans undated)
    | some wake =>
      have asleep := solo.keeps_hold (.lockedOut wake)
      have later := Lockout.lt_of_wakeAt? sleeps
      have before := Lockout.lt_stop_of_isActive (Lockout.isActive_of_wakeAt? sleeps)
      refine .of_hold phase (.isLocked sleeps) ?_
      obtain ⟨due, leads, keeps, same, reached⟩ :=
        @leads_due (solo.move (solo.delivery.hold (.lockedOut wake)) solo.exchange) wake rfl
          (asleep.deadline.trans undated)
      refine .of_leads leads keeps (.of_hold same (.looksAgain reached) ?_)
      have looks := due.keeps_hold .checkingLockout
      have still := looks.deadline.trans (keeps.deadline.trans (asleep.deadline.trans undated))
      refine ih _ ?_ rfl still rfl
      rw [looks.lockout, keeps.lockout, asleep.lockout, ← rest]
      exact Nat.sub_lt_sub_left before (Nat.lt_of_lt_of_le later reached)

/-- The admission comes, wherever it stands. -/
theorem admits {solo : Solo} {admission : Admission}
    (phase : solo.delivery.phase = .held admission) (undated : solo.delivery.deadline = none) :
    solo.Admits := by
  cases admission with
  | checkingLockout => exact admits_of_checkingLockout phase undated
  | lockedOut wake =>
    have waits : solo.delivery.phase.due? = some wake := by rw [phase]; rfl
    obtain ⟨due, leads, keeps, same, reached⟩ := leads_due waits undated
    have looks := due.keeps_hold .checkingLockout
    refine .of_leads leads keeps (.of_hold (same.trans phase) (.looksAgain reached) ?_)
    exact admits_of_checkingLockout rfl (looks.deadline.trans (keeps.deadline.trans undated))
  | checkingBucket => exact admits_of_checkingBucket phase undated
  | awaitingReset wake => exact admits_of_awaitingReset phase undated
  | admitted => exact .of_admitted phase

end Solo

end QuotaGate
