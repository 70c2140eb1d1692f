import QuotaGate.Proofs.Admission.Whole
import QuotaGate.Proofs.Delivery.Alone

/-!
# A delivery from moment to moment

`Next` is what can happen to a delivery when nobody else tells the gate anything: it makes a move,
a pruner makes a tick, time passes, never beyond a timer that is set, or the delivery gives up at
its deadline.

Results:
1. `Moment.Leads.isTimely`: a delivery that begins at a whole millisecond makes every move at one.
2. `Session.leads_drive`: a session that runs one delivery does nothing else, whatever its pruners
   are and whether the delivery has a deadline or not.
-/

namespace QuotaGate

namespace Delivery

/-! ## One delivery and nobody else -/

/-- A delivery and what it needs at an instant. -/
structure Moment where
  now : Instant
  exchange : Exchange
  delivery : Delivery

namespace Moment

def gate (moment : Moment) : Gate := moment.exchange.gate

/-- What has been sent so far. -/
def sent (moment : Moment) : List Http.Sent := moment.exchange.wire.sent

/-- What can happen next when nobody else tells the gate anything. -/
inductive Next (moment : Moment) : Moment → Prop
  /-- The delivery makes a move. -/
  | move {next : Delivery} {after : Exchange} :
      moment.delivery.step moment.exchange moment.now = some (next, after) →
      Next moment ⟨moment.now, after, next⟩
  /-- A pruner makes a tick that is due. -/
  | prune (grace : Duration) {tick : Instant} : tick ≤ moment.now →
      Next moment { moment with exchange.gate := moment.gate.apply (.prune grace) tick }
  /-- Time passes while there is no move to make, and not beyond a timer that is set. -/
  | pass {later : Instant} : moment.now ≤ later →
      moment.delivery.step moment.exchange moment.now = none →
      (∀ wake, moment.delivery.wake? = some wake → later ≤ wake) →
      Next moment { moment with now := later }
  /-- The delivery gives up if its deadline has passed and there is no move to make. -/
  | expire : moment.delivery.step moment.exchange moment.now = none →
      Next moment { moment with delivery := moment.delivery.expire moment.now }

def Leads : Moment → Moment → Prop := Relation.ReflTransGen Next

end Moment

/-! ## Every move at a whole millisecond -/

/-- Where a delivery has no move to make, it is over or waits for an instant to come. -/
theorem due_of_step_eq_none {delivery : Delivery} {exchange : Exchange} {now : Instant}
    (stuck : delivery.step exchange now = none) :
    (∃ due, delivery.phase.due? = some due ∧ now < due) ∨
      ∃ result, delivery.phase = .finished result := by
  unfold step at stuck
  split at stuck
  · cases stuck
  · cases stuck
  · next admission _ held =>
    rw [Option.map_eq_none_iff] at stuck
    rw [held]
    rcases Admission.due_of_step_eq_none stuck with waits | rfl
    · exact .inl waits
    · contradiction
  · next reply arrival flying =>
    rw [flying]
    refine .inl ⟨arrival, rfl, Nat.lt_of_not_le fun due => ?_⟩
    rw [if_pos due] at stuck
    cases stuck
  · next wake sleeping =>
    rw [sleeping]
    refine .inl ⟨wake, rfl, Nat.lt_of_not_le fun due => ?_⟩
    rw [if_pos due] at stuck
    cases stuck
  · next result finished => exact .inr ⟨result, finished⟩

/-- A delivery does not sleep beyond what it waits for, nor beyond its deadline. -/
theorem le_wake?_iff {delivery : Delivery} {later : Instant} :
    (∀ wake, delivery.wake? = some wake → later ≤ wake) ↔
      (∀ due, delivery.phase.due? = some due → later ≤ due) ∧
        ∀ deadline, delivery.deadline = some deadline → later ≤ deadline := by
  rw [wake?_eq_merge]
  cases delivery.phase.due? with
  | none => simp
  | some due =>
    cases delivery.deadline with
    | none => simp
    | some deadline => simp only [Option.merge, Option.some.injEq, forall_eq', Nat.le_min]

/-- Whether a delivery waits for a whole millisecond, or else stands at one. -/
inductive Phase.IsTimely (phase : Phase) (now : Instant) : Prop
  | waits {due : Instant} : phase.due? = some due → now ≤ due → due.IsWhole → IsTimely phase now
  | stands : phase.due? = none → now.IsWhole → IsTimely phase now
  | ended {result : Except Failure Http.Response} : phase = .finished result → IsTimely phase now

end Delivery

/-- An admission that goes to sleep waits for a whole millisecond. -/
theorem Admission.isWhole_of_step {gate : Gate} {route : RouteKey} {now wake : Instant}
    {admission next : Admission} (moved : admission.step gate route now = some next)
    (waits : next.wake? = some wake) : now ≤ wake ∧ wake.IsWhole := by
  cases step_eq_some_iff.1 moved with
  | isLocked sleeps =>
    cases waits
    exact Instant.isWhole_of_sleeps sleeps
  | isEmpty sleeps =>
    cases waits
    exact Instant.isWhole_of_sleeps sleeps
  | isClear off | looksAgain due | isFree off | isRefilled due => cases waits

/-- A reply to a request that is sent at a whole millisecond arrives at one. -/
theorem Http.Wire.isWhole_send (wire : Wire) (request : Request) {now : Instant}
    (whole : now.IsWhole) :
    now ≤ (wire.send request now).2.1 ∧ (wire.send request now).2.1.IsWhole := by
  unfold send
  split
  · exact ⟨Nat.le_refl now, whole⟩
  · unfold arrival
    dsimp only
    split
    · exact ⟨Nat.le_refl now, whole⟩
    · exact ⟨Instant.le_wakeAfter _ _, Instant.isWhole_wakeAfter _ _⟩

namespace Delivery

theorem Phase.IsTimely.isWhole_of_step {delivery next : Delivery} {exchange after : Exchange}
    {now : Instant} (timely : delivery.phase.IsTimely now)
    (moved : delivery.step exchange now = some (next, after)) : now.IsWhole := by
  cases timely with
  | @waits due waits before whole =>
    by_cases come : due ≤ now
    · rwa [Nat.le_antisymm before come]
    · rw [step_eq_none_of_not_due waits come] at moved
      cases moved
  | stands quiet whole => exact whole
  | ended finished =>
    rw [step, finished] at moved
    cases moved

theorem Phase.IsTimely.receive {now : Instant} (whole : now.IsWhole) (delivery : Delivery)
    (reply : Http.Reply) (exchange : Exchange) :
    (delivery.receive reply exchange now).1.phase.IsTimely now := by
  cases reply with
  | error reason => exact .ended rfl
  | ok response =>
    simp only [Delivery.receive, afterResponse]
    split
    · exact .ended rfl
    · exact .ended rfl
    · unfold afterLimited
      split
      · exact .ended rfl
      · dsimp only
        split
        · exact .waits rfl (Instant.le_wakeAfter _ _) (Instant.isWhole_wakeAfter _ _)
        · exact .stands rfl whole

theorem Phase.IsTimely.move {delivery next : Delivery} {exchange after : Exchange}
    {now : Instant} (timely : delivery.phase.IsTimely now)
    (moved : delivery.step exchange now = some (next, after)) : next.phase.IsTimely now := by
  have whole := timely.isWhole_of_step moved
  cases moves_of_step moved with
  | begins ready => exact .stands rfl whole
  | @waits admission next held stepped =>
    cases waits : next.wake? with
    | none => exact .stands waits whole
    | some wake =>
      obtain ⟨before, wakes⟩ := Admission.isWhole_of_step stepped waits
      exact .waits waits before wakes
  | sends admitted =>
    obtain ⟨before, arrives⟩ := exchange.wire.isWhole_send delivery.request whole
    exact .waits rfl before arrives
  | receives flying due => exact .receive whole ..
  | resumes sleeping due => exact .stands rfl whole

/-- A move tells the gate one thing at most. -/
theorem gate_of_step {delivery next : Delivery} {exchange after : Exchange} {now : Instant}
    (moved : delivery.step exchange now = some (next, after)) :
    after.gate = exchange.gate ∨ ∃ event, after.gate = exchange.gate.apply event now := by
  cases moves_of_step moved with
  | begins ready | waits held stepped | sends admitted | resumes sleeping due => exact .inl rfl
  | @receives reply arrival flying due =>
    cases reply with
    | error reason => exact .inl rfl
    | ok response =>
      exact .inr ⟨.observe delivery.route (reportOf response) (.ofStatus response.status), rfl⟩

namespace Moment

/-- The gate was made by now, with this fallback. -/
structure Began (fallback : Duration) (moment : Moment) : Prop where
  made : moment.gate.lockout.origin ≤ moment.now
  fallback : moment.gate.fallback = fallback

variable {fallback : Duration} {moment later : Moment}

theorem Began.next (began : moment.Began fallback) (happens : moment.Next later) :
    later.Began fallback := by
  cases happens with
  | @move next after moved =>
    rcases gate_of_step moved with same | ⟨event, changed⟩
    · refine ⟨?_, ?_⟩
      · rw [gate, same]
        exact began.made
      · rw [gate, same]
        exact began.fallback
    · refine ⟨?_, ?_⟩
      · rw [gate, changed, Gate.apply_origin]
        exact began.made
      · rw [gate, changed, Gate.apply_fallback]
        exact began.fallback
  | prune grace past | expire stuck => exact ⟨began.made, began.fallback⟩
  | pass ordered stuck timers => exact ⟨Nat.le_trans began.made ordered, began.fallback⟩

theorem Began.leads (began : moment.Began fallback) (leads : moment.Leads later) :
    later.Began fallback := by
  induction leads with
  | refl => exact began
  | tail _ happens ih => exact ih.next happens

end Moment

end Delivery

/-! ## The clock of a session -/

namespace Delivery

/-- What every move preserves, a delivery preserves that moves on as far as the instant allows. -/
theorem run_invariant {Holds : Delivery → Exchange → Prop} {now : Instant}
    (preserved : ∀ {delivery next : Delivery} {exchange after : Exchange},
      Holds delivery exchange → delivery.step exchange now = some (next, after) → Holds next after)
    {delivery : Delivery} {exchange : Exchange} (holds : Holds delivery exchange) :
    Holds (delivery.run exchange now).1 (delivery.run exchange now).2 ∧
      (delivery.run exchange now).1.step (delivery.run exchange now).2 now = none := by
  cases moved : delivery.step exchange now with
  | none =>
    rw [run_of_step_eq_none moved]
    exact ⟨holds, moved⟩
  | some following =>
    obtain ⟨next, after⟩ := following
    have fewer := progress_of_step moved
    rw [run_of_step moved]
    exact run_invariant preserved (preserved holds moved)
termination_by (delivery.left, delivery.rank now)
decreasing_by
  rcases fewer with used | ⟨same, lower⟩
  · exact Prod.Lex.left _ _ used
  · rw [same]
    exact Prod.Lex.right _ lower

/-- A delivery that moves on as far as the instant allows makes one move after the other. -/
theorem exists_run (delivery : Delivery) (exchange : Exchange) (now : Instant) :
    ∃ next after, delivery.run exchange now = (next, after) ∧
      Moment.Leads ⟨now, exchange, delivery⟩ ⟨now, after, next⟩ ∧ next.step after now = none := by
  obtain ⟨leads, stuck⟩ := @run_invariant
    (fun next after => Moment.Leads ⟨now, exchange, delivery⟩ ⟨now, after, next⟩) now
    (fun leads moved => leads.tail (.move moved)) delivery exchange .refl
  exact ⟨_, _, rfl, leads, stuck⟩

/-- A delivery that was polled and is not over waits for something later. -/
theorem exists_poll (delivery : Delivery) (exchange : Exchange) (now : Instant) :
    ∃ next after, delivery.poll exchange now = (next, after) ∧
      Moment.Leads ⟨now, exchange, delivery⟩ ⟨now, after, next⟩ ∧
      (next.result? = none → next.step after now = none ∧
        ∀ wake, next.wake? = some wake → now ≤ wake) := by
  obtain ⟨next, after, ran, leads, stuck⟩ := exists_run delivery exchange now
  refine ⟨next.expire now, after, ?_, leads.tail (.expire stuck), fun running => ?_⟩
  · rw [poll, ran]
  · unfold expire at running ⊢
    split at running
    · cases running
    · next early =>
      rw [if_neg early]
      refine ⟨stuck, le_wake?_iff.2 ⟨fun due found => ?_, fun deadline dated => ?_⟩⟩
      · rcases due_of_step_eq_none stuck with ⟨other, same, later⟩ | ⟨result, finished⟩
        · rw [found] at same
          cases same
          exact Nat.le_of_lt later
        · rw [finished] at found
          cases found
      · refine Nat.le_of_not_lt fun passed => early ⟨by rw [running]; rfl, ?_⟩
        rw [dated, Option.any_some]
        exact decide_eq_true (Nat.le_of_lt passed)

end Delivery

namespace Session

theorem World.leads_runPruners (world : World) (delivery : Delivery) {tick now : Instant}
    (past : tick ≤ now) :
    Delivery.Moment.Leads ⟨now, world.exchange, delivery⟩
      ⟨now, (world.runPruners tick).exchange, delivery⟩ := by
  unfold runPruners
  refine List.foldlRecOn world.pruners _ (motive := fun (state : List Pruner × Gate) =>
    Delivery.Moment.Leads ⟨now, world.exchange, delivery⟩
      ⟨now, { world.exchange with gate := state.2 }, delivery⟩) .refl ?_
  intro state leads pruner member
  exact @Pruner.run_invariant (fun gate => Delivery.Moment.Leads ⟨now, world.exchange, delivery⟩
    ⟨now, { world.exchange with gate }, delivery⟩) pruner state.2 tick
    (fun gate due before leads => leads.tail (.prune pruner.grace (Nat.le_trans before past))) leads

/-- A session that runs one delivery and nothing else goes from moment to moment. -/
theorem leads_drive (fuel : Nat) (delivery : Delivery) (since : Instant) (session : Session) :
    ∃ last : Delivery.Moment,
      Delivery.Moment.Leads ⟨session.now, session.world.exchange, delivery⟩ last ∧
      (drive fuel [.delivering delivery since] session).2.now = last.now ∧
      (drive fuel [.delivering delivery since] session).2.world.exchange = last.exchange := by
  induction fuel generalizing delivery session with
  | zero => exact ⟨_, .refl, rfl, rfl⟩
  | succ fuel ih =>
    obtain ⟨now, world⟩ := session
    obtain ⟨next, after, polled, leads, waits⟩ := delivery.exists_poll world.exchange now
    let noted : World := { world with exchange := after }
    cases running : next.result? with
    | some result =>
      have done : (Task.delivering delivery since).poll world now =
          (.done (.delivered result next.changes (now.since since)) now, noted) := by
        simp only [Task.poll, Task.advance, polled, running, noted]
      rw [drive_of_rests done rfl fuel]
      exact ⟨_, leads, rfl, rfl⟩
    | none =>
      obtain ⟨stuck, later⟩ := waits running
      have going : (Task.delivering delivery since).poll world now =
          (.delivering next since, noted) := by
        simp only [Task.poll, Task.advance, polled, running, noted]
      cases wakes : next.wake? with
      | none =>
        rw [drive_of_rests going wakes fuel]
        exact ⟨_, leads, rfl, rfl⟩
      | some wake =>
        have slept : Delivery.Moment.Leads ⟨now, after, next⟩
            ⟨wake, (noted.runPruners (wake - 1)).exchange, next⟩ := by
          refine .head (.pass (later wake wakes) stuck fun other same => ?_)
            (noted.leads_runPruners next (Nat.sub_le wake 1))
          rw [wakes] at same
          cases same
          exact Nat.le_refl wake
        obtain ⟨last, rest, instant, exchange⟩ :=
          ih next ⟨wake, noted.runPruners (wake - 1)⟩
        rw [drive_of_waits going wakes fuel]
        exact ⟨last, (leads.trans slept).trans rest, instant, exchange⟩

end Session

end QuotaGate
