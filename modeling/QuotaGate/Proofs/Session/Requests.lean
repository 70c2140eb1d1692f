import Mathlib
import QuotaGate.Proofs.Delivery.Journal
import QuotaGate.Proofs.Pruner.Ticks
import QuotaGate.Proofs.Session.Instants

/-!
# The requests of a session

A task can send the request of its action and no other, as often as it likes. So whatever is on the
wire after a step of a session was there before, or is the request of one of the actions. Nothing
that was sent is forgotten.

Results:
1. `Delivery.extends_run`, `Task.extends_poll`: a task sends nothing but its own request.
2. `extends_perform`: a step of a session sends nothing but the requests of its actions.
-/

namespace QuotaGate

open Http (Request Sent)

/-- More was sent afterwards than before, and all of it were requests of some kind. -/
def Http.Wire.Extends (allowed : Request → Prop) (before after : Wire) : Prop :=
  ∃ added, after.sent = before.sent ++ added ∧ ∀ sent ∈ added, allowed sent.request

namespace Http.Wire.Extends

variable {allowed : Request → Prop} {first second third : Wire}

theorem refl (wire : Wire) : wire.Extends allowed wire :=
  ⟨[], (List.append_nil _).symm, fun _ member => nomatch member⟩

theorem trans (earlier : first.Extends allowed second) (later : second.Extends allowed third) :
    first.Extends allowed third := by
  obtain ⟨added, grown, each⟩ := earlier
  obtain ⟨more, grownMore, eachMore⟩ := later
  refine ⟨added ++ more, by rw [grownMore, grown, List.append_assoc], fun sent member => ?_⟩
  exact (List.mem_append.1 member).elim (each sent) (eachMore sent)

end Http.Wire.Extends

namespace Delivery

theorem extends_of_step {delivery next : Delivery} {exchange after : Exchange} {now : Instant}
    (moved : delivery.step exchange now = some (next, after)) :
    exchange.wire.Extends (· = delivery.request) after.wire := by
  refine ⟨(delivery.entries exchange now).sends, (follows_of_step moved).sent, ?_⟩
  intro sent member
  unfold entries at member
  split at member
  · cases member
  · cases List.mem_singleton.1 member
    rfl
  · cases member
  · cases member

/-- A delivery sends its own request only, and goes on doing so. -/
theorem extends_run (delivery : Delivery) (exchange : Exchange) (now : Instant) :
    (delivery.run exchange now).1.request = delivery.request ∧
      exchange.wire.Extends (· = delivery.request) (delivery.run exchange now).2.wire := by
  refine (@run_invariant (fun next after => next.request = delivery.request ∧
    exchange.wire.Extends (· = delivery.request) after.wire) now ?_ delivery exchange
      ⟨rfl, .refl _⟩).1
  rintro current next between after ⟨same, grown⟩ moved
  -- The request of the delivery does not change, so what a later step sends is the first one's.
  refine ⟨(constant_of_step moved).2.1.trans same, grown.trans ?_⟩
  rw [← same]
  exact extends_of_step moved

theorem request_expire (delivery : Delivery) (now : Instant) :
    (delivery.expire now).request = delivery.request := by
  unfold expire
  split <;> rfl

end Delivery

namespace Session

/-- The request that an action sends, if it sends one. -/
def Action.request? : Action → Option Request
  | .send _ request _ _ => some request
  | .call client route body => some (client.requestOf route body)
  | _ => none

namespace Task

/-- The request that a task may still send. -/
def request? : Task → Option Request
  | delayed _ action => action.request?
  | delivering delivery _ | answering delivery _ => some delivery.request
  | _ => none

variable {allowed : Request → Prop}

/-- The task sends requests of some kind only. -/
def SendsOnly (allowed : Request → Prop) (task : Task) : Prop :=
  ∀ request ∈ task.request?, allowed request

theorem sends_of_request?_eq_none {task : Task} (silent : task.request? = none) :
    task.SendsOnly allowed := by
  intro request member
  rw [silent] at member
  cases member

/-- A delivery that is polled sends its own request only, and so does its task. -/
theorem extends_poll_delivery {delivery : Delivery} (sends : allowed delivery.request)
    (exchange : Exchange) (now : Instant) :
    allowed (delivery.poll exchange now).1.request ∧
      exchange.wire.Extends allowed (delivery.poll exchange now).2.wire := by
  obtain ⟨same, added, grown, each⟩ := delivery.extends_run exchange now
  unfold Delivery.poll
  refine ⟨?_, added, grown, fun sent member => ?_⟩
  · rw [Delivery.request_expire, same]
    exact sends
  · rw [each sent member]
    exact sends

theorem extends_advance {task : Task} (sends : task.SendsOnly allowed) (world : World)
    (now : Instant) : (task.advance world now).1.SendsOnly allowed ∧
      world.exchange.wire.Extends allowed (task.advance world now).2.exchange.wire := by
  cases task with
  | delayed wake action | done result finishedAt => exact ⟨sends, .refl _⟩
  | asleep wake | awaitingReset wake announced since =>
    rw [advance]
    split <;> exact ⟨sends_of_request?_eq_none rfl, .refl _⟩
  | acquiring acquisition since =>
    rw [advance]
    split <;> exact ⟨sends_of_request?_eq_none rfl, .refl _⟩
  | lockedOut wake since =>
    rw [advance]
    split
    · split <;> exact ⟨sends_of_request?_eq_none rfl, .refl _⟩
    · exact ⟨sends_of_request?_eq_none rfl, .refl _⟩
  | delivering delivery since | answering delivery since =>
    obtain ⟨own, grown⟩ := extends_poll_delivery (sends _ rfl) world.exchange now
    rw [advance]
    dsimp only
    split
    · exact ⟨sends_of_request?_eq_none rfl, grown⟩
    · refine ⟨fun request member => ?_, grown⟩
      cases Option.mem_some.1 member
      exact own

/-- Beginning an action sends nothing. -/
theorem extends_begin {action : Action} (sends : ∀ request ∈ action.request?, allowed request)
    (world : World) (now : Instant) : (begin action world now).1.SendsOnly allowed ∧
      (begin action world now).2.exchange.wire = world.exchange.wire := by
  cases action with
  | send | call => exact ⟨sends, rfl⟩
  | _ => exact ⟨sends_of_request?_eq_none rfl, rfl⟩

/-- A task that is polled sends its own request only, and goes on doing so. -/
theorem extends_poll {task : Task} (sends : task.SendsOnly allowed) (world : World)
    (now : Instant) : (task.poll world now).1.SendsOnly allowed ∧
      world.exchange.wire.Extends allowed (task.poll world now).2.exchange.wire := by
  cases begun : task.isDelayed with
  | false =>
    rw [poll_of_begun begun]
    exact extends_advance sends world now
  | true =>
    cases task with
    | delayed wake action =>
      rw [poll]
      split
      · obtain ⟨still, same⟩ := extends_begin sends world now
        rw [← same]
        exact extends_advance still _ now
      · exact ⟨sends, .refl _⟩
    | _ => cases begun

end Task

variable {allowed : Request → Prop}

theorem extends_runPruners (world : World) (now : Instant) :
    world.exchange.wire.Extends allowed (world.runPruners now).exchange.wire := by
  rw [World.runPruners_eq]
  exact .refl _

theorem extends_pollAll {tasks : List Task} (sends : ∀ task ∈ tasks, task.SendsOnly allowed)
    (world : World) (now : Instant) :
    (∀ task ∈ (pollAll tasks world now).1, task.SendsOnly allowed) ∧
      world.exchange.wire.Extends allowed (pollAll tasks world now).2.exchange.wire := by
  induction tasks generalizing world with
  | nil => exact ⟨sends, .refl _⟩
  | cons first rest ih =>
    obtain ⟨sendsFirst, sendsRest⟩ := List.forall_mem_cons.1 sends
    obtain ⟨still, grown⟩ := Task.extends_poll sendsFirst world now
    obtain ⟨stillRest, grownRest⟩ := ih sendsRest (first.poll world now).2
    exact ⟨List.forall_mem_cons.2 ⟨still, stillRest⟩, grown.trans grownRest⟩

theorem extends_drive (fuel : Nat) {tasks : List Task}
    (sends : ∀ task ∈ tasks, task.SendsOnly allowed) (session : Session) :
    session.world.exchange.wire.Extends allowed
      (drive fuel tasks session).2.world.exchange.wire := by
  induction fuel generalizing tasks session with
  | zero => exact .refl _
  | succ fuel ih =>
    obtain ⟨now, world⟩ := session
    obtain ⟨still, grown⟩ := extends_pollAll sends world now
    rw [drive]
    dsimp only
    split
    · exact grown
    · next wake _ => exact grown.trans ((extends_runPruners _ _).trans (ih still ⟨wake, _⟩))

/-- What a step of a session sends are the requests of its actions, each as often as it may be. -/
theorem extends_perform (session : Session) (actions : List (Duration × Action)) :
    session.world.exchange.wire.Extends
      (fun request => ∃ delayed ∈ actions, delayed.2.request? = some request)
      (session.perform actions).2.world.exchange.wire := by
  have sends : ∀ task ∈ actions.map fun delayed =>
      Task.delayed (session.now.wakeAfter delayed.1) delayed.2,
      task.SendsOnly fun request => ∃ delayed ∈ actions, delayed.2.request? = some request := by
    intro task member request asked
    obtain ⟨delayed, found, rfl⟩ := List.mem_map.1 member
    exact ⟨delayed, found, asked⟩
  have driven := extends_drive
    (mostMoves actions.length session.world.exchange.wire.replies.length) sends session
  rw [perform]
  dsimp only
  rw [List.length_map]
  exact driven.trans (extends_runPruners _ _)

end Session

end QuotaGate
