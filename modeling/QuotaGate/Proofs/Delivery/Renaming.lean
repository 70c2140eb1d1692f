import Mathlib.Data.Option.Basic
import Mathlib.Logic.Function.Basic
import QuotaGate.Proofs.Pruner.Ticks

/-!
# Routes by other names

Nobody looks into a route: routes are compared, and the registry is asked for them. So a gate on
which every route goes by another name lets everybody through at the same instants, and a delivery
does the same things on it; only the name that its failure tells is the other one. Two registries
need not be renamed entry by entry for that: it is enough that one knows of every route what the
other knows of its other name.

Results:
1. `Registry.Mirrors.record`, `Gate.Mirrors.apply`: what an event on a route does to one gate, the
   event on its other name does to the other.
2. `Admission.poll_mirrors`: an admission does not depend on the name of its route.
3. `Delivery.mirrors_poll`: nor does a delivery.
-/

namespace QuotaGate

variable {names : RouteKey → RouteKey}

/-! ## What is known -/

/-- The other registry has the same buckets, and counts every route under its other name in the
same bucket. -/
structure Registry.Mirrors (names : RouteKey → RouteKey) (registry other : Registry) : Prop where
  buckets : other.buckets = registry.buckets
  counted : ∀ route, other.bucketId? (names route) = registry.bucketId? route

namespace Registry.Mirrors

variable {registry other : Registry}

theorem wakeAt?_eq (mirrors : registry.Mirrors names other) (route : RouteKey) (now : Instant) :
    other.waitAt (names route) now = registry.waitAt route now ∧
      other.wakeAt? (names route) now = registry.wakeAt? route now := by
  have known : other.bucketOf? (names route) = registry.bucketOf? route := by
    rw [bucketOf?, mirrors.counted, bucketOf?]
    unfold bucket?
    rw [mirrors.buckets]
  have waits : other.waitAt (names route) now = registry.waitAt route now := by
    rw [waitAt, known, waitAt]
  refine ⟨waits, ?_⟩
  rw [wakeAt?, waits, wakeAt?]

theorem record (injective : Function.Injective names) (mirrors : registry.Mirrors names other)
    (route : RouteKey) (report : Report) (now : Instant) :
    (other.record (names route) report now).2 = (registry.record route report now).2 ∧
      (registry.record route report now).1.Mirrors names
        (other.record (names route) report now).1 := by
  unfold Registry.record
  cases Bucket.ofReport? report now with
  | none => exact ⟨rfl, mirrors⟩
  | some bucket =>
    refine ⟨rfl, ?_, fun wanted => ?_⟩
    · show other.buckets.put _ _ = registry.buckets.put _ _
      rw [mirrors.buckets]
    · show (other.routes.put _ _).get? _ = (registry.routes.put _ _).get? _
      -- The entry is for this route on both sides, as no two routes have one other name.
      simp only [Table.get?_put, injective.eq_iff]
      exact congrArg (ite (wanted = route) (some bucket.id)) (mirrors.counted wanted)

theorem prune (mirrors : registry.Mirrors names other) (grace : Duration) (now : Instant) :
    (registry.prune grace now).Mirrors names (other.prune grace now) where
  buckets := by
    simp only [Registry.prune, mirrors.buckets]
  counted route := by
    show (other.routes.retain _).get? _ = (registry.routes.retain _).get? _
    rw [Table.get?_retain, Table.get?_retain, mirrors.buckets]
    exact congrArg (Option.filter _) (mirrors.counted route)

theorem staleCount_eq (mirrors : registry.Mirrors names other) (grace : Duration) (now : Instant) :
    other.staleCount grace now = registry.staleCount grace now := by
  rw [staleCount, mirrors.buckets, (mirrors.prune grace now).buckets, staleCount]

end Registry.Mirrors

/-- The other gate differs in the names of the routes only. -/
structure Gate.Mirrors (names : RouteKey → RouteKey) (gate other : Gate) : Prop where
  registry : gate.registry.Mirrors names other.registry
  lockout : other.lockout = gate.lockout
  fallback : other.fallback = gate.fallback

namespace Gate

/-- The event on a route by another name. -/
def Event.rename (names : RouteKey → RouteKey) : Event → Event
  | observe route report verdict => observe (names route) report verdict
  | record route report => record (names route) report
  | other => other

namespace Mirrors

variable {gate other : Gate}

theorem observe (injective : Function.Injective names) (mirrors : gate.Mirrors names other)
    (route : RouteKey) (report : Report) (verdict : Verdict) (now : Instant) :
    (other.observe (names route) report verdict now).2 =
        (gate.observe route report verdict now).2 ∧
      (gate.observe route report verdict now).1.Mirrors names
        (other.observe (names route) report verdict now).1 := by
  obtain ⟨same, registry⟩ := mirrors.registry.record injective route report now
  have asks : other.lockoutOf? report verdict = gate.lockoutOf? report verdict := by
    rw [lockoutOf?, mirrors.fallback, lockoutOf?]
  refine ⟨same, registry, ?_, mirrors.fallback⟩
  simp only [Gate.observe, asks, mirrors.lockout]

theorem prune (mirrors : gate.Mirrors names other) (grace : Duration) (now : Instant) :
    (gate.apply (.prune grace) now).Mirrors names (other.apply (.prune grace) now) :=
  ⟨mirrors.registry.prune grace now, mirrors.lockout, mirrors.fallback⟩

theorem apply (injective : Function.Injective names) (mirrors : gate.Mirrors names other)
    (event : Event) (now : Instant) :
    (gate.apply event now).Mirrors names (other.apply (event.rename names) now) := by
  cases event with
  | observe route report verdict => exact (mirrors.observe injective route report verdict now).2
  | record route report =>
    have recorded := mirrors.registry.record injective route report now
    exact ⟨recorded.2, mirrors.lockout, mirrors.fallback⟩
  | trigger length =>
    refine ⟨mirrors.registry, ?_, mirrors.fallback⟩
    exact congrArg (Lockout.trigger · length now) mirrors.lockout
  | prune grace => exact mirrors.prune grace now
  | clear => exact ⟨⟨rfl, fun _ => rfl⟩, mirrors.lockout, mirrors.fallback⟩

theorem pruned (mirrors : gate.Mirrors names other) (prunings : List Pruning) :
    (gate.pruned prunings).Mirrors names (other.pruned prunings) := by
  induction prunings generalizing gate other with
  | nil => exact mirrors
  | cons first rest ih =>
    exact ih (mirrors.prune first.2 first.1)

end Mirrors

end Gate

/-! ## Admissions -/

namespace Admission

variable {gate other : Gate}

theorem step_mirrors (mirrors : gate.Mirrors names other) (route : RouteKey) (now : Instant)
    (admission : Admission) :
    admission.step other (names route) now = admission.step gate route now := by
  cases admission with
  | checkingLockout => rw [step, mirrors.lockout, step]
  | checkingBucket => rw [step, (mirrors.registry.wakeAt?_eq route now).2, step]
  | lockedOut wake | awaitingReset wake | admitted => rfl

/-- An admission does not depend on the name of its route. -/
theorem poll_mirrors (mirrors : gate.Mirrors names other) (route : RouteKey) (now : Instant)
    (admission : Admission) :
    admission.poll other (names route) now = admission.poll gate route now := by
  have same := step_mirrors mirrors route now admission
  cases moved : admission.step gate route now with
  | none => rw [poll_of_step_eq_none moved, poll_of_step_eq_none (same.trans moved)]
  | some next =>
    have fewer := rank_lt_of_step moved
    rw [poll_of_step moved, poll_of_step (same.trans moved)]
    exact poll_mirrors mirrors route now next
termination_by admission.rank now

end Admission

/-! ## Deliveries -/

/-- The failure with the other name in it. -/
def Failure.rename (names : RouteKey → RouteKey) : Failure → Failure
  | retriesExhausted route attempts => retriesExhausted (names route) attempts
  | timedOut route => timedOut (names route)
  | other => other

/-- What deliveries share, with other names for the routes. -/
structure Exchange.Mirrors (names : RouteKey → RouteKey) (exchange other : Exchange) : Prop where
  gate : exchange.gate.Mirrors names other.gate
  wire : other.wire = exchange.wire

namespace Delivery

def Phase.rename (names : RouteKey → RouteKey) : Phase → Phase
  | finished result => finished (result.mapError (Failure.rename names))
  | other => other

/-- The delivery for a route by another name. -/
def rename (delivery : Delivery) (names : RouteKey → RouteKey) : Delivery :=
  { delivery with route := names delivery.route, phase := delivery.phase.rename names }

theorem phase_rename (delivery : Delivery) (names : RouteKey → RouteKey) :
    (delivery.rename names).phase = delivery.phase.rename names := rfl

/-- A delivery by another name, and what it shares. -/
structure Mirrors (names : RouteKey → RouteKey) (state other : Delivery × Exchange) : Prop where
  delivery : other.1 = state.1.rename names
  exchange : state.2.Mirrors names other.2

variable {delivery : Delivery} {exchange other : Exchange} {now : Instant}

theorem beginAttempt_rename {gate otherGate : Gate} (mirrors : gate.Mirrors names otherGate)
    (delivery : Delivery) (now : Instant) :
    (delivery.rename names).beginAttempt otherGate now =
      (delivery.beginAttempt gate now).rename names := by
  unfold beginAttempt
  rw [mirrors.lockout]
  split <;> rfl

theorem hold_rename (delivery : Delivery) (admission : Admission) :
    (delivery.rename names).hold admission = (delivery.hold admission).rename names := by
  unfold hold
  split <;> rfl

theorem afterResponse_rename (delivery : Delivery) (response : Http.Response) (now : Instant) :
    (delivery.rename names).afterResponse response now =
      (delivery.afterResponse response now).rename names := by
  unfold afterResponse
  split
  · rfl
  · rfl
  · unfold afterLimited
    have left : (delivery.rename names).left = delivery.left := rfl
    rw [left]
    cases delivery.left with
    | zero => rfl
    | succ left =>
      dsimp only
      split <;> rfl

theorem mirrors_send (mirrors : exchange.Mirrors names other) (delivery : Delivery)
    (now : Instant) :
    Mirrors names (delivery.send exchange now) ((delivery.rename names).send other now) := by
  have request : (delivery.rename names).request = delivery.request := rfl
  refine ⟨?_, ?_, ?_⟩
  · simp only [send, mirrors.wire, request]
    rfl
  · exact mirrors.gate
  · simp only [send, mirrors.wire, request]

theorem mirrors_receive (injective : Function.Injective names)
    (mirrors : exchange.Mirrors names other) (delivery : Delivery) (reply : Http.Reply)
    (now : Instant) :
    Mirrors names (delivery.receive reply exchange now)
      ((delivery.rename names).receive reply other now) := by
  cases reply with
  | error reason => exact ⟨rfl, mirrors⟩
  | ok response =>
    have observed := mirrors.gate.apply injective
      (.observe delivery.route (reportOf response) (.ofStatus response.status)) now
    exact ⟨afterResponse_rename delivery response now, observed, mirrors.wire⟩

/-- While it is held back, a delivery moves as its admission does. -/
theorem step_of_held {admission : Admission} (held : delivery.phase = .held admission)
    (waits : admission ≠ .admitted) (exchange : Exchange) (now : Instant) :
    delivery.step exchange now = (admission.step exchange.gate delivery.route now).map fun next =>
      (delivery.hold next, exchange) := by
  unfold step
  rw [held]
  cases admission with
  | admitted => exact absurd rfl waits
  | checkingLockout | lockedOut wake | checkingBucket | awaitingReset wake => rfl

/-- A move does not depend on the name of the route. -/
theorem mirrors_step (injective : Function.Injective names)
    (mirrors : exchange.Mirrors names other) (delivery : Delivery) (now : Instant) :
    Option.Rel (Mirrors names) (delivery.step exchange now)
      ((delivery.rename names).step other now) := by
  have renamed := delivery.phase_rename names
  cases phase : delivery.phase with
  | held admission =>
    rw [phase] at renamed
    by_cases admitted : admission = .admitted
    · subst admitted
      rw [step_of_moves (.sends phase), step_of_moves (.sends renamed)]
      exact .some (mirrors_send mirrors delivery now)
    · rw [step_of_held phase admitted, step_of_held renamed admitted,
        show (delivery.rename names).route = names delivery.route from rfl,
        Admission.step_mirrors mirrors.gate]
      cases admission.step exchange.gate delivery.route now with
      | none => exact .none
      | some next => exact .some ⟨hold_rename delivery next, mirrors⟩
  | ready =>
    rw [phase] at renamed
    rw [step_of_moves (.begins phase), step_of_moves (.begins renamed)]
    exact .some ⟨beginAttempt_rename mirrors.gate delivery now, mirrors⟩
  | inFlight reply arrival =>
    rw [phase] at renamed
    unfold step
    simp only [phase, renamed, Phase.rename]
    split
    · exact .some (mirrors_receive injective mirrors delivery reply now)
    · exact .none
  | backingOff wake =>
    rw [phase] at renamed
    unfold step
    simp only [phase, renamed, Phase.rename]
    split
    · exact .some ⟨rfl, mirrors⟩
    · exact .none
  | finished result =>
    rw [phase] at renamed
    unfold step
    simp only [phase, renamed, Phase.rename]
    exact .none

theorem mirrors_run (injective : Function.Injective names)
    (mirrors : exchange.Mirrors names other) (delivery : Delivery) (now : Instant) :
    Mirrors names (delivery.run exchange now) ((delivery.rename names).run other now) := by
  refine rel_run (fun state renamed alike => ?_) (delivery, exchange)
    (delivery.rename names, other) ⟨rfl, mirrors⟩
  rw [alike.delivery]
  exact mirrors_step injective alike.exchange state.1 now

theorem result?_rename (delivery : Delivery) : (delivery.rename names).result? =
    delivery.result?.map (Except.mapError (Failure.rename names)) := by
  unfold result?
  rw [phase_rename]
  cases delivery.phase <;> rfl

theorem wake?_rename (delivery : Delivery) : (delivery.rename names).wake? = delivery.wake? := by
  unfold wake?
  rw [phase_rename]
  cases delivery.phase <;> rfl

theorem expire_rename (delivery : Delivery) (now : Instant) :
    (delivery.rename names).expire now = (delivery.expire now).rename names := by
  have sameTest : ((delivery.rename names).result?.isNone ∧
      (delivery.rename names).deadline.any (· ≤ now)) =
        (delivery.result?.isNone ∧ delivery.deadline.any (· ≤ now)) := by
    rw [result?_rename, Option.isNone_map]
    rfl
  unfold expire
  simp only [sameTest]
  split <;> rfl

theorem mirrors_poll (injective : Function.Injective names)
    (mirrors : exchange.Mirrors names other) (delivery : Delivery) (now : Instant) :
    Mirrors names (delivery.poll exchange now) ((delivery.rename names).poll other now) := by
  obtain ⟨same, after⟩ := mirrors_run injective mirrors delivery now
  refine ⟨?_, after⟩
  show ((delivery.rename names).run other now).1.expire now = _
  rw [same]
  exact expire_rename _ now

end Delivery

end QuotaGate
