import QuotaGate.Delivery.Stage
import QuotaGate.Http.Exchange
import QuotaGate.Quota.Admission

/-!
# Deliveries

A delivery sends one request through the gate and tries again when the server rejects it for
exceeding a quota, as long as attempts are left. Every attempt waits for its admission. A rejection
that is not global may give a hint, and the delivery sleeps that long before it asks for admission
again; a global one has already locked the gate.

A delivery is a machine. `step` makes one move at an instant and is `none` where the delivery has
to wait or has come to its end; `poll` moves on as far as the instant allows and then gives up if
the deadline has passed.
-/

namespace QuotaGate

/-- What deliveries share: the gate and the wire. -/
structure Exchange where
  gate : Gate
  wire : Http.Wire

namespace Delivery

/-- What a delivery is doing. -/
inductive Phase where
  /-- The next attempt is about to begin. -/
  | ready
  /-- Waiting for admission. -/
  | held (admission : Admission)
  /-- A reply is on its way and arrives at an instant. -/
  | inFlight (reply : Http.Reply) (arrival : Instant)
  /-- Sleeping as long as a rejection hinted. -/
  | backingOff (wake : Instant)
  | finished (result : Except Failure Http.Response)

end Delivery

/-- One request on its way. -/
structure Delivery where
  route : RouteKey
  request : Http.Request
  deadline : Option Instant
  /-- The number of the present attempt; zero before the first. -/
  attempt : Nat
  /-- How many attempts are left after the present one. -/
  left : Nat
  phase : Delivery.Phase
  stage : Delivery.Stage
  /-- The changes of stage so far. -/
  changes : List Delivery.Change

namespace Delivery

/-- How many attempts a delivery makes unless set otherwise. -/
def defaultBudget : Nat := 3

/-- A delivery that begins at an instant, with a budget of attempts. A budget of none counts as
one. The deadline is the request's own timeout, or else the given one. -/
def begin (route : RouteKey) (request : Http.Request) (budget : Nat) (timeout : Option Duration)
    (now : Instant) : Delivery where
  route
  request
  deadline := (request.timeout <|> timeout).map now.wakeAfter
  attempt := 0
  left := budget - 1
  phase := .ready
  stage := .pending
  changes := []

/-- Changes the stage and takes note of it. -/
def enter (delivery : Delivery) (stage : Stage) : Delivery :=
  { delivery with
    stage
    changes := delivery.changes ++ [⟨delivery.attempt, delivery.stage, stage⟩] }

/-- Enters a terminal stage with a result. -/
def finish (delivery : Delivery) (stage : Stage) (result : Except Failure Http.Response) :
    Delivery :=
  { delivery.enter stage with phase := .finished result }

/-- The report of a response. The body counts only where it rejects the request for exceeding a
quota. -/
def reportOf (response : Http.Response) : Report :=
  let report := Report.ofHeaders response.headers
  if Verdict.ofStatus response.status = .limited then report.mergeBody response.body else report

/-- What follows a rejection for exceeding a quota: the end when no attempt is left, else a sleep
where a hint asks for one that the lockout does not already cover. -/
def afterLimited (delivery : Delivery) (report : Report) (now : Instant) : Delivery :=
  match delivery.left with
  | 0 => delivery.finish .exhausted (.error (.retriesExhausted delivery.route delivery.attempt))
  | left + 1 =>
    let phase :=
      match report.isGlobal, report.retryAfter with
      | false, some hint => .backingOff (now.wakeAfter hint)
      | _, _ => .ready
    { delivery.enter .rateLimited with left, phase }

def afterResponse (delivery : Delivery) (response : Http.Response) (now : Instant) : Delivery :=
  match Verdict.ofStatus response.status with
  | .succeeded => delivery.finish .succeeded (.ok response)
  | .failed =>
    delivery.finish .failed (.error (.refused response.status (Utf8.decodeLossy response.body)))
  | .limited => delivery.afterLimited (reportOf response) now

def beginAttempt (delivery : Delivery) (gate : Gate) (now : Instant) : Delivery :=
  let delivery := { delivery with attempt := delivery.attempt + 1 }
  let delivery :=
    if gate.lockout.isActive now then delivery.enter .waitingGlobal else delivery
  { delivery with phase := .held .checkingLockout }

/-- Takes note of how far the admission has come. -/
def hold (delivery : Delivery) (admission : Admission) : Delivery :=
  let delivery :=
    if admission = .checkingBucket then delivery.enter .waitingBucket else delivery
  { delivery with phase := .held admission }

def send (delivery : Delivery) (exchange : Exchange) (now : Instant) : Delivery × Exchange :=
  let (reply, arrival, wire) := exchange.wire.send delivery.request now
  ({ delivery.enter .inFlight with phase := .inFlight reply arrival }, { exchange with wire })

/-- Receives a reply. Every response is noted by the gate, whatever its verdict. -/
def receive (delivery : Delivery) (reply : Http.Reply) (exchange : Exchange) (now : Instant) :
    Delivery × Exchange :=
  match reply with
  | .error reason => (delivery.finish .failed (.error (.transport reason)), exchange)
  | .ok response =>
    let event := .observe delivery.route (reportOf response) (.ofStatus response.status)
    (delivery.afterResponse response now, { exchange with gate := exchange.gate.apply event now })

def step (delivery : Delivery) (exchange : Exchange) (now : Instant) :
    Option (Delivery × Exchange) :=
  match delivery.phase with
  | .ready => some (delivery.beginAttempt exchange.gate now, exchange)
  | .held .admitted => some (delivery.send exchange now)
  | .held admission =>
    (admission.step exchange.gate delivery.route now).map fun next =>
      (delivery.hold next, exchange)
  | .inFlight reply arrival =>
    if arrival ≤ now then some (delivery.receive reply exchange now) else none
  | .backingOff wake =>
    if wake ≤ now then some ({ delivery with phase := .ready }, exchange) else none
  | .finished _ => none

/-- What one move can be. -/
inductive Moves (exchange : Exchange) (now : Instant) (delivery : Delivery) :
    Delivery → Exchange → Prop
  | begins : delivery.phase = .ready →
      Moves exchange now delivery (delivery.beginAttempt exchange.gate now) exchange
  | waits {admission next : Admission} : delivery.phase = .held admission →
      admission.step exchange.gate delivery.route now = some next →
      Moves exchange now delivery (delivery.hold next) exchange
  | sends : delivery.phase = .held .admitted →
      Moves exchange now delivery (delivery.send exchange now).1 (delivery.send exchange now).2
  | receives {reply : Http.Reply} {arrival : Instant} : delivery.phase = .inFlight reply arrival →
      arrival ≤ now →
      Moves exchange now delivery (delivery.receive reply exchange now).1
        (delivery.receive reply exchange now).2
  | resumes {wake : Instant} : delivery.phase = .backingOff wake → wake ≤ now →
      Moves exchange now delivery { delivery with phase := .ready } exchange

theorem moves_of_step {delivery next : Delivery} {exchange after : Exchange} {now : Instant}
    (moved : delivery.step exchange now = some (next, after)) :
    Moves exchange now delivery next after := by
  unfold step at moved
  split at moved
  · next ready =>
    cases moved
    exact .begins ready
  · next admitted =>
    cases moved
    exact .sends admitted
  · next admission _ held =>
    simp only [Option.map_eq_some_iff] at moved
    obtain ⟨following, stepped, equal⟩ := moved
    cases equal
    exact .waits held stepped
  · next reply arrival flying =>
    split at moved
    · next due =>
      have received : delivery.receive reply exchange now = (next, after) := Option.some.inj moved
      have moves : Moves exchange now delivery (delivery.receive reply exchange now).1
          (delivery.receive reply exchange now).2 := .receives flying due
      rwa [received] at moves
    · cases moved
  · next wake sleeping =>
    split at moved
    · next due =>
      cases moved
      exact .resumes sleeping due
    · cases moved
  · cases moved

theorem step_of_moves {delivery next : Delivery} {exchange after : Exchange} {now : Instant}
    (moves : Moves exchange now delivery next after) :
    delivery.step exchange now = some (next, after) := by
  unfold step
  cases moves with
  | begins ready => rw [ready]
  | @waits admission next held stepped =>
    rw [held]
    cases admission with
    | admitted => cases stepped
    | _ => simp only [stepped, Option.map_some]
  | sends admitted => rw [admitted]
  | receives flying due => simp only [flying, due, if_true]
  | resumes sleeping due => simp only [sleeping, due, if_true]

/-- How many moves a delivery can make at most at one instant before it uses up an attempt. -/
def rank (delivery : Delivery) (now : Instant) : Nat :=
  match delivery.phase with
  | .backingOff _ => 9
  | .ready => 8
  | .held admission => 3 + admission.rank now
  | .inFlight .. => 2
  | .finished _ => 0

/-- A reply uses up an attempt or ends the delivery. -/
theorem progress_of_receive (delivery : Delivery) (reply : Http.Reply) (exchange : Exchange)
    (now : Instant) :
    (delivery.receive reply exchange now).1.left < delivery.left ∨
      (delivery.receive reply exchange now).1.left = delivery.left ∧
        (delivery.receive reply exchange now).1.rank now = 0 := by
  cases reply with
  | error reason => exact .inr ⟨rfl, rfl⟩
  | ok response =>
    simp only [receive, afterResponse]
    split
    · exact .inr ⟨rfl, rfl⟩
    · exact .inr ⟨rfl, rfl⟩
    · unfold afterLimited
      split
      · exact .inr ⟨rfl, rfl⟩
      · next left used => exact .inl (by simp [used])

/-- Each move uses up an attempt, or leaves fewer moves until that. -/
theorem progress_of_step {delivery next : Delivery} {exchange after : Exchange} {now : Instant}
    (moved : delivery.step exchange now = some (next, after)) :
    next.left < delivery.left ∨ next.left = delivery.left ∧ next.rank now < delivery.rank now := by
  cases moves_of_step moved with
  | begins ready =>
    refine .inr ⟨?_, ?_⟩
    · simp only [beginAttempt]
      split <;> rfl
    · simp [beginAttempt, rank, ready, Admission.rank]
  | waits held stepped =>
    refine .inr ⟨?_, ?_⟩
    · simp only [hold]
      split <;> rfl
    · have fewer := Admission.rank_lt_of_step stepped
      simp only [rank, hold, held]
      omega
  | sends admitted =>
    refine .inr ⟨rfl, ?_⟩
    simp only [rank, send, admitted]
    omega
  | @receives reply arrival flying due =>
    have positive : 0 < delivery.rank now := by simp [rank, flying]
    refine (progress_of_receive delivery reply exchange now).imp id fun ended => ?_
    exact ⟨ended.1, ended.2 ▸ positive⟩
  | resumes sleeping due => exact .inr ⟨rfl, by simp [rank, sleeping]⟩

/-- Moves on as far as the instant allows. -/
def run (delivery : Delivery) (exchange : Exchange) (now : Instant) : Delivery × Exchange :=
  match _moved : delivery.step exchange now with
  | some (next, after) => next.run after now
  | none => (delivery, exchange)
termination_by (delivery.left, delivery.rank now)
decreasing_by
  rcases progress_of_step _moved with fewer | ⟨same, lower⟩
  · exact Prod.Lex.left _ _ fewer
  · rw [same]
    exact Prod.Lex.right _ lower

theorem run_of_step {delivery next : Delivery} {exchange after : Exchange} {now : Instant}
    (moved : delivery.step exchange now = some (next, after)) :
    delivery.run exchange now = next.run after now := by
  rw [run]
  split
  · next other left moves =>
    rw [moved] at moves
    cases moves
    rfl
  · next stuck =>
    rw [moved] at stuck
    cases stuck

theorem run_of_step_eq_none {delivery : Delivery} {exchange : Exchange} {now : Instant}
    (stuck : delivery.step exchange now = none) :
    delivery.run exchange now = (delivery, exchange) := by
  rw [run]
  split
  · next other left moves =>
    rw [stuck] at moves
    cases moves
  · rfl

/-- What the moves keep of two deliveries and of what they share, the runs keep. -/
theorem rel_run {related : Delivery × Exchange → Delivery × Exchange → Prop} {now : Instant}
    (moves : ∀ state other, related state other →
      Option.Rel related (state.1.step state.2 now) (other.1.step other.2 now))
    (state other : Delivery × Exchange) (alike : related state other) :
    related (state.1.run state.2 now) (other.1.run other.2 now) := by
  have kept := moves state other alike
  cases moved : state.1.step state.2 now with
  | none =>
    rw [moved] at kept
    cases movedToo : other.1.step other.2 now with
    | none => rwa [run_of_step_eq_none moved, run_of_step_eq_none movedToo]
    | some following =>
      rw [movedToo] at kept
      cases kept
  | some following =>
    have fewer := progress_of_step moved
    rw [moved] at kept
    cases movedToo : other.1.step other.2 now with
    | none =>
      rw [movedToo] at kept
      cases kept
    | some followingToo =>
      rw [movedToo] at kept
      cases kept with
      | some alikeAfter =>
        rw [run_of_step moved, run_of_step movedToo]
        exact rel_run moves following followingToo alikeAfter
termination_by (state.1.left, state.1.rank now)
decreasing_by
  rcases fewer with used | ⟨same, lower⟩
  · exact Prod.Lex.left _ _ used
  · rw [same]
    exact Prod.Lex.right _ lower

/-- The result, if the delivery has come to its end. -/
def result? (delivery : Delivery) : Option (Except Failure Http.Response) :=
  match delivery.phase with
  | .finished result => some result
  | _ => none

theorem result?_eq_some_iff {delivery : Delivery} {result : Except Failure Http.Response} :
    delivery.result? = some result ↔ delivery.phase = .finished result := by
  unfold result?
  cases delivery.phase <;> simp

theorem result?_eq_none_iff {delivery : Delivery} :
    delivery.result? = none ↔ ∀ result, delivery.phase ≠ .finished result := by
  simp only [Option.eq_none_iff_forall_ne_some, ne_eq, result?_eq_some_iff]

/-- Gives up if the deadline has passed and there is no result. -/
def expire (delivery : Delivery) (now : Instant) : Delivery :=
  if delivery.result?.isNone ∧ delivery.deadline.any (· ≤ now) then
    { delivery with phase := .finished (.error (.timedOut delivery.route)) }
  else delivery

theorem expire_of_deadline_eq_none {delivery : Delivery} (undated : delivery.deadline = none)
    (now : Instant) : delivery.expire now = delivery := by
  simp [expire, undated]

/-- Moves on as far as the instant allows, and then gives up if the deadline has passed. What ends
at the very instant of the deadline is in time. -/
def poll (delivery : Delivery) (exchange : Exchange) (now : Instant) : Delivery × Exchange :=
  let (delivery, exchange) := delivery.run exchange now
  (delivery.expire now, exchange)

/-- The next instant at which something can happen. -/
def wake? (delivery : Delivery) : Option Instant :=
  let wake :=
    match delivery.phase with
    | .held admission => admission.wake?
    | .inFlight _ arrival => some arrival
    | .backingOff wake => some wake
    | .ready | .finished _ => none
  wake.merge min delivery.deadline

end Delivery

end QuotaGate
