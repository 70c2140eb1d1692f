import Mathlib
import QuotaGate.Proofs.Session.Instants
import QuotaGate.Proofs.Session.LockStep
import QuotaGate.Settings.Shown

/-!
# The token stays in its header

A client puts its token into a header of every request, and looks at it nowhere else. So nothing of
a session depends on the token but that header. The proof puts other headers into a session, that
is, into every request that was sent, is on its way or is yet to be made: whatever the session does
with the one it does with the other (`perform_withHeaders`). And since a session of one client stays
the same if the client's own headers are put in, every request that was sent has just these.

Results:
1. `Delivery.step_withHeaders`, `Task.poll_withHeaders`: no move looks at the headers of a request.
2. `perform_withHeaders`, `performEach_withHeaders`: nor does a session.
3. `headers_of_sent`: every request of a client is sent with the headers of the client.
4. `token_stays_in_header`: two sessions whose settings differ in the token differ in that header
   only, and the settings are shown alike.
-/

namespace QuotaGate

open Http (Headers)

/-! ## Other headers -/

namespace Http

def Request.withHeaders (request : Request) (headers : Headers) : Request :=
  { request with headers }

def Sent.withHeaders (sent : Sent) (headers : Headers) : Sent :=
  { sent with request := sent.request.withHeaders headers }

/-- The wire if every request had been sent with other headers. -/
def Wire.withHeaders (wire : Wire) (headers : Headers) : Wire :=
  { wire with sent := wire.sent.map (Sent.withHeaders · headers) }

theorem Wire.send_withHeaders (wire : Wire) (request : Request) (now : Instant)
    (headers : Headers) :
    (wire.withHeaders headers).send (request.withHeaders headers) now =
      ((wire.send request now).1, (wire.send request now).2.1,
        (wire.send request now).2.2.withHeaders headers) := by
  obtain ⟨replies, sent⟩ := wire
  cases replies with
  | nil => simp [send, withHeaders, Sent.withHeaders]
  | cons prepared rest => simp [send, withHeaders, Sent.withHeaders]

end Http

def Exchange.withHeaders (exchange : Exchange) (headers : Headers) : Exchange :=
  { exchange with wire := exchange.wire.withHeaders headers }

namespace Delivery

def withHeaders (delivery : Delivery) (headers : Headers) : Delivery :=
  { delivery with request := delivery.request.withHeaders headers }

variable (delivery : Delivery) (exchange : Exchange) (now : Instant) (headers : Headers)

theorem beginAttempt_withHeaders (gate : Gate) :
    (delivery.withHeaders headers).beginAttempt gate now =
      (delivery.beginAttempt gate now).withHeaders headers := by
  unfold beginAttempt
  split <;> rfl

theorem hold_withHeaders (admission : Admission) :
    (delivery.withHeaders headers).hold admission =
      (delivery.hold admission).withHeaders headers := by
  unfold hold
  split <;> rfl

theorem send_withHeaders :
    (delivery.withHeaders headers).send (exchange.withHeaders headers) now =
      ((delivery.send exchange now).1.withHeaders headers,
        (delivery.send exchange now).2.withHeaders headers) := by
  have sent := exchange.wire.send_withHeaders delivery.request now headers
  unfold send
  simp only [withHeaders, Exchange.withHeaders, sent]
  rfl

theorem afterResponse_withHeaders (response : Http.Response) :
    (delivery.withHeaders headers).afterResponse response now =
      (delivery.afterResponse response now).withHeaders headers := by
  unfold afterResponse
  split
  · rfl
  · rfl
  · unfold afterLimited
    have left : (delivery.withHeaders headers).left = delivery.left := rfl
    rw [left]
    cases delivery.left <;> rfl

theorem receive_withHeaders (reply : Http.Reply) :
    (delivery.withHeaders headers).receive reply (exchange.withHeaders headers) now =
      ((delivery.receive reply exchange now).1.withHeaders headers,
        (delivery.receive reply exchange now).2.withHeaders headers) := by
  cases reply with
  | error reason => rfl
  | ok response =>
    simp only [receive, afterResponse_withHeaders]
    rfl

/-- No move looks at the headers of the request. -/
theorem step_withHeaders :
    (delivery.withHeaders headers).step (exchange.withHeaders headers) now =
      (delivery.step exchange now).map fun (next, after) =>
        (next.withHeaders headers, after.withHeaders headers) := by
  have phase : (delivery.withHeaders headers).phase = delivery.phase := rfl
  unfold step
  rw [phase]
  split
  · simp only [Option.map_some]
    rw [← beginAttempt_withHeaders]
    rfl
  · simp only [Option.map_some, send_withHeaders]
  · simp only [Option.map_map]
    congr 1
    funext next
    exact congrArg (·, _) (delivery.hold_withHeaders headers next)
  · split
    · simp only [Option.map_some, receive_withHeaders]
    · rfl
  · split <;> rfl
  · rfl

theorem run_withHeaders :
    (delivery.withHeaders headers).run (exchange.withHeaders headers) now =
      ((delivery.run exchange now).1.withHeaders headers,
        (delivery.run exchange now).2.withHeaders headers) := by
  refine @rel_run (fun state other =>
    other = (state.1.withHeaders headers, state.2.withHeaders headers)) now ?_
    (delivery, exchange) _ rfl
  rintro ⟨delivery, exchange⟩ _ rfl
  rw [step_withHeaders]
  cases delivery.step exchange now with
  | none => exact .none
  | some following => exact .some rfl

theorem expire_withHeaders :
    (delivery.withHeaders headers).expire now = (delivery.expire now).withHeaders headers := by
  unfold expire
  have sameTest : ((delivery.withHeaders headers).result?.isNone ∧
      (delivery.withHeaders headers).deadline.any (· ≤ now)) =
        (delivery.result?.isNone ∧ delivery.deadline.any (· ≤ now)) := rfl
  simp only [sameTest]
  split <;> rfl

theorem poll_withHeaders :
    (delivery.withHeaders headers).poll (exchange.withHeaders headers) now =
      ((delivery.poll exchange now).1.withHeaders headers,
        (delivery.poll exchange now).2.withHeaders headers) := by
  unfold poll
  rw [run_withHeaders]
  exact congrArg (·, _) (Delivery.expire_withHeaders _ now headers)

end Delivery

def Client.withHeaders (client : Client) (headers : Headers) : Client :=
  { client with headers }

namespace Session

/-- The action if its request carried other headers. -/
def Action.withHeaders (action : Action) (headers : Headers) : Action :=
  match action with
  | .send route request budget timeout => .send route (request.withHeaders headers) budget timeout
  | .call client route body => .call (client.withHeaders headers) route body
  | other => other

/-- The task if its request carried other headers. -/
def Task.withHeaders (task : Task) (headers : Headers) : Task :=
  match task with
  | .delayed wake action => .delayed wake (action.withHeaders headers)
  | .delivering delivery since => .delivering (delivery.withHeaders headers) since
  | .answering delivery since => .answering (delivery.withHeaders headers) since
  | other => other

def World.withHeaders (world : World) (headers : Headers) : World :=
  { world with exchange := world.exchange.withHeaders headers }

namespace Task

variable (headers : Headers)

theorem result?_withHeaders (task : Task) : (task.withHeaders headers).result? = task.result? := by
  cases task <;> rfl

theorem wake?_withHeaders (task : Task) : (task.withHeaders headers).wake? = task.wake? := by
  cases task <;> rfl

theorem advance_withHeaders (task : Task) (world : World) (now : Instant) :
    (task.withHeaders headers).advance (world.withHeaders headers) now =
      ((task.advance world now).1.withHeaders headers,
        (task.advance world now).2.withHeaders headers) := by
  cases task with
  | delayed wake action | done result finishedAt => rfl
  | asleep wake | awaitingReset wake announced since =>
    simp only [withHeaders, advance]
    split <;> rfl
  | acquiring acquisition since =>
    have gate : (world.withHeaders headers).gate = world.gate := rfl
    simp only [withHeaders, advance, gate]
    split <;> rfl
  | lockedOut wake since =>
    have gate : (world.withHeaders headers).gate = world.gate := rfl
    simp only [withHeaders, advance, gate]
    split
    · split <;> rfl
    · rfl
  | delivering delivery since | answering delivery since =>
    have polled := delivery.poll_withHeaders world.exchange now headers
    have result : ((delivery.poll world.exchange now).1.withHeaders headers).result? =
        (delivery.poll world.exchange now).1.result? := rfl
    simp only [withHeaders, World.withHeaders, advance, polled, result]
    split <;> rfl

theorem begin_withHeaders (action : Action) (world : World) (now : Instant) :
    begin (action.withHeaders headers) (world.withHeaders headers) now =
      ((begin action world now).1.withHeaders headers,
        (begin action world now).2.withHeaders headers) := by
  cases action <;> rfl

theorem poll_withHeaders (task : Task) (world : World) (now : Instant) :
    (task.withHeaders headers).poll (world.withHeaders headers) now =
      ((task.poll world now).1.withHeaders headers,
        (task.poll world now).2.withHeaders headers) := by
  cases begun : task.isDelayed with
  | false =>
    have still : (task.withHeaders headers).isDelayed = false := by
      rw [← begun]
      cases task <;> rfl
    rw [poll_of_begun begun, poll_of_begun still, advance_withHeaders]
  | true =>
    cases task with
    | delayed wake action =>
      have delays : (delayed wake action).withHeaders headers =
        delayed wake (action.withHeaders headers) := rfl
      rw [delays]
      simp only [poll, begin_withHeaders, advance_withHeaders]
      split <;> rfl
    | _ => cases begun

end Task

theorem World.runPruners_withHeaders (world : World) (now : Instant) (headers : Headers) :
    (world.withHeaders headers).runPruners now = (world.runPruners now).withHeaders headers := by
  rw [runPruners_eq, runPruners_eq]
  rfl

/-! ## A session with other headers -/

/-- With other headers the tasks of a session go on in lock step. -/
theorem lockStep_withHeaders (headers : Headers) :
    LockStep (fun action other => other = action.withHeaders headers)
      (fun task other => other = task.withHeaders headers)
      (fun world other => other = world.withHeaders headers) id where
  begins wake same := congrArg (Task.delayed wake) same
  polls now := by
    rintro rfl rfl
    rw [Task.poll_withHeaders]
    exact ⟨rfl, rfl⟩
  prunes now := by
    rintro rfl
    exact World.runPruners_withHeaders _ now headers
  wakes := by
    rintro task _ rfl
    exact task.wake?_withHeaders headers
  results := by
    rintro task _ rfl
    rw [Task.result?_withHeaders, Prod.map_id, Option.map_id]
    rfl
  replies := by
    rintro world _ rfl
    rfl

/-- The session if every request carried other headers. -/
def withHeaders (session : Session) (headers : Headers) : Session :=
  { session with world := session.world.withHeaders headers }

/-- Whatever a step does with some headers it does with others. -/
theorem perform_withHeaders (session : Session) (actions : List (Duration × Action))
    (headers : Headers) :
    (session.withHeaders headers).perform
        (actions.map (Prod.map id (Action.withHeaders · headers))) =
      ((session.perform actions).1, (session.perform actions).2.withHeaders headers) := by
  have same : List.Forall₂
      (fun delayed other => other.1 = delayed.1 ∧ other.2 = delayed.2.withHeaders headers)
      actions (actions.map (Prod.map id (Action.withHeaders · headers))) := by
    rw [List.forall₂_map_right_iff]
    exact List.forall₂_same.2 fun delayed _ => ⟨rfl, rfl⟩
  obtain ⟨results, now, world⟩ := @LockStep.alike_perform _ _ _ _ (lockStep_withHeaders headers)
    session (session.withHeaders headers) rfl rfl _ _ same
  rw [Prod.map_id, List.map_id] at results
  exact Prod.ext results (congrArg₂ Session.mk now world)

theorem performEach_withHeaders (session : Session) (steps : List (List (Duration × Action)))
    (headers : Headers) :
    (session.withHeaders headers).performEach
        (steps.map (List.map (Prod.map id (Action.withHeaders · headers)))) =
      (session.performEach steps).map (Prod.map id (withHeaders · headers)) := by
  induction steps generalizing session with
  | nil => rfl
  | cons actions rest ih =>
    simp only [List.map_cons, performEach, perform_withHeaders, ih]
    rfl

end Session

/-! ## Clients with different tokens -/

/-- The headers that carry a token. -/
def Client.tokenHeaders (token : String) : Headers :=
  [(.authorization, ⟨Utf8.encode ("Bot " ++ token), true⟩)]

/-- The settings with another token. -/
def Settings.withToken (settings : Settings) (token : String) : Settings :=
  { settings with server.token := some token }

namespace Client

theorem authorization?_eq_some {token : String} {value : Http.HeaderValue}
    (carried : authorization? token = some value) :
    value = ⟨Utf8.encode ("Bot " ++ token), true⟩ := by
  obtain ⟨plain, found, rfl⟩ := Option.map_eq_some_iff.1 carried
  unfold Http.HeaderValue.ofBytes? at found
  split at found
  · cases found
    rfl
  · cases found

theorem headersOf_withToken {settings : Settings} {token : String} {headers : Headers}
    (built : headersOf (settings.withToken token) = .ok headers) :
    headers = tokenHeaders token := by
  have present : (settings.withToken token).server.token = some token := rfl
  simp only [headersOf, present] at built
  split at built
  · next value carried =>
    cases built
    rw [authorization?_eq_some carried, tokenHeaders]
  · cases built

/-- What a client takes from its settings: the token goes into the headers and nowhere else. -/
theorem ofSettings_withToken {settings : Settings} {token : String} {client : Client}
    (accepted : ofSettings (settings.withToken token) = .ok client) :
    client = {
      root := settings.apiRoot
      headers := tokenHeaders token
      budget := settings.quota.maxAttempts
      timeout := settings.timeout } := by
  simp only [ofSettings, Settings.validate, bind, Except.bind] at accepted
  split at accepted
  · cases accepted
  · next usable validated =>
    split at validated
    · cases validated
    · cases validated
      split at accepted
      · cases accepted
      · next headers built =>
        cases accepted
        rw [headersOf_withToken built]
        rfl

end Client

namespace Session

/-- Whether an action sends a request that is not a client's. -/
def Action.isSend : Action → Bool
  | .send .. => true
  | _ => false

/-- The action with its request made by another client. -/
def Action.withClient (action : Action) (client : Client) : Action :=
  match action with
  | .call _ route body => .call client route body
  | other => other

/-- The steps with all requests made by one client. -/
def stepsOf (client : Client) (steps : List (List (Duration × Action))) :
    List (List (Duration × Action)) :=
  steps.map (List.map (Prod.map id (Action.withClient · client)))

theorem Action.withHeaders_withClient {action : Action} (asked : action.isSend = false)
    (client : Client) (headers : Headers) :
    (action.withClient client).withHeaders headers =
      action.withClient (client.withHeaders headers) := by
  cases action with
  | send route request budget timeout => cases asked
  | _ => rfl

theorem withHeaders_stepsOf {steps : List (List (Duration × Action))}
    (asked : ∀ actions ∈ steps, ∀ delayed ∈ actions, delayed.2.isSend = false)
    (client : Client) (headers : Headers) :
    (stepsOf client steps).map (List.map (Prod.map id (Action.withHeaders · headers))) =
      stepsOf (client.withHeaders headers) steps := by
  rw [stepsOf, stepsOf, List.map_map]
  refine List.map_congr_left fun actions step => ?_
  rw [Function.comp_apply, List.map_map]
  refine List.map_congr_left fun delayed member => ?_
  exact congrArg (delayed.1, ·)
    (Action.withHeaders_withClient (asked actions step delayed member) client headers)

/-- A session of one client and the session of the client with other headers. -/
theorem performEach_stepsOf {steps : List (List (Duration × Action))}
    (asked : ∀ actions ∈ steps, ∀ delayed ∈ actions, delayed.2.isSend = false)
    (settings : Settings) (client : Client) (headers : Headers) (replies : List Http.Prepared) :
    (ofSettings settings replies).performEach (stepsOf (client.withHeaders headers) steps) =
      ((ofSettings settings replies).performEach (stepsOf client steps)).map
        (Prod.map id (withHeaders · headers)) := by
  have unsent : (ofSettings settings replies).withHeaders headers = ofSettings settings replies :=
    rfl
  rw [← performEach_withHeaders, unsent, withHeaders_stepsOf asked]

/-- Every request of a client is sent with the headers of the client. -/
theorem headers_of_sent {steps : List (List (Duration × Action))}
    (asked : ∀ actions ∈ steps, ∀ delayed ∈ actions, delayed.2.isSend = false)
    (settings : Settings) (client : Client) (replies : List Http.Prepared) :
    ∀ outcome ∈ (ofSettings settings replies).performEach (stepsOf client steps),
      ∀ sent ∈ outcome.2.world.exchange.wire.sent, sent.request.headers = client.headers := by
  have unchanged : client.withHeaders client.headers = client := rfl
  have same := performEach_stepsOf asked settings client client.headers replies
  rw [unchanged] at same
  intro outcome member sent found
  rw [same] at member
  obtain ⟨before, -, rfl⟩ := List.mem_map.1 member
  obtain ⟨original, -, rfl⟩ := List.mem_map.1 found
  rfl

/-! ## The token stays in its header -/

/-- Two sessions whose settings differ in the token only, with the same replies and the same
requests, go alike step by step: the same results and failures at the same instants, the same gate,
and the same requests sent at the same instants but for the headers. These hold nothing but the
token, as a value that is meant for the server alone, whenever a request is sent. And the settings
are shown alike. -/
theorem token_stays_in_header (settings : Settings) {token secret : String}
    {first second : Client}
    (accepted : Client.ofSettings (settings.withToken token) = .ok first)
    (acceptedToo : Client.ofSettings (settings.withToken secret) = .ok second)
    (replies : List Http.Prepared) {steps : List (List (Duration × Action))}
    (asked : ∀ actions ∈ steps, ∀ delayed ∈ actions, delayed.2.isSend = false) :
    (ofSettings (settings.withToken secret) replies).performEach (stepsOf second steps) =
        ((ofSettings (settings.withToken token) replies).performEach (stepsOf first steps)).map
          (Prod.map id (withHeaders · [(.authorization, ⟨Utf8.encode ("Bot " ++ secret), true⟩)])) ∧
      (∀ outcome ∈ (ofSettings (settings.withToken token) replies).performEach
          (stepsOf first steps),
        ∀ sent ∈ outcome.2.world.exchange.wire.sent,
          sent.request.headers = [(.authorization, ⟨Utf8.encode ("Bot " ++ token), true⟩)]) ∧
      (∀ outcome ∈ (ofSettings (settings.withToken secret) replies).performEach
          (stepsOf second steps),
        ∀ sent ∈ outcome.2.world.exchange.wire.sent,
          sent.request.headers = [(.authorization, ⟨Utf8.encode ("Bot " ++ secret), true⟩)]) ∧
      (settings.withToken token).shown = (settings.withToken secret).shown := by
  have taken := Client.ofSettings_withToken accepted
  have takenToo := Client.ofSettings_withToken acceptedToo
  have differ : second = first.withHeaders (Client.tokenHeaders secret) := by
    rw [taken, takenToo]
    rfl
  refine ⟨?_, fun outcome member sent found => ?_, fun outcome member sent found => ?_, rfl⟩
  · rw [differ]
    exact performEach_stepsOf asked _ first _ replies
  · rw [headers_of_sent asked _ first replies outcome member sent found, taken]
    rfl
  · rw [headers_of_sent asked _ second replies outcome member sent found, takenToo]
    rfl

/-- A server that rejects the first attempt. -/
def rejectsOnce : List Http.Prepared :=
  [⟨.ok ⟨.tooManyRequests, [], []⟩, 0⟩, ⟨.ok ⟨⟨205, by decide⟩, [], []⟩, 0⟩]

/-- A client of the default settings. -/
def clientWith (token : String) : Client where
  root := Settings.default.apiRoot
  headers := Client.tokenHeaders token
  budget := Settings.default.quota.maxAttempts
  timeout := Settings.default.timeout

/-- The default settings are accepted with any token that a header may hold. -/
theorem accepted_clientWith {token : String}
    (carried : (Utf8.encode ("Bot " ++ token)).all Http.HeaderValue.isValueByte = true) :
    Client.ofSettings (Settings.default.withToken token) = .ok (clientWith token) := by
  have usable : (Settings.default.withToken token).validate =
      .ok (Settings.default.withToken token) := by
    have fault : (Settings.default.withToken token).fault? = none := by
      change Settings.default.fault? = none
      decide
    rw [Settings.validate, fault]
  have value : Client.authorization? token = some ⟨Utf8.encode ("Bot " ++ token), true⟩ := by
    rw [Client.authorization?, Http.HeaderValue.ofBytes?, if_pos carried]
    rfl
  have headers : Client.headersOf (Settings.default.withToken token) =
      .ok (Client.tokenHeaders token) := by
    have present : (Settings.default.withToken token).server.token = some token := rfl
    simp only [Client.headersOf, present, value]
    rfl
  rw [Client.ofSettings, usable]
  simp only [bind, Except.bind, headers]
  rfl

/-- One request. -/
def oneCall : List (List (Duration × Action)) :=
  [[(0, .call (clientWith "") ⟨⟨.get, "a"⟩, "a"⟩ none)]]

/-- A request that is rejected once is sent twice, each time with the token. With another token the
same happens. -/
theorem tokens_of_rejected_request :
    Client.ofSettings (Settings.default.withToken "a") = .ok (clientWith "a") ∧
      Client.ofSettings (Settings.default.withToken "b") = .ok (clientWith "b") ∧
      ((ofSettings (Settings.default.withToken "a") rejectsOnce).performEach
          (stepsOf (clientWith "a") oneCall)).map
        (fun outcome => outcome.2.world.exchange.wire.sent.map fun sent => sent.request.headers) =
          [[Client.tokenHeaders "a", Client.tokenHeaders "a"]] ∧
      (ofSettings (Settings.default.withToken "b") rejectsOnce).performEach
          (stepsOf (clientWith "b") oneCall) =
        ((ofSettings (Settings.default.withToken "a") rejectsOnce).performEach
            (stepsOf (clientWith "a") oneCall)).map
          (Prod.map id (withHeaders · (Client.tokenHeaders "b"))) := by
  have accepted := @accepted_clientWith "a" (by decide)
  have acceptedToo := @accepted_clientWith "b" (by decide)
  have asked : ∀ actions ∈ oneCall, ∀ delayed ∈ actions, delayed.2.isSend = false := by
    intro actions step delayed member
    cases List.mem_singleton.1 step
    cases List.mem_singleton.1 member
    rfl
  exact ⟨accepted, acceptedToo, by cbv,
    (token_stays_in_header Settings.default accepted acceptedToo rejectsOnce asked).1⟩

end Session

end QuotaGate
