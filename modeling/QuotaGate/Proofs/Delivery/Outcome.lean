import QuotaGate.Proofs.Delivery.Alone

/-!
# How a delivery ends

A delivery without a deadline ends with the first reply that is not a rejection for exceeding a
quota, or with the last reply that its budget allows. `IsOutcome` says so without running the
delivery: it counts the calls and names the reply that decides the result. The delivery makes no
call after that one, sends the same request each time, and never runs out of numbers for its
attempts.

Results:
1. `Solo.leads_replied`: an attempt sends the request once and gets the next reply.
2. `Solo.leads_finished`: from one attempt to the next, the delivery ends as `IsOutcome` says.
3. `Session.drive_send`: so does a session that does nothing else, whatever its gate knows at the
   start, and the clock of the session moves only so often.
-/

namespace QuotaGate

/-! ## Replies -/

namespace Http.Wire

/-- The reply to a later call, counted from zero. -/
def replyAt (wire : Wire) (index : Nat) : Reply :=
  (wire.replies[index]?).elim exhausted Prepared.reply

theorem send_fst (wire : Wire) (request : Request) (now : Instant) :
    (wire.send request now).1 = wire.replyAt 0 := by
  unfold send replyAt
  cases wire.replies <;> rfl

theorem sent_send (wire : Wire) (request : Request) (now : Instant) :
    (wire.send request now).2.2.sent = wire.sent ++ [⟨now, request⟩] := by
  unfold send
  cases wire.replies <;> rfl

theorem replyAt_send (wire : Wire) (request : Request) (now : Instant) (index : Nat) :
    (wire.send request now).2.2.replyAt index = wire.replyAt (index + 1) := by
  unfold send replyAt
  cases wire.replies with
  | nil => rfl
  | cons prepared rest => rw [List.getElem?_cons_succ]

end Http.Wire

namespace Delivery

/-- Whether a reply rejects the request for exceeding a quota. -/
def isLimited : Http.Reply → Bool
  | .ok response => response.status = Http.Status.tooManyRequests
  | .error _ => false

/-- The result that a reply stands for if it does not reject the request for exceeding a quota. -/
def conclusion : Http.Reply → Except Failure Http.Response
  | .error reason => .error (.transport reason)
  | .ok response =>
    if response.status.isSuccess then .ok response
    else .error (.refused response.status (Utf8.decodeLossy response.body))

/-- The first of so many replies that is not a rejection for exceeding a quota decides the result,
and no call follows it. If there is none then all calls are made, and the result is the given
failure. -/
structure IsOutcome (replyAt : Nat → Http.Reply) (most calls : Nat)
    (result : Except Failure Http.Response) (exhausted : Failure) : Prop where
  decided : ∀ index < most, (∀ earlier < index, isLimited (replyAt earlier) = true) →
    isLimited (replyAt index) = false → calls = index + 1 ∧ result = conclusion (replyAt index)
  undecided : (∀ index < most, isLimited (replyAt index) = true) →
    calls = most ∧ result = .error exhausted

namespace IsOutcome

variable {replyAt : Nat → Http.Reply} {most calls : Nat} {result : Except Failure Http.Response}
  {exhausted : Failure}

theorem first (other : isLimited (replyAt 0) = false) (positive : 0 < most) :
    IsOutcome replyAt most 1 (conclusion (replyAt 0)) exhausted where
  decided index below limited decides := by
    cases index with
    | zero => exact ⟨rfl, rfl⟩
    | succ index =>
      rw [limited 0 (Nat.succ_pos index)] at other
      cases other
  undecided limited := by
    rw [limited 0 positive] at other
    cases other

theorem last (limited : isLimited (replyAt 0) = true) :
    IsOutcome replyAt 1 1 (.error exhausted) exhausted where
  decided index below earlier decides := by
    rw [Nat.lt_one_iff.1 below, limited] at decides
    cases decides
  undecided _ := ⟨rfl, rfl⟩

theorem next (limited : isLimited (replyAt 0) = true)
    (outcome : IsOutcome (fun index => replyAt (index + 1)) most calls result exhausted) :
    IsOutcome replyAt (most + 1) (calls + 1) result exhausted where
  decided index below earlier decides := by
    cases index with
    | zero =>
      rw [limited] at decides
      cases decides
    | succ index =>
      obtain ⟨counted, decided⟩ := outcome.decided index (Nat.lt_of_succ_lt_succ below)
        (fun before less => earlier (before + 1) (Nat.succ_lt_succ less)) decides
      exact ⟨by rw [counted], decided⟩
  undecided all := by
    obtain ⟨counted, undecided⟩ := outcome.undecided fun index below =>
      all (index + 1) (Nat.succ_lt_succ below)
    exact ⟨by rw [counted], undecided⟩

end IsOutcome

/-! ## What a reply makes of a delivery -/

theorem ofStatus_eq_succeeded_iff (status : Http.Status) :
    Verdict.ofStatus status = .succeeded ↔ status.isSuccess = true := by
  unfold Verdict.ofStatus
  split
  · next success => exact iff_of_true rfl success
  · next failure =>
    refine iff_of_false (fun equal => ?_) failure
    split at equal <;> cases equal

theorem ofStatus_eq_limited_iff (status : Http.Status) :
    Verdict.ofStatus status = .limited ↔ status = Http.Status.tooManyRequests := by
  unfold Verdict.ofStatus
  split
  · next success =>
    refine iff_of_false Verdict.noConfusion fun limited => ?_
    rw [limited] at success
    revert success
    decide
  · split <;> simp [*]

theorem phase_receive_of_not_limited {reply : Http.Reply} (other : isLimited reply = false)
    (delivery : Delivery) (exchange : Exchange) (now : Instant) :
    (delivery.receive reply exchange now).1.phase = .finished (conclusion reply) := by
  cases reply with
  | error reason => rfl
  | ok response =>
    simp only [isLimited, decide_eq_false_iff_not, ← ofStatus_eq_limited_iff] at other
    have succeeds := ofStatus_eq_succeeded_iff response.status
    simp only [receive, afterResponse, conclusion]
    cases verdict : Verdict.ofStatus response.status with
    | succeeded =>
      rw [if_pos (succeeds.1 verdict)]
      rfl
    | failed =>
      have fails : ¬response.status.isSuccess = true := by
        rw [← succeeds, verdict]
        exact Verdict.noConfusion
      rw [if_neg fails]
      rfl
    | limited => exact absurd verdict other

/-- What a rejection leaves: the end on the last attempt, and else another attempt, at once or
after a sleep. -/
theorem receive_of_limited {reply : Http.Reply} (limited : isLimited reply = true)
    (delivery : Delivery) (exchange : Exchange) (now : Instant) :
    (delivery.left = 0 ∧ (delivery.receive reply exchange now).1.phase =
      .finished (.error (.retriesExhausted delivery.route delivery.attempt))) ∨
    (delivery.left = (delivery.receive reply exchange now).1.left + 1 ∧
      ((delivery.receive reply exchange now).1.phase = .ready ∨
        ∃ wake, (delivery.receive reply exchange now).1.phase = .backingOff wake)) := by
  cases reply with
  | error reason => cases limited
  | ok response =>
    simp only [isLimited, decide_eq_true_iff, ← ofStatus_eq_limited_iff] at limited
    simp only [receive, afterResponse, limited, afterLimited]
    cases delivery.left with
    | zero => exact .inl ⟨rfl, rfl⟩
    | succ left =>
      refine .inr ⟨rfl, ?_⟩
      dsimp only
      split
      · exact .inr ⟨_, rfl⟩
      · exact .inl rfl

theorem Same.receive (delivery : Delivery) (reply : Http.Reply) (exchange : Exchange)
    (now : Instant) : delivery.Same (delivery.receive reply exchange now).1 := by
  cases reply with
  | error reason => exact (Same.enter _ _).with_phase _ _
  | ok response =>
    simp only [Delivery.receive, afterResponse]
    split
    · exact (Same.enter _ _).with_phase _ _
    · exact (Same.enter _ _).with_phase _ _
    · unfold afterLimited
      split
      · exact (Same.enter _ _).with_phase _ _
      · exact (Same.enter _ _).with_phase _ _

theorem wire_receive (delivery : Delivery) (reply : Http.Reply) (exchange : Exchange)
    (now : Instant) : (delivery.receive reply exchange now).2.wire = exchange.wire := by
  cases reply <;> rfl

end Delivery

namespace Solo

/-! ## One attempt -/

/-- One more attempt has sent the request. -/
structure Attempted (solo later : Solo) : Prop where
  same :
    ({ solo.delivery with attempt := solo.delivery.attempt + 1 } : Delivery).Same later.delivery
  replyAt : ∀ index, later.exchange.wire.replyAt index = solo.exchange.wire.replyAt (index + 1)
  sent : ∃ instant,
    later.exchange.wire.sent = solo.exchange.wire.sent ++ [⟨instant, solo.delivery.request⟩]

theorem Attempted.trans {solo later last : Solo} (attempted : solo.Attempted later)
    (same : later.delivery.Same last.delivery) (wire : last.exchange.wire = later.exchange.wire) :
    solo.Attempted last :=
  ⟨attempted.same.trans same, wire ▸ attempted.replyAt, wire ▸ attempted.sent⟩

section Attempted

variable {solo later : Solo} (attempted : solo.Attempted later)

include attempted

theorem Attempted.route : later.delivery.route = solo.delivery.route := attempted.same.route

theorem Attempted.request : later.delivery.request = solo.delivery.request :=
  attempted.same.request

theorem Attempted.deadline : later.delivery.deadline = solo.delivery.deadline :=
  attempted.same.deadline

theorem Attempted.attempt : later.delivery.attempt = solo.delivery.attempt + 1 :=
  attempted.same.attempt

theorem Attempted.changes : ∀ change ∈ later.delivery.changes,
    change ∈ solo.delivery.changes ∨ change.attempt = solo.delivery.attempt + 1 :=
  attempted.same.changes

end Attempted

theorem left_beginAttempt (delivery : Delivery) (gate : Gate) (now : Instant) :
    (delivery.beginAttempt gate now).left = delivery.left := by
  unfold Delivery.beginAttempt
  dsimp only
  split <;> rfl

/-- An attempt waits for its admission, sends the request, and waits for the next reply. -/
theorem leads_reply {solo : Solo} (phase : solo.delivery.phase = .ready)
    (undated : solo.delivery.deadline = none) :
    ∃ later arrival, solo.Leads later ∧ solo.Attempted later ∧
      later.delivery.left = solo.delivery.left ∧ arrival ≤ later.session.now ∧
      later.delivery.phase = .inFlight (solo.exchange.wire.replyAt 0) arrival := by
  let begun := solo.move (solo.delivery.beginAttempt solo.exchange.gate solo.session.now)
    solo.exchange
  have begins : solo.Next begun := .move (Delivery.step_of_moves (.begins phase))
  have beginsSame :=
    Delivery.Same.beginAttempt solo.delivery solo.exchange.gate solo.session.now
  obtain ⟨ready, admits, keeps, held⟩ :=
    @admits begun .checkingLockout rfl (beginsSame.deadline.trans undated)
  let sent := ready.move (ready.delivery.send ready.exchange ready.session.now).1
    (ready.delivery.send ready.exchange ready.session.now).2
  have sends : ready.Next sent := .move (Delivery.step_of_moves (.sends held))
  have sendsSame : ready.delivery.Same sent.delivery := .send ..
  have wire : ready.exchange.wire = solo.exchange.wire := keeps.wire
  have request : ready.delivery.request = solo.delivery.request :=
    keeps.same.request.trans beginsSame.request
  have attempted : solo.Attempted sent := by
    refine ⟨beginsSame.trans (keeps.same.trans sendsSame), fun index => ?_, ready.session.now, ?_⟩
    · exact (Http.Wire.replyAt_send _ _ _ index).trans (by rw [wire])
    · exact (Http.Wire.sent_send _ _ _).trans (by rw [wire, request])
  have flying : sent.delivery.phase = .inFlight (solo.exchange.wire.replyAt 0)
      (ready.exchange.wire.send ready.delivery.request ready.session.now).2.1 := by
    rw [← wire, ← Http.Wire.send_fst _ ready.delivery.request ready.session.now]
    rfl
  obtain ⟨later, leads, keepsOn, samePhase, due⟩ :=
    leads_due (by rw [flying]; rfl) (attempted.deadline.trans undated)
  refine ⟨later, _, ?_, attempted.trans keepsOn.same keepsOn.wire, ?_, due, samePhase.trans flying⟩
  · exact (Relation.ReflTransGen.head begins (admits.tail sends)).trans leads
  · exact keepsOn.left.trans (keeps.left.trans (left_beginAttempt ..))

/-- A delivery that sleeps after a rejection goes on. -/
theorem leads_ready {solo : Solo} (undated : solo.delivery.deadline = none)
    (phase : solo.delivery.phase = .ready ∨ ∃ wake, solo.delivery.phase = .backingOff wake) :
    ∃ later, solo.Leads later ∧ solo.Keeps later ∧ later.delivery.phase = .ready := by
  rcases phase with ready | ⟨wake, sleeping⟩
  · exact ⟨solo, .refl, .refl solo, ready⟩
  · have waits : solo.delivery.phase.due? = some wake := by rw [sleeping]; rfl
    obtain ⟨woken, leads, keeps, same, due⟩ := leads_due waits undated
    have resumes := Delivery.step_of_moves (@Delivery.Moves.resumes woken.exchange
      woken.session.now woken.delivery wake (same.trans sleeping) due)
    refine ⟨_, leads.tail (.move resumes), keeps.trans ⟨?_, rfl, rfl, rfl⟩, rfl⟩
    exact (Delivery.Same.refl _).with_phase _ _

/-- What one attempt comes to: the end, or the next attempt. -/
theorem leads_replied {solo : Solo} (phase : solo.delivery.phase = .ready)
    (undated : solo.delivery.deadline = none) :
    ∃ later, solo.Leads later ∧ solo.Attempted later ∧
      (Delivery.isLimited (solo.exchange.wire.replyAt 0) = false ∧
          later.delivery.phase = .finished (Delivery.conclusion (solo.exchange.wire.replyAt 0)) ∨
        Delivery.isLimited (solo.exchange.wire.replyAt 0) = true ∧
          (solo.delivery.left = 0 ∧
              later.delivery.phase = .finished
                (.error (.retriesExhausted solo.delivery.route (solo.delivery.attempt + 1))) ∨
            solo.delivery.left = later.delivery.left + 1 ∧ later.delivery.phase = .ready)) := by
  obtain ⟨tried, arrival, leads, attempted, left, due, flying⟩ := leads_reply phase undated
  generalize solo.exchange.wire.replyAt 0 = reply at flying ⊢
  let received := tried.move (tried.delivery.receive reply tried.exchange tried.session.now).1
    (tried.delivery.receive reply tried.exchange tried.session.now).2
  have receives : tried.Next received := .move (Delivery.step_of_moves (.receives flying due))
  have noted : solo.Attempted received :=
    attempted.trans (Delivery.Same.receive ..) (Delivery.wire_receive ..)
  cases limited : Delivery.isLimited reply with
  | false =>
    refine ⟨received, leads.tail receives, noted, .inl ⟨rfl, ?_⟩⟩
    exact Delivery.phase_receive_of_not_limited limited ..
  | true =>
    rcases Delivery.receive_of_limited limited tried.delivery tried.exchange tried.session.now with
      ⟨none, finished⟩ | ⟨more, again⟩
    · refine ⟨received, leads.tail receives, noted, .inr ⟨rfl, .inl ⟨left ▸ none, ?_⟩⟩⟩
      rw [attempted.route, attempted.attempt] at finished
      exact finished
    · obtain ⟨ready, leadsOn, keeps, phase⟩ :=
        @leads_ready received (noted.deadline.trans undated) again
      refine ⟨ready, (leads.tail receives).trans leadsOn, noted.trans keeps.same keeps.wire, ?_⟩
      refine .inr ⟨rfl, .inr ⟨?_, phase⟩⟩
      rw [keeps.left, ← left]
      exact more

/-! ## One attempt after the other -/

/-- The delivery ends as `IsOutcome` says. -/
theorem leads_finished {solo : Solo} (phase : solo.delivery.phase = .ready)
    (undated : solo.delivery.deadline = none) :
    ∃ (later : Solo) (result : Except Failure Http.Response) (instants : List Instant),
      solo.Leads later ∧ later.delivery.phase = .finished result ∧
      later.exchange.wire.sent =
        solo.exchange.wire.sent ++ instants.map (⟨·, solo.delivery.request⟩) ∧
      (∀ change ∈ later.delivery.changes, change ∈ solo.delivery.changes ∨
        change.attempt ≤ solo.delivery.attempt + (solo.delivery.left + 1)) ∧
      Delivery.IsOutcome solo.exchange.wire.replyAt (solo.delivery.left + 1) instants.length result
        (.retriesExhausted solo.delivery.route
          (solo.delivery.attempt + (solo.delivery.left + 1))) := by
  -- Each rejection but the last leaves one attempt less, and the rest of the replies.
  induction left : solo.delivery.left using Nat.strongRecOn generalizing solo with
  | ind count ih =>
    obtain ⟨replied, leads, attempted, ends⟩ := leads_replied phase undated
    obtain ⟨instant, sent⟩ := attempted.sent
    rcases ends with ⟨other, finished⟩ | ⟨limited, ⟨none, finished⟩ | ⟨more, ready⟩⟩
    · refine ⟨replied, _, [instant], leads, finished, sent, fun change member => ?_, ?_⟩
      · exact (attempted.changes change member).imp id fun new => by omega
      · exact .first other (Nat.succ_pos count)
    · rw [left] at none
      subst none
      refine ⟨replied, _, [instant], leads, finished, sent, fun change member => ?_, .last limited⟩
      exact (attempted.changes change member).imp id fun new => by omega
    · obtain ⟨last, result, instants, leadsOn, finished, sentOn, noted, outcome⟩ :=
        ih replied.delivery.left (by omega) ready (attempted.deadline.trans undated) rfl
      refine ⟨last, result, instant :: instants, leads.trans leadsOn, finished, ?_, ?_, ?_⟩
      · rw [sentOn, sent, attempted.request, List.append_assoc]
        rfl
      · intro change member
        have attempt := attempted.attempt
        rcases noted change member with old | new
        · exact (attempted.changes change old).imp id fun new => by omega
        · exact .inr (by omega)
      · have replies : replied.exchange.wire.replyAt =
            fun index => solo.exchange.wire.replyAt (index + 1) := funext attempted.replyAt
        have attempts : replied.delivery.attempt + (replied.delivery.left + 1) =
            solo.delivery.attempt + (count + 1) := by
          rw [attempted.attempt]
          omega
        rw [replies, attempts, attempted.route] at outcome
        rw [← left, more] at outcome ⊢
        exact .next limited outcome

end Solo

/-! ## A session that sends one request -/

namespace Session

/-- An action begins when its delay is over. -/
theorem drive_delayed_of_early {session : Session} {wake : Instant} (early : ¬wake ≤ session.now)
    (action : Action) (fuel : Nat) :
    drive (fuel + 1) [.delayed wake action] session =
      drive fuel [.delayed wake action] ⟨wake, session.world.runPruners (wake - 1)⟩ := by
  refine drive_of_waits ?_ rfl fuel
  simp only [Task.poll, early, if_false]

theorem drive_delayed_of_due {session : Session} {wake : Instant} (due : wake ≤ session.now)
    (route : RouteKey) (request : Http.Request) (budget : Nat) (timeout : Option Duration)
    (fuel : Nat) :
    drive (fuel + 1) [.delayed wake (.send route request budget timeout)] session =
      drive (fuel + 1)
        [.delivering (.begin route request budget timeout session.now) session.now] session := by
  refine drive_congr ?_ fuel
  simp only [Task.poll, due, if_true, Task.begin]

/-- A request that is sent after a delay is sent as if the session began then. -/
theorem drive_delayed (session : Session) (wake : Instant) (route : RouteKey)
    (request : Http.Request) (budget : Nat) (timeout : Option Duration) :
    ∃ moves started, started.world.exchange.wire = session.world.exchange.wire ∧ ∀ fuel,
      drive (fuel + moves + 1) [.delayed wake (.send route request budget timeout)] session =
        drive (fuel + 1)
          [.delivering (.begin route request budget timeout started.now) started.now] started := by
  by_cases due : wake ≤ session.now
  · exact ⟨0, session, rfl, drive_delayed_of_due due route request budget timeout⟩
  · let started : Session := ⟨wake, session.world.runPruners (wake - 1)⟩
    refine ⟨1, started, rfl, fun fuel => (drive_delayed_of_early due _ _).trans ?_⟩
    exact @drive_delayed_of_due started wake (Nat.le_refl wake) route request budget timeout fuel

/-- A session that sends one request without a deadline comes to an end, whatever its gate and its
pruners are at the start. It sends the request as often as `IsOutcome` says and has the result that
`IsOutcome` says. The numbers of the attempts stay within the budget. -/
theorem drive_send (session : Session) (wake : Instant) (route : RouteKey)
    (request : Http.Request) (budget : Nat) (timeout : Option Duration)
    (undated : (request.timeout <|> timeout) = none) :
    ∃ moves result changes waited finishedAt world, ∃ instants : List Instant,
      (∀ fuel, moves ≤ fuel →
        drive fuel [.delayed wake (.send route request budget timeout)] session =
          ([.done (.delivered result changes waited) finishedAt], ⟨finishedAt, world⟩)) ∧
      world.exchange.wire.sent =
        session.world.exchange.wire.sent ++ instants.map (⟨·, request⟩) ∧
      (∀ change ∈ changes, change.attempt ≤ max budget 1) ∧
      Delivery.IsOutcome session.world.exchange.wire.replyAt (max budget 1) instants.length result
        (.retriesExhausted route (max budget 1)) := by
  obtain ⟨delay, started, wire, delayed⟩ :=
    drive_delayed session wake route request budget timeout
  let first : Solo := ⟨.begin route request budget timeout started.now, started⟩
  have unbounded : first.delivery.deadline = none := by
    show (request.timeout <|> timeout).map _ = none
    rw [undated, Option.map_none]
  obtain ⟨last, result, instants, leads, finished, sent, noted, outcome⟩ :=
    @Solo.leads_finished first rfl unbounded
  obtain ⟨moves, driven⟩ := Solo.drive_of_leads leads started.now
  have budgeted : first.delivery.left + 1 = max budget 1 := by
    show budget - 1 + 1 = max budget 1
    omega
  have counted : first.delivery.attempt + (first.delivery.left + 1) = max budget 1 := by
    rw [budgeted]
    exact Nat.zero_add _
  refine ⟨moves + delay + 1, result, last.delivery.changes, last.session.now.since started.now,
    last.session.now, last.session.world, instants, fun fuel enough => ?_, ?_, ?_, ?_⟩
  · obtain ⟨rest, rfl⟩ := Nat.exists_eq_add_of_le' enough
    rw [show rest + (moves + delay + 1) = rest + moves + delay + 1 by omega, delayed, driven]
    exact Solo.drive_of_result finished rest started.now
  · rw [← wire]
    exact sent
  · intro change member
    rcases noted change member with old | new
    · cases old
    · exact counted ▸ new
  · rw [counted, budgeted] at outcome
    rw [← wire]
    exact outcome

/-- A server that rejects the first request and grants the second. -/
def rejectingOnce : Session :=
  ofGate Gate.defaultFallback
    [⟨.ok ⟨.tooManyRequests, [], []⟩, 0⟩, ⟨.ok ⟨⟨200, by decide⟩, [], []⟩, 0⟩]

theorem drive_send_after_rejection :
    ∃ moves changes waited finishedAt world,
      (∀ fuel, moves ≤ fuel →
        drive fuel [.delayed 0 (.send ⟨.get, "a"⟩ ⟨.get, "a", [], none, none⟩ 3 none)]
            rejectingOnce =
          ([.done (.delivered (.ok ⟨⟨200, by decide⟩, [], []⟩) changes waited) finishedAt],
            ⟨finishedAt, world⟩)) ∧
      world.exchange.wire.sent.length = 2 := by
  obtain ⟨moves, result, changes, waited, finishedAt, world, instants, driven, sent, -, outcome⟩ :=
    drive_send rejectingOnce 0 ⟨.get, "a"⟩ ⟨.get, "a", [], none, none⟩ 3 none rfl
  obtain ⟨calls, decided⟩ := outcome.decided 1 (by decide) (by decide) (by decide)
  refine ⟨moves, changes, waited, finishedAt, world, ?_, ?_⟩
  · rw [decided] at driven
    exact driven
  · rw [sent, List.length_append, List.length_map, calls]
    rfl

end Session

end QuotaGate
