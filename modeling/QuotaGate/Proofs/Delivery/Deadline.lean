import QuotaGate.Proofs.Delivery.Journal
import QuotaGate.Proofs.Delivery.Moment

/-!
# What a deadline cuts off

A delivery with a deadline does what it does without one, up to its deadline and including what
happens at that very instant. If it has not ended by then it gives up, and what it would have done
later is not done: the rest of its journal is cut off.

Results:
1. `Delivery.step_cutAt`: a deadline makes no difference to a move.
2. `Solo.Journey.drive_cutAt`: until the deadline a session does the same with and without it.
3. `Session.drive_deadline`: a session that runs a delivery with a deadline ends as it does without
   one, or else at the deadline, with the part of the journal up to then.
-/

namespace QuotaGate

/-! ## Journals up to a point of time -/

namespace Delivery.Journal

def upTo (journal : Journal) (stop : Instant) : Journal :=
  journal.filter fun entry => entry.1 ≤ stop

theorem upTo_append (earlier later : Journal) (stop : Instant) :
    upTo (earlier ++ later) stop = earlier.upTo stop ++ later.upTo stop :=
  List.filter_append earlier later

end Delivery.Journal

/-! ## A deadline makes no difference to a move -/

namespace Delivery

/-- The same delivery with another deadline. -/
def cutAt (delivery : Delivery) (stop : Instant) : Delivery :=
  { delivery with deadline := some stop }

variable (delivery : Delivery) (stop now : Instant)

theorem beginAttempt_cutAt (gate : Gate) :
    (delivery.cutAt stop).beginAttempt gate now = (delivery.beginAttempt gate now).cutAt stop := by
  unfold beginAttempt
  dsimp only
  split <;> rfl

theorem hold_cutAt (admission : Admission) :
    (delivery.cutAt stop).hold admission = (delivery.hold admission).cutAt stop := by
  unfold hold
  dsimp only
  split <;> rfl

theorem receive_cutAt (reply : Http.Reply) (exchange : Exchange) :
    (delivery.cutAt stop).receive reply exchange now =
      ((delivery.receive reply exchange now).1.cutAt stop,
        (delivery.receive reply exchange now).2) := by
  cases reply with
  | error reason => rfl
  | ok response =>
    simp only [receive, afterResponse]
    split
    · rfl
    · rfl
    · obtain ⟨route, request, deadline, attempt, left, phase, stage, changes⟩ := delivery
      cases left <;> rfl

theorem step_cutAt {delivery next : Delivery} {exchange after : Exchange} {now : Instant}
    (moved : delivery.step exchange now = some (next, after)) (stop : Instant) :
    (delivery.cutAt stop).step exchange now = some (next.cutAt stop, after) := by
  refine step_of_moves ?_
  cases moves_of_step moved with
  | begins ready =>
    rw [← beginAttempt_cutAt]
    exact .begins ready
  | waits held stepped =>
    rw [← hold_cutAt]
    exact .waits held stepped
  | sends admitted => exact @Moves.sends _ _ (delivery.cutAt stop) admitted
  | @receives reply arrival flying due =>
    have received := @Moves.receives exchange now (delivery.cutAt stop) reply arrival flying due
    rwa [receive_cutAt] at received
  | resumes sleeping due => exact @Moves.resumes _ _ (delivery.cutAt stop) _ sleeping due

/-- Where a delivery has to wait, it has to with a deadline as well. -/
theorem step_cutAt_of_stuck {delivery : Delivery} {exchange : Exchange} {now : Instant}
    (stuck : delivery.step exchange now = none) (stop : Instant) :
    (delivery.cutAt stop).step exchange now = none := by
  have same : (delivery.cutAt stop).phase = delivery.phase := rfl
  rcases due_of_step_eq_none stuck with ⟨due, waits, early⟩ | ⟨result, finished⟩
  · exact step_eq_none_of_not_due (same ▸ waits) (Nat.not_le.2 early)
  · rw [step, same, finished]

theorem expire_of_early {delivery : Delivery} {stop now : Instant}
    (dated : delivery.deadline = some stop) (early : now < stop) :
    delivery.expire now = delivery := by
  simp [expire, dated, Nat.not_le.2 early]

theorem wake?_cutAt {delivery : Delivery} {due : Instant} (waits : delivery.phase.due? = some due)
    {stop : Instant} : (delivery.cutAt stop).wake? = some (min due stop) := by
  have same : (delivery.cutAt stop).phase.due? = some due := waits
  rw [wake?_eq_merge, same]
  rfl

end Delivery

/-! ## The clock of a journey -/

theorem Session.World.runPruners_of_alone {world : World} (alone : world.pruners = []) (now : Instant) :
    world.runPruners now = world := by
  rw [runPruners, alone]
  obtain ⟨exchange, pruners⟩ := world
  cases alone
  rfl

namespace Solo

/-- The same session with a deadline for its delivery. -/
def cutAt (solo : Solo) (stop : Instant) : Solo := ⟨solo.delivery.cutAt stop, solo.session⟩

variable {solo last : Solo} {journal : Delivery.Journal} {stop : Instant}

/-- A delivery that sleeps wakes later, when what it waits for is due. -/
theorem due_of_sleep {wake : Instant}
    (stuck : solo.delivery.step solo.exchange solo.session.now = none)
    (running : solo.delivery.result? = none) (undated : solo.delivery.deadline = none)
    (waits : solo.delivery.wake? = some wake) :
    solo.delivery.phase.due? = some wake ∧ solo.session.now < wake := by
  rw [Delivery.wake?_of_deadline_eq_none undated] at waits
  refine ⟨waits, ?_⟩
  rcases Delivery.due_of_step_eq_none stuck with ⟨due, found, later⟩ | ⟨result, finished⟩
  · rw [waits] at found
    cases found
    exact later
  · exact absurd finished (Delivery.result?_eq_none_iff.1 running result)

theorem Journey.le_now (journey : solo.Journey journal last) :
    solo.session.now ≤ last.session.now := by
  induction journey with
  | refl => exact Nat.le_refl _
  | move _ _ ih => exact ih
  | sleep stuck running undated waits _ ih =>
    exact Nat.le_trans (Nat.le_of_lt (due_of_sleep stuck running undated waits).2) ih

/-- Everything is noted at its instant. -/
theorem Journey.dated (journey : solo.Journey journal last) :
    ∀ entry ∈ journal, solo.session.now ≤ entry.1 ∧ entry.1 ≤ last.session.now := by
  induction journey with
  | refl => exact fun entry member => absurd member List.not_mem_nil
  | move moved rest ih =>
    intro entry member
    rcases List.mem_append.1 member with now | later
    · rw [Delivery.fst_eq_of_mem_entries _ _ now]
      exact ⟨Nat.le_refl _, rest.le_now⟩
    · exact ih entry later
  | sleep stuck running undated waits _ ih =>
    intro entry member
    obtain ⟨begun, ended⟩ := ih entry member
    have later := (due_of_sleep stuck running undated waits).2
    exact ⟨Nat.le_trans (Nat.le_of_lt later) begun, ended⟩

/-- With no pruners, the gate and the wire are what the journal tells. -/
theorem Journey.follows (journey : solo.Journey journal last)
    (alone : solo.session.world.pruners = []) : solo.exchange.Follows journal last.exchange ∧
      last.session.world.pruners = [] := by
  induction journey with
  | refl solo => exact ⟨.refl solo.exchange, alone⟩
  | move moved _ ih =>
    obtain ⟨follows, still⟩ := ih alone
    exact ⟨(Delivery.follows_of_step moved).trans follows, still⟩
  | @sleep solo _ _ wake _ _ _ _ _ ih =>
    have same : (solo.sleep wake).session.world = solo.session.world :=
      Session.World.runPruners_of_alone alone _
    rw [exchange, same] at ih
    exact ih alone

/-- A journey that goes beyond a point of time comes to a sleep beyond it. -/
theorem Journey.exists_sleep (journey : solo.Journey journal last) (early : solo.session.now ≤ stop)
    (late : stop < last.session.now) :
    ∃ before after middle due, journal = before ++ after ∧ solo.Journey before middle ∧
      middle.session.now ≤ stop ∧
      middle.delivery.step middle.exchange middle.session.now = none ∧
      middle.delivery.phase.due? = some due ∧ stop < due ∧
      (middle.sleep due).Journey after last := by
  induction journey with
  | refl => exact absurd early (Nat.not_le.2 late)
  | move moved _ ih =>
    obtain ⟨before, after, middle, due, rfl, reached, rest⟩ := ih early late
    exact ⟨_, after, middle, due, (List.append_assoc ..).symm, .move moved reached, rest⟩
  | @sleep solo _ journal wake stuck running undated waits rest ih =>
    by_cases inTime : wake ≤ stop
    · obtain ⟨before, after, middle, due, split, reached, rest⟩ := ih inTime late
      exact ⟨before, after, middle, due, split, .sleep stuck running undated waits reached, rest⟩
    · refine ⟨[], journal, solo, wake, rfl, .refl solo, early, stuck, ?_, Nat.not_le.1 inTime, rest⟩
      exact (due_of_sleep stuck running undated waits).1

/-! ## Up to the deadline, and no further -/

/-- Until the deadline the session does the same with and without it. -/
theorem Journey.drive_cutAt (journey : solo.Journey journal last) (inTime : last.session.now ≤ stop)
    (since : Instant) :
    ∃ moves, ∀ fuel,
      Session.drive (fuel + moves + 1) [.delivering (solo.delivery.cutAt stop) since]
          solo.session =
        Session.drive (fuel + 1) [.delivering (last.delivery.cutAt stop) since] last.session := by
  induction journey with
  | refl => exact ⟨0, fun fuel => rfl⟩
  | @move solo _ _ _ _ moved _ ih =>
    obtain ⟨moves, rest⟩ := ih inTime
    refine ⟨moves, fun fuel => Eq.trans ?_ (rest fuel)⟩
    exact @drive_of_move (solo.cutAt stop) _ _ (Delivery.step_cutAt moved stop) _ since
  | @sleep solo _ _ wake stuck running undated waits rest ih =>
    obtain ⟨due, later⟩ := due_of_sleep stuck running undated waits
    have before : wake ≤ stop := Nat.le_trans rest.le_now inTime
    obtain ⟨moves, driven⟩ := ih inTime
    refine ⟨moves + 1, fun fuel => Eq.trans ?_ (driven fuel)⟩
    refine @drive_of_sleep (solo.cutAt stop) wake (Delivery.step_cutAt_of_stuck stuck stop) running
      ?_ ?_ _ since
    · exact Delivery.expire_of_early rfl (Nat.lt_of_lt_of_le later before)
    · exact (Delivery.wake?_cutAt due).trans (congrArg some (Nat.min_eq_left before))

/-- A delivery that has to wait at its deadline gives up. -/
theorem drive_of_expired {delivery : Delivery} {world : Session.World}
    (stuck : delivery.step world.exchange stop = none) (running : delivery.result? = none)
    (dated : delivery.deadline = some stop) (fuel : Nat) (since : Instant) :
    Session.drive (fuel + 1) [.delivering delivery since] ⟨stop, world⟩ =
      ([.done (.delivered (.error (.timedOut delivery.route)) delivery.changes (stop.since since))
        stop], ⟨stop, world⟩) := by
  have polled : delivery.poll world.exchange stop =
      ({ delivery with phase := .finished (.error (.timedOut delivery.route)) },
        world.exchange) := by
    simp [Delivery.poll, Delivery.run_of_step_eq_none stuck, Delivery.expire, running, dated]
  refine Session.drive_of_rests ?_ rfl fuel
  simp only [Session.Task.poll, Session.Task.advance, polled]
  rfl

/-- A delivery that waits for something beyond its deadline gives up at the deadline. -/
theorem drive_of_cut {due : Instant}
    (stuck : solo.delivery.step solo.exchange solo.session.now = none)
    (waits : solo.delivery.phase.due? = some due) (late : stop < due)
    (early : solo.session.now ≤ stop) (alone : solo.session.world.pruners = []) (fuel : Nat)
    (since : Instant) :
    Session.drive (fuel + 2) [.delivering (solo.delivery.cutAt stop) since] solo.session =
      ([.done (.delivered (.error (.timedOut solo.delivery.route)) solo.delivery.changes
        (stop.since since)) stop], ⟨stop, solo.session.world⟩) := by
  have running : solo.delivery.result? = none := Delivery.result?_of_due waits
  have expired : ∀ fuel, Session.drive (fuel + 1) [.delivering (solo.delivery.cutAt stop) since]
      ⟨stop, solo.session.world⟩ = ([.done (.delivered (.error (.timedOut solo.delivery.route))
        solo.delivery.changes (stop.since since)) stop], ⟨stop, solo.session.world⟩) := by
    intro fuel
    refine @drive_of_expired stop (solo.delivery.cutAt stop) _ ?_ running rfl fuel since
    exact Delivery.step_cutAt_of_stuck
      (Delivery.step_eq_none_of_not_due waits (Nat.not_le.2 late)) stop
  rcases Nat.eq_or_lt_of_le early with arrived | before
  · obtain ⟨delivery, now, world⟩ := solo
    cases arrived
    exact expired (fuel + 1)
  · have asleep := @drive_of_sleep (solo.cutAt stop) stop (Delivery.step_cutAt_of_stuck stuck stop)
      running (Delivery.expire_of_early rfl before)
      ((Delivery.wake?_cutAt waits).trans (congrArg some (Nat.min_eq_right (Nat.le_of_lt late))))
      (fuel + 1) since
    refine asleep.trans ?_
    show Session.drive (fuel + 1) _ ⟨stop, solo.session.world.runPruners (stop - 1)⟩ = _
    rw [Session.World.runPruners_of_alone alone]
    exact expired fuel

/-- A delivery that ends by its deadline ends as it does without one. -/
theorem Journey.drive_cutAt_of_inTime {result : Except Failure Http.Response}
    (journey : solo.Journey journal last) (finished : last.delivery.phase = .finished result)
    (inTime : last.session.now ≤ stop) (since : Instant) :
    ∃ moves, ∀ fuel, moves ≤ fuel →
      Session.drive fuel [.delivering (solo.delivery.cutAt stop) since] solo.session =
        ([.done (.delivered result last.delivery.changes (last.session.now.since since))
          last.session.now], last.session) := by
  obtain ⟨moves, driven⟩ := journey.drive_cutAt inTime since
  refine ⟨moves + 1, fun fuel enough => ?_⟩
  obtain ⟨more, rfl⟩ := Nat.exists_eq_add_of_le' enough
  exact (driven more).trans (@drive_of_result (last.cutAt stop) result finished more since)

theorem Journey.upTo_of_le (journey : solo.Journey journal last)
    (reached : last.session.now ≤ stop) : journal.upTo stop = journal := by
  refine List.filter_eq_self.2 fun entry member => decide_eq_true ?_
  exact Nat.le_trans (journey.dated entry member).2 reached

theorem Journey.upTo_of_lt (journey : solo.Journey journal last)
    (beyond : stop < solo.session.now) : journal.upTo stop = [] := by
  refine List.filter_eq_nil_iff.2 fun entry member => ?_
  rw [decide_eq_true_iff, Nat.not_le]
  exact Nat.lt_of_lt_of_le beyond (journey.dated entry member).1

/-- A delivery that does not end by its deadline gives up then. It has done what the journal notes
up to the deadline. -/
theorem Journey.drive_cutAt_of_late (journey : solo.Journey journal last)
    (early : solo.session.now ≤ stop) (late : stop < last.session.now)
    (alone : solo.session.world.pruners = []) (since : Instant) :
    ∃ moves changes world, solo.exchange.Follows (journal.upTo stop) world.exchange ∧
      ∀ fuel, moves ≤ fuel →
        Session.drive fuel [.delivering (solo.delivery.cutAt stop) since] solo.session =
          ([.done (.delivered (.error (.timedOut solo.delivery.route)) changes (stop.since since))
            stop], ⟨stop, world⟩) := by
  obtain ⟨before, after, middle, due, rfl, reached, present, stuck, waits, beyond, rest⟩ :=
    journey.exists_sleep early late
  obtain ⟨follows, still⟩ := reached.follows alone
  obtain ⟨moves, driven⟩ := reached.drive_cutAt present since
  have route : middle.delivery.route = solo.delivery.route := reached.runs.constant.1
  refine ⟨moves + 2, middle.delivery.changes, middle.session.world, ?_, fun fuel enough => ?_⟩
  · rw [Delivery.Journal.upTo_append, reached.upTo_of_le present, rest.upTo_of_lt beyond,
      List.append_nil]
    exact follows
  · obtain ⟨more, rfl⟩ := Nat.exists_eq_add_of_le' enough
    rw [show more + (moves + 2) = more + 1 + moves + 1 by omega, driven,
      drive_of_cut stuck waits beyond present still, route]

end Solo

/-! ## A session with a deadline -/

namespace Session

/-- A session that does nothing but send a request with a deadline. Without the deadline the delivery
would end sooner or later. If it would end by the deadline, then it ends just so. Otherwise it gives
up at the deadline, which is a whole millisecond, and the gate and the wire are then what the journal
of the delivery without a deadline tells up to this instant. -/
theorem drive_deadline (session : Session) (alone : session.world.pruners = []) (route : RouteKey)
    (request : Http.Request) (budget : Nat) (timeout : Option Duration) (longest : Duration)
    (bounded : (request.timeout <|> timeout) = some longest)
    (near : session.now + longest ≤ Instant.latest) :
    let undated : Delivery :=
      { Delivery.begin route request budget timeout session.now with deadline := none }
    let stop := (session.now + longest).ceilMillis
    ∃ journal last result moves, (Solo.mk undated session).Journey journal last ∧
      last.delivery.result? = some result ∧
      session.world.exchange.Follows journal last.exchange ∧
      (∀ fuel, moves ≤ fuel → drive fuel [.delivering undated session.now] session =
        ([.done (.delivered result last.delivery.changes (last.session.now.since session.now))
          last.session.now], last.session)) ∧
      (last.session.now ≤ stop → ∀ fuel, moves ≤ fuel →
        drive fuel [.delayed session.now (.send route request budget timeout)] session =
          ([.done (.delivered result last.delivery.changes (last.session.now.since session.now))
            last.session.now], last.session)) ∧
      (stop < last.session.now → ∃ changes world,
        session.world.exchange.Follows (journal.upTo stop) world.exchange ∧
        ∀ fuel, moves ≤ fuel →
          drive fuel [.delayed session.now (.send route request budget timeout)] session =
            ([.done (.delivered (.error (.timedOut route)) changes (stop.since session.now)) stop],
              ⟨stop, world⟩)) := by
  intro undated stop
  let first : Solo := ⟨undated, session⟩
  obtain ⟨last, result, -, leads, finished, -⟩ := @Solo.leads_finished first rfl rfl
  have ends : last.delivery.result? = some result := Delivery.result?_eq_some_iff.2 finished
  obtain ⟨journal, journey⟩ := leads.exists_journey
  have follows := (journey.follows alone).1
  obtain ⟨free, unbounded⟩ := leads.drive_finished finished session.now
  have begins : Delivery.begin route request budget timeout session.now = undated.cutAt stop := by
    rw [Delivery.begin, bounded, Option.map_some, Instant.wakeAfter_of_le near]
    rfl
  have delayed : ∀ fuel, 1 ≤ fuel →
      drive fuel [.delayed session.now (.send route request budget timeout)] session =
        drive fuel [.delivering (undated.cutAt stop) session.now] session := by
    intro fuel enough
    obtain ⟨more, rfl⟩ := Nat.exists_eq_add_of_le' enough
    rw [← begins]
    exact drive_delayed_of_due (Nat.le_refl _) route request budget timeout more
  rcases Nat.lt_or_ge stop last.session.now with late | inTime
  · have early : session.now ≤ stop :=
      Nat.le_trans (Nat.le_add_right _ longest) (Instant.le_ceilMillis _)
    obtain ⟨moves, changes, world, cut, driven⟩ :=
      journey.drive_cutAt_of_late early late alone session.now
    refine ⟨journal, last, result, free + moves + 1, journey, ends, follows, ?_, ?_, ?_⟩
    · exact fun fuel enough => unbounded fuel (by omega)
    · exact fun inTime => absurd inTime (Nat.not_le.2 late)
    · refine fun _ => ⟨changes, world, cut, fun fuel enough => ?_⟩
      rw [delayed fuel (by omega)]
      exact driven fuel (by omega)
  · obtain ⟨moves, driven⟩ := journey.drive_cutAt_of_inTime finished inTime session.now
    refine ⟨journal, last, result, free + moves + 1, journey, ends, follows, ?_, ?_, ?_⟩
    · exact fun fuel enough => unbounded fuel (by omega)
    · intro _ fuel enough
      rw [delayed fuel (by omega)]
      exact driven fuel (by omega)
    · exact fun late => absurd inTime (Nat.not_le.2 late)

/-- A server whose reply takes three seconds. -/
def replyingSlowly : Session :=
  ofGate Gate.defaultFallback [⟨.ok ⟨⟨201, by decide⟩, [], []⟩, Duration.ofSeconds 3⟩]

set_option maxRecDepth 8000 in
/-- With a deadline after one second the request is sent, and its reply is never received. -/
theorem drive_deadline_before_reply :
    ∃ moves changes world,
      world.gate = replyingSlowly.world.gate ∧
      world.exchange.wire.sent = [⟨0, ⟨.get, "a", [], none, none⟩⟩] ∧
      ∀ fuel, moves ≤ fuel →
        drive fuel [.delayed 0 (.send ⟨.get, "a"⟩ ⟨.get, "a", [], none, none⟩ 3
            (some (Duration.ofSeconds 1)))] replyingSlowly =
          ([.done (.delivered (.error (.timedOut ⟨.get, "a"⟩)) changes (Duration.ofSeconds 1))
            (Duration.ofSeconds 1)], ⟨Duration.ofSeconds 1, world⟩) := by
  obtain ⟨journal, last, result, moves, journey, ends, -, -, -, cut⟩ :=
    drive_deadline replyingSlowly rfl ⟨.get, "a"⟩ ⟨.get, "a", [], none, none⟩ 3
      (some (Duration.ofSeconds 1)) (Duration.ofSeconds 1) rfl (by decide)
  obtain ⟨_, first, begun⟩ := journey.of_step ends (Delivery.step_of_moves (.begins rfl))
  obtain ⟨_, second, clear⟩ := begun.of_step ends (Delivery.step_of_moves (.waits rfl rfl))
  obtain ⟨_, third, free⟩ := clear.of_step ends (Delivery.step_of_moves (.waits rfl rfl))
  obtain ⟨rest, fourth, sent⟩ := free.of_step ends (Delivery.step_of_moves (.sends rfl))
  have flying := sent.of_due ends rfl (by decide)
  have late : Duration.ofSeconds 1 < Duration.ofSeconds 3 := by decide
  obtain ⟨changes, world, follows, driven⟩ := cut (Nat.lt_of_lt_of_le late flying.le_now)
  have noted : journal.upTo (Duration.ofSeconds 1) =
      [(0, .began false), (0, .sent ⟨.get, "a", [], none, none⟩ (.ok ⟨⟨201, by decide⟩, [], []⟩))] := by
    rw [first, second, third, fourth]
    simp only [Delivery.Journal.upTo_append, flying.upTo_of_lt late]
    rfl
  refine ⟨moves, changes, world, ?_, ?_, driven⟩
  · exact follows.gate.trans (congrArg _ (congrArg _ noted))
  · exact follows.sent.trans (congrArg _ (congrArg _ noted))

end Session

end QuotaGate
