import QuotaGate.Proofs.Delivery.Outcome
import QuotaGate.Proofs.Gate.History

/-!
# Journals of deliveries

A journal notes what a delivery has to do with the gate and the wire, each note with its instant:
an attempt begins and finds the lockout on or off, the request is sent and the wire has a reply for
it, the reply is received. Everything else that a delivery does is waiting.

`Runs` are the runs of a delivery among others: between two moves anything may happen to the gate
and to the wire. `Solo.Journey` is the run of a delivery that is alone in a session.

Results:
1. `Delivery.follows_of_step`: a move does to the gate and to the wire what it notes, and nothing
   else.
2. `Solo.Leads.exists_journey`: what happens to a delivery without a deadline has a journal.
3. `Solo.Journey.runs`: the run of a delivery alone is one of its runs among others.
-/

namespace QuotaGate

/-! ## Notes -/

namespace Delivery

/-- What a delivery notes. -/
inductive Note where
  /-- An attempt begins, while the lockout is on or off. -/
  | began (locked : Bool)
  /-- The request is sent, and the wire has a reply for it. -/
  | sent (request : Http.Request) (reply : Http.Reply)
  /-- The reply has arrived. -/
  | received (route : RouteKey) (reply : Http.Reply)

namespace Note

/-- What the gate is told. The body of a response counts only where the status rejects the request
for exceeding a quota. -/
def event? : Note → Option Gate.Event
  | received route (.ok response) =>
    let report := Report.ofHeaders response.headers
    let report :=
      if response.status = Http.Status.tooManyRequests then report.mergeBody response.body
      else report
    some (.observe route report (.ofStatus response.status))
  | _ => none

def request? : Note → Option Http.Request
  | sent request _ => some request
  | _ => none

/-- The reply that the wire has. -/
def reply? : Note → Option Http.Reply
  | sent _ reply => some reply
  | _ => none

def locked? : Note → Option Bool
  | began locked => some locked
  | _ => none

theorem event?_received (route : RouteKey) (response : Http.Response) :
    (received route (.ok response)).event? =
      some (.observe route (reportOf response) (.ofStatus response.status)) := by
  have limited := ofStatus_eq_limited_iff response.status
  by_cases rejected : response.status = Http.Status.tooManyRequests
  · simp only [event?, reportOf, if_pos rejected, if_pos (limited.2 rejected)]
  · simp only [event?, reportOf, if_neg rejected, if_neg (mt limited.1 rejected)]

end Note

/-! ## Journals -/

/-- What was noted, each note with its instant. -/
abbrev Journal := List (Instant × Note)

namespace Journal

/-- What the gate was told. -/
def observations (journal : Journal) : Gate.History :=
  journal.filterMap fun entry => entry.2.event?.map (entry.1, ·)

/-- What was sent. -/
def sends (journal : Journal) : List Http.Sent :=
  journal.filterMap fun entry => entry.2.request?.map (⟨entry.1, ·⟩)

/-- The replies that the wire had, in the order of the requests. -/
def replies (journal : Journal) : List Http.Reply := journal.filterMap fun entry => entry.2.reply?

/-- For each attempt, whether the lockout was on when it began. -/
def locks (journal : Journal) : List Bool := journal.filterMap fun entry => entry.2.locked?

variable (earlier later : Journal)

@[simp] theorem observations_append :
    observations (earlier ++ later) = earlier.observations ++ later.observations :=
  List.filterMap_append

@[simp] theorem sends_append : sends (earlier ++ later) = earlier.sends ++ later.sends :=
  List.filterMap_append

@[simp] theorem replies_append : replies (earlier ++ later) = earlier.replies ++ later.replies :=
  List.filterMap_append

@[simp] theorem locks_append : locks (earlier ++ later) = earlier.locks ++ later.locks :=
  List.filterMap_append

end Journal

/-- What the next move of a delivery notes. -/
def entries (delivery : Delivery) (exchange : Exchange) (now : Instant) : Journal :=
  match delivery.phase with
  | .ready => [(now, .began (exchange.gate.lockout.isActive now))]
  | .held .admitted => [(now, .sent delivery.request (exchange.wire.send delivery.request now).1)]
  | .inFlight reply _ => [(now, .received delivery.route reply)]
  | _ => []

section entries

variable {delivery : Delivery} (exchange : Exchange) (now : Instant)

theorem entries_of_ready (ready : delivery.phase = .ready) :
    delivery.entries exchange now = [(now, .began (exchange.gate.lockout.isActive now))] := by
  rw [entries, ready]

theorem entries_of_admitted (admitted : delivery.phase = .held .admitted) :
    delivery.entries exchange now =
      [(now, .sent delivery.request (exchange.wire.send delivery.request now).1)] := by
  rw [entries, admitted]

theorem entries_of_inFlight {reply : Http.Reply} {arrival : Instant}
    (flying : delivery.phase = .inFlight reply arrival) :
    delivery.entries exchange now = [(now, .received delivery.route reply)] := by
  rw [entries, flying]

theorem entries_of_backingOff {wake : Instant} (sleeping : delivery.phase = .backingOff wake) :
    delivery.entries exchange now = [] := by
  rw [entries, sleeping]

theorem entries_of_held {admission next : Admission} (held : delivery.phase = .held admission)
    (stepped : admission.step exchange.gate delivery.route now = some next) :
    delivery.entries exchange now = [] := by
  rw [entries, held]
  cases admission with
  | admitted => cases stepped
  | _ => rfl

theorem fst_eq_of_mem_entries {entry : Instant × Note}
    (member : entry ∈ delivery.entries exchange now) : entry.1 = now := by
  unfold entries at member
  split at member
  case h_4 => cases member
  all_goals
    rw [List.mem_singleton] at member
    rw [member]

end entries

end Delivery

/-! ## The gate and the wire after a journal -/

theorem Http.Wire.replies_send (wire : Wire) (request : Request) (now : Instant) :
    (wire.send request now).2.2.replies = wire.replies.drop 1 := by
  unfold send
  cases wire.replies <;> rfl

theorem Http.Wire.replyAt_of_drop {wire later : Wire} {count : Nat}
    (dropped : later.replies = wire.replies.drop count) (index : Nat) :
    later.replyAt index = wire.replyAt (count + index) := by
  rw [replyAt, replyAt, dropped, List.getElem?_drop]

namespace Exchange

/-- The gate and the wire after what a journal tells: the gate was told what the journal says and
nothing else, and each request was handed the next reply. -/
structure Follows (start : Exchange) (journal : Delivery.Journal) (exchange : Exchange) : Prop where
  gate : exchange.gate = start.gate.replay journal.observations
  sent : exchange.wire.sent = start.wire.sent ++ journal.sends
  replies : journal.replies = (List.range journal.replies.length).map start.wire.replyAt
  remaining : exchange.wire.replies = start.wire.replies.drop journal.replies.length

namespace Follows

theorem refl (exchange : Exchange) : exchange.Follows [] exchange :=
  ⟨rfl, (List.append_nil _).symm, rfl, rfl⟩

theorem trans {first second third : Exchange} {earlier later : Delivery.Journal}
    (before : first.Follows earlier second) (after : second.Follows later third) :
    first.Follows (earlier ++ later) third where
  gate := by
    rw [after.gate, before.gate, Delivery.Journal.observations_append, Gate.replay_append]
  sent := by
    rw [after.sent, before.sent, Delivery.Journal.sends_append, List.append_assoc]
  replies := by
    have shifted : second.wire.replyAt =
        fun index => first.wire.replyAt (earlier.replies.length + index) :=
      funext (Http.Wire.replyAt_of_drop before.remaining)
    rw [Delivery.Journal.replies_append, List.length_append, List.range_add, List.map_append,
      List.map_map, ← before.replies]
    exact congrArg _ (after.replies.trans (by rw [shifted]; rfl))
  remaining := by
    rw [after.remaining, before.remaining, List.drop_drop, Delivery.Journal.replies_append,
      List.length_append]

end Follows

end Exchange

namespace Delivery

/-- A move does to the gate and to the wire what it notes. -/
theorem follows_of_step {delivery next : Delivery} {exchange after : Exchange} {now : Instant}
    (moved : delivery.step exchange now = some (next, after)) :
    exchange.Follows (delivery.entries exchange now) after := by
  cases moves_of_step moved with
  | begins ready =>
    rw [entries_of_ready exchange now ready]
    exact ⟨rfl, (List.append_nil _).symm, rfl, rfl⟩
  | waits held stepped =>
    rw [entries_of_held exchange now held stepped]
    exact .refl exchange
  | sends admitted =>
    rw [entries_of_admitted exchange now admitted]
    refine ⟨rfl, Http.Wire.sent_send .., ?_, Http.Wire.replies_send ..⟩
    exact congrArg (fun reply => [reply]) (Http.Wire.send_fst ..)
  | @receives reply arrival flying due =>
    rw [entries_of_inFlight exchange now flying]
    refine ⟨?_, ?_, rfl, ?_⟩
    · cases reply with
      | error reason => rfl
      | ok response =>
        simp only [Journal.observations, List.filterMap_cons, Note.event?_received, Option.map_some,
          List.filterMap_nil, Gate.replay_cons, Gate.replay_nil, receive]
    · rw [wire_receive]
      exact (List.append_nil _).symm
    · rw [wire_receive]
      rfl
  | resumes sleeping due =>
    rw [entries_of_backingOff exchange now sleeping]
    exact .refl exchange

/-- Whom a delivery is for, what it sends and until when never change. -/
theorem constant_of_step {delivery next : Delivery} {exchange after : Exchange} {now : Instant}
    (moved : delivery.step exchange now = some (next, after)) :
    next.route = delivery.route ∧ next.request = delivery.request ∧
      next.deadline = delivery.deadline := by
  have same : ∀ {attempt : Nat} {later : Delivery},
      ({ delivery with attempt } : Delivery).Same later → later.route = delivery.route ∧
        later.request = delivery.request ∧ later.deadline = delivery.deadline :=
    fun same => ⟨same.route, same.request, same.deadline⟩
  cases moves_of_step moved with
  | begins ready => exact same (.beginAttempt ..)
  | waits held stepped => exact same (.hold ..)
  | sends admitted => exact same (.send ..)
  | receives flying due => exact same (.receive ..)
  | resumes sleeping due => exact ⟨rfl, rfl, rfl⟩

theorem result?_of_step {delivery next : Delivery} {exchange after : Exchange} {now : Instant}
    (moved : delivery.step exchange now = some (next, after)) : delivery.result? = none := by
  refine result?_eq_none_iff.2 fun result finished => ?_
  rw [step, finished] at moved
  cases moved

/-! ## Runs among others -/

/-- The runs of a delivery and their journals. Each move finds the gate and the wire as they are by
then, and the delivery gives up when its deadline has passed and there is no move to make. -/
inductive Runs (first : Delivery) : Journal → Delivery → Prop
  | refl : Runs first [] first
  | move {journal : Journal} {delivery next : Delivery} {exchange after : Exchange}
      {now : Instant} : Runs first journal delivery →
      delivery.step exchange now = some (next, after) →
      Runs first (journal ++ delivery.entries exchange now) next
  | expire {journal : Journal} {delivery : Delivery} {exchange : Exchange} {now : Instant} :
      Runs first journal delivery → delivery.step exchange now = none →
      Runs first journal (delivery.expire now)

theorem Runs.trans {first second third : Delivery} {earlier later : Journal}
    (before : first.Runs earlier second) (after : second.Runs later third) :
    first.Runs (earlier ++ later) third := by
  induction after with
  | refl => rwa [List.append_nil]
  | move _ moved ih =>
    rw [← List.append_assoc]
    exact ih.move moved
  | expire _ stuck ih => exact ih.expire stuck

theorem Runs.constant {first delivery : Delivery} {journal : Journal}
    (runs : first.Runs journal delivery) : delivery.route = first.route ∧
      delivery.request = first.request ∧ delivery.deadline = first.deadline := by
  induction runs with
  | refl => exact ⟨rfl, rfl, rfl⟩
  | move _ moved ih =>
    obtain ⟨route, request, deadline⟩ := constant_of_step moved
    exact ⟨route.trans ih.1, request.trans ih.2.1, deadline.trans ih.2.2⟩
  | expire _ stuck ih =>
    unfold Delivery.expire
    split <;> exact ih

end Delivery

/-! ## A delivery alone -/

namespace Solo

/-- The run of a delivery without a deadline that is alone in a session, and its journal. -/
inductive Journey : Solo → Delivery.Journal → Solo → Prop
  | refl (solo : Solo) : Journey solo [] solo
  | move {solo last : Solo} {journal : Delivery.Journal} {next : Delivery} {after : Exchange} :
      solo.delivery.step solo.exchange solo.session.now = some (next, after) →
      Journey (solo.move next after) journal last →
      Journey solo (solo.delivery.entries solo.exchange solo.session.now ++ journal) last
  | sleep {solo last : Solo} {journal : Delivery.Journal} {wake : Instant} :
      solo.delivery.step solo.exchange solo.session.now = none → solo.delivery.result? = none →
      solo.delivery.deadline = none → solo.delivery.wake? = some wake →
      Journey (solo.sleep wake) journal last → Journey solo journal last

theorem Leads.exists_journey {solo last : Solo} (leads : solo.Leads last) :
    ∃ journal, solo.Journey journal last := by
  induction leads using Relation.ReflTransGen.head_induction_on with
  | refl => exact ⟨[], .refl last⟩
  | head first _ ih =>
    obtain ⟨journal, rest⟩ := ih
    cases first with
    | move moved => exact ⟨_, .move moved rest⟩
    | sleep stuck running undated waits => exact ⟨journal, .sleep stuck running undated waits rest⟩

section finished

variable {solo last : Solo} {journal : Delivery.Journal} {result : Except Failure Http.Response}

/-- Where a delivery can move, its journey to the end begins with the move. -/
theorem Journey.of_step (journey : solo.Journey journal last)
    (ends : last.delivery.result? = some result) {next : Delivery} {after : Exchange}
    (moved : solo.delivery.step solo.exchange solo.session.now = some (next, after)) :
    ∃ rest, journal = solo.delivery.entries solo.exchange solo.session.now ++ rest ∧
      (solo.move next after).Journey rest last := by
  cases journey with
  | refl =>
    rw [Delivery.result?_of_step moved] at ends
    cases ends
  | move other rest =>
    rw [moved] at other
    cases other
    exact ⟨_, rfl, rest⟩
  | sleep stuck =>
    rw [moved] at stuck
    cases stuck

/-- Where a delivery has to wait, its journey to the end goes on when what it waits for is due. -/
theorem Journey.of_due (journey : solo.Journey journal last)
    (ends : last.delivery.result? = some result) {due : Instant}
    (waits : solo.delivery.phase.due? = some due) (early : ¬due ≤ solo.session.now) :
    (solo.sleep due).Journey journal last := by
  cases journey with
  | refl =>
    rw [Delivery.result?_of_due waits] at ends
    cases ends
  | move moved =>
    rw [Delivery.step_eq_none_of_not_due waits early] at moved
    cases moved
  | sleep _ _ undated found rest =>
    rw [Delivery.wake?_of_deadline_eq_none undated, waits] at found
    cases found
    exact rest

end finished

/-- Among others, too, a delivery may run as it does alone. -/
theorem Journey.runs {solo last : Solo} {journal : Delivery.Journal}
    (journey : solo.Journey journal last) : solo.delivery.Runs journal last.delivery := by
  induction journey with
  | refl solo => exact .refl
  | move moved _ ih => exact (Delivery.Runs.refl.move moved).trans ih
  | sleep _ _ _ _ _ ih => exact ih

end Solo

end QuotaGate
