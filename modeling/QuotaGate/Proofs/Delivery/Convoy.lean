import QuotaGate.Proofs.Delivery.Journal
import QuotaGate.Proofs.Registry.History

/-!
# Deliveries side by side

A convoy is any number of deliveries that share one gate and one wire. `Next` is everything that can
happen next: time passes, a delivery begins, a delivery makes one move, or a delivery with no move to
make gives up at its deadline. Between two moves of one delivery everything else may happen, so the
order of the moves is as free as it can be. The log notes what each delivery had to do with the gate
and the wire.

Results:
1. `Delivery.Runs.converses`: a delivery makes one call after the other, and receives the reply to
   each before it makes the next one.
2. `Convoy.Reaches.sound`: whatever order the moves come in, the gate and the wire are what the log
   tells, and each delivery has run as it says.
3. `Convoy.Reaches.accounts`: so no reply is lost or handed out twice, and the gate knows what was
   received and nothing else.
-/

namespace QuotaGate

namespace Delivery

/-! ## One call after the other -/

/-- Whether a note is about a call. -/
def Note.isCall : Note → Bool
  | began _ => false
  | sent .. | received .. => true

/-- The notes about calls. -/
def Journal.calls (journal : Journal) : List Note :=
  (journal.map Prod.snd).filter Note.isCall

theorem Journal.calls_append (earlier later : Journal) :
    calls (earlier ++ later) = earlier.calls ++ later.calls := by
  rw [calls, List.map_append, List.filter_append]
  rfl

/-- What is noted of calls that were answered, and of one that was not answered yet. -/
def conversation (route : RouteKey) (request : Http.Request) (answered : List Http.Reply)
    (pending : Option Http.Reply) : List Note :=
  (answered.flatMap fun reply => [.sent request reply, .received route reply]) ++
    (pending.map (Note.sent request)).toList

theorem conversation_sent (route : RouteKey) (request : Http.Request) (answered : List Http.Reply)
    (reply : Http.Reply) :
    conversation route request answered none ++ [.sent request reply] =
      conversation route request answered (some reply) := by
  rw [conversation, Option.map_none, Option.toList_none, List.append_nil]
  rfl

theorem conversation_received (route : RouteKey) (request : Http.Request)
    (answered : List Http.Reply) (reply : Http.Reply) :
    conversation route request answered (some reply) ++ [.received route reply] =
      conversation route request (answered ++ [reply]) none := by
  simp [conversation]

/-- The reply that is on its way. -/
def Phase.reply? : Phase → Option Http.Reply
  | inFlight reply _ => some reply
  | _ => none

/-- The calls in a journal were all answered but the one that is in flight. A reply that is in
flight when the deadline passes is never received. -/
def Converses (delivery : Delivery) (journal : Journal) : Prop :=
  ∃ answered pending,
    journal.calls = conversation delivery.route delivery.request answered pending ∧
      (delivery.result? ≠ some (.error (.timedOut delivery.route)) →
        pending = delivery.phase.reply?)

theorem reply?_receive (delivery : Delivery) (reply : Http.Reply) (exchange : Exchange)
    (now : Instant) : (delivery.receive reply exchange now).1.phase.reply? = none := by
  cases limited : isLimited reply with
  | false =>
    rw [phase_receive_of_not_limited limited]
    rfl
  | true =>
    rcases receive_of_limited limited delivery exchange now with ⟨-, phase⟩ | ⟨-, phase | ⟨wake, phase⟩⟩
    all_goals
      rw [phase]
      rfl

/-- A move adds to the conversation what it notes. -/
theorem exists_conversation_of_step {delivery next : Delivery} {exchange after : Exchange}
    {now : Instant} (moved : delivery.step exchange now = some (next, after))
    (answered : List Http.Reply) :
    ∃ later, conversation delivery.route delivery.request answered delivery.phase.reply? ++
        (delivery.entries exchange now).calls =
      conversation delivery.route delivery.request later next.phase.reply? := by
  cases moves_of_step moved with
  | begins ready =>
    rw [entries_of_ready exchange now ready, ready]
    exact ⟨answered, List.append_nil _⟩
  | waits held stepped =>
    rw [entries_of_held exchange now held stepped, held]
    exact ⟨answered, List.append_nil _⟩
  | sends admitted =>
    rw [entries_of_admitted exchange now admitted, admitted]
    exact ⟨answered, conversation_sent ..⟩
  | @receives reply arrival flying due =>
    rw [entries_of_inFlight exchange now flying, flying, reply?_receive]
    exact ⟨answered ++ [reply], conversation_received ..⟩
  | resumes sleeping due =>
    rw [entries_of_backingOff exchange now sleeping, sleeping]
    exact ⟨answered, List.append_nil _⟩

theorem Converses.move {delivery next : Delivery} {journal : Journal} {exchange after : Exchange}
    {now : Instant} (converses : delivery.Converses journal)
    (moved : delivery.step exchange now = some (next, after)) :
    next.Converses (journal ++ delivery.entries exchange now) := by
  obtain ⟨answered, pending, calls, settled⟩ := converses
  obtain ⟨route, request, -⟩ := constant_of_step moved
  obtain ⟨later, conversed⟩ := exists_conversation_of_step moved answered
  have flying : pending = delivery.phase.reply? := by
    refine settled ?_
    rw [result?_of_step moved]
    exact (Option.some_ne_none _).symm
  refine ⟨later, next.phase.reply?, ?_, fun _ => rfl⟩
  rw [Journal.calls_append, calls, flying, conversed, route, request]

/-- Giving up adds nothing. -/
theorem Converses.expire {delivery : Delivery} {journal : Journal}
    (converses : delivery.Converses journal) (now : Instant) :
    (delivery.expire now).Converses journal := by
  unfold Delivery.expire
  split
  · obtain ⟨answered, pending, calls, -⟩ := converses
    exact ⟨answered, pending, calls, fun inTime => absurd rfl inTime⟩
  · exact converses

theorem Runs.converses {first delivery : Delivery} {journal : Journal}
    (runs : first.Runs journal delivery) (ready : first.phase = .ready) :
    delivery.Converses journal := by
  induction runs with
  | refl => exact ⟨[], none, rfl, fun _ => by rw [ready]; rfl⟩
  | move _ moved ih => exact ih.move moved
  | @expire _ _ _ now _ stuck ih => exact ih.expire now

end Delivery

/-! ## What the registry knows -/

/-- Unless it is pruned or cleared, what a registry knows of a bucket it knew from the start, or was
told as it is. -/
theorem Gate.bucket?_replay {gate : Gate} {history : Gate.History} {id : String} {bucket : Bucket}
    (known : (gate.replay history).registry.bucket? id = some bucket) :
    gate.registry.bucket? id = some bucket ∨
      ∃ entry ∈ history, ∃ route, entry.2.Describes entry.1 route bucket := by
  induction history using List.reverseRecOn with
  | nil => exact .inl known
  | append_singleton history entry ih =>
    obtain ⟨now, event⟩ := entry
    rw [replay_concat, apply_registry, Registry.bucket?_onRegistry_eq_some_iff] at known
    rcases known with ⟨⟨route, described⟩, -⟩ | ⟨before, -, -⟩
    · exact .inr ⟨_, List.mem_append_right _ (List.mem_singleton_self _), route, described⟩
    · refine Or.imp_right (fun told => ?_) (ih before)
      obtain ⟨entry, member, described⟩ := told
      exact ⟨entry, List.mem_append_left _ member, described⟩

/-! ## Convoys -/

/-- Deliveries on one gate and one wire at an instant, each at its place, and what they noted so
far. -/
structure Convoy where
  now : Instant
  exchange : Exchange
  deliveries : Nat → Option Delivery
  /-- The notes of all deliveries, each with the place of its delivery. -/
  log : List (Nat × Instant × Delivery.Note)

namespace Convoy

def opening (exchange : Exchange) (now : Instant) : Convoy := ⟨now, exchange, fun _ => none, []⟩

/-- The notes of all deliveries. -/
def journal (convoy : Convoy) : Delivery.Journal := convoy.log.map Prod.snd

/-- The notes of one delivery. -/
def journalOf (convoy : Convoy) (place : Nat) : Delivery.Journal :=
  (convoy.log.filter fun entry => entry.1 = place).map Prod.snd

/-- A delivery comes to its place. -/
def come (convoy : Convoy) (place : Nat) (delivery : Delivery) : Convoy :=
  { convoy with deliveries := Function.update convoy.deliveries place (some delivery) }

/-- What the delivery at a place has done. -/
def follow (convoy : Convoy) (place : Nat) (next : Delivery) (after : Exchange)
    (noted : Delivery.Journal) : Convoy where
  now := convoy.now
  exchange := after
  deliveries := Function.update convoy.deliveries place (some next)
  log := convoy.log ++ noted.map (place, ·)

/-- What can happen next. -/
inductive Next (convoy : Convoy) : Convoy → Prop
  /-- Time passes. -/
  | pass {later : Instant} : convoy.now ≤ later → Next convoy { convoy with now := later }
  /-- A delivery begins. -/
  | begin {place : Nat} (route : RouteKey) (request : Http.Request) (budget : Nat)
      (timeout : Option Duration) : convoy.deliveries place = none →
      Next convoy (convoy.come place (.begin route request budget timeout convoy.now))
  /-- A delivery makes a move. -/
  | move {place : Nat} {delivery next : Delivery} {after : Exchange} :
      convoy.deliveries place = some delivery →
      delivery.step convoy.exchange convoy.now = some (next, after) →
      Next convoy
        (convoy.follow place next after (delivery.entries convoy.exchange convoy.now))
  /-- A delivery gives up if its deadline has passed and there is no move to make. -/
  | expire {place : Nat} {delivery : Delivery} : convoy.deliveries place = some delivery →
      delivery.step convoy.exchange convoy.now = none →
      Next convoy (convoy.follow place (delivery.expire convoy.now) convoy.exchange [])

def Reaches : Convoy → Convoy → Prop := Relation.ReflTransGen Next

/-- The gate and the wire are what the log tells, and each delivery has run as it says. -/
structure Sound (start : Exchange) (convoy : Convoy) : Prop where
  follows : start.Follows convoy.journal convoy.exchange
  ordered : convoy.journal.Pairwise fun earlier later => earlier.1 ≤ later.1
  past : ∀ entry ∈ convoy.journal, entry.1 ≤ convoy.now
  owned : ∀ entry ∈ convoy.log, convoy.deliveries entry.1 ≠ none
  runs : ∀ place delivery, convoy.deliveries place = some delivery →
    ∃ route request budget timeout began,
      (Delivery.begin route request budget timeout began).Runs (convoy.journalOf place) delivery

theorem deliveries_come (convoy : Convoy) (place : Nat) (delivery : Delivery) :
    (convoy.come place delivery).deliveries =
      Function.update convoy.deliveries place (some delivery) := rfl

theorem deliveries_follow (convoy : Convoy) (place : Nat) (next : Delivery) (after : Exchange)
    (noted : Delivery.Journal) : (convoy.follow place next after noted).deliveries =
      Function.update convoy.deliveries place (some next) := rfl

theorem journal_follow (convoy : Convoy) (place : Nat) (next : Delivery) (after : Exchange)
    (noted : Delivery.Journal) :
    (convoy.follow place next after noted).journal = convoy.journal ++ noted := by
  simp [journal, follow, Function.comp_def]

theorem journalOf_follow (convoy : Convoy) (place : Nat) (next : Delivery) (after : Exchange)
    (noted : Delivery.Journal) (other : Nat) :
    (convoy.follow place next after noted).journalOf other =
      convoy.journalOf other ++ if place = other then noted else [] := by
  by_cases same : place = other <;>
    simp [journalOf, follow, List.filter_map, Function.comp_def, same]

variable {start : Exchange} {convoy later : Convoy}

/-- A delivery that comes has noted nothing yet. -/
theorem Sound.come (sound : convoy.Sound start) {place : Nat} (empty : convoy.deliveries place = none)
    (route : RouteKey) (request : Http.Request) (budget : Nat) (timeout : Option Duration) :
    (convoy.come place (.begin route request budget timeout convoy.now)).Sound start where
  follows := sound.follows
  ordered := sound.ordered
  past := sound.past
  owned := by
    intro entry member
    by_cases same : entry.1 = place
    · exact absurd (same ▸ empty) (sound.owned entry member)
    · rw [deliveries_come, Function.update_of_ne same]
      exact sound.owned entry member
  runs := by
    intro other found located
    by_cases same : other = place
    · subst same
      rw [deliveries_come, Function.update_self] at located
      cases located
      have silent : convoy.journalOf other = [] := by
        rw [journalOf, List.filter_eq_nil_iff.2, List.map_nil]
        intro entry member
        rw [decide_eq_true_iff]
        exact fun same => sound.owned entry member (same ▸ empty)
      refine ⟨route, request, budget, timeout, convoy.now, ?_⟩
      show Delivery.Runs _ (convoy.journalOf other) _
      rw [silent]
      exact .refl
    · rw [deliveries_come, Function.update_of_ne same] at located
      exact sound.runs other found located

/-- What one delivery does leaves the log right, and the other deliveries as they are. -/
theorem Sound.follow (sound : convoy.Sound start) {place : Nat} {delivery next : Delivery}
    {after : Exchange} {noted : Delivery.Journal}
    (present : convoy.deliveries place = some delivery)
    (follows : convoy.exchange.Follows noted after) (dated : ∀ entry ∈ noted, entry.1 = convoy.now)
    (runs : ∀ first journal, Delivery.Runs first journal delivery →
      first.Runs (journal ++ noted) next) :
    (convoy.follow place next after noted).Sound start where
  follows := by
    rw [journal_follow]
    exact sound.follows.trans follows
  ordered := by
    rw [journal_follow, List.pairwise_append]
    refine ⟨sound.ordered, List.pairwise_of_forall_mem_list ?_, ?_⟩
    · intro earlier old later new
      exact Nat.le_of_eq ((dated earlier old).trans (dated later new).symm)
    · intro earlier old later new
      exact dated later new ▸ sound.past earlier old
  past := by
    rw [journal_follow]
    intro entry member
    rcases List.mem_append.1 member with old | new
    · exact sound.past entry old
    · exact Nat.le_of_eq (dated entry new)
  owned := by
    intro entry member
    rw [deliveries_follow]
    by_cases same : entry.1 = place
    · rw [same, Function.update_self]
      exact Option.some_ne_none next
    · rw [Function.update_of_ne same]
      rcases List.mem_append.1 member with old | new
      · exact sound.owned entry old
      · obtain ⟨note, -, rfl⟩ := List.mem_map.1 new
        exact absurd rfl same
  runs := by
    intro other found located
    rw [journalOf_follow]
    by_cases same : other = place
    · subst same
      rw [deliveries_follow, Function.update_self] at located
      cases located
      obtain ⟨route, request, budget, timeout, began, ran⟩ := sound.runs other delivery present
      rw [if_pos rfl]
      exact ⟨route, request, budget, timeout, began, runs _ _ ran⟩
    · rw [deliveries_follow, Function.update_of_ne same] at located
      rw [if_neg (Ne.symm same), List.append_nil]
      exact sound.runs other found located

theorem Sound.next (sound : convoy.Sound start) (happens : convoy.Next later) :
    later.Sound start := by
  cases happens with
  | pass ordered =>
    have past : ∀ entry ∈ convoy.journal, entry.1 ≤ _ := fun entry member =>
      Nat.le_trans (sound.past entry member) ordered
    exact ⟨sound.follows, sound.ordered, past, sound.owned, sound.runs⟩
  | begin route request budget timeout empty => exact sound.come empty route request budget timeout
  | @move place delivery next after present moved =>
    refine sound.follow present (Delivery.follows_of_step moved) ?_ fun first journal ran => ?_
    · exact fun entry member => Delivery.fst_eq_of_mem_entries _ _ member
    · exact .move ran moved
  | @expire place delivery present stuck =>
    refine sound.follow present (.refl _) ?_ fun first journal ran => ?_
    · exact fun entry member => absurd member List.not_mem_nil
    · rw [List.append_nil]
      exact .expire ran stuck

theorem Reaches.sound {began : Instant} (reaches : (opening start began).Reaches convoy) :
    convoy.Sound start := by
  induction reaches with
  | refl =>
    refine ⟨.refl start, .nil, ?_, ?_, ?_⟩
    · exact fun entry member => absurd member List.not_mem_nil
    · exact fun entry member => absurd member List.not_mem_nil
    · exact fun place delivery located => absurd located (Option.some_ne_none delivery).symm
  | tail _ happens ih => exact ih.next happens

/-! ## What becomes of the replies -/

/-- Whatever the deliveries, their deadlines and the order of their moves: the gate is the first gate
after the responses that were received, in the order and at the instants of their receipt; each
request was handed the next reply of the wire; and each delivery received the reply to a call before
its next call and before its end, unless its deadline cut it off. So whatever the registry knows of
a bucket it knew from the start, or a response has said it as it is. -/
theorem Reaches.accounts {began : Instant} (reaches : (opening start began).Reaches convoy) :
    start.Follows convoy.journal convoy.exchange ∧
      (convoy.journal.Pairwise fun earlier later => earlier.1 ≤ later.1) ∧
      (∀ entry ∈ convoy.log, entry.2.1 ≤ convoy.now ∧ convoy.deliveries entry.1 ≠ none) ∧
      (∀ place delivery, convoy.deliveries place = some delivery →
        delivery.Converses (convoy.journalOf place)) ∧
      ∀ id bucket, convoy.exchange.gate.registry.bucket? id = some bucket →
        start.gate.registry.bucket? id = some bucket ∨
          ∃ entry ∈ convoy.journal.observations, ∃ route,
            entry.2.Describes entry.1 route bucket := by
  have sound := reaches.sound
  refine ⟨sound.follows, sound.ordered, fun entry member => ⟨?_, sound.owned entry member⟩,
    fun place delivery present => ?_, fun id bucket known => ?_⟩
  · exact sound.past entry.2 (List.mem_map_of_mem member)
  · obtain ⟨route, request, budget, timeout, start, runs⟩ := sound.runs place delivery present
    exact runs.converses rfl
  · rw [sound.follows.gate] at known
    exact Gate.bucket?_replay known

/-- The first reply takes two seconds, and the second one takes one. -/
def overtaking : Exchange where
  gate := .new 0 Gate.defaultFallback
  wire := .ofReplies [
    ⟨.ok ⟨⟨202, by decide⟩, [], []⟩, .ofSeconds 2⟩,
    ⟨.ok ⟨⟨204, by decide⟩, [], []⟩, .ofSeconds 1⟩]

theorem Reaches.move {first : Convoy} (reached : first.Reaches convoy) (place : Nat)
    {delivery next : Delivery} {after : Exchange}
    (present : convoy.deliveries place = some delivery)
    (moves : delivery.Moves convoy.exchange convoy.now next after) :
    first.Reaches
      (convoy.follow place next after (delivery.entries convoy.exchange convoy.now)) :=
  reached.tail (.move present (Delivery.step_of_moves moves))

set_option maxRecDepth 8000 in
/-- Two requests are sent, and the second one is answered first. The gate is told in the order of the
answers. -/
theorem accounts_of_overtaking :
    ∃ convoy, (opening overtaking 0).Reaches convoy ∧
      convoy.journal.replies =
        [.ok ⟨⟨202, by decide⟩, [], []⟩, .ok ⟨⟨204, by decide⟩, [], []⟩] ∧
      convoy.exchange.gate = overtaking.gate.replay
        [(Duration.ofSeconds 1, .observe ⟨.get, "b"⟩ (.ofHeaders []) .succeeded),
          (Duration.ofSeconds 2, .observe ⟨.get, "a"⟩ (.ofHeaders []) .succeeded)] := by
  have opened : (opening overtaking 0).Reaches (opening overtaking 0) := .refl
  have came := (opened.tail (@Next.begin _ 0 ⟨.get, "a"⟩ ⟨.get, "a", [], none, none⟩ 3 none rfl)).tail
    (@Next.begin _ 1 ⟨.get, "b"⟩ ⟨.get, "b", [], none, none⟩ 3 none rfl)
  have begun := Reaches.move came 0 rfl (.begins rfl)
  have clear := Reaches.move begun 0 rfl (.waits rfl rfl)
  have sent := Reaches.move (Reaches.move clear 0 rfl (.waits rfl rfl)) 0 rfl (.sends rfl)
  have begun := Reaches.move sent 1 rfl (.begins rfl)
  have clear := Reaches.move begun 1 rfl (.waits rfl rfl)
  have sent := Reaches.move (Reaches.move clear 1 rfl (.waits rfl rfl)) 1 rfl (.sends rfl)
  have early := sent.tail (.pass (show 0 ≤ Duration.ofSeconds 1 by decide))
  have answered := Reaches.move early 1 rfl (.receives rfl (by decide))
  have late := answered.tail (.pass (show Duration.ofSeconds 1 ≤ Duration.ofSeconds 2 by decide))
  have ended := Reaches.move late 0 rfl (.receives rfl (by decide))
  obtain ⟨follows, -⟩ := Reaches.accounts ended
  exact ⟨_, ended, follows.replies, follows.gate⟩

end Convoy

end QuotaGate
