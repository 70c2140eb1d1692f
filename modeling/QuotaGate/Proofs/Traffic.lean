import Mathlib.Logic.Relation
import QuotaGate.Delivery.Basic
import QuotaGate.Proofs.Gate.History

/-!
# Traffic through a gate

Many tasks share one gate. Each runs an errand there: it asks for admission, or it delivers a
request. Traffic is all of them together, and `Next` is everything that can happen next: one errand
makes one move, an errand begins or is given up, something else happens to the gate, or time
passes. Between two moves of one errand everything else may happen, so the order of the moves is
as free as it can be.

Traffic keeps a log of what happened to its gate, and each caller knows how long the log was when
the caller last looked at the lockout.

Results:
1. `Traffic.Reaches.sound`: the gate is the first gate after the log, and every caller that has
   gone on to its bucket found the lockout off when it last looked.
2. `Traffic.isActive_of_admitted_iff`: an admission does not look at the lockout again once it has
   gone on to its bucket, so a caller can be admitted while the lockout is on. That happens exactly
   when the log holds, since the caller's last look, a lockout that is not over yet.
3. `Traffic.admitted_while_lockedOut`: it does happen.
-/

namespace QuotaGate

/-! ## Errands -/

/-- What a task does at a gate. -/
inductive Errand where
  /-- It asks for admission. -/
  | acquire (acquisition : Acquisition)
  /-- It delivers a request. -/
  | deliver (delivery : Delivery)

namespace Admission

/-- Whether the admission has found the lockout off and does not look at it again. -/
def isCleared : Admission → Bool
  | checkingBucket | awaitingReset _ | admitted => true
  | checkingLockout | lockedOut _ => false

/-- Only a look at the lockout that finds it off clears an admission. -/
theorem isCleared_of_step {gate : Gate} {route : RouteKey} {now : Instant}
    {admission next : Admission} (moved : admission.step gate route now = some next)
    (cleared : next.isCleared = true) :
    admission = checkingLockout ∧ gate.lockout.isActive now = false ∨
      admission.isCleared = true := by
  cases step_eq_some_iff.1 moved with
  | isClear off => exact .inl ⟨rfl, (gate.lockout.wakeAt?_eq_none_iff now).1 off⟩
  | isLocked sleeps | looksAgain due => cases cleared
  | isEmpty sleeps | isFree off | isRefilled due => exact .inr rfl

end Admission

namespace Errand

/-- The admission that the errand waits for, if it does. -/
def admission? : Errand → Option Admission
  | acquire acquisition => some acquisition.admission
  | deliver delivery =>
    match delivery.phase with
    | .held admission => some admission
    | _ => none

/-- How an errand begins. -/
inductive Begins (now : Instant) : Errand → Prop
  | acquire (route : RouteKey) (longest : Option Duration) :
      Begins now (.acquire (.begin route longest now))
  | deliver (route : RouteKey) (request : Http.Request) (budget : Nat)
      (timeout : Option Duration) :
      Begins now (.deliver (.begin route request budget timeout now))

def step (errand : Errand) (exchange : Exchange) (now : Instant) : Option (Errand × Exchange) :=
  match errand with
  | acquire acquisition =>
    (acquisition.admission.step exchange.gate acquisition.route now).map fun next =>
      (.acquire { acquisition with admission := next }, exchange)
  | deliver delivery =>
    (delivery.step exchange now).map fun (next, after) => (.deliver next, after)

/-- What the next move makes happen to the gate: a response that arrives is observed. -/
def entries (errand : Errand) (now : Instant) : Gate.History :=
  match errand with
  | acquire _ => []
  | deliver delivery =>
    match delivery.phase with
    | .inFlight (.ok response) _ =>
      [(now, .observe delivery.route (Delivery.reportOf response) (.ofStatus response.status))]
    | _ => []

/-- Whether the errand's admission has found the lockout off and does not look at it again. -/
def IsCleared (errand : Errand) : Prop :=
  ∃ admission, errand.admission? = some admission ∧ admission.isCleared = true

/-- A move changes the gate by its entries and by nothing else. -/
theorem gate_of_step {errand next : Errand} {exchange after : Exchange} {now : Instant}
    (moved : errand.step exchange now = some (next, after)) :
    after.gate = exchange.gate.replay (errand.entries now) := by
  cases errand with
  | acquire acquisition =>
    simp only [step, Option.map_eq_some_iff] at moved
    obtain ⟨admission, -, equal⟩ := moved
    cases equal
    rfl
  | deliver delivery =>
    simp only [step, Option.map_eq_some_iff] at moved
    obtain ⟨⟨following, left⟩, moves, equal⟩ := moved
    cases equal
    cases Delivery.moves_of_step moves with
    | begins phase | waits phase | resumes phase => simp only [entries, phase, Gate.replay_nil]
    | sends phase =>
      simp only [entries, phase, Gate.replay_nil]
      rfl
    | @receives reply arrival phase due =>
      cases reply with
      | error reason => simp only [entries, phase, Gate.replay_nil, Delivery.receive]
      | ok response =>
        simp only [entries, phase, Delivery.receive, Gate.replay_cons, Gate.replay_nil]

/-- Whoever has received a reply has to ask for admission again before anything else. -/
theorem admission?_receive (delivery : Delivery) (reply : Http.Reply) (exchange : Exchange)
    (now : Instant) : (deliver (delivery.receive reply exchange now).1).admission? = none := by
  cases reply with
  | error reason => rfl
  | ok response =>
    simp only [admission?, Delivery.receive, Delivery.afterResponse]
    split
    · next admission phase =>
      split at phase
      · cases phase
      · cases phase
      · unfold Delivery.afterLimited at phase
        split at phase
        · cases phase
        · dsimp only at phase
          split at phase <;> cases phase
    · rfl

/-- Only a look at the lockout that finds it off clears an errand. -/
theorem isCleared_of_step {errand next : Errand} {exchange after : Exchange} {now : Instant}
    (moved : errand.step exchange now = some (next, after)) (cleared : next.IsCleared) :
    errand.admission? = some .checkingLockout ∧ exchange.gate.lockout.isActive now = false ∨
      errand.IsCleared := by
  obtain ⟨reached, found, passed⟩ := cleared
  cases errand with
  | acquire acquisition =>
    simp only [step, Option.map_eq_some_iff] at moved
    obtain ⟨admission, stepped, equal⟩ := moved
    cases equal
    cases found
    refine (Admission.isCleared_of_step stepped passed).imp (fun looked => ?_) fun before => ?_
    · exact ⟨congrArg some looked.1, looked.2⟩
    · exact ⟨_, rfl, before⟩
  | deliver delivery =>
    simp only [step, Option.map_eq_some_iff] at moved
    obtain ⟨⟨following, left⟩, moves, equal⟩ := moved
    cases equal
    cases Delivery.moves_of_step moves with
    | begins phase =>
      cases found
      cases passed
    | @waits admission next phase stepped =>
      cases found
      have waiting : (deliver delivery).admission? = some admission := by
        simp only [admission?, phase]
      refine (Admission.isCleared_of_step stepped passed).imp (fun looked => ?_) fun before => ?_
      · exact ⟨looked.1 ▸ waiting, looked.2⟩
      · exact ⟨admission, waiting, before⟩
    | sends phase => cases found
    | @receives reply arrival phase due =>
      rw [admission?_receive] at found
      cases found
    | resumes phase due => cases found

end Errand

/-! ## Callers and traffic -/

/-- A task at a gate. -/
structure Caller where
  errand : Errand
  /-- How long the log was when the caller last looked at the lockout, or else when it came. -/
  looked : Nat

namespace Caller

/-- The caller after a move of its errand. -/
def follow (caller : Caller) (next : Errand) (log : Gate.History) : Caller where
  errand := next
  looked := if caller.errand.admission? = some .checkingLockout then log.length else caller.looked

end Caller

/-- The tasks at one gate at an instant, and what happened to the gate so far. -/
structure Traffic where
  now : Instant
  exchange : Exchange
  callers : List Caller
  log : Gate.History

namespace Traffic

def opening (exchange : Exchange) (now : Instant) : Traffic := ⟨now, exchange, [], []⟩

def gate (traffic : Traffic) : Gate := traffic.exchange.gate

/-- Something happens to the gate that is not the doing of a caller. -/
def happen (traffic : Traffic) (event : Gate.Event) : Traffic where
  now := traffic.now
  exchange := { traffic.exchange with gate := traffic.gate.apply event traffic.now }
  callers := traffic.callers
  log := traffic.log ++ [(traffic.now, event)]

/-- What can happen next. -/
inductive Next (traffic : Traffic) : Traffic → Prop
  /-- Time passes. -/
  | pass (later : Instant) : traffic.now ≤ later → Next traffic { traffic with now := later }
  /-- Something else happens to the gate. -/
  | happen (event : Gate.Event) : Next traffic (traffic.happen event)
  /-- An errand begins. -/
  | come (errand : Errand) : errand.Begins traffic.now →
      Next traffic { traffic with callers := traffic.callers ++ [⟨errand, traffic.log.length⟩] }
  /-- An errand makes a move. -/
  | move {before after : List Caller} {caller : Caller} {next : Errand} {exchange : Exchange} :
      traffic.callers = before ++ caller :: after →
      caller.errand.step traffic.exchange traffic.now = some (next, exchange) →
      Next traffic {
        now := traffic.now
        exchange
        callers := before ++ caller.follow next traffic.log :: after
        log := traffic.log ++ caller.errand.entries traffic.now }
  /-- An errand is over, or is given up. -/
  | leave {before after : List Caller} {caller : Caller} :
      traffic.callers = before ++ caller :: after →
      Next traffic { traffic with callers := before ++ after }

def Reaches : Traffic → Traffic → Prop := Relation.ReflTransGen Next

end Traffic

/-! ## What the log knows -/

/-- A caller that has gone on to its bucket found the lockout off when it last looked, and whatever
was logged since happened since. -/
structure Caller.Sound (caller : Caller) (first : Gate) (log : Gate.History) (now : Instant) :
    Prop where
  looked_le : caller.looked ≤ log.length
  look : caller.errand.IsCleared →
    ∃ look ≤ now, (first.replay (log.take caller.looked)).lockout.isActive look = false ∧
      ∀ entry ∈ log.drop caller.looked, look ≤ entry.1

namespace Caller.Sound

variable {caller : Caller} {first : Gate} {log : Gate.History} {now : Instant}

theorem pass (sound : caller.Sound first log now) {later : Instant} (ordered : now ≤ later) :
    caller.Sound first log later := by
  refine ⟨sound.looked_le, fun cleared => ?_⟩
  obtain ⟨look, before, off, since⟩ := sound.look cleared
  exact ⟨look, Nat.le_trans before ordered, off, since⟩

theorem append (sound : caller.Sound first log now) {entries : Gate.History}
    (present : ∀ entry ∈ entries, entry.1 = now) : caller.Sound first (log ++ entries) now := by
  refine ⟨?_, fun cleared => ?_⟩
  · rw [List.length_append]
    exact Nat.le_add_right_of_le sound.looked_le
  · obtain ⟨look, before, off, since⟩ := sound.look cleared
    rw [List.take_append_of_le_length sound.looked_le,
      List.drop_append_of_le_length sound.looked_le]
    refine ⟨look, before, off, fun entry member => ?_⟩
    rcases List.mem_append.1 member with old | new
    · exact since entry old
    · exact present entry new ▸ before

/-- A caller that has just come has yet to look at the lockout. -/
theorem of_begins {errand : Errand} (begins : errand.Begins now) :
    (⟨errand, log.length⟩ : Caller).Sound first log now := by
  refine ⟨Nat.le_refl _, ?_⟩
  rintro ⟨admission, found, passed⟩
  cases begins with
  | acquire route longest =>
    cases found
    cases passed
  | deliver route request budget timeout => cases found

/-- A move that clears the caller's admission is a look at the gate as the log has it. -/
theorem follow (sound : caller.Sound first log now) {next : Errand} {exchange after : Exchange}
    (current : exchange.gate = first.replay log)
    (moved : caller.errand.step exchange now = some (next, after)) :
    (caller.follow next log).Sound first log now := by
  by_cases looks : caller.errand.admission? = some .checkingLockout
  · have whole : (caller.follow next log).looked = log.length := if_pos looks
    refine ⟨Nat.le_of_eq whole, fun cleared => ⟨now, Nat.le_refl _, ?_, ?_⟩⟩
    · rcases Errand.isCleared_of_step moved cleared with ⟨-, off⟩ | ⟨admission, found, passed⟩
      · rwa [whole, List.take_length, ← current]
      · rw [looks] at found
        cases found
        cases passed
    · rw [whole, List.drop_length]
      exact fun entry member => absurd member List.not_mem_nil
  · have same : (caller.follow next log).looked = caller.looked := if_neg looks
    refine ⟨same ▸ sound.looked_le, fun cleared => ?_⟩
    rw [same]
    rcases Errand.isCleared_of_step moved cleared with ⟨looked, -⟩ | before
    · exact absurd looked looks
    · exact sound.look before

end Caller.Sound

namespace Traffic

/-- The gate is the first gate after the log, and every caller is sound. -/
structure Sound (first : Gate) (traffic : Traffic) : Prop where
  gate_eq : traffic.gate = first.replay traffic.log
  callers : ∀ caller ∈ traffic.callers, caller.Sound first traffic.log traffic.now

theorem fst_eq_of_mem_entries {errand : Errand} {now : Instant} {entry : Instant × Gate.Event}
    (member : entry ∈ errand.entries now) : entry.1 = now := by
  unfold Errand.entries at member
  split at member
  · cases member
  · split at member
    · rw [List.mem_singleton] at member
      rw [member]
    · cases member

/-- Whatever happens next leaves the log right. -/
theorem Sound.next {first : Gate} {traffic following : Traffic} (sound : traffic.Sound first)
    (happens : traffic.Next following) : following.Sound first := by
  cases happens with
  | pass later ordered =>
    exact ⟨sound.gate_eq, fun caller member => (sound.callers caller member).pass ordered⟩
  | happen event =>
    refine ⟨?_, fun caller member => (sound.callers caller member).append ?_⟩
    · rw [happen, Gate.replay_concat, ← sound.gate_eq]
      rfl
    · intro entry new
      rw [List.mem_singleton] at new
      rw [new]
  | come errand begins =>
    refine ⟨sound.gate_eq, fun caller member => ?_⟩
    rcases List.mem_append.1 member with old | new
    · exact sound.callers caller old
    · rw [List.mem_singleton] at new
      exact new ▸ .of_begins begins
  | @move before after caller next exchange split moved =>
    have logged : ∀ entry ∈ caller.errand.entries traffic.now, entry.1 = traffic.now :=
      fun entry member => fst_eq_of_mem_entries member
    have known : ∀ other ∈ before ++ caller :: after,
        other.Sound first traffic.log traffic.now := split ▸ sound.callers
    -- The move is logged after the caller that makes it has looked at the gate.
    refine ⟨?_, fun other member => ?_⟩
    · rw [gate, Errand.gate_of_step moved, Gate.replay_append, ← sound.gate_eq]
      rfl
    · refine Caller.Sound.append ?_ logged
      rw [List.mem_append, List.mem_cons] at member
      rcases member with earlier | moving | later
      · exact known other (List.mem_append_left _ earlier)
      · rw [moving]
        exact (known caller (by simp)).follow sound.gate_eq moved
      · exact known other (List.mem_append_right _ (List.mem_cons_of_mem _ later))
  | @leave before after caller split =>
    refine ⟨sound.gate_eq, fun other member => sound.callers other ?_⟩
    rw [split, List.mem_append, List.mem_cons]
    exact (List.mem_append.1 member).imp id .inr

theorem Reaches.sound {exchange : Exchange} {start : Instant} {traffic : Traffic}
    (reached : (opening exchange start).Reaches traffic) : traffic.Sound exchange.gate := by
  induction reached with
  | refl => exact ⟨rfl, fun caller member => absurd member List.not_mem_nil⟩
  | tail _ happens ih => exact ih.next happens

/-! ## What the log gains -/

/-- Between two points of the traffic the log gains entries. They are what has happened to the gate
meanwhile, and nothing else has. -/
structure Gains (traffic later : Traffic) (entries : Gate.History) : Prop where
  log_eq : later.log = traffic.log ++ entries
  gate_eq : later.gate = traffic.gate.replay entries
  past : ∀ entry ∈ entries, entry.1 ≤ later.now
  ordered : traffic.now ≤ later.now

theorem Gains.refl (traffic : Traffic) : traffic.Gains traffic [] where
  log_eq := (List.append_nil _).symm
  gate_eq := rfl
  past _ member := absurd member List.not_mem_nil
  ordered := Nat.le_refl _

theorem Gains.trans {first second third : Traffic} {earlier later : Gate.History}
    (before : first.Gains second earlier) (after : second.Gains third later) :
    first.Gains third (earlier ++ later) where
  log_eq := by rw [after.log_eq, before.log_eq, List.append_assoc]
  gate_eq := by rw [after.gate_eq, before.gate_eq, Gate.replay_append]
  past entry member := by
    rcases List.mem_append.1 member with old | new
    · exact Nat.le_trans (before.past entry old) after.ordered
    · exact after.past entry new
  ordered := Nat.le_trans before.ordered after.ordered

theorem Next.gains {traffic following : Traffic} (happens : traffic.Next following) :
    ∃ entries, traffic.Gains following entries := by
  cases happens with
  | pass later ordered => exact ⟨[], (List.append_nil _).symm, rfl, by simp, ordered⟩
  | happen event =>
    refine ⟨[(traffic.now, event)], rfl, rfl, fun entry member => ?_, Nat.le_refl _⟩
    rw [List.mem_singleton.1 member]
    exact Nat.le_refl traffic.now
  | come errand begins | leave split =>
    exact ⟨[], (List.append_nil _).symm, rfl, by simp, Nat.le_refl _⟩
  | move split moved =>
    refine ⟨_, rfl, Errand.gate_of_step moved, fun entry member => ?_, Nat.le_refl _⟩
    exact Nat.le_of_eq (fst_eq_of_mem_entries member)

theorem Reaches.gains {traffic later : Traffic} (reached : traffic.Reaches later) :
    ∃ entries, traffic.Gains later entries := by
  induction reached with
  | refl => exact ⟨[], .refl traffic⟩
  | tail _ happens ih =>
    obtain ⟨before, gained⟩ := ih
    obtain ⟨entries, next⟩ := happens.gains
    exact ⟨before ++ entries, gained.trans next⟩

/-! ## Admission under a lockout -/

/-- Where an admitted caller last looked the lockout was off, and it is on again exactly when the
log asks since then for a lockout that is not over yet. -/
theorem isActive_of_admitted_iff {exchange : Exchange} {start : Instant} {traffic : Traffic}
    {caller : Caller} (reached : (opening exchange start).Reaches traffic)
    (present : caller ∈ traffic.callers) (admitted : caller.errand.admission? = some .admitted) :
    traffic.gate = exchange.gate.replay traffic.log ∧
      (∃ look ≤ traffic.now,
        (exchange.gate.replay (traffic.log.take caller.looked)).lockout.isActive look = false ∧
          ∀ entry ∈ traffic.log.drop caller.looked, look ≤ entry.1) ∧
      (traffic.gate.lockout.isActive traffic.now = true ↔
        ∃ entry ∈ traffic.log.drop caller.looked, ∃ stop,
          traffic.gate.lockoutEnd? entry = some stop ∧
            traffic.gate.lockout.offset traffic.now < stop) := by
  have sound := reached.sound
  obtain ⟨look, before, off, since⟩ :=
    (sound.callers caller present).look ⟨.admitted, admitted, rfl⟩
  refine ⟨sound.gate_eq, ⟨look, before, off, since⟩, ?_⟩
  -- The gate that the caller saw goes through the rest of the log.
  have rest : traffic.gate =
      (exchange.gate.replay (traffic.log.take caller.looked)).replay
        (traffic.log.drop caller.looked) := by
    rw [← Gate.replay_append, List.take_append_drop]
    exact sound.gate_eq
  generalize exchange.gate.replay (traffic.log.take caller.looked) = seen at off rest
  have ended : ¬seen.lockout.offset traffic.now < seen.lockout.untilMicros := by
    rw [Lockout.isActive_eq_false_iff] at off
    exact Nat.not_lt.2 (Nat.le_trans off (Lockout.offset_mono _ before))
  rw [Lockout.isActive_iff, rest, Gate.offset_replay, Gate.lt_untilMicros_replay_iff]
  simp only [ended, false_or, Gate.lockoutEnd?_replay]

/-- A response that leaves the route's bucket empty for three seconds. -/
def spending : Gate.Event :=
  .observe ⟨.get, "a"⟩
    ⟨some "bucket", some 5, some 0, none, some (.ofSeconds 3), none, none⟩ .succeeded

/-- A response on another route that rejects the whole application for five seconds. -/
def locking : Gate.Event :=
  .observe ⟨.get, "b"⟩
    ⟨none, none, none, none, none, some (.ofSeconds 5), some .global⟩ .limited

/-- One caller at a gate to which a log has happened. -/
def lone (now : Instant) (admission : Admission) (looked : Nat) (log : Gate.History) :
    Traffic where
  now
  exchange := ⟨(Gate.new 0 Gate.defaultFallback).replay log, .ofReplies []⟩
  callers := [⟨.acquire ⟨⟨.get, "a"⟩, admission, none⟩, looked⟩]
  log

theorem lone_next {now : Instant} {admission next : Admission} {looked : Nat} {log : Gate.History}
    (moved : admission.step ((Gate.new 0 Gate.defaultFallback).replay log) ⟨.get, "a"⟩ now =
      some next) :
    (lone now admission looked log).Next
      (lone now next (if admission = .checkingLockout then log.length else looked) log) := by
  have step := @Next.move (lone now admission looked log) [] []
    ⟨.acquire ⟨⟨.get, "a"⟩, admission, none⟩, looked⟩ (.acquire ⟨⟨.get, "a"⟩, next, none⟩) _ rfl
    (congrArg (Option.map _) moved)
  simpa only [lone, Caller.follow, Errand.admission?, Errand.entries, Option.some.injEq,
    List.append_nil, List.nil_append] using step

/-- A caller sleeps until its bucket refills after three seconds. After one second another
response locks the gate until the sixth second. -/
theorem admitted_while_lockedOut :
    ∃ traffic caller,
      (opening ⟨.new 0 Gate.defaultFallback, .ofReplies []⟩ 0).Reaches traffic ∧
        caller ∈ traffic.callers ∧ caller.errand.admission? = some .admitted ∧
        traffic.gate.lockout.isActive traffic.now = true := by
  let first := opening ⟨.new 0 Gate.defaultFallback, .ofReplies []⟩ 0
  let log : Gate.History := [(0, spending), (Duration.ofSeconds 1, locking)]
  have spent : first.Reaches (first.happen spending) := .single (.happen spending)
  have came : first.Reaches (lone 0 .checkingLockout 1 [(0, spending)]) :=
    spent.tail (.come _ (.acquire _ none))
  have looked : first.Reaches (lone 0 .checkingBucket 1 [(0, spending)]) :=
    came.tail (lone_next (by decide +kernel))
  have asleep :
      first.Reaches (lone 0 (.awaitingReset (Duration.ofSeconds 3)) 1 [(0, spending)]) :=
    looked.tail (lone_next (by decide +kernel))
  have locked :
      first.Reaches (lone (Duration.ofSeconds 1) (.awaitingReset (Duration.ofSeconds 3)) 1 log) :=
    (asleep.tail (.pass (Duration.ofSeconds 1) (Nat.zero_le _))).tail (.happen locking)
  have awake : first.Reaches (lone (Duration.ofSeconds 3) .admitted 1 log) :=
    (locked.tail (.pass (Duration.ofSeconds 3) (by decide))).tail (lone_next (by decide +kernel))
  refine ⟨_, _, awake, List.mem_singleton_self _, rfl, ?_⟩
  refine (isActive_of_admitted_iff awake (List.mem_singleton_self _) rfl).2.2.2 ?_
  refine ⟨_, List.mem_singleton_self _, 6000000, ?_, ?_⟩
  · decide +kernel
  · decide +kernel

end Traffic

end QuotaGate
