import QuotaGate.Proofs.Delivery.Journal

/-!
# The itinerary of a delivery

Every attempt visits the same stages in the same order: the lockout, if it is on when the attempt
begins, the bucket, the wire, and a last stage that the reply decides. An itinerary is one attempt
after the other, all rejected but the last one, whose last stage is terminal. A delivery that is cut
off by its deadline has gone a part of such a way.

Results:
1. `OnItinerary.move`, `OnItinerary.expire`: a delivery stays on its itinerary.
2. `Runs.visits_itinerary`: so it does whatever happens to the gate and to the wire meanwhile, and
   its result belongs to the terminal stage.
-/

namespace QuotaGate.Delivery

/-! ## The stages of an attempt -/

namespace Stage

/-- The stage in which the lockout holds an attempt back. -/
def heldBack (locked : Bool) : List Stage := if locked then [waitingGlobal] else []

/-- The stages of an attempt before its last one. -/
def onTheWay (locked : Bool) : List Stage := heldBack locked ++ [waitingBucket, inFlight]

def ofAttempt (locked : Bool) (last : Stage) : List Stage := onTheWay locked ++ [last]

theorem mem_onTheWay {locked : Bool} {stage : Stage} (member : stage ∈ onTheWay locked) :
    stage.isTerminal = false ∧ stage ≠ rateLimited := by
  revert member
  cases locked <;> cases stage <;> decide

/-- The terminal stage that a result belongs to. A delivery that was cut off has none. -/
def ofResult? : Except Failure Http.Response → Option Stage
  | .ok _ => some succeeded
  | .error (.retriesExhausted ..) => some exhausted
  | .error (.transport _) | .error (.refused ..) => some failed
  | .error _ => none

theorem isTerminal_of_ofResult? {result : Except Failure Http.Response} {last : Stage}
    (found : ofResult? result = some last) : last.isTerminal = true := by
  unfold ofResult? at found
  split at found <;> cases found <;> rfl

end Stage

/-! ## Itineraries -/

/-- The stages of an attempt with the number of the attempt. -/
def onAttempt (number : Nat) (stages : List Stage) : List (Nat × Stage) := stages.map (number, ·)

/-- One rejected attempt after the other. `locks` says for each of them whether the lockout was on
when it began. -/
def rejections (locks : List Bool) : List (Nat × Stage) :=
  (locks.zipIdx 1).flatMap fun (locked, number) =>
    onAttempt number (Stage.ofAttempt locked .rateLimited)

/-- A whole itinerary: rejected attempts and then one that ends in a terminal stage. Only the last
attempt of the budget exhausts it. -/
structure IsItinerary (budget : Nat) (locks : List Bool) (last : Stage)
    (visited : List (Nat × Stage)) : Prop where
  terminal : last.isTerminal = true
  within : locks.length ≤ budget
  spent : last = .exhausted → locks.length = budget
  visited_eq : ∃ earlier locked, locks = earlier ++ [locked] ∧
    visited = rejections earlier ++ onAttempt locks.length (Stage.ofAttempt locked last)

/-- The first part of an itinerary, without the terminal stage. -/
structure IsUnderWay (budget : Nat) (locks : List Bool) (visited : List (Nat × Stage)) : Prop where
  unfinished : ∀ visit ∈ visited, visit.2.isTerminal = false
  part : ∃ more last whole, IsItinerary budget (locks ++ more) last whole ∧ visited <+: whole

theorem rejections_concat (earlier : List Bool) (locked : Bool) :
    rejections (earlier ++ [locked]) = rejections earlier ++
      onAttempt (earlier.length + 1) (Stage.ofAttempt locked .rateLimited) := by
  simp [rejections, List.zipIdx_append, Nat.add_comm]

theorem onAttempt_append (number : Nat) (stages more : List Stage) :
    onAttempt number (stages ++ more) = onAttempt number stages ++ onAttempt number more :=
  List.map_append

theorem mem_onAttempt {number : Nat} {stages : List Stage} {visit : Nat × Stage}
    (member : visit ∈ onAttempt number stages) : visit.1 = number ∧ visit.2 ∈ stages := by
  obtain ⟨stage, found, rfl⟩ := List.mem_map.1 member
  exact ⟨rfl, found⟩

theorem mem_rejections {locks : List Bool} {visit : Nat × Stage}
    (member : visit ∈ rejections locks) :
    visit.1 ≤ locks.length ∧ visit.2.isTerminal = false := by
  obtain ⟨⟨locked, number⟩, counted, visits⟩ := List.mem_flatMap.1 member
  obtain ⟨rfl, found⟩ := mem_onAttempt visits
  have bound := List.snd_lt_add_of_mem_zipIdx counted
  refine ⟨by omega, ?_⟩
  rcases List.mem_append.1 found with before | last
  · exact (Stage.mem_onTheWay before).1
  · rw [List.mem_singleton.1 last]
    rfl

/-- A rejection leaves an attempt, and exhaustion does not. -/
theorem IsItinerary.of_mem {budget : Nat} {locks : List Bool} {last : Stage}
    {visited : List (Nat × Stage)} (whole : IsItinerary budget locks last visited)
    {visit : Nat × Stage} (member : visit ∈ visited) :
    (visit.2 = .rateLimited → visit.1 < budget) ∧ (visit.2 = .exhausted → visit.1 = budget) := by
  obtain ⟨earlier, locked, rfl, rfl⟩ := whole.visited_eq
  have within := whole.within
  rw [List.length_append, List.length_singleton] at within
  rcases List.mem_append.1 member with before | final
  · obtain ⟨counted, going⟩ := mem_rejections before
    refine ⟨fun _ => by omega, fun exhausted => ?_⟩
    rw [exhausted] at going
    cases going
  · obtain ⟨counted, found⟩ := mem_onAttempt final
    rcases List.mem_append.1 found with onTheWay | ends
    · obtain ⟨going, other⟩ := Stage.mem_onTheWay onTheWay
      refine ⟨fun limited => absurd limited other, fun exhausted => ?_⟩
      rw [exhausted] at going
      cases going
    · rw [List.mem_singleton.1 ends, counted]
      refine ⟨fun limited => ?_, whole.spent⟩
      have ended := whole.terminal
      rw [limited] at ended
      cases ended

/-- The terminal stage comes once, at the end. -/
theorem IsItinerary.exists_concat {budget : Nat} {locks : List Bool} {last : Stage}
    {visited : List (Nat × Stage)} (whole : IsItinerary budget locks last visited) :
    ∃ before, visited = before ++ [(locks.length, last)] ∧
      ∀ visit ∈ before, visit.2.isTerminal = false := by
  obtain ⟨earlier, locked, -, rfl⟩ := whole.visited_eq
  refine ⟨rejections earlier ++ onAttempt locks.length (Stage.onTheWay locked), ?_, ?_⟩
  · rw [Stage.ofAttempt, onAttempt_append, List.append_assoc]
    rfl
  · intro visit member
    rcases List.mem_append.1 member with rejected | present
    · exact (mem_rejections rejected).2
    · exact (Stage.mem_onTheWay (mem_onAttempt present).2).1

/-! ## Where a delivery stands on its itinerary -/

/-- The stages that a delivery has gone through, each with the number of its attempt. -/
def visited (delivery : Delivery) : List (Nat × Stage) :=
  delivery.changes.map fun change => (change.attempt, change.target)

theorem visited_enter (delivery : Delivery) (stage : Stage) :
    (delivery.enter stage).visited = delivery.visited ++ onAttempt delivery.attempt [stage] := by
  simp [visited, enter, onAttempt]

/-- What an attempt has visited so far, if it is under way. -/
def Phase.visits? (locked : Bool) : Phase → Option (List Stage)
  | held .checkingLockout | held (.lockedOut _) => some (Stage.heldBack locked)
  | held _ => some (Stage.heldBack locked ++ [.waitingBucket])
  | inFlight .. => some (Stage.onTheWay locked)
  | ready | backingOff _ | finished _ => none

/-- Whether the delivery is about to begin an attempt, at once or after a sleep. -/
def Phase.isIdle : Phase → Bool
  | ready | backingOff _ => true
  | held _ | inFlight .. | finished _ => false

theorem Phase.visits?_of_isIdle {phase : Phase} (idle : phase.isIdle = true) (locked : Bool) :
    phase.visits? locked = none := by
  cases phase with
  | ready | backingOff wake => rfl
  | held admission | inFlight reply arrival | finished result => cases idle

/-- Where a delivery stands on its itinerary. -/
inductive OnItinerary (budget : Nat) (locks : List Bool) (delivery : Delivery) : Prop
  /-- Between two attempts. -/
  | between : delivery.phase.isIdle = true → delivery.attempt = locks.length →
      delivery.attempt + delivery.left + 1 = budget → delivery.visited = rejections locks →
      OnItinerary budget locks delivery
  /-- During an attempt. -/
  | during {earlier : List Bool} {locked : Bool} {stages : List Stage} :
      delivery.phase.visits? locked = some stages → locks = earlier ++ [locked] →
      delivery.attempt = locks.length → delivery.attempt + delivery.left = budget →
      delivery.visited = rejections earlier ++ onAttempt delivery.attempt stages →
      OnItinerary budget locks delivery
  /-- At the end. -/
  | ended {result : Except Failure Http.Response} {last : Stage} :
      delivery.phase = .finished result → Stage.ofResult? result = some last →
      IsItinerary budget locks last delivery.visited → OnItinerary budget locks delivery
  /-- Cut off by the deadline. -/
  | cut : delivery.phase = .finished (.error (.timedOut delivery.route)) →
      IsUnderWay budget locks delivery.visited → OnItinerary budget locks delivery

/-! ## What a move adds -/

/-- Only where an attempt begins is the lockout noted. -/
theorem locks_entries {delivery : Delivery} (begun : delivery.phase ≠ .ready) (exchange : Exchange)
    (now : Instant) : (delivery.entries exchange now).locks = [] := by
  unfold entries
  split
  · next ready => exact absurd ready begun
  all_goals rfl

theorem visited_beginAttempt (delivery : Delivery) (gate : Gate) (now : Instant) :
    (delivery.beginAttempt gate now).visited = delivery.visited ++
      onAttempt (delivery.attempt + 1) (Stage.heldBack (gate.lockout.isActive now)) := by
  unfold beginAttempt
  cases gate.lockout.isActive now with
  | true => exact visited_enter _ _
  | false => exact (List.append_nil _).symm

/-- What an attempt visits before its last stage is known. -/
theorem Phase.prefix_of_visits? {locked : Bool} {phase : Phase} {stages : List Stage}
    (visits : phase.visits? locked = some stages) : stages <+: Stage.onTheWay locked := by
  unfold visits? at visits
  split at visits <;> cases visits
  · exact List.prefix_append _ _
  · exact List.prefix_append _ _
  · exact ⟨[.inFlight], List.append_assoc ..⟩
  · exact List.prefix_rfl

/-- An admission that goes on to the bucket adds a stage. -/
def stagesOf (admission : Admission) : List Stage :=
  if admission = .checkingBucket then [.waitingBucket] else []

theorem visited_hold (delivery : Delivery) (admission : Admission) :
    (delivery.hold admission).visited =
      delivery.visited ++ onAttempt delivery.attempt (stagesOf admission) := by
  unfold hold stagesOf
  dsimp only
  split
  · exact visited_enter _ _
  · exact (List.append_nil _).symm

theorem left_hold (delivery : Delivery) (admission : Admission) :
    (delivery.hold admission).left = delivery.left := by
  unfold hold
  dsimp only
  split <;> rfl

theorem Phase.visits?_of_step {gate : Gate} {route : RouteKey} {now : Instant}
    {admission next : Admission} (stepped : admission.step gate route now = some next)
    {locked : Bool} {stages : List Stage} (visits : (held admission).visits? locked = some stages) :
    (held next).visits? locked = some (stages ++ stagesOf next) := by
  cases Admission.step_eq_some_iff.1 stepped with
  | isClear off =>
    cases visits
    rfl
  | isLocked | looksAgain | isEmpty | isFree | isRefilled =>
    cases visits
    simp [visits?, stagesOf]

/-- A reply ends the attempt in a terminal stage, or in a rejection that uses it up. -/
theorem receive_cases (delivery : Delivery) (reply : Http.Reply) (exchange : Exchange)
    (now : Instant) :
    (∃ last result, (delivery.receive reply exchange now).1 = delivery.finish last result ∧
      Stage.ofResult? result = some last ∧ (last = .exhausted → delivery.left = 0)) ∨
    ∃ left phase, delivery.left = left + 1 ∧ phase.isIdle = true ∧
      (delivery.receive reply exchange now).1 =
        { delivery.enter .rateLimited with left, phase } := by
  cases reply with
  | error reason => exact .inl ⟨.failed, _, rfl, rfl, Stage.noConfusion⟩
  | ok response =>
    simp only [receive, afterResponse]
    split
    · exact .inl ⟨.succeeded, _, rfl, rfl, Stage.noConfusion⟩
    · exact .inl ⟨.failed, _, rfl, rfl, Stage.noConfusion⟩
    · unfold afterLimited
      split
      · next spent => exact .inl ⟨.exhausted, _, rfl, rfl, fun _ => spent⟩
      · next left more =>
        refine .inr ⟨left, _, more, ?_, rfl⟩
        split <;> rfl

/-! ## A delivery stays on its itinerary -/

namespace OnItinerary

variable {budget : Nat} {locks : List Bool} {delivery : Delivery}

theorem between_of_isIdle (stands : OnItinerary budget locks delivery)
    (idle : delivery.phase.isIdle = true) :
    delivery.attempt = locks.length ∧ delivery.attempt + delivery.left + 1 = budget ∧
      delivery.visited = rejections locks := by
  cases stands with
  | between _ attempt left visited => exact ⟨attempt, left, visited⟩
  | during visits =>
    rw [Phase.visits?_of_isIdle idle] at visits
    cases visits
  | ended finished | cut finished =>
    rw [finished] at idle
    cases idle

/-- Neither idle nor finished, a delivery is during an attempt. -/
theorem exists_during (stands : OnItinerary budget locks delivery)
    (busy : delivery.phase.isIdle = false) (running : delivery.result? = none) :
    ∃ earlier locked stages, delivery.phase.visits? locked = some stages ∧
      locks = earlier ++ [locked] ∧ delivery.attempt = locks.length ∧
      delivery.attempt + delivery.left = budget ∧
      delivery.visited = rejections earlier ++ onAttempt delivery.attempt stages := by
  cases stands with
  | between idle =>
    rw [busy] at idle
    cases idle
  | during visits concat attempt left visited =>
    exact ⟨_, _, _, visits, concat, attempt, left, visited⟩
  | ended finished | cut finished => exact absurd finished (result?_eq_none_iff.1 running _)

/-- A delivery that is not finished has gone a part of an itinerary. -/
theorem isUnderWay (stands : OnItinerary budget locks delivery) (running : delivery.result? = none) :
    IsUnderWay budget locks delivery.visited := by
  cases stands with
  | between idle attempt left visited =>
    rw [visited]
    refine ⟨fun visit member => (mem_rejections member).2, [false], .failed, _, ?_,
      List.prefix_append _ (onAttempt (locks ++ [false]).length (Stage.ofAttempt false .failed))⟩
    refine ⟨rfl, ?_, Stage.noConfusion, locks, false, rfl, rfl⟩
    rw [List.length_append, List.length_singleton]
    omega
  | @during earlier locked stages visits concat attempt left visited =>
    have way := Phase.prefix_of_visits? visits
    rw [visited, attempt]
    refine ⟨fun visit member => ?_, [], .failed,
      rejections earlier ++ onAttempt locks.length (Stage.ofAttempt locked .failed), ?_, ?_⟩
    · rcases List.mem_append.1 member with before | present
      · exact (mem_rejections before).2
      · exact (Stage.mem_onTheWay (way.subset (mem_onAttempt present).2)).1
    · rw [List.append_nil]
      exact ⟨rfl, by omega, Stage.noConfusion, earlier, locked, concat, rfl⟩
    · exact (List.prefix_append_right_inj _).2
        ((way.trans (List.prefix_append _ _)).map _)
  | ended finished | cut finished => exact absurd finished (result?_eq_none_iff.1 running _)

/-- A delivery that is finished has gone a whole itinerary, or was cut off. -/
theorem of_result? (stands : OnItinerary budget locks delivery)
    {result : Except Failure Http.Response} (ends : delivery.result? = some result) :
    (∃ last, Stage.ofResult? result = some last ∧
      IsItinerary budget locks last delivery.visited) ∨
    result = .error (.timedOut delivery.route) ∧ IsUnderWay budget locks delivery.visited := by
  have finished := result?_eq_some_iff.1 ends
  cases stands with
  | between idle =>
    rw [finished] at idle
    cases idle
  | during visits =>
    rw [finished] at visits
    cases visits
  | ended ends belongs whole =>
    rw [finished] at ends
    cases ends
    exact .inl ⟨_, belongs, whole⟩
  | cut ends part =>
    rw [finished] at ends
    cases ends
    exact .inr ⟨rfl, part⟩

/-- Wherever a delivery stands, it has gone a part of an itinerary. -/
theorem exists_prefix (stands : OnItinerary budget locks delivery) :
    ∃ more last whole, IsItinerary budget (locks ++ more) last whole ∧
      delivery.visited <+: whole := by
  cases ends : delivery.result? with
  | none => exact (stands.isUnderWay ends).part
  | some result =>
    rcases stands.of_result? ends with ⟨last, -, whole⟩ | ⟨-, under⟩
    · exact ⟨[], last, _, (List.append_nil locks).symm ▸ whole, List.prefix_rfl⟩
    · exact under.part

theorem expire (stands : OnItinerary budget locks delivery) (now : Instant) :
    OnItinerary budget locks (delivery.expire now) := by
  unfold Delivery.expire
  split
  · next late => exact .cut rfl (stands.isUnderWay (Option.isNone_iff_eq_none.1 late.1))
  · exact stands

theorem move (stands : OnItinerary budget locks delivery) {next : Delivery}
    {exchange after : Exchange} {now : Instant}
    (moved : delivery.step exchange now = some (next, after)) :
    OnItinerary budget (locks ++ (delivery.entries exchange now).locks) next := by
  cases moves_of_step moved with
  | begins ready =>
    obtain ⟨attempt, left, visited⟩ := stands.between_of_isIdle (by rw [ready]; rfl)
    have begun : (delivery.beginAttempt exchange.gate now).attempt = delivery.attempt + 1 :=
      (Same.beginAttempt delivery exchange.gate now).attempt
    rw [entries_of_ready exchange now ready]
    refine .during rfl rfl ?_ ?_ ?_
    · rw [begun, List.length_append, attempt]
      rfl
    · rw [begun, Solo.left_beginAttempt]
      omega
    · rw [begun, visited_beginAttempt, visited]
  | @waits admission next held stepped =>
    obtain ⟨earlier, locked, stages, visits, concat, attempt, left, visited⟩ :=
      stands.exists_during (by rw [held]; rfl) (by rw [result?, held])
    have same : (delivery.hold next).attempt = delivery.attempt := (Same.hold delivery next).attempt
    rw [held] at visits
    rw [locks_entries (by rw [held]; exact Phase.noConfusion), List.append_nil]
    refine .during (Phase.visits?_of_step stepped visits) concat (same.trans attempt) ?_ ?_
    · rw [same, left_hold, left]
    · rw [visited_hold, visited, same, onAttempt_append, List.append_assoc]
  | sends admitted =>
    obtain ⟨earlier, locked, stages, visits, concat, attempt, left, visited⟩ :=
      stands.exists_during (by rw [admitted]; rfl) (by rw [result?, admitted])
    rw [admitted] at visits
    cases visits
    rw [locks_entries (by rw [admitted]; exact Phase.noConfusion), List.append_nil]
    refine .during rfl concat attempt left ?_
    refine (visited_enter delivery .inFlight).trans ?_
    rw [visited, List.append_assoc, ← onAttempt_append, List.append_assoc]
    rfl
  | @receives reply arrival flying due =>
    obtain ⟨earlier, locked, stages, visits, concat, attempt, left, visited⟩ :=
      stands.exists_during (by rw [flying]; rfl) (by rw [result?, flying])
    rw [flying] at visits
    cases visits
    rw [locks_entries (by rw [flying]; exact Phase.noConfusion), List.append_nil]
    have entered : ∀ last, (delivery.enter last).visited =
        rejections earlier ++ onAttempt locks.length (Stage.ofAttempt locked last) := by
      intro last
      rw [visited_enter, visited, attempt, List.append_assoc, ← onAttempt_append]
      rfl
    rcases receive_cases delivery reply exchange now with
      ⟨last, result, ends, belongs, spent⟩ | ⟨more, phase, used, idle, again⟩
    · rw [ends]
      refine .ended rfl belongs ⟨Stage.isTerminal_of_ofResult? belongs, by omega, ?_, ?_⟩
      · intro exhausted
        have none := spent exhausted
        omega
      · exact ⟨earlier, locked, concat, entered last⟩
    · rw [again]
      refine .between idle attempt (by dsimp only [enter]; omega) ?_
      refine (entered .rateLimited).trans ?_
      rw [concat, rejections_concat, List.length_append, List.length_singleton]
  | resumes sleeping due =>
    obtain ⟨attempt, left, visited⟩ := stands.between_of_isIdle (by rw [sleeping]; rfl)
    rw [locks_entries (by rw [sleeping]; exact Phase.noConfusion), List.append_nil]
    exact .between rfl attempt left visited

end OnItinerary

/-! ## Runs -/

/-- The changes of stage link up, from the first stage to the present one. -/
def IsLinked (delivery : Delivery) : Prop :=
  .pending :: delivery.changes.map Change.target =
    delivery.changes.map Change.source ++ [delivery.stage]

theorem IsLinked.enter {delivery : Delivery} (linked : delivery.IsLinked) (stage : Stage) :
    (delivery.enter stage).IsLinked := by
  unfold IsLinked Delivery.enter
  simp only [List.map_append, ← List.cons_append, linked.symm, List.map_cons, List.map_nil]

theorem IsLinked.move {delivery next : Delivery} {exchange after : Exchange} {now : Instant}
    (linked : delivery.IsLinked) (moved : delivery.step exchange now = some (next, after)) :
    next.IsLinked := by
  cases moves_of_step moved with
  | begins ready =>
    unfold beginAttempt
    cases exchange.gate.lockout.isActive now with
    | true => exact @IsLinked.enter { delivery with attempt := delivery.attempt + 1 } linked _
    | false => exact linked
  | @waits admission next held stepped =>
    unfold hold
    dsimp only
    split
    · exact IsLinked.enter linked _
    · exact linked
  | sends admitted => exact linked.enter _
  | @receives reply arrival flying due =>
    rcases receive_cases delivery reply exchange now with
      ⟨last, result, ends, -, -⟩ | ⟨more, phase, -, -, again⟩
    · rw [ends]
      exact linked.enter _
    · rw [again]
      exact linked.enter _
  | resumes sleeping due => exact linked

namespace Runs

theorem isLinked {first delivery : Delivery} {journal : Journal}
    (runs : first.Runs journal delivery) (linked : first.IsLinked) : delivery.IsLinked := by
  induction runs with
  | refl => exact linked
  | move _ moved ih => exact ih.move moved
  | expire _ stuck ih =>
    unfold Delivery.expire
    split <;> exact ih

theorem onItinerary {first delivery : Delivery} {journal : Journal} {budget : Nat}
    (runs : first.Runs journal delivery) (stands : OnItinerary budget [] first) :
    OnItinerary budget journal.locks delivery := by
  induction runs with
  | refl => exact stands
  | move _ moved ih =>
    rw [Journal.locks_append]
    exact ih.move moved
  | @expire _ _ _ now _ stuck ih => exact ih.expire now

/-- A delivery that ends without being cut off by its deadline has gone a whole itinerary, and its
result belongs to the terminal stage, which comes once and last. A delivery that has not ended, or
was cut off, has gone the first part of an itinerary, with no terminal stage. The attempts are
numbered from one, and each is held back by the lockout exactly if the lockout was on when it
began. -/
theorem visits_itinerary {route : RouteKey} {request : Http.Request} {budget : Nat}
    {timeout : Option Duration} {start : Instant} {journal : Journal} {delivery : Delivery}
    (runs : (begin route request budget timeout start).Runs journal delivery) :
    delivery.IsLinked ∧
    (∀ result, delivery.result? = some result → result ≠ .error (.timedOut route) →
      ∃ last, Stage.ofResult? result = some last ∧
        IsItinerary (max budget 1) journal.locks last delivery.visited ∧
        ∃ before, delivery.visited = before ++ [(journal.locks.length, last)] ∧
          ∀ visit ∈ before, visit.2.isTerminal = false) ∧
    (delivery.result? = none ∨ delivery.result? = some (.error (.timedOut route)) →
      IsUnderWay (max budget 1) journal.locks delivery.visited) ∧
    ∀ visit ∈ delivery.visited, (visit.2 = .rateLimited → visit.1 < max budget 1) ∧
      (visit.2 = .exhausted → visit.1 = max budget 1) := by
  have attempts : 0 + (budget - 1) + 1 = max budget 1 := by omega
  have stands := runs.onItinerary (.between rfl rfl attempts rfl)
  have same : delivery.route = route := runs.constant.1
  refine ⟨runs.isLinked rfl, fun result ends inTime => ?_, fun ends => ?_, fun visit member => ?_⟩
  · rcases stands.of_result? ends with ⟨last, belongs, whole⟩ | ⟨cut, -⟩
    · exact ⟨last, belongs, whole, whole.exists_concat⟩
    · rw [same] at cut
      exact absurd cut inTime
  · rcases ends with running | cut
    · exact stands.isUnderWay running
    · rcases stands.of_result? cut with ⟨last, belongs, -⟩ | ⟨-, under⟩
      · cases belongs
      · exact under
  · obtain ⟨more, last, whole, itinerary, part⟩ := stands.exists_prefix
    exact itinerary.of_mem (part.subset member)

/-- After a rejection and a success the delivery has gone a whole itinerary. -/
theorem visits_itinerary_after_rejection :
    ∃ (journal : Journal) (delivery : Delivery),
      (begin ⟨.get, "a"⟩ ⟨.get, "a", [], none, none⟩ 3 none 0).Runs journal delivery ∧
      delivery.result? = some (.ok ⟨⟨200, by decide⟩, [], []⟩) ∧
      IsItinerary 3 journal.locks .succeeded delivery.visited := by
  let first : Solo := ⟨begin ⟨.get, "a"⟩ ⟨.get, "a", [], none, none⟩ 3 none 0, Session.rejectingOnce⟩
  obtain ⟨last, result, instants, leads, finished, -, -, outcome⟩ :=
    @Solo.leads_finished first rfl rfl
  have decided : result = .ok ⟨⟨200, by decide⟩, [], []⟩ :=
    (outcome.decided 1 (by decide) (by decide) (by decide)).2
  obtain ⟨journal, journey⟩ := leads.exists_journey
  have runs := journey.runs
  have ends : last.delivery.result? = some (.ok ⟨⟨200, by decide⟩, [], []⟩) := by
    rw [result?_eq_some_iff, finished, decided]
  obtain ⟨stage, belongs, whole, -⟩ :=
    (visits_itinerary runs).2.1 _ ends (by intro cut; cases cut)
  cases belongs
  exact ⟨journal, last.delivery, runs, ends, whole⟩

end Runs

end QuotaGate.Delivery
