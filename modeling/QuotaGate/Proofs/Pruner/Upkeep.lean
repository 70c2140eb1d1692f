import Mathlib
import QuotaGate.Proofs.Admission.Whole
import QuotaGate.Proofs.Pruner.Ticks

/-!
# A gate and its pruners

The pruners of a session are looked after from time to time, one after the other, and each makes the
ticks then that have come. This module says what that stands for: a gate to which things happen
while the clock runs, and pruners that make each tick at its own instant, because the clock does not
run past one that is due (`Upkeep`). What was
done to the gate is kept in order, each deed with its instant and the place of the pruner that did
it.

Results:
1. `Runs.gate_eq`, `Runs.ordered`: the gate is what the deeds made of it, one after the other.
2. `OnSchedule.next`, `Runs.onSchedule`: a pruner has made all its ticks so far, each at its
   instant, and no other; what its last tick left was not stale then.
3. `exists_runs_tended`: looking after all pruners at once makes the ticks one by one.
-/

namespace QuotaGate

open Gate (Event History)

/-- What was done to a gate: by the pruner at a place, or else by somebody. -/
structure Deed where
  pruner : Option Nat
  instant : Instant
  event : Event

namespace Deed

def entry (deed : Deed) : Instant × Event := (deed.instant, deed.event)

/-- What the pruner at a place has done. -/
def made (deeds : List Deed) (place : Nat) : History :=
  (deeds.filter fun deed => deed.pruner = some place).map entry

theorem made_append (earlier later : List Deed) (place : Nat) :
    made (earlier ++ later) place = made earlier place ++ made later place := by
  unfold made
  rw [List.filter_append, List.map_append]

end Deed

/-- The pruner with one more tick made. -/
def Pruner.ticked (pruner : Pruner) : Pruner :=
  { pruner with interval? := pruner.interval?.map Interval.tick }

/-- A gate, the pruners that look after it, and the present instant. -/
structure Upkeep where
  now : Instant
  gate : Gate
  pruners : List Pruner

namespace Upkeep

/-- One more pruner starts now. -/
def spawn (upkeep : Upkeep) (every grace : Duration) : Upkeep :=
  { upkeep with pruners := upkeep.pruners ++ [.spawn every grace upkeep.now] }

/-- The first pruner is stopped. -/
def shutdown (upkeep : Upkeep) : Upkeep :=
  { upkeep with pruners := upkeep.pruners.modifyHead Pruner.stop }

/-- The pruner at a place makes its next tick. -/
def tick (upkeep : Upkeep) (place : Nat) (pruner : Pruner) : Upkeep where
  now := upkeep.now
  gate := upkeep.gate.apply (.prune pruner.grace) upkeep.now
  pruners := upkeep.pruners.set place pruner.ticked

/-- Stopping the first pruner leaves all others as they are. -/
theorem mem_shutdown {upkeep : Upkeep} {pruner : Pruner}
    (member : pruner ∈ upkeep.shutdown.pruners) :
    pruner ∈ upkeep.pruners.tail ∨ pruner.stopped = true := by
  unfold shutdown at member
  cases pruners : upkeep.pruners with
  | nil =>
    rw [pruners] at member
    cases member
  | cons first rest =>
    rw [pruners] at member
    rcases List.mem_cons.1 member with rfl | old
    · exact .inr rfl
    · exact .inl old

section Seats

variable {upkeep : Upkeep} {place : Nat} {pruner : Pruner}

theorem getElem?_spawn (present : upkeep.pruners[place]? = some pruner) (every grace : Duration) :
    (upkeep.spawn every grace).pruners[place]? = some pruner := by
  rw [spawn, List.getElem?_append_left (List.getElem?_eq_some_iff.1 present).1]
  exact present

theorem getElem?_shutdown (present : upkeep.pruners[place]? = some pruner) :
    upkeep.shutdown.pruners[place]? = some (if place = 0 then pruner.stop else pruner) := by
  unfold shutdown
  cases place with
  | zero =>
    rw [List.getElem?_modifyHead_zero, present]
    rfl
  | succ place =>
    rw [List.getElem?_modifyHead_succ]
    exact present

theorem getElem?_tick_of_ne {other : Nat} (different : other ≠ place) (ticking : Pruner) :
    (upkeep.tick other ticking).pruners[place]? = upkeep.pruners[place]? :=
  List.getElem?_set_ne different

end Seats

/-- What happens by the passing of time alone, and what it does to the gate. -/
inductive Elapses (upkeep : Upkeep) : List Deed → Upkeep → Prop
  /-- A pruner whose next tick is due makes it. -/
  | tick {place : Nat} {pruner : Pruner} : upkeep.pruners[place]? = some pruner →
      pruner.wake? = some upkeep.now →
      Elapses upkeep [⟨some place, upkeep.now, .prune pruner.grace⟩] (upkeep.tick place pruner)
  /-- The clock moves on, past no tick. -/
  | pass {later : Instant} : upkeep.now ≤ later →
      (∀ pruner ∈ upkeep.pruners, ∀ wake, pruner.wake? = some wake → later ≤ wake) →
      Elapses upkeep [] { upkeep with now := later }

/-- What can happen next, and what it does to the gate. -/
inductive Next (upkeep : Upkeep) : List Deed → Upkeep → Prop
  | happen (event : Event) :
      Next upkeep [⟨none, upkeep.now, event⟩]
        { upkeep with gate := upkeep.gate.apply event upkeep.now }
  | spawn (every grace : Duration) : Next upkeep [] (upkeep.spawn every grace)
  | shutdown : Next upkeep [] upkeep.shutdown
  | elapse {deeds : List Deed} {later : Upkeep} : upkeep.Elapses deeds later →
      Next upkeep deeds later

/-- What has happened, with all that was done to the gate. -/
inductive Runs (upkeep : Upkeep) : List Deed → Upkeep → Prop
  | refl : Runs upkeep [] upkeep
  | tail {deeds fresh : List Deed} {middle later : Upkeep} : Runs upkeep deeds middle →
      middle.Next fresh later → Runs upkeep (deeds ++ fresh) later

theorem Runs.trans {upkeep middle later : Upkeep} {deeds more : List Deed}
    (first : upkeep.Runs deeds middle) (second : middle.Runs more later) :
    upkeep.Runs (deeds ++ more) later := by
  induction second with
  | refl => rwa [List.append_nil]
  | tail _ happens ih =>
    rw [← List.append_assoc]
    exact ih.tail happens

theorem Next.runs {upkeep later : Upkeep} {deeds : List Deed} (happens : upkeep.Next deeds later) :
    upkeep.Runs deeds later := Runs.tail .refl happens

/-! ## What was done, in order -/

variable {upkeep later : Upkeep} {deeds : List Deed}

theorem Next.gate_eq (happens : upkeep.Next deeds later) :
    later.gate = upkeep.gate.replay (deeds.map Deed.entry) := by
  cases happens with
  | happen event => rfl
  | spawn every grace | shutdown => rfl
  | elapse elapses =>
    cases elapses with
    | tick present due => rfl
    | pass ordered timers => rfl

theorem Next.now_le (happens : upkeep.Next deeds later) :
    upkeep.now ≤ later.now ∧ ∀ deed ∈ deeds, deed.instant = upkeep.now := by
  cases happens with
  | happen event => exact ⟨Nat.le_refl _, by simp⟩
  | spawn every grace | shutdown => exact ⟨Nat.le_refl _, by simp⟩
  | elapse elapses =>
    cases elapses with
    | tick present due => exact ⟨Nat.le_refl _, by simp⟩
    | pass ordered timers => exact ⟨ordered, by simp⟩

theorem Runs.gate_eq (runs : upkeep.Runs deeds later) :
    later.gate = upkeep.gate.replay (deeds.map Deed.entry) := by
  induction runs with
  | refl => rfl
  | tail _ happens ih => rw [happens.gate_eq, ih, List.map_append, Gate.replay_append]

/-- Each deed was done between the start and now, and none after a later one. -/
theorem Runs.ordered (runs : upkeep.Runs deeds later) :
    upkeep.now ≤ later.now ∧
      (∀ deed ∈ deeds, upkeep.now ≤ deed.instant ∧ deed.instant ≤ later.now) ∧
      deeds.Pairwise fun earlier later => earlier.instant ≤ later.instant := by
  induction runs with
  | refl => exact ⟨Nat.le_refl _, fun deed member => absurd member List.not_mem_nil, .nil⟩
  | @tail deeds fresh middle later _ happens ih =>
    obtain ⟨began, within, sorted⟩ := ih
    obtain ⟨ordered, instants⟩ := happens.now_le
    refine ⟨Nat.le_trans began ordered, fun deed member => ?_,
      List.pairwise_append.2 ⟨sorted, ?_, ?_⟩⟩
    · rcases List.mem_append.1 member with old | new
      · exact ⟨(within deed old).1, Nat.le_trans (within deed old).2 ordered⟩
      · rw [instants deed new]
        exact ⟨began, ordered⟩
    · refine List.pairwise_of_forall_mem_list fun earlier old deed new => ?_
      exact Nat.le_of_eq ((instants earlier old).trans (instants deed new).symm)
    · intro earlier old deed new
      rw [instants deed new]
      exact (within earlier old).2

end Upkeep

/-! ## What a tick leaves -/

namespace Registry

/-- What was reported before a tick, and is still known, was not stale at the tick. -/
def Spared (registry : Registry) (grace : Duration) (tick : Instant) : Prop :=
  ∀ id bucket, registry.bucket? id = some bucket → bucket.cachedAt < tick →
    ¬(Event.prune grace).Forgets tick bucket

variable {registry : Registry} {grace : Duration} {tick now : Instant}

theorem spared_prune (registry : Registry) (grace : Duration) (tick : Instant) :
    (registry.prune grace tick).Spared grace tick := by
  intro id bucket known _ forgets
  rw [bucket?_prune, Option.filter_eq_some_iff, (isStale_iff bucket grace tick).2 forgets] at known
  cases known.2

/-- What happens after a tick brings in nothing that was reported before it. -/
theorem Spared.onRegistry (spared : registry.Spared grace tick) (past : tick ≤ now)
    (event : Event) : (event.onRegistry registry now).Spared grace tick := by
  intro id bucket known early
  rcases (bucket?_onRegistry_eq_some_iff registry event now id bucket).1 known with
    ⟨⟨route, report, -, described⟩, -⟩ | ⟨before, -, -⟩
  · rw [described.cachedAt] at early
    exact absurd past (Nat.not_le.2 early)
  · exact spared id bucket before early

end Registry

namespace Upkeep

/-! ## A pruner on its schedule -/

/-- A pruner at a place, whose interval was `began` at first, is now `pruner`. It has made so many
ticks and no other, each at its instant; none is behind; and what a tick left was not stale then. -/
structure OnSchedule (upkeep : Upkeep) (place : Nat) (grace : Duration) (began : Interval)
    (deeds : List Deed) (count : Nat) (pruner : Pruner) : Prop where
  seated : upkeep.pruners[place]? = some pruner
  sameGrace : pruner.grace = grace
  waits : ∀ interval, pruner.interval? = some interval →
    interval = Interval.tick^[count] began ∧ upkeep.now ≤ interval.wake
  made : Deed.made deeds place =
    (List.range count).map fun tick => (began.tickAt tick, .prune grace)
  past : ∀ tick < count, began.tickAt tick ≤ upkeep.now
  spared : ∀ tick < count, upkeep.gate.registry.Spared grace (began.tickAt tick)

/-- A pruner that starts has taken the first tick of its interval, and no other. -/
theorem onSchedule_spawn (upkeep : Upkeep) {every : Duration} (positive : 0 < every)
    (grace : Duration) :
    (upkeep.spawn every grace).OnSchedule upkeep.pruners.length grace
      (Interval.tick ⟨every, positive, upkeep.now⟩) [] 0 (.spawn every grace upkeep.now) where
  seated := by simp [spawn]
  sameGrace := rfl
  waits interval waiting := by
    rw [Pruner.spawn, Interval.start?_of_pos positive] at waiting
    cases waiting
    exact ⟨rfl, Interval.le_wake_tick ⟨every, positive, upkeep.now⟩⟩
  made := rfl
  past := nofun
  spared := nofun

section OnSchedule

variable {upkeep later : Upkeep} {deeds : List Deed} {place count : Nat} {grace : Duration}
  {began : Interval} {pruner : Pruner}

/-- Whoever does something else to the gate leaves a pruner on its schedule. -/
theorem OnSchedule.happen (onTime : upkeep.OnSchedule place grace began deeds count pruner)
    (deed : Deed) (other : deed.pruner ≠ some place) {pruners : List Pruner}
    (still : pruners[place]? = some pruner) :
    Upkeep.OnSchedule ⟨upkeep.now, upkeep.gate.apply deed.event upkeep.now, pruners⟩ place grace
      began (deeds ++ [deed]) count pruner where
  seated := still
  sameGrace := onTime.sameGrace
  waits := onTime.waits
  made := by
    rw [Deed.made_append, onTime.made, Deed.made, List.filter_cons_of_neg (by simp [other]),
      List.filter_nil, List.map_nil, List.append_nil]
  past := onTime.past
  spared tick counted := by
    rw [Gate.apply_registry]
    exact (onTime.spared tick counted).onRegistry (onTime.past tick counted) deed.event

/-- A tick of its own keeps a pruner on its schedule. -/
theorem OnSchedule.tick (onTime : upkeep.OnSchedule place grace began deeds count pruner)
    (due : pruner.wake? = some upkeep.now) :
    (upkeep.tick place pruner).OnSchedule place grace began
      (deeds ++ [⟨some place, upkeep.now, .prune pruner.grace⟩]) (count + 1) pruner.ticked := by
  obtain ⟨interval, running, wakes⟩ := Option.map_eq_some_iff.1 due
  obtain ⟨rfl, -⟩ := onTime.waits interval running
  have taken : place < upkeep.pruners.length := (List.getElem?_eq_some_iff.1 onTime.seated).1
  have instant : began.tickAt count = upkeep.now := wakes
  -- The ticks so far, and the one that is made now.
  have known {Holds : Nat → Prop} (before : ∀ tick < count, Holds tick) (now : Holds count) :
      ∀ tick < count + 1, Holds tick := fun tick counted =>
    (Nat.lt_succ_iff_lt_or_eq.1 counted).elim (before tick) fun same => same ▸ now
  refine ⟨List.getElem?_set_self taken, onTime.sameGrace, fun next waiting => ?_, ?_,
    known onTime.past (Nat.le_of_eq instant), known (fun tick counted => ?_) ?_⟩
  · rw [Pruner.ticked, running] at waiting
    cases waiting
    rw [Function.iterate_succ_apply']
    exact ⟨rfl, Nat.le_trans (Nat.le_of_eq wakes.symm) (Interval.wake_le_wake_tick _)⟩
  · rw [Deed.made_append, onTime.made, List.range_succ, List.map_append, onTime.sameGrace]
    simp [Deed.made, Deed.entry, instant]
  · exact (onTime.spared tick counted).onRegistry (onTime.past tick counted) (.prune pruner.grace)
  · rw [instant, ← onTime.sameGrace]
    exact Registry.spared_prune _ _ _

theorem OnSchedule.stop (onTime : upkeep.OnSchedule place grace began deeds count pruner)
    (still : upkeep.shutdown.pruners[place]? = some pruner.stop) :
    upkeep.shutdown.OnSchedule place grace began deeds count pruner.stop where
  seated := still
  sameGrace := onTime.sameGrace
  waits := nofun
  made := onTime.made
  past := onTime.past
  spared := onTime.spared

/-- Whatever happens next, a pruner stays on its schedule. -/
theorem OnSchedule.next {fresh : List Deed}
    (onTime : upkeep.OnSchedule place grace began deeds count pruner)
    (happens : upkeep.Next fresh later) :
    ∃ count following, later.OnSchedule place grace began (deeds ++ fresh) count following := by
  cases happens with
  | happen event =>
    refine ⟨count, pruner, onTime.happen ⟨none, upkeep.now, event⟩ ?_ onTime.seated⟩
    exact (Option.some_ne_none place).symm
  | spawn every grace =>
    rw [List.append_nil]
    exact ⟨count, pruner, { onTime with seated := getElem?_spawn onTime.seated every grace }⟩
  | shutdown =>
    rw [List.append_nil]
    have seated := getElem?_shutdown onTime.seated
    split at seated
    · exact ⟨count, pruner.stop, onTime.stop seated⟩
    · exact ⟨count, pruner, { onTime with seated }⟩
  | elapse elapses =>
    cases elapses with
    | @tick other ticking present due =>
      by_cases same : other = place
      · subst same
        rw [onTime.seated] at present
        cases present
        exact ⟨_, _, onTime.tick due⟩
      · have seated := (getElem?_tick_of_ne same ticking).trans onTime.seated
        exact ⟨count, pruner, onTime.happen ⟨some other, upkeep.now, .prune ticking.grace⟩
          (by simpa using same) seated⟩
    | pass ordered timers =>
      rw [List.append_nil]
      refine ⟨count, pruner, { onTime with
        past := fun tick counted => Nat.le_trans (onTime.past tick counted) ordered
        waits := fun interval running => ⟨(onTime.waits interval running).1, ?_⟩ }⟩
      refine timers pruner (List.mem_of_getElem? onTime.seated) _ ?_
      rw [Pruner.wake?, running, Option.map_some]

theorem Runs.onSchedule {fresh : List Deed} (runs : upkeep.Runs fresh later)
    (onTime : upkeep.OnSchedule place grace began deeds count pruner) :
    ∃ count following, later.OnSchedule place grace began (deeds ++ fresh) count following := by
  induction runs with
  | refl => exact ⟨count, pruner, by rwa [List.append_nil]⟩
  | tail _ happens ih =>
    obtain ⟨count, middle, still⟩ := ih
    rw [← List.append_assoc]
    exact still.next happens

end OnSchedule

end Upkeep

/-! ## Looking after pruners -/

namespace Pruner

/-- A pruner that runs has no tick behind. -/
def IsCurrent (pruner : Pruner) (now : Instant) : Prop :=
  ∀ wake, pruner.wake? = some wake → now ≤ wake

theorem isCurrent_spawn (every grace : Duration) (now : Instant) :
    (spawn every grace now).IsCurrent now := by
  intro wake wakes
  obtain ⟨interval, running, rfl⟩ := Option.map_eq_some_iff.1 wakes
  obtain ⟨began, starts, rfl⟩ := Option.map_eq_some_iff.1 running
  unfold Interval.start? at starts
  split at starts
  · next positive =>
    cases starts
    exact Interval.le_wake_tick ⟨every, positive, now⟩
  · cases starts

theorem stopped_of_wake? {pruner : Pruner} {wake : Instant} (wakes : pruner.wake? = some wake) :
    pruner.stopped = false := by
  obtain ⟨interval, running, -⟩ := Option.map_eq_some_iff.1 wakes
  rw [stopped, running, Option.isNone_some]

/-- A pruner that does not wake by an instant has nothing to do then. -/
theorem idle_of_wake?_gt {pruner : Pruner} {limit : Instant}
    (later : ∀ wake, pruner.wake? = some wake → limit < wake) :
    pruner.prunings limit = [] ∧ pruner.advance limit = pruner := by
  obtain ⟨grace, interval?⟩ := pruner
  cases interval? with
  | none => exact ⟨rfl, rfl⟩
  | some interval =>
    have early := later _ rfl
    unfold prunings advance
    rw [Option.elim_some, Option.map_some, Interval.ticksBy_of_early early,
      Interval.after_of_early early]
    exact ⟨rfl, rfl⟩

section Tick

variable {pruner : Pruner} {limit wake : Instant}

/-- The first of the ticks that come by an instant may be made on its own. -/
theorem prunings_of_wake? (wakes : pruner.wake? = some wake) (due : wake ≤ limit) :
    pruner.prunings limit = (wake, pruner.grace) :: pruner.ticked.prunings limit ∧
      pruner.ticked.advance limit = pruner.advance limit := by
  obtain ⟨interval, running, rfl⟩ := Option.map_eq_some_iff.1 wakes
  unfold prunings advance ticked
  simp only [running, Option.map_some, Option.elim_some, Interval.ticksBy_of_come due,
    Interval.after_of_come due, List.map_cons, and_self]

theorem isCurrent_ticked (wakes : pruner.wake? = some wake) : pruner.ticked.IsCurrent wake := by
  obtain ⟨interval, running, rfl⟩ := Option.map_eq_some_iff.1 wakes
  intro next waits
  rw [ticked, wake?, running] at waits
  cases waits
  exact interval.wake_le_wake_tick

end Tick

end Pruner

namespace Upkeep

/-- The pruners make the ticks that come by an instant, one pruner after the other. -/
def tended (upkeep : Upkeep) (limit : Instant) : Upkeep where
  now := upkeep.now
  gate := upkeep.gate.pruned (upkeep.pruners.flatMap (Pruner.prunings · limit))
  pruners := upkeep.pruners.map (Pruner.advance · limit)

/-- No pruner has a tick behind. -/
def IsCurrent (upkeep : Upkeep) : Prop := ∀ pruner ∈ upkeep.pruners, pruner.IsCurrent upkeep.now

/-- How many ticks come by an instant. -/
def outstanding (upkeep : Upkeep) (limit : Instant) : Nat :=
  (upkeep.pruners.flatMap (Pruner.prunings · limit)).length

theorem exists_split {pruners : List Pruner} {place : Nat} {pruner : Pruner}
    (present : pruners[place]? = some pruner) :
    ∃ before after, pruners = before ++ pruner :: after ∧
      ∀ other, pruners.set place other = before ++ other :: after := by
  obtain ⟨inside, rfl⟩ := List.getElem?_eq_some_iff.1 present
  refine ⟨pruners.take place, pruners.drop (place + 1), ?_, fun other => ?_⟩
  · rw [List.getElem_cons_drop, List.take_append_drop]
  · rw [List.set_eq_take_append_cons_drop, if_pos inside]

variable {upkeep : Upkeep} {place : Nat} {pruner : Pruner} {limit : Instant}

/-- A tick that is made on its own is one of those that would be made anyway. -/
theorem tended_tick (present : upkeep.pruners[place]? = some pruner)
    (wakes : pruner.wake? = some upkeep.now) (due : upkeep.now ≤ limit) :
    (upkeep.tick place pruner).tended limit = upkeep.tended limit := by
  obtain ⟨before, after, split, replaced⟩ := exists_split present
  obtain ⟨first, advanced⟩ := Pruner.prunings_of_wake? wakes due
  have pruned : (upkeep.gate.apply (.prune pruner.grace) upkeep.now).pruned
        ((before ++ pruner.ticked :: after).flatMap (Pruner.prunings · limit)) =
      upkeep.gate.pruned ((before ++ pruner :: after).flatMap (Pruner.prunings · limit)) := by
    show upkeep.gate.pruned ((upkeep.now, pruner.grace) ::
        (before ++ pruner.ticked :: after).flatMap (Pruner.prunings · limit)) = _
    simp only [List.flatMap_append, List.flatMap_cons, first]
    -- The same prunings, in another order.
    refine upkeep.gate.pruned_congr ?_ ?_
    · intro pruning member
      grind
    · intro pruning member
      grind
  unfold tended tick
  rw [replaced, split, pruned]
  simp only [List.map_append, List.map_cons, advanced]

theorem outstanding_tick (present : upkeep.pruners[place]? = some pruner)
    (wakes : pruner.wake? = some upkeep.now) (due : upkeep.now ≤ limit) :
    (upkeep.tick place pruner).outstanding limit < upkeep.outstanding limit := by
  obtain ⟨before, after, split, replaced⟩ := exists_split present
  unfold outstanding tick
  rw [replaced, split]
  simp only [List.flatMap_append, List.flatMap_cons, (Pruner.prunings_of_wake? wakes due).1,
    List.length_append, List.length_cons]
  omega

/-- Where no pruner wakes by an instant there is nothing to do then. -/
theorem tended_of_idle
    (later : ∀ pruner ∈ upkeep.pruners, ∀ wake, pruner.wake? = some wake → limit < wake) :
    upkeep.tended limit = upkeep := by
  have idle : ∀ pruner ∈ upkeep.pruners,
      pruner.prunings limit = [] ∧ pruner.advance limit = pruner := fun pruner member =>
    Pruner.idle_of_wake?_gt (later pruner member)
  unfold tended
  rw [List.flatMap_eq_nil_iff.2 fun pruner member => (idle pruner member).1,
    List.map_congr_left fun pruner member => (idle pruner member).2, List.map_id']
  rfl

theorem IsCurrent.tick (current : upkeep.IsCurrent) (wakes : pruner.wake? = some upkeep.now) :
    (upkeep.tick place pruner).IsCurrent := by
  intro other member
  rcases List.mem_or_eq_of_mem_set member with old | rfl
  · exact current other old
  · exact Pruner.isCurrent_ticked wakes

theorem IsCurrent.next {later : Upkeep} {deeds : List Deed} (current : upkeep.IsCurrent)
    (happens : upkeep.Next deeds later) : later.IsCurrent := by
  cases happens with
  | happen event => exact current
  | spawn every grace =>
    intro pruner member
    rcases List.mem_append.1 member with old | new
    · exact current pruner old
    · rw [List.mem_singleton.1 new]
      exact Pruner.isCurrent_spawn every grace upkeep.now
  | shutdown =>
    intro pruner member wake wakes
    rcases mem_shutdown member with old | stopped
    · exact current pruner (List.mem_of_mem_tail old) wake wakes
    · rw [Pruner.stopped_of_wake? wakes] at stopped
      cases stopped
  | elapse elapses =>
    cases elapses with
    | tick present wakes => exact current.tick wakes
    | pass ordered timers => exact timers

theorem IsCurrent.runs {later : Upkeep} {deeds : List Deed} (current : upkeep.IsCurrent)
    (runs : upkeep.Runs deeds later) : later.IsCurrent := by
  induction runs with
  | refl => exact current
  | tail _ happens ih => exact ih.next happens

/-- The first of the ticks that are due. -/
theorem exists_first_wake (busy : ∃ pruner ∈ upkeep.pruners, ∃ wake, pruner.wake? = some wake ∧
      wake ≤ limit) :
    ∃ (wake : Instant) (place : Nat) (pruner : Pruner), upkeep.pruners[place]? = some pruner ∧
      pruner.wake? = some wake ∧ wake ≤ limit ∧
      ∀ other ∈ upkeep.pruners, ∀ later, other.wake? = some later → wake ≤ later := by
  obtain ⟨early, member, wake, wakes, due⟩ := busy
  have listed : wake ∈ upkeep.pruners.filterMap Pruner.wake? :=
    List.mem_filterMap.2 ⟨early, member, wakes⟩
  cases first : (upkeep.pruners.filterMap Pruner.wake?).min? with
  | none =>
    rw [List.min?_eq_none_iff.1 first] at listed
    cases listed
  | some least =>
    obtain ⟨found, lowest⟩ := List.min?_eq_some_iff.1 first
    obtain ⟨pruner, present, next⟩ := List.mem_filterMap.1 found
    obtain ⟨place, located⟩ := List.getElem?_of_mem present
    refine ⟨least, place, pruner, located, next, Nat.le_trans (lowest wake listed) due, ?_⟩
    exact fun other among later waits =>
      lowest later (List.mem_filterMap.2 ⟨other, among, waits⟩)

/-- Looking after the pruners makes the ticks one by one while the clock runs: first the next one
that is due, and then the others. -/
theorem exists_runs_tended (upkeep : Upkeep) (current : upkeep.IsCurrent) {limit later : Instant}
    (ordered : upkeep.now ≤ later) (past : limit ≤ later) (near : later ≤ limit + 1) :
    ∃ deeds, upkeep.Runs deeds { upkeep.tended limit with now := later } := by
  by_cases busy : ∃ pruner ∈ upkeep.pruners, ∃ wake, pruner.wake? = some wake ∧ wake ≤ limit
  · obtain ⟨wake, place, pruner, present, wakes, due, first⟩ := exists_first_wake busy
    let waiting : Upkeep := { upkeep with now := wake }
    have passes : upkeep.Next [] waiting :=
      .elapse (.pass (current pruner (List.mem_of_getElem? present) wake wakes) first)
    have ticks : waiting.Next _ (waiting.tick place pruner) := .elapse (.tick present wakes)
    have timely : waiting.IsCurrent := first
    have fewer : (waiting.tick place pruner).outstanding limit < upkeep.outstanding limit :=
      @outstanding_tick waiting place pruner limit present wakes due
    have rest := exists_runs_tended (waiting.tick place pruner) (timely.tick wakes)
      (Nat.le_trans due past) past near
    rw [@tended_tick waiting place pruner limit present wakes due] at rest
    obtain ⟨deeds, runs⟩ := rest
    exact ⟨_, (passes.runs.tail ticks).trans runs⟩
  · have idle : ∀ pruner ∈ upkeep.pruners, ∀ wake, pruner.wake? = some wake → limit < wake :=
      fun pruner member wake found => Nat.lt_of_not_le fun due =>
        busy ⟨pruner, member, wake, found, due⟩
    have timers : ∀ pruner ∈ upkeep.pruners, ∀ wake, pruner.wake? = some wake → later ≤ wake :=
      fun pruner member wake found => Nat.le_trans near (idle pruner member wake found)
    rw [tended_of_idle idle]
    exact ⟨[], Next.runs (.elapse (.pass ordered timers))⟩
termination_by upkeep.outstanding limit

end Upkeep

end QuotaGate
