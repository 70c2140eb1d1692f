import Mathlib.Logic.Relation
import QuotaGate.Proofs.Registry.Pruning
import QuotaGate.Quota.Admission

/-!
# What pruning does to a wait

An admission looks at the gate now and then and sleeps in between. What it finds there when it
looks is its timeline, and one timeline leads to one end: the admission comes when its look at the
bucket says so (`comes_iff`), and it looks at the bucket once.

Two timelines are compared: what has happened to the gate, and the same without the prunings. The
lockouts are the same in both, so the admission looks at the bucket at the same instant. There
pruning has taken away nothing that the admission would wait for, unless the route is stranded.

Results:
1. `leads_poll`: polling an admission goes on along its timeline.
2. `comes_iff_of_pruning`: a route that is not stranded waits as long as without the prunings, and
   a stranded one waits for the lockout alone. No wait gets longer.
3. `comes_earlier_after_pruning`: a stranded route is let in ten seconds before the window of its
   bucket ends.
-/

namespace QuotaGate

/-- To wait for a bucket is to sleep first. -/
theorem Registry.lt_of_wakeAt? {registry : Registry} {route : RouteKey} {now wake : Instant}
    (sleeps : registry.wakeAt? route now = some wake) : now < wake := by
  unfold wakeAt? at sleeps
  split at sleeps
  · cases sleeps
  · next positive =>
    cases sleeps
    exact Instant.lt_wakeAfter (Nat.pos_of_ne_zero positive)

/-- Whether the admission is through with its looks at the gate. -/
def Admission.isSettled : Admission → Bool
  | awaitingReset _ | admitted => true
  | checkingLockout | lockedOut _ | checkingBucket => false

/-- The gate as an admission finds it when it looks at an instant. -/
abbrev Timeline := Instant → Gate

namespace Timeline

/-! ## One admission on its timeline -/

/-- What an admission does next: it makes a move, or it sleeps until its timer. -/
inductive Next (timeline : Timeline) (route : RouteKey) :
    Instant × Admission → Instant × Admission → Prop
  | move {now : Instant} {admission next : Admission} :
      admission.step (timeline now) route now = some next →
      Next timeline route (now, admission) (now, next)
  | sleep {now wake : Instant} {admission : Admission} :
      admission.step (timeline now) route now = none → admission.wake? = some wake →
      Next timeline route (now, admission) (wake, admission)

def Leads (timeline : Timeline) (route : RouteKey) :
    Instant × Admission → Instant × Admission → Prop :=
  Relation.ReflTransGen (timeline.Next route)

/-- The admission that begins at `start` finds the lockout off and looks at its bucket at `look`. -/
def Clears (timeline : Timeline) (route : RouteKey) (start look : Instant) : Prop :=
  timeline.Leads route (start, .checkingLockout) (look, .checkingBucket)

/-- The admission that begins at `start` comes at `stop`. -/
def Comes (timeline : Timeline) (route : RouteKey) (start stop : Instant) : Prop :=
  timeline.Leads route (start, .checkingLockout) (stop, .admitted)

variable {timeline other : Timeline} {route : RouteKey} {start look stop : Instant}

/-- An admission that is polled goes on along its timeline until it has to sleep or comes. -/
theorem leads_poll (timeline : Timeline) (route : RouteKey) (now : Instant)
    (admission : Admission) :
    timeline.Leads route (now, admission) (now, admission.poll (timeline now) route now) ∧
      (admission.poll (timeline now) route now).step (timeline now) route now = none := by
  cases moved : admission.step (timeline now) route now with
  | none =>
    rw [Admission.poll_of_step_eq_none moved]
    exact ⟨.refl, moved⟩
  | some next =>
    have fewer := Admission.rank_lt_of_step moved
    obtain ⟨leads, stuck⟩ := leads_poll timeline route now next
    rw [Admission.poll_of_step moved]
    exact ⟨.head (.move moved) leads, stuck⟩
termination_by admission.rank now

theorem next_rightUnique (timeline : Timeline) (route : RouteKey) :
    Relator.RightUnique (timeline.Next route) := by
  intro moment one another first second
  cases first with
  | move moved =>
    cases second with
    | move moves =>
      rw [moved] at moves
      cases moves
      rfl
    | sleep stuck waits =>
      rw [moved] at stuck
      cases stuck
  | sleep stuck waits =>
    cases second with
    | move moved =>
      rw [stuck] at moved
      cases moved
    | sleep _ sleeps =>
      rw [waits] at sleeps
      cases sleeps
      rfl

/-- An admission does not go back in time. -/
theorem Leads.le_now {moment later : Instant × Admission}
    (leads : timeline.Leads route moment later) : moment.1 ≤ later.1 := by
  induction leads with
  | refl => exact Nat.le_refl _
  | tail _ happens ih =>
    cases happens with
    | move moved => exact ih
    | sleep stuck waits =>
      exact Nat.le_trans ih (Nat.le_of_lt (Admission.lt_of_step_eq_none stuck waits))

/-- What is settled stays so. -/
theorem Next.isSettled {moment later : Instant × Admission}
    (happens : timeline.Next route moment later) (settled : moment.2.isSettled = true) :
    later.2.isSettled = true := by
  cases happens with
  | move moved =>
    cases Admission.step_eq_some_iff.1 moved with
    | isLocked sleeps | isClear off | looksAgain due | isEmpty sleeps | isFree off => cases settled
    | isRefilled due => rfl
  | sleep stuck waits => exact settled

/-- An admission looks at its bucket once. -/
theorem Leads.isSettled_of_checkingBucket {later : Instant × Admission}
    (leads : timeline.Leads route (look, .checkingBucket) later) :
    later = (look, .checkingBucket) ∨ later.2.isSettled = true := by
  induction leads with
  | refl => exact .inl rfl
  | tail _ happens ih =>
    rcases ih with rfl | settled
    · cases happens with
      | move moved =>
        cases Admission.step_eq_some_iff.1 moved with
        | isEmpty sleeps | isFree off => exact .inr rfl
      | sleep stuck waits => cases stuck
    · exact .inr (happens.isSettled settled)

theorem Clears.unique {another : Instant} (first : timeline.Clears route start look)
    (second : timeline.Clears route start another) : look = another := by
  -- One of the two runs goes on where the other one ends.
  rcases Relation.ReflTransGen.total_of_right_unique (next_rightUnique timeline route) first second
    with leads | leads
  · rcases Leads.isSettled_of_checkingBucket leads with same | settled
    · exact (congrArg Prod.fst same).symm
    · cases settled
  · rcases Leads.isSettled_of_checkingBucket leads with same | settled
    · exact congrArg Prod.fst same
    · cases settled

/-- Until the look at the bucket, an admission looks at nothing but the lockout, on whatever route
it is. -/
theorem Leads.congr_lockout (same : ∀ now, (timeline now).lockout = (other now).lockout)
    (wanted : RouteKey) {later : Instant × Admission}
    (leads : timeline.Leads route (start, .checkingLockout) later) :
    later.2.isSettled = true ∨ other.Leads wanted (start, .checkingLockout) later := by
  -- Whatever comes before a look at the bucket is not settled yet, so the induction hypothesis
  -- gives a run on the other timeline there.
  induction leads with
  | refl => exact .inr .refl
  | tail _ happens ih =>
    rcases ih with settled | before
    · exact .inl (happens.isSettled settled)
    · cases happens with
      | @move now admission next moved =>
        cases Admission.step_eq_some_iff.1 moved with
        | isLocked sleeps =>
          rw [same] at sleeps
          exact .inr (before.tail (.move (Admission.step_eq_some_iff.2 (.isLocked sleeps))))
        | isClear off =>
          rw [same] at off
          exact .inr (before.tail (.move (Admission.step_eq_some_iff.2 (.isClear off))))
        | looksAgain due =>
          exact .inr (before.tail (.move (Admission.step_eq_some_iff.2 (.looksAgain due))))
        | isEmpty sleeps | isFree off | isRefilled due => exact .inl rfl
      | @sleep now wake admission stuck waits =>
        cases admission with
        | lockedOut timer => exact .inr (before.tail (.sleep stuck waits))
        | awaitingReset timer => exact .inl rfl
        | checkingLockout | checkingBucket | admitted => cases waits

theorem Clears.congr_lockout (same : ∀ now, (timeline now).lockout = (other now).lockout)
    (wanted : RouteKey) (cleared : timeline.Clears route start look) :
    other.Clears wanted start look := by
  rcases Leads.congr_lockout same wanted cleared with settled | leads
  · cases settled
  · exact leads

theorem clears_congr_lockout (same : ∀ now, (timeline now).lockout = (other now).lockout) :
    timeline.Clears route start look ↔ other.Clears route start look :=
  ⟨Clears.congr_lockout same route, Clears.congr_lockout (fun now => (same now).symm) route⟩

/-! ## When the admission comes -/

/-- How an admission stands after its look at the bucket. -/
inductive Settles (timeline : Timeline) (route : RouteKey) (look : Instant) :
    Instant × Admission → Prop
  | waits {now wake : Instant} : (timeline look).registry.wakeAt? route look = some wake →
      now = look ∨ now = wake → Settles timeline route look (now, .awaitingReset wake)
  | comes : Settles timeline route look
      (((timeline look).registry.wakeAt? route look).getD look, .admitted)

theorem Settles.next {moment later : Instant × Admission}
    (settles : timeline.Settles route look moment) (happens : timeline.Next route moment later) :
    timeline.Settles route look later := by
  cases settles with
  | @waits now wake sleeps instant =>
    cases happens with
    | move moved =>
      cases Admission.step_eq_some_iff.1 moved with
      | isRefilled due =>
        -- At the look itself the timer is not due yet.
        rcases instant with rfl | rfl
        · exact absurd due (Nat.not_le.2 (Registry.lt_of_wakeAt? sleeps))
        · have stops : now = ((timeline look).registry.wakeAt? route look).getD look := by
            rw [sleeps, Option.getD_some]
          rw [stops]
          exact .comes
    | sleep stuck waits =>
      cases waits
      exact .waits sleeps (.inr rfl)
  | comes =>
    cases happens with
    | move moved => cases moved
    | sleep stuck waits => cases waits

theorem Leads.settles {later : Instant × Admission}
    (leads : timeline.Leads route (start, .checkingLockout) later)
    (settled : later.2.isSettled = true) :
    ∃ look, timeline.Clears route start look ∧ timeline.Settles route look later := by
  induction leads with
  | refl => cases settled
  | @tail moment later before happens ih =>
    by_cases already : moment.2.isSettled = true
    · obtain ⟨look, cleared, settles⟩ := ih already
      exact ⟨look, cleared, settles.next happens⟩
    · cases happens with
      | @move now admission next moved =>
        cases Admission.step_eq_some_iff.1 moved with
        | isLocked sleeps | isClear off | looksAgain due => cases settled
        | isEmpty sleeps => exact ⟨now, before, .waits sleeps (.inl rfl)⟩
        | isFree off =>
          have stops : now = ((timeline now).registry.wakeAt? route now).getD now := by
            rw [off, Option.getD_none]
          refine ⟨now, before, ?_⟩
          nth_rewrite 2 [stops]
          exact .comes
        | isRefilled due => exact absurd rfl already
      | sleep stuck waits => exact absurd settled already

/-- The admission comes when its look at the bucket says so. -/
theorem comes_iff : timeline.Comes route start stop ↔
    ∃ look, timeline.Clears route start look ∧
      stop = ((timeline look).registry.wakeAt? route look).getD look := by
  constructor
  · intro comes
    obtain ⟨look, cleared, settles⟩ := Leads.settles comes rfl
    cases settles
    exact ⟨look, cleared, rfl⟩
  · rintro ⟨look, cleared, rfl⟩
    cases looked : (timeline look).registry.wakeAt? route look with
    | none => exact cleared.tail (.move (Admission.step_eq_some_iff.2 (.isFree looked)))
    | some wake =>
      have asleep := cleared.tail (.move (Admission.step_eq_some_iff.2 (.isEmpty looked)))
      have stuck : (Admission.awaitingReset wake).step (timeline look) route look = none :=
        if_neg (Nat.not_le.2 (Registry.lt_of_wakeAt? looked))
      have awake := asleep.tail (.sleep stuck rfl)
      exact awake.tail (.move (Admission.step_eq_some_iff.2 (.isRefilled (Nat.le_refl wake))))

theorem Clears.comes_iff (cleared : timeline.Clears route start look) :
    timeline.Comes route start stop ↔
      stop = ((timeline look).registry.wakeAt? route look).getD look := by
  rw [Timeline.comes_iff]
  constructor
  · rintro ⟨another, clears, stops⟩
    rwa [cleared.unique clears]
  · exact fun stops => ⟨look, cleared, stops⟩

/-- Where two timelines show the same lockout, and the same wait at the look at the bucket, an
admission comes at the same instant. -/
theorem comes_congr (lockout : ∀ now, (timeline now).lockout = (other now).lockout)
    (waits : ∀ look, other.Clears route start look →
      (timeline look).registry.wakeAt? route look = (other look).registry.wakeAt? route look) :
    timeline.Comes route start stop ↔ other.Comes route start stop := by
  rw [comes_iff, comes_iff]
  refine exists_congr fun look => ?_
  rw [clears_congr_lockout lockout]
  refine and_congr_right fun cleared => ?_
  rw [waits look cleared]

/-! ## With and without prunings -/

/-- A gate that was new at `origin`, after what an admission has seen happen at each instant. -/
def ofHistories (origin : Instant) (fallback : Duration) (seen : Instant → Gate.History) :
    Timeline :=
  fun now => (Gate.new origin fallback).replay (seen now)

/-- The same gate, had it never been pruned. -/
def ofUnpruned (origin : Instant) (fallback : Duration) (seen : Instant → Gate.History) :
    Timeline :=
  ofHistories origin fallback fun now => (seen now).unpruned

end Timeline

/-- Pruning leaves the lockout alone. -/
theorem Gate.lockout_replay_unpruned (origin : Instant) (fallback : Duration)
    (history : History) :
    ((Gate.new origin fallback).replay history.unpruned).lockout =
      ((Gate.new origin fallback).replay history).lockout := by
  refine @lockout_replay_filter _ (fun event => !event.isPrune) (fun event prunes => ?_) history
  obtain ⟨grace, rfl⟩ := Event.eq_prune_of_isPrune (by simpa using prunes)
  rfl

namespace Timeline

section Pruning

variable {origin : Instant} {fallback : Duration} {seen : Instant → Gate.History}
  {route : RouteKey} {start look stop : Instant}

theorem clears_unpruned_iff :
    (ofUnpruned origin fallback seen).Clears route start look ↔
      (ofHistories origin fallback seen).Clears route start look :=
  clears_congr_lockout fun now => Gate.lockout_replay_unpruned origin fallback (seen now)

/-- Pruning does not change when an admission comes, unless its route is stranded when it looks at
the bucket. A stranded route is not held for the bucket at all, so no admission comes later. -/
theorem comes_iff_of_pruning (past : ∀ now, ∀ entry ∈ seen now, entry.1 ≤ now)
    (route : RouteKey) (start : Instant) :
    ((∀ look, (ofUnpruned origin fallback seen).Clears route start look →
        ¬(seen look).Strands route) →
      ∀ stop, (ofHistories origin fallback seen).Comes route start stop ↔
        (ofUnpruned origin fallback seen).Comes route start stop) ∧
    (∀ look, (ofUnpruned origin fallback seen).Clears route start look →
      (seen look).Strands route →
      ∀ stop, (ofHistories origin fallback seen).Comes route start stop ↔ stop = look) ∧
    ∀ stop, (ofUnpruned origin fallback seen).Comes route start stop →
      ∃ earlier ≤ stop, (ofHistories origin fallback seen).Comes route start earlier := by
  -- What a look at the bucket finds is compared at one instant; the rest follows from `comes_iff`.
  have unstranded : ∀ look, ¬(seen look).Strands route →
      (ofHistories origin fallback seen look).registry.wakeAt? route look =
        (ofUnpruned origin fallback seen look).registry.wakeAt? route look := by
    intro look free
    rw [Registry.wakeAt?, Registry.wakeAt?, ofHistories, ofUnpruned, ofHistories,
      Gate.waitAt_replay_of_not_strands (past look) free]
  have stranded : ∀ look, (seen look).Strands route →
      (ofHistories origin fallback seen look).registry.wakeAt? route look = none :=
    fun look strands => if_pos (Gate.waitAt_replay_of_strands strands)
  refine ⟨fun free stop => ?_, fun look cleared strands stop => ?_, fun stop comes => ?_⟩
  · refine comes_congr (fun now => ?_) fun look cleared => unstranded look (free look cleared)
    exact (Gate.lockout_replay_unpruned origin fallback (seen now)).symm
  · rw [(clears_unpruned_iff.1 cleared).comes_iff, stranded look strands, Option.getD_none]
  · obtain ⟨look, cleared, rfl⟩ := comes_iff.1 comes
    refine ⟨_, ?_, comes_iff.2 ⟨look, clears_unpruned_iff.1 cleared, rfl⟩⟩
    by_cases strands : (seen look).Strands route
    · rw [stranded look strands, Option.getD_none]
      cases looked : (ofUnpruned origin fallback seen look).registry.wakeAt? route look with
      | none => exact Nat.le_refl look
      | some wake => exact Nat.le_of_lt (Registry.lt_of_wakeAt? looked)
    · exact Nat.le_of_eq (congrArg (Option.getD · look) (unstranded look strands))

end Pruning

/-! ## A stranded route -/

open Duration (ofSeconds)

/-- A report that leaves the one bucket empty. -/
def emptiedFor (resetAfter : Duration) : Report :=
  ⟨some "bucket", some 5, some 0, none, some resetAfter, none, none⟩

/-- A bucket is reported on a route, is pruned after its window, and is reported again on another
route, for ten seconds. -/
def stranding : Gate.History :=
  [(0, .observe ⟨.get, "a"⟩ (emptiedFor (ofSeconds 1)) .succeeded),
    (ofSeconds 2, .prune 0),
    (ofSeconds 2, .observe ⟨.get, "b"⟩ (emptiedFor (ofSeconds 10)) .succeeded)]

/-- So much of it as has happened by an instant. -/
def strandingBy (now : Instant) : Gate.History := stranding.filter fun entry => entry.1 ≤ now

theorem strandingBy_past (now : Instant) : ∀ entry ∈ strandingBy now, entry.1 ≤ now :=
  fun _ member => of_decide_eq_true (List.mem_filter.1 member).2

/-- At a gate that was never locked an admission looks at its bucket at once. -/
theorem clears_stranding :
    (ofUnpruned 0 Gate.defaultFallback strandingBy).Clears ⟨.get, "a"⟩ (ofSeconds 2)
      (ofSeconds 2) :=
  .single (.move (by decide +kernel))

/-- The first route is let in at once after the pruning. Without the pruning it is held until the
window that was reported on the other route ends. -/
theorem comes_earlier_after_pruning :
    (∀ now, ∀ entry ∈ strandingBy now, entry.1 ≤ now) ∧
    (ofHistories 0 Gate.defaultFallback strandingBy).Comes ⟨.get, "a"⟩ (ofSeconds 2)
      (ofSeconds 2) ∧
    (ofUnpruned 0 Gate.defaultFallback strandingBy).Comes ⟨.get, "a"⟩ (ofSeconds 2)
      (ofSeconds 12) ∧
    ¬(ofUnpruned 0 Gate.defaultFallback strandingBy).Comes ⟨.get, "a"⟩ (ofSeconds 2)
      (ofSeconds 2) := by
  refine ⟨strandingBy_past, ?_, ?_, ?_⟩
  · rw [(clears_unpruned_iff.1 clears_stranding).comes_iff]
    decide +kernel
  · rw [clears_stranding.comes_iff]
    decide +kernel
  · rw [clears_stranding.comes_iff]
    decide +kernel

/-- The first route is stranded as soon as the bucket is reported on the other one. -/
theorem strandsSince_of_emptied {before : Gate.History}
    (assigned : before.Assigns ⟨.get, "a"⟩ "bucket")
    (remembered : before.Remembers "bucket" ⟨"bucket", 5, 0, .estimated, ofSeconds 1, 0⟩)
    (now : Instant) :
    let reported : Instant × Gate.Event :=
      (now, .observe ⟨.get, "b"⟩ (emptiedFor (ofSeconds 10)) .succeeded)
    Gate.History.StrandsSince (before ++ (ofSeconds 2, .prune 0) :: [reported]) [reported]
      ⟨.get, "a"⟩ := by
  intro reported
  let lost : Bucket := ⟨"bucket", 5, 0, .estimated, ofSeconds 1, 0⟩
  have forgets : (Gate.Event.prune 0).Forgets (ofSeconds 2) lost := by
    constructor <;> decide
  have near : ResetTime.ofReport none (ofSeconds 10) = .estimated := by decide +kernel
  have described : (emptiedFor (ofSeconds 10)).Describes now
      ⟨"bucket", 5, 0, .estimated, ofSeconds 10, now⟩ :=
    ⟨rfl, rfl, ⟨0, rfl, rfl⟩, rfl, near.symm, rfl⟩
  refine Gate.History.strandsSince_of_describes assigned remembered forgets
    ((Gate.Event.observe_describes_iff ..).2 ⟨rfl, described⟩) rfl ?_
  intro bucket onRoute
  exact absurd ((Gate.Event.observe_describes_iff ..).1 onRoute).1 (by decide)

theorem strands_stranding : (strandingBy (ofSeconds 2)).Strands ⟨.get, "a"⟩ := by
  let before : Gate.History :=
    [(0, .observe ⟨.get, "a"⟩ (emptiedFor (ofSeconds 1)) .succeeded)]
  have assigned : before.Assigns ⟨.get, "a"⟩ "bucket" :=
    (Gate.bucketId?_eq_some_iff_assigns 0 0 before ..).1 (by decide +kernel)
  have remembered : before.Remembers "bucket" ⟨"bucket", 5, 0, .estimated, ofSeconds 1, 0⟩ :=
    (Gate.bucket?_eq_some_iff_remembers 0 0 before ..).1 (by decide +kernel)
  exact (strandsSince_of_emptied assigned remembered (ofSeconds 2)).strands

/-- The route is stranded when it looks at the bucket, and so it comes then. -/
theorem comes_at_look_of_stranding :
    (strandingBy (ofSeconds 2)).Strands ⟨.get, "a"⟩ ∧
      (ofHistories 0 Gate.defaultFallback strandingBy).Comes ⟨.get, "a"⟩ (ofSeconds 2)
        (ofSeconds 2) := by
  obtain ⟨-, atLook, -⟩ := comes_iff_of_pruning strandingBy_past ⟨.get, "a"⟩ (ofSeconds 2)
  exact ⟨strands_stranding,
    (atLook (ofSeconds 2) clears_stranding strands_stranding (ofSeconds 2)).2 rfl⟩

end Timeline

end QuotaGate
