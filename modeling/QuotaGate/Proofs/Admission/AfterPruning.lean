import QuotaGate.Proofs.Admission.Pruning
import QuotaGate.Proofs.Registry.Stale

/-!
# Waits after a pruning

A gate that was pruned is compared with the same gate without that pruning, while the same goes on
happening to both. What the pruning forgot is a bucket whose window is over, so nobody waits for it
any more. But the routes of the bucket are gone as well. While no report comes in, that makes no
difference: a route without a bucket waits for nothing either.

It makes one once the bucket is reported again on another route. An admission that began before that
report may still be held by the lockout when the report comes. It has not looked at its bucket yet,
and then it finds no bucket where it would have found a new window (`comes_earlier_after_report`).

Results:
1. `Registry.Lags.onRegistry`: what one event does to the two registries.
2. `Gate.waitAt_replay_prune`: the two waits are the same, unless the pruning stranded the route.
3. `Timeline.prune_spares_waits`: what a pruning forgets, and which admissions notice.
-/

namespace QuotaGate

/-! ## A pruned registry and the same registry unpruned -/

namespace Registry

/-- How a registry that was pruned at `tick` lags behind the same registry unpruned. It knows each
bucket in the same state, or has forgotten it after the end of its window. It counts each route in
the same bucket, or has lost the route. -/
structure Lags (cut full : Registry) (tick : Instant) (Lost : RouteKey → String → Prop) :
    Prop where
  bucket : ∀ id, cut.bucket? id = full.bucket? id ∨
    cut.bucket? id = none ∧ ∀ bucket, full.bucket? id = some bucket → bucket.resetsAt ≤ tick
  route : ∀ route, cut.bucketId? route = full.bucketId? route ∨
    cut.bucketId? route = none ∧ ∃ id, full.bucketId? route = some id ∧ Lost route id

/-- Right after the pruning, a registry has lost the routes of the buckets that it forgot. -/
theorem lags_prune {registry : Registry} (linked : registry.IsLinked) (grace : Duration)
    (tick : Instant) :
    (registry.prune grace tick).Lags registry tick fun route id =>
      registry.bucketId? route = some id ∧
        ∃ bucket, registry.bucket? id = some bucket ∧
          (Gate.Event.prune grace).Forgets tick bucket where
  bucket id := by
    cases known : registry.bucket? id with
    | none => exact .inl (by rw [bucket?_prune, known, Option.filter_none])
    | some bucket =>
      by_cases forgets : (Gate.Event.prune grace).Forgets tick bucket
      · have stale : bucket.isStale grace tick = true := (isStale_iff ..).2 forgets
        refine .inr ⟨by simp [bucket?_prune, known, stale], ?_⟩
        rintro _ ⟨⟩
        exact Nat.le_trans (Nat.le_add_right _ grace) forgets.2
      · exact .inl ((bucket?_prune_eq_some_iff ..).2 ⟨known, forgets⟩)
  route route := by
    cases counted : registry.bucketId? route with
    | none => exact .inl (by rw [bucketId?_prune, counted, Option.filter_none])
    | some id =>
      obtain ⟨bucket, known⟩ := linked route id counted
      by_cases forgets : (Gate.Event.prune grace).Forgets tick bucket
      · refine .inr ⟨Option.eq_none_iff_forall_ne_some.2 fun other found => ?_, id, rfl, rfl,
          bucket, known, forgets⟩
        obtain ⟨same, kept⟩ := (bucketId?_prune_eq_some_iff linked ..).1 found
        rw [counted] at same
        cases same
        exact kept bucket known forgets
      · refine .inl ((bucketId?_prune_eq_some_iff linked ..).2 ⟨counted, fun other held => ?_⟩)
        rw [known] at held
        cases held
        exact forgets

namespace Lags

variable {cut full : Registry} {tick now : Instant} {Lost Known : RouteKey → String → Prop}
  {route : RouteKey}

theorem imp (lags : cut.Lags full tick Lost)
    (known : ∀ route id, Lost route id → Known route id) : cut.Lags full tick Known where
  bucket := lags.bucket
  route route := (lags.route route).imp_right fun ⟨lost, id, counted, wasLost⟩ =>
    ⟨lost, id, counted, known route id wasLost⟩

/-- A route is lost until a complete report is made on it. -/
theorem onRegistry (lags : cut.Lags full tick Lost) (linkedCut : cut.IsLinked)
    (linked : full.IsLinked) (event : Gate.Event) (now : Instant) :
    (event.onRegistry cut now).Lags (event.onRegistry full now) tick fun route id =>
      Lost route id ∧ ∀ bucket, ¬event.Describes now route bucket where
  bucket id := by
    rcases lags.bucket id with same | ⟨lost, ended⟩
    · refine .inl (Option.ext fun bucket => ?_)
      rw [bucket?_onRegistry_eq_some_iff, bucket?_onRegistry_eq_some_iff, same]
    · by_cases described : ∃ other source, event.Describes now source other ∧ other.id = id
      · -- The event describes the bucket to both, whatever they knew before.
        obtain ⟨other, source, describes, named⟩ := described
        refine .inl (Option.ext fun bucket => ?_)
        rw [bucket?_onRegistry_eq_some_iff, bucket?_onRegistry_eq_some_iff]
        have replaced : ¬∀ other source, event.Describes now source other → other.id ≠ id :=
          fun others => others other source describes named
        simp only [replaced, false_and, and_false]
      · have others : ∀ bucket source, event.Describes now source bucket → bucket.id ≠ id :=
          fun bucket source describes named => described ⟨bucket, source, describes, named⟩
        refine .inr ⟨bucket?_onRegistry_eq_none lost others, fun bucket found => ?_⟩
        rcases (bucket?_onRegistry_eq_some_iff full event now id bucket).1 found with
          ⟨⟨source, describes⟩, named⟩ | ⟨held, -⟩
        · exact absurd named (others bucket source describes)
        · exact ended bucket held
  route route := by
    by_cases described : ∃ bucket, event.Describes now route bucket
    · obtain ⟨bucket, describes⟩ := described
      have replaced : ¬∀ other, ¬event.Describes now route other :=
        fun none => none bucket describes
      refine .inl (Option.ext fun id => ?_)
      rw [bucketId?_onRegistry_eq_some_iff linkedCut, bucketId?_onRegistry_eq_some_iff linked]
      simp only [replaced, false_and, and_false]
    · have silent : ∀ bucket, ¬event.Describes now route bucket := not_exists.1 described
      rcases lags.route route with same | ⟨lost, id, counted, wasLost⟩
      · refine .inl (Option.ext fun id => ?_)
        rw [bucketId?_onRegistry_eq_some_iff linkedCut, bucketId?_onRegistry_eq_some_iff linked,
          same]
        refine or_congr_right (and_congr_right fun counted => ?_)
        -- A route that is still counted has its bucket in the same state in both.
        obtain ⟨bucket, known⟩ := linkedCut route id (same ▸ counted)
        rcases lags.bucket id with alike | ⟨gone, -⟩
        · rw [alike]
        · rw [gone] at known
          cases known
      · have stillLost : (event.onRegistry cut now).bucketId? route = none :=
          bucketId?_onRegistry_eq_none linkedCut lost silent
        cases counts : (event.onRegistry full now).bucketId? route with
        | none => exact .inl stillLost
        | some other =>
          rcases (bucketId?_onRegistry_eq_some_iff linked event now route other).1 counts with
            ⟨bucket, describes, -⟩ | ⟨held, -⟩
          · exact absurd describes (silent bucket)
          · rw [counted] at held
            cases held
            exact .inr ⟨stillLost, id, rfl, wasLost, silent⟩

/-- A bucket that was forgotten at the tick is nothing to wait for after it. So a route waits the
same in both, unless it was lost and its bucket is known again. -/
theorem waitAt_eq (lags : cut.Lags full tick Lost) (after : tick ≤ now)
    (gone : ∀ id, Lost route id → cut.bucket? id = none) :
    cut.waitAt route now = full.waitAt route now := by
  have ended : ∀ id, cut.bucket? id = none → full.bucketId? route = some id →
      full.waitAt route now = 0 := by
    intro id forgotten counted
    cases known : full.bucket? id with
    | none => simp [waitAt, bucketOf?, counted, known]
    | some bucket =>
      rcases lags.bucket id with same | ⟨-, closed⟩
      · rw [forgotten, known] at same
        cases same
      · have nothing : bucket.waitAt now = 0 :=
          Nat.sub_eq_zero_of_le (Nat.le_trans (closed bucket known) after)
        simp [waitAt, bucketOf?, counted, known, nothing]
  rcases lags.route route with same | ⟨lost, id, counted, wasLost⟩
  · cases counted : full.bucketId? route with
    | none => simp [waitAt, bucketOf?, same, counted]
    | some id =>
      rcases lags.bucket id with alike | ⟨forgotten, -⟩
      · simp [waitAt, bucketOf?, same, counted, alike]
      · rw [ended id forgotten counted]
        simp [waitAt, bucketOf?, same, counted, forgotten]
  · rw [ended id (gone id wasLost) counted]
    simp [waitAt, bucketOf?, lost]

end Lags

end Registry

/-! ## Gates with and without the pruning -/

namespace Gate

variable (origin : Instant) (fallback : Duration) (history : History) (grace : Duration)
  {tick now : Instant} {since : History} {route : RouteKey}

theorem lags_replay (tick : Instant) (since : History) :
    ((Gate.new origin fallback).replay (history ++ (tick, .prune grace) :: since)).registry.Lags
      ((Gate.new origin fallback).replay (history ++ since)).registry tick fun route id =>
        History.Drops (history ++ (tick, .prune grace) :: since) route id since := by
  -- From the pruning on, the same events happen to both.
  induction since using List.reverseRecOn with
  | nil =>
    rw [replay_concat, apply_registry, List.append_nil]
    refine (Registry.lags_prune (isLinked_replay origin fallback history) grace tick).imp ?_
    rintro route id ⟨counted, bucket, known, forgets⟩
    have assigned := (bucketId?_eq_some_iff_assigns origin fallback history route id).1 counted
    have remembered := (bucket?_eq_some_iff_remembers origin fallback history id bucket).1 known
    exact ⟨history, tick, grace, rfl, assigned, ⟨bucket, remembered, forgets⟩, by simp⟩
  | append_singleton since entry ih =>
    rw [← List.cons_append, ← List.append_assoc, ← List.append_assoc, replay_concat,
      apply_registry, replay_concat, apply_registry]
    refine (ih.onRegistry (isLinked_replay origin fallback _) (isLinked_replay origin fallback _)
      entry.2 entry.1).imp ?_
    rintro route id ⟨drops, silent⟩
    exact drops.concat silent

/-- A route that the pruning did not strand waits as long as it would without the pruning. -/
theorem waitAt_replay_prune (after : tick ≤ now)
    (free : ¬History.StrandsSince (history ++ (tick, .prune grace) :: since) since route) :
    ((Gate.new origin fallback).replay
        (history ++ (tick, .prune grace) :: since)).registry.waitAt route now =
      ((Gate.new origin fallback).replay (history ++ since)).registry.waitAt route now := by
  refine (lags_replay origin fallback history grace tick since).waitAt_eq after fun id drops => ?_
  refine Option.eq_none_iff_forall_ne_some.2 fun bucket known => ?_
  rw [bucket?_eq_some_iff_remembers] at known
  refine drops.not_remembers (fun later member source other described named => ?_) bucket known
  exact free ⟨id, drops, later, member, source, other, described, named⟩

theorem lockout_replay_prune (tick : Instant) (since : History) :
    ((Gate.new origin fallback).replay (history ++ (tick, .prune grace) :: since)).lockout =
      ((Gate.new origin fallback).replay (history ++ since)).lockout := by
  rw [replay_append, replay_append, replay_cons]
  have alike : (((Gate.new origin fallback).replay history).apply (.prune grace) tick).LocksLike
      ((Gate.new origin fallback).replay history) := ⟨rfl, rfl⟩
  exact (alike.replay since).lockout_eq

end Gate

/-! ## Admissions after the pruning -/

namespace Timeline

/-- A gate that was pruned at `tick`, after what has happened since by each instant. -/
def afterPruning (origin : Instant) (fallback : Duration) (history : Gate.History)
    (grace : Duration) (tick : Instant) (since : Instant → Gate.History) : Timeline :=
  ofHistories origin fallback fun now => history ++ (tick, .prune grace) :: since now

/-- The same gate, had it not been pruned then. -/
def withoutPruning (origin : Instant) (fallback : Duration) (history : Gate.History)
    (since : Instant → Gate.History) : Timeline :=
  ofHistories origin fallback fun now => history ++ since now

section Pruning

variable {origin : Instant} {fallback : Duration} {history : Gate.History} {grace : Duration}
  {tick start look stop : Instant} {since : Instant → Gate.History} {route : RouteKey}

theorem clears_withoutPruning_iff :
    (withoutPruning origin fallback history since).Clears route start look ↔
      (afterPruning origin fallback history grace tick since).Clears route start look := by
  refine clears_congr_lockout fun now => ?_
  exact (Gate.lockout_replay_prune origin fallback history grace tick (since now)).symm

/-- An admission whose route is not stranded when it looks at its bucket comes as if there had been
no pruning. -/
theorem comes_afterPruning_iff (after : tick ≤ start)
    (free : ∀ look, (withoutPruning origin fallback history since).Clears route start look →
      ¬Gate.History.StrandsSince (history ++ (tick, .prune grace) :: since look) (since look)
        route) :
    (afterPruning origin fallback history grace tick since).Comes route start stop ↔
      (withoutPruning origin fallback history since).Comes route start stop := by
  refine comes_congr (fun now => ?_) fun look cleared => ?_
  · exact Gate.lockout_replay_prune origin fallback history grace tick (since now)
  · have same : (afterPruning origin fallback history grace tick since look).registry.waitAt route
        look = (withoutPruning origin fallback history since look).registry.waitAt route look :=
      Gate.waitAt_replay_prune origin fallback history grace (Nat.le_trans after cleared.le_now)
        (free look cleared)
    rw [Registry.wakeAt?, Registry.wakeAt?, same]

/-- An admission whose route is stranded when it looks at its bucket comes then. -/
theorem comes_afterPruning_iff_of_strands
    (cleared : (withoutPruning origin fallback history since).Clears route start look)
    (strands : Gate.History.StrandsSince (history ++ (tick, .prune grace) :: since look)
      (since look) route) :
    (afterPruning origin fallback history grace tick since).Comes route start stop ↔
      stop = look := by
  have nothing : (afterPruning origin fallback history grace tick since look).registry.wakeAt?
      route look = none :=
    if_pos (Gate.waitAt_replay_of_strands strands.strands)
  rw [(clears_withoutPruning_iff.1 cleared).comes_iff, nothing, Option.getD_none]

end Pruning

/-- A pruning forgets the buckets whose windows ended the grace ago and the routes that are counted
in them, and nothing else; its count is the number of these buckets. Nobody waits for a bucket that
is forgotten. An admission that begins after the pruning comes when it would have come without it,
unless its route is stranded when it looks at its bucket; then it comes at that look. As long as no
bucket is reported, no route is stranded. -/
theorem prune_spares_waits (origin : Instant) (fallback : Duration) (history : Gate.History)
    (grace : Duration) (tick : Instant) :
    let registry := ((Gate.new origin fallback).replay history).registry
    let pruned := registry.prune grace tick
    (∀ id bucket, pruned.bucket? id = some bucket ↔ registry.bucket? id = some bucket ∧
      ¬(bucket.resetsAt + grace ≤ Instant.latest ∧ bucket.resetsAt + grace ≤ tick)) ∧
    (∀ route id, pruned.bucketId? route = some id ↔ registry.bucketId? route = some id ∧
      ∀ bucket, registry.bucket? id = some bucket →
        ¬(bucket.resetsAt + grace ≤ Instant.latest ∧ bucket.resetsAt + grace ≤ tick)) ∧
    registry.staleCount grace tick =
      (registry.buckets.keys.filter fun id => (pruned.bucket? id).isNone).length ∧
    (∀ id bucket, registry.bucket? id = some bucket → 0 < bucket.waitAt tick →
      pruned.bucket? id = some bucket) ∧
    ∀ since route start, tick ≤ start →
      let after := afterPruning origin fallback history grace tick since
      let without := withoutPruning origin fallback history since
      ((∀ look, without.Clears route start look →
          ∀ entry ∈ since look, ∀ source bucket, ¬entry.2.Describes entry.1 source bucket) →
        ∀ stop, after.Comes route start stop ↔ without.Comes route start stop) ∧
      ((∀ look, without.Clears route start look →
          ¬Gate.History.StrandsSince (history ++ (tick, .prune grace) :: since look) (since look)
            route) →
        ∀ stop, after.Comes route start stop ↔ without.Comes route start stop) ∧
      ∀ look, without.Clears route start look →
        Gate.History.StrandsSince (history ++ (tick, .prune grace) :: since look) (since look)
          route →
        ∀ stop, after.Comes route start stop ↔ stop = look := by
  intro registry pruned
  have buckets := registry.bucket?_prune_eq_some_iff grace tick
  have linked : registry.IsLinked := Gate.isLinked_replay origin fallback history
  refine ⟨buckets, Registry.bucketId?_prune_eq_some_iff linked grace tick,
    registry.staleCount_eq grace tick, ?_, ?_⟩
  · intro id bucket known waits
    refine (buckets id bucket).2 ⟨known, fun forgets => ?_⟩
    have ended : bucket.resetsAt ≤ tick := Nat.le_trans (Nat.le_add_right _ grace) forgets.2
    exact absurd (Nat.sub_eq_zero_of_le ended) (Nat.ne_of_gt waits)
  · intro since route start later after without
    refine ⟨?_, ?_, ?_⟩
    · intro quiet stop
      refine comes_afterPruning_iff later fun look cleared strands => ?_
      obtain ⟨id, -, entry, member, source, bucket, described, -⟩ := strands
      exact quiet look cleared entry member source bucket described
    · intro free stop
      exact comes_afterPruning_iff later free
    · intro look cleared strands stop
      exact comes_afterPruning_iff_of_strands cleared strands

/-! ## A report during the wait -/

open Duration (ofSeconds ofMillis)

/-- A bucket is reported for one second, and the application is locked out for three. -/
def lockedAndEmptied : Gate.History :=
  [(0, .observe ⟨.get, "a"⟩ (emptiedFor (ofSeconds 1)) .succeeded),
    (0, .trigger (ofSeconds 3))]

/-- After two and a half seconds the bucket is reported on another route, for ten seconds. -/
def reportedBy (now : Instant) : Gate.History :=
  [(ofMillis 2500, .observe ⟨.get, "b"⟩ (emptiedFor (ofSeconds 10)) .succeeded)].filter
    fun entry => entry.1 ≤ now

/-- An admission that begins during the lockout looks at its bucket at the end of it. -/
theorem clears_lockedAndEmptied (path : String) :
    (withoutPruning 0 Gate.defaultFallback lockedAndEmptied reportedBy).Clears ⟨.get, path⟩
      (ofSeconds 2) (ofSeconds 3) := by
  have asleep : (withoutPruning 0 Gate.defaultFallback lockedAndEmptied reportedBy).Leads
      ⟨.get, path⟩ (ofSeconds 2, .checkingLockout) (ofSeconds 2, .lockedOut (ofSeconds 3)) :=
    .single (.move (Admission.step_eq_some_iff.2 (.isLocked (by decide +kernel))))
  have awake := asleep.tail (.sleep (Admission.step_eq_none_of_lt rfl (by decide) _ _) rfl)
  have looks := awake.tail (.move (Admission.step_eq_some_iff.2 (.looksAgain (Nat.le_refl _))))
  exact looks.tail (.move (Admission.step_eq_some_iff.2 (.isClear (by decide +kernel))))

/-- An admission on the first route begins right after the pruning, when no report has come in
since. Without the pruning it is held until the window ends that was reported on the other route;
after the pruning it comes at the end of the lockout. -/
theorem comes_earlier_after_report :
    reportedBy (ofSeconds 2) = [] ∧
    (afterPruning 0 Gate.defaultFallback lockedAndEmptied 0 (ofSeconds 2) reportedBy).Comes
      ⟨.get, "a"⟩ (ofSeconds 2) (ofSeconds 3) ∧
    (withoutPruning 0 Gate.defaultFallback lockedAndEmptied reportedBy).Comes ⟨.get, "a"⟩
      (ofSeconds 2) (ofMillis 12500) ∧
    ¬(withoutPruning 0 Gate.defaultFallback lockedAndEmptied reportedBy).Comes ⟨.get, "a"⟩
      (ofSeconds 2) (ofSeconds 3) := by
  have cleared := clears_lockedAndEmptied "a"
  refine ⟨by decide +kernel, ?_, ?_, ?_⟩
  · rw [(clears_withoutPruning_iff.1 cleared).comes_iff]
    decide +kernel
  · rw [cleared.comes_iff]
    decide +kernel
  · rw [cleared.comes_iff]
    decide +kernel

/-- What happens by the end of the lockout, the pruning included. -/
def reportedAfterPruning : Gate.History :=
  lockedAndEmptied ++ (ofSeconds 2, .prune 0) :: reportedBy (ofSeconds 3)

theorem strandsSince_reportedAfterPruning :
    reportedAfterPruning.StrandsSince (reportedBy (ofSeconds 3)) ⟨.get, "a"⟩ := by
  have assigned : lockedAndEmptied.Assigns ⟨.get, "a"⟩ "bucket" :=
    (Gate.bucketId?_eq_some_iff_assigns 0 0 lockedAndEmptied ..).1 (by decide +kernel)
  have remembered : lockedAndEmptied.Remembers "bucket"
      ⟨"bucket", 5, 0, .estimated, ofSeconds 1, 0⟩ :=
    (Gate.bucket?_eq_some_iff_remembers 0 0 lockedAndEmptied ..).1 (by decide +kernel)
  have only : reportedBy (ofSeconds 3) =
      [(ofMillis 2500, .observe ⟨.get, "b"⟩ (emptiedFor (ofSeconds 10)) .succeeded)] := by
    decide +kernel
  rw [reportedAfterPruning, only]
  exact strandsSince_of_emptied assigned remembered (ofMillis 2500)

/-- The other route has a report of its own, so the pruning did not strand it. -/
theorem not_strandsSince_reportedAfterPruning :
    ¬reportedAfterPruning.StrandsSince (reportedBy (ofSeconds 3)) ⟨.get, "b"⟩ := by
  rintro ⟨id, drops, -⟩
  have assigned : reportedAfterPruning.Assigns ⟨.get, "b"⟩ "bucket" :=
    (Gate.bucketId?_eq_some_iff_assigns 0 0 reportedAfterPruning ..).1 (by decide +kernel)
  exact drops.not_assigns "bucket" assigned

/-- The first route is stranded when it looks at its bucket, and so it comes at that look. The
other route comes when the new window ends, with the pruning and without. -/
theorem comes_at_look_after_report :
    (afterPruning 0 Gate.defaultFallback lockedAndEmptied 0 (ofSeconds 2) reportedBy).Comes
      ⟨.get, "a"⟩ (ofSeconds 2) (ofSeconds 3) ∧
    (afterPruning 0 Gate.defaultFallback lockedAndEmptied 0 (ofSeconds 2) reportedBy).Comes
      ⟨.get, "b"⟩ (ofSeconds 2) (ofMillis 12500) := by
  obtain ⟨-, -, -, -, waits⟩ :=
    prune_spares_waits 0 Gate.defaultFallback lockedAndEmptied 0 (ofSeconds 2)
  obtain ⟨-, -, atLook⟩ := waits reportedBy ⟨.get, "a"⟩ (ofSeconds 2) (Nat.le_refl _)
  obtain ⟨-, unchanged, -⟩ := waits reportedBy ⟨.get, "b"⟩ (ofSeconds 2) (Nat.le_refl _)
  have looks := clears_lockedAndEmptied "b"
  constructor
  · exact (atLook (ofSeconds 3) (clears_lockedAndEmptied "a") strandsSince_reportedAfterPruning
      (ofSeconds 3)).2 rfl
  · refine (unchanged (fun look cleared => ?_) (ofMillis 12500)).2 ?_
    · rw [← looks.unique cleared]
      exact not_strandsSince_reportedAfterPruning
    · rw [looks.comes_iff]
      decide +kernel

end Timeline

end QuotaGate
