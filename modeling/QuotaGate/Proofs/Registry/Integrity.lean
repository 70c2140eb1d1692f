import QuotaGate.Proofs.Registry.History
import QuotaGate.Proofs.Traffic
import QuotaGate.Quota.Pruner

/-!
# The integrity of a registry

A registry consists of two tables that every operation changes one after the other. Together they
stay consistent: the bucket of a known route is known, a bucket is kept under its own name, and what
is kept of it was possible when it was reported.

Results:
1. `Registry.IsConsistent.onRegistry`: one event keeps the registry consistent.
2. `Gate.isConsistent_replay`: so does a history.
3. `Traffic.isConsistent_of_reachesTended`: and so does whatever the tasks and the pruners at one
   gate do.
-/

namespace QuotaGate

namespace Registry

/-- A registry that makes sense at an instant. -/
structure IsConsistent (registry : Registry) (now : Instant) : Prop where
  /-- A route is counted in a bucket that is known. -/
  linked : ∀ route id, (route, id) ∈ registry.routes.entries →
    ∃ bucket, (id, bucket) ∈ registry.buckets.entries
  /-- A bucket is kept under its own name. -/
  named : ∀ id bucket, (id, bucket) ∈ registry.buckets.entries → bucket.id = id
  /-- No more is left of a bucket than its limit. -/
  counted : ∀ id bucket, (id, bucket) ∈ registry.buckets.entries → bucket.remaining ≤ bucket.limit
  /-- A bucket was reported before now. -/
  reported : ∀ id bucket, (id, bucket) ∈ registry.buckets.entries → bucket.cachedAt ≤ now
  /-- No route is held twice. -/
  nodup_routes : registry.routes.keys.Nodup
  /-- No bucket is held twice. -/
  nodup_buckets : registry.buckets.keys.Nodup

/-- Consistency as a lookup sees it. -/
theorem isConsistent_iff (registry : Registry) (now : Instant) :
    registry.IsConsistent now ↔ registry.IsLinked ∧ ∀ id bucket,
      registry.bucket? id = some bucket →
        bucket.id = id ∧ bucket.remaining ≤ bucket.limit ∧ bucket.cachedAt ≤ now := by
  simp only [IsLinked, bucketId?, bucket?, Table.get?_eq_some_iff]
  constructor
  · intro consistent
    refine ⟨consistent.linked, fun id bucket held => ?_⟩
    exact ⟨consistent.named id bucket held, consistent.counted id bucket held,
      consistent.reported id bucket held⟩
  · rintro ⟨linked, known⟩
    exact ⟨linked, fun id bucket held => (known id bucket held).1,
      fun id bucket held => (known id bucket held).2.1,
      fun id bucket held => (known id bucket held).2.2,
      registry.routes.nodup_keys, registry.buckets.nodup_keys⟩

theorem isConsistent_empty (now : Instant) : Registry.empty.IsConsistent now := by
  refine (isConsistent_iff _ now).2 ⟨fun route id counted => ?_, fun id bucket held => ?_⟩
  · cases counted
  · cases held

namespace IsConsistent

variable {registry : Registry} {now : Instant}

theorem later (consistent : registry.IsConsistent now) {later : Instant} (ordered : now ≤ later) :
    registry.IsConsistent later :=
  { consistent with
    reported := fun id bucket held => Nat.le_trans (consistent.reported id bucket held) ordered }

/-- The bucket of a route is known exactly if the route is. -/
theorem isSome_bucketOf? (consistent : registry.IsConsistent now) (route : RouteKey) :
    (registry.bucketOf? route).isSome = (registry.bucketId? route).isSome := by
  unfold bucketOf?
  cases counted : registry.bucketId? route with
  | none => rfl
  | some id =>
    obtain ⟨bucket, held⟩ := ((isConsistent_iff registry now).1 consistent).1 route id counted
    rw [Option.bind_some, held]
    rfl

/-- What an event writes into the registry is new and comes from one report. -/
theorem onRegistry (consistent : registry.IsConsistent now) (event : Gate.Event) {instant : Instant}
    (past : instant ≤ now) : (event.onRegistry registry instant).IsConsistent now := by
  obtain ⟨linked, known⟩ := (isConsistent_iff registry now).1 consistent
  refine (isConsistent_iff _ now).2 ⟨isLinked_onRegistry linked event instant, ?_⟩
  intro id bucket held
  rcases (bucket?_onRegistry_eq_some_iff registry event instant id bucket).1 held with
    ⟨⟨route, report, -, described⟩, named⟩ | ⟨before, -⟩
  · obtain ⟨left, -, clamped⟩ := described.remaining
    refine ⟨named, ?_, ?_⟩
    · rw [clamped]
      exact Nat.min_le_right left bucket.limit
    · rw [described.cachedAt]
      exact past
  · exact known id bucket before

end IsConsistent

end Registry

namespace Gate

theorem isConsistent_apply {gate : Gate} {now : Instant}
    (consistent : gate.registry.IsConsistent now) (event : Event) {instant : Instant}
    (past : instant ≤ now) : (gate.apply event instant).registry.IsConsistent now := by
  rw [apply_registry]
  exact consistent.onRegistry event past

theorem isConsistent_replay {gate : Gate} {now : Instant}
    (consistent : gate.registry.IsConsistent now) {history : History}
    (past : ∀ entry ∈ history, entry.1 ≤ now) :
    (gate.replay history).registry.IsConsistent now := by
  induction history generalizing gate with
  | nil => exact consistent
  | cons entry history ih =>
    rw [List.forall_mem_cons] at past
    exact ih (isConsistent_apply consistent entry.2 past.1) past.2

end Gate

/-! ## Pruners -/

namespace Pruner

theorem isConsistent_run (pruner : Pruner) {gate : Gate} {now : Instant}
    (consistent : gate.registry.IsConsistent now) :
    (pruner.run gate now).2.registry.IsConsistent now :=
  @run_invariant (fun gate => gate.registry.IsConsistent now) pruner gate now
    (fun _ _ past consistent => Gate.isConsistent_apply consistent _ past) consistent

end Pruner

/-! ## Traffic -/

namespace Traffic

/-- What can happen next at a gate that pruners tend as well. -/
inductive NextTended (traffic : Traffic) : Traffic → Prop
  /-- Anything but a pruner. -/
  | next {following : Traffic} : traffic.Next following → NextTended traffic following
  /-- A pruner makes the ticks that are due. -/
  | tick (pruner : Pruner) : NextTended traffic
      { traffic with exchange.gate := (pruner.run traffic.gate traffic.now).2 }

def ReachesTended : Traffic → Traffic → Prop := Relation.ReflTransGen NextTended

theorem NextTended.isConsistent {traffic following : Traffic}
    (consistent : traffic.gate.registry.IsConsistent traffic.now)
    (happens : traffic.NextTended following) :
    following.gate.registry.IsConsistent following.now := by
  cases happens with
  | next happens =>
    obtain ⟨entries, gained⟩ := happens.gains
    rw [gained.gate_eq]
    exact Gate.isConsistent_replay (consistent.later gained.ordered) gained.past
  | tick pruner => exact pruner.isConsistent_run consistent

/-- Whatever tasks and pruners do at a gate that was new, in whatever order, its registry is
consistent, and so the bucket of a route is found exactly if the route is known. -/
theorem isConsistent_of_reachesTended {wire : Http.Wire} {origin start : Instant}
    {fallback : Duration} {traffic : Traffic}
    (reached : (opening ⟨.new origin fallback, wire⟩ start).ReachesTended traffic) :
    traffic.gate.registry.IsConsistent traffic.now ∧
      ∀ route, (traffic.gate.registry.bucketOf? route).isSome =
        (traffic.gate.registry.bucketId? route).isSome := by
  have consistent : traffic.gate.registry.IsConsistent traffic.now := by
    induction reached with
    | refl => exact Registry.isConsistent_empty start
    | tail _ happens ih => exact happens.isConsistent ih
  exact ⟨consistent, consistent.isSome_bucketOf?⟩

/-- A report that leaves a bucket empty for one second. -/
def emptied (id : String) : Report :=
  ⟨some id, some 5, some 0, none, some (.ofSeconds 1), none, none⟩

/-- A pruner that comes ten seconds after the first report and at the second one forgets the first
bucket together with its route, and keeps the second. -/
theorem isConsistent_after_tick :
    ∃ traffic, (opening ⟨.new 0 Gate.defaultFallback, .ofReplies []⟩ 0).ReachesTended traffic ∧
      traffic.gate.registry.IsConsistent traffic.now ∧
      traffic.gate.registry.bucketId? ⟨.get, "a"⟩ = none ∧
      traffic.gate.registry.bucketId? ⟨.get, "b"⟩ = some "second" := by
  let first := opening ⟨.new 0 Gate.defaultFallback, .ofReplies []⟩ 0
  let reported := first.happen (.record ⟨.get, "a"⟩ (emptied "first"))
  let waited : Traffic := { reported with now := Duration.ofSeconds 10 }
  have reportedTwice : first.ReachesTended
      (waited.happen (.record ⟨.get, "b"⟩ (emptied "second"))) :=
    ((Relation.ReflTransGen.single (.next (.happen _))).tail
      (.next (.pass _ (Nat.zero_le _)))).tail (.next (.happen _))
  have ticked := reportedTwice.tail (.tick (.spawn (.ofSeconds 10) (.ofSeconds 5) 0))
  refine ⟨_, ticked, (isConsistent_of_reachesTended ticked).1, ?_, ?_⟩
  · decide +kernel
  · decide +kernel

end Traffic

end QuotaGate
