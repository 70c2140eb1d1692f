import QuotaGate.Proofs.Pruner.Ticks
import QuotaGate.Proofs.Registry.History

/-!
# What a pruning forgets

A pruning goes through the buckets and then through the routes, and the second pass looks at what
the first one has left. Here is what comes of it, said without the passes: the registry forgets the
buckets that are stale and the routes that are counted in one of these, and the count that the
pruning gives is the number of buckets that are not known any more.

Whether a bucket is stale depends on the grace in one direction only. A longer grace keeps more, and
one that leads past the last instant keeps everything. So two prunings at one instant come to the
one with the shorter grace.

Results:
1. `Registry.bucket?_prune_eq_some_iff`, `Registry.bucketId?_prune_eq_some_iff`: what a pruning
   leaves.
2. `Registry.staleCount_eq`: its count.
3. `Registry.prunings_at_one_instant`: two prunings at one instant are one, counts included.
-/

namespace QuotaGate

/-- A bucket is stale for the shorter of two graces exactly if it is for one of them. -/
theorem Bucket.isStale_min (bucket : Bucket) (first second : Duration) (now : Instant) :
    bucket.isStale (min first second) now =
      (bucket.isStale first now || bucket.isStale second now) := by
  rw [Bool.eq_iff_iff, Bool.or_eq_true]
  simp only [Registry.isStale_iff, Gate.Event.Forgets, Instant, Duration]
  omega

namespace Registry

/-! ## Buckets and routes -/

theorem bucket?_prune_eq_some_iff (registry : Registry) (grace : Duration) (now : Instant)
    (id : String) (bucket : Bucket) :
    (registry.prune grace now).bucket? id = some bucket ↔
      registry.bucket? id = some bucket ∧ ¬(Gate.Event.prune grace).Forgets now bucket := by
  have changed := bucket?_onRegistry_eq_some_iff registry (.prune grace) now id bucket
  simpa [Gate.Event.onRegistry] using changed

theorem bucketId?_prune_eq_some_iff {registry : Registry} (linked : registry.IsLinked)
    (grace : Duration) (now : Instant) (route : RouteKey) (id : String) :
    (registry.prune grace now).bucketId? route = some id ↔
      registry.bucketId? route = some id ∧ ∀ bucket, registry.bucket? id = some bucket →
        ¬(Gate.Event.prune grace).Forgets now bucket := by
  have changed := bucketId?_onRegistry_eq_some_iff linked (.prune grace) now route id
  simpa [Gate.Event.onRegistry] using changed

/-! ## The count -/

theorem size_prune_le (registry : Registry) (grace : Duration) (now : Instant) :
    (registry.prune grace now).buckets.size ≤ registry.buckets.size :=
  List.length_filter_le _ _

theorem staleCount_eq_countP (registry : Registry) (grace : Duration) (now : Instant) :
    registry.staleCount grace now =
      registry.buckets.entries.countP fun entry => entry.2.isStale grace now := by
  have kept : (registry.prune grace now).buckets.size =
      registry.buckets.entries.countP fun entry => !entry.2.isStale grace now :=
    List.countP_eq_length_filter.symm
  have whole := List.length_eq_countP_add_countP
    (fun entry : String × Bucket => entry.2.isStale grace now) (l := registry.buckets.entries)
  simp only [Bool.not_eq_true, Bool.decide_eq_false] at whole
  rw [staleCount, kept, Table.size, whole, Nat.add_sub_cancel]

/-- The count of a pruning is the number of buckets that are known before it and not after it. -/
theorem staleCount_eq (registry : Registry) (grace : Duration) (now : Instant) :
    registry.staleCount grace now =
      (registry.buckets.keys.filter fun id =>
        ((registry.prune grace now).bucket? id).isNone).length := by
  rw [staleCount_eq_countP, ← List.countP_eq_length_filter, Table.keys, List.countP_map]
  refine List.countP_congr fun entry member => ?_
  have held : registry.bucket? entry.1 = some entry.2 := (Table.get?_eq_some_iff ..).2 member
  rw [Function.comp_apply, bucket?_prune, held]
  cases stale : entry.2.isStale grace now <;> simp [stale]

/-! ## Two prunings at one instant -/

theorem prune_prune (registry : Registry) (first second : Duration) (now : Instant) :
    (registry.prune first now).prune second now = registry.prune (min first second) now := by
  simp only [prune_eq_keep, keep_keep, Bucket.isStale_min, Bool.not_or]

theorem staleCount_add_staleCount (registry : Registry) (first second : Duration) (now : Instant) :
    registry.staleCount first now + (registry.prune first now).staleCount second now =
      registry.staleCount (min first second) now := by
  have once := registry.size_prune_le first now
  have twice := (registry.prune first now).size_prune_le second now
  unfold staleCount
  rw [prune_prune] at *
  omega

/-- Two prunings at one instant do what one with the shorter grace does, and their counts add up to
its count. So they may be made in either order, and to repeat one forgets nothing. -/
theorem prunings_at_one_instant (registry : Registry) (first second : Duration) (now : Instant) :
    (registry.prune first now).prune second now = registry.prune (min first second) now ∧
    registry.staleCount first now + (registry.prune first now).staleCount second now =
      registry.staleCount (min first second) now ∧
    (registry.prune first now).prune second now = (registry.prune second now).prune first now ∧
    (registry.prune first now).prune first now = registry.prune first now ∧
    (registry.prune first now).staleCount first now = 0 := by
  have merged := registry.prune_prune first second now
  have again : (registry.prune first now).prune first now = registry.prune first now := by
    rw [prune_prune, Nat.min_self]
  refine ⟨merged, registry.staleCount_add_staleCount first second now, ?_, again, ?_⟩
  · rw [merged, prune_prune, Nat.min_comm]
  · rw [staleCount, again, Nat.sub_self]

end Registry

end QuotaGate
