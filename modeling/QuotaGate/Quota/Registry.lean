import QuotaGate.Quota.Bucket
import QuotaGate.Quota.Table
import QuotaGate.Route

/-!
# The registry of buckets

The registry knows in which bucket each route was last counted, and the last known state of each
bucket. The last report to arrive wins. Pruning forgets buckets whose windows ended long ago, and
the routes that were counted in them.
-/

namespace QuotaGate

/-- The buckets by name, and the name of each route's bucket. -/
structure Registry where
  buckets : Table String Bucket
  routes : Table RouteKey String

namespace Registry

def empty : Registry := ⟨.empty, .empty⟩

/-- The name of the bucket that a route was last counted in. -/
def bucketId? (registry : Registry) (route : RouteKey) : Option String :=
  registry.routes.get? route

def bucket? (registry : Registry) (id : String) : Option Bucket := registry.buckets.get? id

/-- The last known state of a route's bucket. -/
def bucketOf? (registry : Registry) (route : RouteKey) : Option Bucket :=
  (registry.bucketId? route).bind registry.bucket?

/-- Takes note of a report on a route and gives the name of its bucket. An incomplete report
changes nothing. -/
def record (registry : Registry) (route : RouteKey) (report : Report) (now : Instant) :
    Registry × Option String :=
  match Bucket.ofReport? report now with
  | none => (registry, none)
  | some bucket =>
    (⟨registry.buckets.put bucket.id bucket, registry.routes.put route bucket.id⟩, some bucket.id)

/-- Forgets the buckets whose windows ended at least `grace` ago, and the routes in them. -/
def prune (registry : Registry) (grace : Duration) (now : Instant) : Registry :=
  let buckets := registry.buckets.retain fun _ bucket => !bucket.isStale grace now
  ⟨buckets, registry.routes.retain fun _ id => (buckets.get? id).isSome⟩

/-- How many buckets pruning would forget. -/
def staleCount (registry : Registry) (grace : Duration) (now : Instant) : Nat :=
  registry.buckets.size - (registry.prune grace now).buckets.size

/-- How long a request on a route has to wait for its bucket to refill. -/
def waitAt (registry : Registry) (route : RouteKey) (now : Instant) : Duration :=
  match registry.bucketOf? route with
  | some bucket => if bucket.isExhausted then bucket.waitAt now else 0
  | none => 0

/-- When a request on a route may stop waiting for its bucket, if it has to wait. -/
def wakeAt? (registry : Registry) (route : RouteKey) (now : Instant) : Option Instant :=
  if registry.waitAt route now = 0 then none
  else some (now.wakeAfter (registry.waitAt route now))

end Registry

end QuotaGate
