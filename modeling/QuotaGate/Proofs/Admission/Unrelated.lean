import QuotaGate.Proofs.Admission.Pruning

/-!
# Unrelated traffic

What a route waits for is the lockout and its own bucket. A response on another route matters to it
in two ways only: it rejects its request for the whole application, or it describes a bucket that
the route is counted in. Everything else that is received may be left out of a run, and the route
does not notice: its bucket is known in the same state at every point, and its requests are admitted
at the same instants.

Which buckets these are depends on the whole run, because a route may be counted in one bucket after
the other and a bucket may be reported on another route before.

Results:
1. `Registry.Agrees.onRegistry`, `Registry.Agrees.of_unrelated`: what an event does to two registries
   that agree on a route, and what an unrelated one does to the one that hears of it.
2. `Gate.agrees_replay`: a run and what it has to do with a route leave registries that agree.
3. `Timeline.comes_iff_of_unrelated`: with the lockout and the bucket at every point, they give the
   route the same waits.
-/

namespace QuotaGate

/-! ## What has to do with a route -/

namespace Gate

namespace Event

/-- The bucket that the event counts a route in. -/
def assigned? (event : Event) (route : RouteKey) : Option String :=
  match event.report? with
  | some (source, report) => if source = route ∧ report.isComplete then report.bucket else none
  | none => none

/-- Whether a response rejects its request for the whole application. -/
def rejectsAll : Event → Bool
  | observe _ report verdict => verdict = .limited && report.isGlobal
  | record .. | trigger _ | prune _ | clear => false

/-- Whether an event has to do with a route that is counted in some of the buckets given. Only a
report can be unrelated: one on another route, of none of the buckets, that does not come with a
rejection for the whole application. -/
def isRelated (event : Event) (route : RouteKey) (ids : List String) : Bool :=
  match event.report? with
  | some (source, report) =>
    event.rejectsAll || source = route || report.bucket.any fun id => id ∈ ids
  | none => true

theorem lockout?_of_not_isRelated {event : Event} {route : RouteKey} {ids : List String}
    (unrelated : event.isRelated route ids = false) (fallback : Duration) :
    event.lockout? fallback = none := by
  cases event with
  | observe source report verdict =>
    simp only [isRelated, report?, rejectsAll, Bool.or_eq_false_iff] at unrelated
    simpa [lockout?] using unrelated.1.1
  | record source report => rfl
  | trigger length | prune grace | clear => cases unrelated

/-- A complete report names the bucket that it counts its route in. -/
theorem assigned?_of_describes {event : Event} {now : Instant} {route : RouteKey} {bucket : Bucket}
    (described : event.Describes now route bucket) : event.assigned? route = some bucket.id := by
  obtain ⟨report, reports, describes⟩ := described
  have complete : report.isComplete = true := by
    rw [← Report.isSome_ofReport? report now, (Report.ofReport?_eq_some_iff ..).2 describes]
    rfl
  simp only [assigned?, reports, complete, and_self, if_true, describes.id]

theorem not_forgets_of_not_isRelated {event : Event} {route : RouteKey} {ids : List String}
    (unrelated : event.isRelated route ids = false) (now : Instant) (bucket : Bucket) :
    ¬event.Forgets now bucket := by
  cases event with
  | observe source report verdict | record source report => exact id
  | trigger length | prune grace | clear => cases unrelated

/-- What an unrelated event describes is another bucket, on another route. -/
theorem not_describes_of_not_isRelated {event : Event} {route : RouteKey} {ids : List String}
    (unrelated : event.isRelated route ids = false) {now : Instant} {source : RouteKey}
    {bucket : Bucket} (described : event.Describes now source bucket) :
    source ≠ route ∧ bucket.id ∉ ids := by
  obtain ⟨report, reports, describes⟩ := described
  simp only [isRelated, reports, Bool.or_eq_false_iff, decide_eq_false_iff_not, describes.id,
    Option.any_some] at unrelated
  exact ⟨unrelated.1.2, unrelated.2⟩

end Event

namespace History

/-- The buckets that a route is counted in sooner or later. -/
def bucketsOf (history : History) (route : RouteKey) : List String :=
  history.filterMap fun entry => entry.2.assigned? route

/-- The part of a history that has to do with a route and with some buckets. -/
def related (history : History) (route : RouteKey) (ids : List String) : History :=
  history.filter fun entry => entry.2.isRelated route ids

end History

end Gate

/-! ## Registries that agree on a route -/

namespace Registry

/-- Two registries know the same of a route and of some buckets, and the route is counted in none
but these. -/
structure Agrees (registry other : Registry) (route : RouteKey) (ids : List String) : Prop where
  counted : other.bucketId? route = registry.bucketId? route
  known : ∀ id ∈ ids, other.bucket? id = registry.bucket? id
  within : ∀ id, registry.bucketId? route = some id → id ∈ ids

namespace Agrees

variable {registry other : Registry} {route : RouteKey} {ids : List String}

theorem bucketOf?_eq (agrees : registry.Agrees other route ids) :
    other.bucketOf? route = registry.bucketOf? route := by
  unfold bucketOf?
  rw [agrees.counted]
  cases counted : registry.bucketId? route with
  | none => rfl
  | some id => exact agrees.known id (agrees.within id counted)

theorem wakeAt?_eq (agrees : registry.Agrees other route ids) (now : Instant) :
    other.wakeAt? route now = registry.wakeAt? route now := by
  have waits : other.waitAt route now = registry.waitAt route now := by
    rw [waitAt, waitAt, agrees.bucketOf?_eq]
  rw [wakeAt?, wakeAt?, waits]

/-- An event that counts the route in no other bucket leaves the two agreed. -/
theorem onRegistry (agrees : registry.Agrees other route ids) (linked : registry.IsLinked)
    (linkedOther : other.IsLinked) {event : Gate.Event}
    (assigns : ∀ id, event.assigned? route = some id → id ∈ ids) (now : Instant) :
    (event.onRegistry registry now).Agrees (event.onRegistry other now) route ids where
  counted := by
    refine Option.ext fun id => ?_
    rw [bucketId?_onRegistry_eq_some_iff linkedOther, bucketId?_onRegistry_eq_some_iff linked,
      agrees.counted]
    refine or_congr_right (and_congr_right fun counted => ?_)
    rw [agrees.known id (agrees.within id counted)]
  known id member := by
    refine Option.ext fun bucket => ?_
    rw [bucket?_onRegistry_eq_some_iff, bucket?_onRegistry_eq_some_iff, agrees.known id member]
  within id counted := by
    rcases (bucketId?_onRegistry_eq_some_iff linked event now route id).1 counted with
      ⟨bucket, described, rfl⟩ | ⟨before, -⟩
    · exact assigns bucket.id (Gate.Event.assigned?_of_describes described)
    · exact agrees.within id before

/-- An unrelated event leaves the two agreed, also where only one of them hears of it. -/
theorem of_unrelated (agrees : registry.Agrees other route ids) (linked : registry.IsLinked)
    {event : Gate.Event} (unrelated : event.isRelated route ids = false) (now : Instant) :
    (event.onRegistry registry now).Agrees other route ids := by
  have elsewhere : ∀ bucket, ¬event.Describes now route bucket := fun bucket described =>
    (Gate.Event.not_describes_of_not_isRelated unrelated described).1 rfl
  have keeps : ∀ bucket, ¬event.Forgets now bucket :=
    Gate.Event.not_forgets_of_not_isRelated unrelated now
  have same : ∀ id, (event.onRegistry registry now).bucketId? route = some id ↔
      registry.bucketId? route = some id := by
    intro id
    rw [bucketId?_onRegistry_eq_some_iff linked]
    simp [elsewhere, keeps]
  refine ⟨Option.ext fun id => ?_, fun id member => Option.ext fun bucket => ?_, fun id counted => ?_⟩
  · rw [same, agrees.counted]
  · rw [agrees.known id member, bucket?_onRegistry_eq_some_iff]
    have others : ∀ described source, event.Describes now source described → described.id ≠ id :=
      fun described source describes named =>
        (Gate.Event.not_describes_of_not_isRelated unrelated describes).2 (named ▸ member)
    constructor
    · exact fun held => .inr ⟨held, others, keeps bucket⟩
    · rintro (⟨⟨source, described⟩, named⟩ | ⟨held, -⟩)
      · exact absurd named (others bucket source described)
      · exact held
  · exact agrees.within id ((same id).1 counted)

end Agrees

end Registry

/-! ## A run and what it has to do with a route -/

namespace Gate

/-- What a run has to do with a route and with the buckets that the route is counted in leaves a
registry that knows the same of the route. -/
theorem agrees_replay (origin : Instant) (fallback : Duration) {route : RouteKey}
    {ids : List String} {history : History}
    (assigns : ∀ entry ∈ history, ∀ id, entry.2.assigned? route = some id → id ∈ ids) :
    ((Gate.new origin fallback).replay history).registry.Agrees
      ((Gate.new origin fallback).replay (history.related route ids)).registry route ids := by
  induction history using List.reverseRecOn with
  | nil =>
    refine ⟨rfl, fun _ _ => rfl, fun id counted => ?_⟩
    cases counted
  | append_singleton history entry ih =>
    obtain ⟨now, event⟩ := entry
    have before := ih fun entry member => assigns entry (List.mem_append_left _ member)
    have linked := isLinked_replay origin fallback history
    rw [replay_concat, apply_registry, History.related, List.filter_append]
    cases kept : event.isRelated route ids with
    | true =>
      rw [List.filter_cons_of_pos (by exact kept), List.filter_nil, replay_concat, apply_registry]
      exact before.onRegistry linked (isLinked_replay origin fallback _)
        (assigns (now, event) (by simp)) now
    | false =>
      rw [List.filter_cons_of_neg (by simp [kept]), List.filter_nil, List.append_nil]
      exact before.of_unrelated linked kept now

theorem lockout_replay_related (gate : Gate) (history : History) (route : RouteKey)
    (ids : List String) :
    (gate.replay (history.related route ids)).lockout = (gate.replay history).lockout :=
  @lockout_replay_filter gate (fun event => event.isRelated route ids)
    (fun _ unrelated => Event.lockout?_of_not_isRelated unrelated gate.fallback) history

end Gate

namespace Timeline

/-- Leaving out of a run whatever has nothing to do with a route changes nothing for the route: at
every point of the run it is counted in the same bucket, the bucket is known in the same state and
the lockout is the same, and whatever admissions on the route see of the run when they look, they
come at the same instants. -/
theorem comes_iff_of_unrelated (origin : Instant) (fallback : Duration) (run : Gate.History)
    (route : RouteKey) :
    let ids := run.bucketsOf route
    let whole := fun count => (Gate.new origin fallback).replay (run.take count)
    let reduced := fun count =>
      (Gate.new origin fallback).replay (Gate.History.related (run.take count) route ids)
    (∀ count,
      (reduced count).registry.bucketId? route = (whole count).registry.bucketId? route ∧
      (reduced count).registry.bucketOf? route = (whole count).registry.bucketOf? route ∧
      (reduced count).lockout = (whole count).lockout) ∧
    ∀ (seen : Instant → Nat) (start stop : Instant),
      Comes (fun now => reduced (seen now)) route start stop ↔
        Comes (fun now => whole (seen now)) route start stop := by
  intro ids whole reduced
  have agrees : ∀ count, (whole count).registry.Agrees (reduced count).registry route ids := by
    intro count
    refine Gate.agrees_replay origin fallback fun entry member id assigned => ?_
    exact List.mem_filterMap.2 ⟨entry, List.mem_of_mem_take member, assigned⟩
  have lockout : ∀ count, (reduced count).lockout = (whole count).lockout := fun count =>
    Gate.lockout_replay_related _ (run.take count) route ids
  refine ⟨fun count => ⟨(agrees count).counted, (agrees count).bucketOf?_eq, lockout count⟩, ?_⟩
  intro seen start stop
  refine comes_congr (fun now => lockout (seen now)) fun look _ => ?_
  exact (agrees (seen look)).wakeAt?_eq look

end Timeline

end QuotaGate
