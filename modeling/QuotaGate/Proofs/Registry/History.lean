import Mathlib.Data.List.Induction
import QuotaGate.Proofs.Gate.History

/-!
# What a registry remembers

A registry is what its history makes of it. This module says so without running through the
history: a bucket is remembered from the last complete report that named it, as long as no pruning
found its window over and nothing was cleared since; a route is counted in the bucket that the last
complete report on the route named, as long as what is remembered of that bucket was not forgotten
since.

Results:
1. `bucket?_eq_some_iff_remembers`, `bucketId?_eq_some_iff_assigns`: the registry after a history
   holds what the history says.
2. `isLinked_replay`: the bucket of a known route is known.
3. `replay_filter_isIncomplete`: incomplete reports leave no trace.
4. `registry_of_history`: all of it in one statement.
-/

namespace QuotaGate

/-! ## What one event says -/

namespace Report

/-- What a report received at an instant says about a bucket. -/
structure Describes (report : Report) (now : Instant) (bucket : Bucket) : Prop where
  id : report.bucket = some bucket.id
  limit : report.limit = some bucket.limit
  remaining : ∃ left, report.remaining = some left ∧ bucket.remaining = min left bucket.limit
  resetAfter : report.resetAfter = some bucket.resetAfter
  reset : bucket.reset = .ofReport report.reset bucket.resetAfter
  cachedAt : bucket.cachedAt = now

/-- Whether a report says enough to describe a bucket. -/
def isComplete (report : Report) : Bool :=
  report.bucket.isSome && report.limit.isSome && report.remaining.isSome && report.resetAfter.isSome

theorem ofReport?_eq_some_iff (report : Report) (now : Instant) (bucket : Bucket) :
    Bucket.ofReport? report now = some bucket ↔ report.Describes now bucket := by
  constructor
  · intro built
    simp only [Bucket.ofReport?, Option.bind_eq_bind, Option.bind_eq_some_iff,
      Option.some.injEq] at built
    obtain ⟨id, named, limit, limited, left, counted, resetAfter, timed, rfl⟩ := built
    exact ⟨named, limited, ⟨left, counted, rfl⟩, timed, rfl, rfl⟩
  · rintro ⟨named, limited, ⟨left, counted, clamped⟩, timed, reset, cached⟩
    simp only [Bucket.ofReport?, named, limited, counted, timed, Option.bind_eq_bind,
      Option.bind_some, ← clamped, ← reset, ← cached]

/-- A record keeps the calendar time that its report gives, or else that of the wall clock at the
report, moved by the time until the reset, or the calendar's last where that lies past it. -/
theorem Describes.resetTime_eq {report : Report} {now : Instant} {bucket : Bucket}
    (describes : report.Describes now bucket) {wall : Timestamp} (dated : 0 < wall.seconds) :
    bucket.resetTime wall =
      report.reset.getD ((wall.add? bucket.resetAfter).getD .latest) := by
  rw [Bucket.resetTime, describes.reset]
  exact ResetTime.timeAt_ofReport report.reset bucket.resetAfter dated

theorem isSome_ofReport? (report : Report) (now : Instant) :
    (Bucket.ofReport? report now).isSome = report.isComplete := by
  cases named : report.bucket <;> cases limited : report.limit <;>
    cases counted : report.remaining <;> cases timed : report.resetAfter <;>
    simp [Bucket.ofReport?, isComplete, named, limited, counted, timed]

end Report

namespace Gate.Event

/-- The report that an event makes, and the route that it makes it on. -/
def report? : Event → Option (RouteKey × Report)
  | observe route report _ | record route report => some (route, report)
  | trigger _ | prune _ | clear => none

/-- An event describes a bucket on a route. -/
def Describes (event : Event) (now : Instant) (route : RouteKey) (bucket : Bucket) : Prop :=
  ∃ report, event.report? = some (route, report) ∧ report.Describes now bucket

section Describes

variable (route other : RouteKey) (report : Report) (now : Instant) (bucket : Bucket)

@[simp] theorem observe_describes_iff (verdict : Verdict) :
    (observe route report verdict).Describes now other bucket ↔
      route = other ∧ report.Describes now bucket := by
  simp [Describes, report?, and_assoc]

@[simp] theorem record_describes_iff :
    (record route report).Describes now other bucket ↔
      route = other ∧ report.Describes now bucket := by
  simp [Describes, report?, and_assoc]

@[simp] theorem not_trigger_describes (length : Duration) :
    ¬(trigger length).Describes now route bucket := by
  simp [Describes, report?]

@[simp] theorem not_prune_describes (grace : Duration) :
    ¬(prune grace).Describes now route bucket := by
  simp [Describes, report?]

@[simp] theorem not_clear_describes : ¬clear.Describes now route bucket := by
  simp [Describes, report?]

end Describes

/-- An event makes the registry forget a bucket in the state given: pruning does where the window
ended at least the grace ago, and clearing does always. -/
def Forgets (event : Event) (now : Instant) (bucket : Bucket) : Prop :=
  match event with
  | prune grace => bucket.resetsAt + grace ≤ Instant.latest ∧ bucket.resetsAt + grace ≤ now
  | clear => True
  | observe .. | record .. | trigger _ => False

/-- Whether an event makes a report that does not say enough. -/
def isIncomplete (event : Event) : Bool :=
  event.report?.any fun (_, report) => !report.isComplete

end Gate.Event

/-! ## What a history says -/

namespace Gate.History

/-- The last complete report that named a bucket described it so, and the registry was not made to
forget it since. -/
def Remembers (history : History) (id : String) (bucket : Bucket) : Prop :=
  ∃ before entry after, history = before ++ entry :: after ∧
    ((∃ route, entry.2.Describes entry.1 route bucket) ∧ bucket.id = id) ∧
    ∀ later ∈ after, (∀ other route, later.2.Describes later.1 route other → other.id ≠ id) ∧
      ¬later.2.Forgets later.1 bucket

/-- The last complete report on a route named a bucket, and the registry was not made to forget
since what it remembered of the bucket at the time. -/
def Assigns (history : History) (route : RouteKey) (id : String) : Prop :=
  ∃ before entry after, history = before ++ entry :: after ∧
    (∃ bucket, entry.2.Describes entry.1 route bucket ∧ bucket.id = id) ∧
    (∀ later ∈ after, ∀ other, ¬later.2.Describes later.1 route other) ∧
    ∀ between later rest, after = between ++ later :: rest →
      ∀ bucket, Remembers (before ++ entry :: between) id bucket → ¬later.2.Forgets later.1 bucket

theorem append_cons_eq_concat_iff {before after history : History} {entry last : Instant × Event} :
    history ++ [last] = before ++ entry :: after ↔
      history = before ∧ last = entry ∧ after = [] ∨
        ∃ rest, history = before ++ entry :: rest ∧ after = rest ++ [last] := by
  constructor
  · intro split
    rcases List.eq_nil_or_concat after with rfl | ⟨rest, other, rfl⟩
    · obtain ⟨same, ends⟩ := List.append_inj' split rfl
      exact .inl ⟨same, List.singleton_inj.1 ends, rfl⟩
    · rw [List.concat_eq_append, ← List.cons_append, ← List.append_assoc] at split
      obtain ⟨same, ends⟩ := List.append_inj' split rfl
      rw [List.concat_eq_append, List.singleton_inj.1 ends]
      exact .inr ⟨rest, same, rfl⟩
  · rintro (⟨rfl, rfl, rfl⟩ | ⟨rest, rfl, rfl⟩)
    · rfl
    · simp

/-- What one more event does to what a history says about a bucket. -/
theorem remembers_concat_iff (history : History) (now : Instant) (event : Event) (id : String)
    (bucket : Bucket) :
    Remembers (history ++ [(now, event)]) id bucket ↔
      (∃ route, event.Describes now route bucket) ∧ bucket.id = id ∨
        Remembers history id bucket ∧
          (∀ other route, event.Describes now route other → other.id ≠ id) ∧
          ¬event.Forgets now bucket := by
  constructor
  · rintro ⟨before, entry, after, split, described, since⟩
    rcases append_cons_eq_concat_iff.1 split with ⟨rfl, rfl, rfl⟩ | ⟨rest, rfl, rfl⟩
    · exact .inl described
    · refine .inr ⟨⟨before, entry, rest, rfl, described, fun later member => ?_⟩, ?_⟩
      · exact since later (List.mem_append_left _ member)
      · exact since (now, event) (List.mem_append_right _ (List.mem_singleton_self _))
  · rintro (described | ⟨⟨before, entry, after, rfl, described, since⟩, last⟩)
    · refine ⟨history, (now, event), [], rfl, described, fun later member => ?_⟩
      cases member
    · refine ⟨before, entry, after ++ [(now, event)], by simp, described, fun later member => ?_⟩
      rcases List.mem_append.1 member with old | new
      · exact since later old
      · rw [List.mem_singleton] at new
        exact new ▸ last

/-- What one more event does to what a history says about a route. -/
theorem assigns_concat_iff (history : History) (now : Instant) (event : Event) (route : RouteKey)
    (id : String) :
    Assigns (history ++ [(now, event)]) route id ↔
      (∃ bucket, event.Describes now route bucket ∧ bucket.id = id) ∨
        Assigns history route id ∧ (∀ other, ¬event.Describes now route other) ∧
          ∀ bucket, Remembers history id bucket → ¬event.Forgets now bucket := by
  constructor
  · rintro ⟨before, entry, after, split, described, since, kept⟩
    rcases append_cons_eq_concat_iff.1 split with ⟨rfl, rfl, rfl⟩ | ⟨rest, rfl, rfl⟩
    · exact .inl described
    · refine .inr ⟨⟨before, entry, rest, rfl, described, fun later member => ?_, ?_⟩, ?_, ?_⟩
      · exact since later (List.mem_append_left _ member)
      · -- What lies between the report and a later event is the same in the longer history.
        rintro between later remaining rfl
        exact kept between later (remaining ++ [(now, event)]) (by simp)
      · exact since (now, event) (List.mem_append_right _ (List.mem_singleton_self _))
      · exact kept rest (now, event) [] rfl
  · rintro (described | ⟨⟨before, entry, after, rfl, described, since, kept⟩, other, last⟩)
    · refine ⟨history, (now, event), [], rfl, described, ?_, ?_⟩
      · intro later member
        cases member
      · intro between later rest split
        exact absurd split (by simp)
    · refine ⟨before, entry, after ++ [(now, event)], by simp, described, ?_, ?_⟩
      · intro later member
        rcases List.mem_append.1 member with old | new
        · exact since later old
        · rw [List.mem_singleton] at new
          exact new ▸ other
      · intro between later rest split
        rcases append_cons_eq_concat_iff.1 split with ⟨rfl, rfl, rfl⟩ | ⟨remaining, rfl, rfl⟩
        · exact last
        · exact kept between later remaining rfl

end Gate.History

/-! ## What one event does to a registry -/

namespace Registry

theorem isStale_iff (bucket : Bucket) (grace : Duration) (now : Instant) :
    bucket.isStale grace now = true ↔ (Gate.Event.prune grace).Forgets now bucket := by
  unfold Bucket.isStale Instant.add? Gate.Event.Forgets
  split
  · next expiry found =>
    split at found
    · next fits =>
      cases found
      rw [decide_eq_true_iff]
      exact (and_iff_right fits).symm
    · cases found
  · next missing =>
    split at missing
    · cases missing
    · next tooLate => simp [tooLate]

theorem bucket?_prune (registry : Registry) (grace : Duration) (now : Instant) (id : String) :
    (registry.prune grace now).bucket? id =
      (registry.bucket? id).filter fun bucket => !bucket.isStale grace now :=
  Table.get?_retain ..

theorem bucketId?_prune (registry : Registry) (grace : Duration) (now : Instant)
    (route : RouteKey) :
    (registry.prune grace now).bucketId? route =
      (registry.bucketId? route).filter fun id =>
        ((registry.prune grace now).bucket? id).isSome :=
  Table.get?_retain ..

theorem bucket?_record_eq_some_iff (registry : Registry) (route : RouteKey) (report : Report)
    (now : Instant) (id : String) (bucket : Bucket) :
    (registry.record route report now).1.bucket? id = some bucket ↔
      report.Describes now bucket ∧ bucket.id = id ∨
        registry.bucket? id = some bucket ∧
          ∀ other, report.Describes now other → other.id ≠ id := by
  simp only [← Report.ofReport?_eq_some_iff, record]
  cases built : Bucket.ofReport? report now with
  | none => simp
  | some recorded =>
    simp only [bucket?, Table.get?_put, Option.some.injEq, forall_eq']
    by_cases named : id = recorded.id
    · simp only [named, if_true, Option.some.injEq, ne_eq, not_true, and_false, or_false]
      exact ⟨fun same => ⟨same, same ▸ rfl⟩, And.left⟩
    · simp only [named, if_false, ne_eq, Ne.symm named, not_false_eq_true, and_true]
      refine ⟨.inr, ?_⟩
      rintro (⟨rfl, same⟩ | held)
      · exact absurd same.symm named
      · exact held

theorem bucketId?_record_eq_some_iff (registry : Registry) (route : RouteKey) (report : Report)
    (now : Instant) (other : RouteKey) (id : String) :
    (registry.record route report now).1.bucketId? other = some id ↔
      (∃ bucket, (route = other ∧ report.Describes now bucket) ∧ bucket.id = id) ∨
        registry.bucketId? other = some id ∧
          ∀ bucket, route = other → ¬report.Describes now bucket := by
  simp only [← Report.ofReport?_eq_some_iff, record]
  cases built : Bucket.ofReport? report now with
  | none => simp
  | some recorded =>
    simp only [bucketId?, Table.get?_put, Option.some.injEq]
    by_cases same : route = other
    · simp [same]
    · simp [same, Ne.symm same]

/-- What one event does to what is known of a bucket. -/
theorem bucket?_onRegistry_eq_some_iff (registry : Registry) (event : Gate.Event) (now : Instant)
    (id : String) (bucket : Bucket) :
    (event.onRegistry registry now).bucket? id = some bucket ↔
      (∃ route, event.Describes now route bucket) ∧ bucket.id = id ∨
        registry.bucket? id = some bucket ∧
          (∀ other route, event.Describes now route other → other.id ≠ id) ∧
          ¬event.Forgets now bucket := by
  cases event with
  | observe route report verdict | record route report =>
    simp [Gate.Event.onRegistry, bucket?_record_eq_some_iff, Gate.Event.Forgets]
  | trigger length => simp [Gate.Event.onRegistry, Gate.Event.Forgets]
  | prune grace =>
    simp [Gate.Event.onRegistry, bucket?_prune, Option.filter_eq_some_iff, ← isStale_iff]
  | clear => simp [Gate.Event.onRegistry, Gate.Event.Forgets, bucket?, empty]

/-- Whatever bucket a route is counted in is known. -/
def IsLinked (registry : Registry) : Prop :=
  ∀ route id, registry.bucketId? route = some id → ∃ bucket, registry.bucket? id = some bucket

/-- What one event does to what is known of a route. -/
theorem bucketId?_onRegistry_eq_some_iff {registry : Registry} (linked : registry.IsLinked)
    (event : Gate.Event) (now : Instant) (route : RouteKey) (id : String) :
    (event.onRegistry registry now).bucketId? route = some id ↔
      (∃ bucket, event.Describes now route bucket ∧ bucket.id = id) ∨
        registry.bucketId? route = some id ∧ (∀ other, ¬event.Describes now route other) ∧
          ∀ bucket, registry.bucket? id = some bucket → ¬event.Forgets now bucket := by
  cases event with
  | observe other report verdict | record other report =>
    simp [Gate.Event.onRegistry, bucketId?_record_eq_some_iff, Gate.Event.Forgets]
  | trigger length => simp [Gate.Event.onRegistry, Gate.Event.Forgets]
  | prune grace =>
    simp only [Gate.Event.onRegistry, bucketId?_prune, bucket?_prune, ← isStale_iff,
      Option.filter_eq_some_iff, Option.isSome_filter, Gate.Event.not_prune_describes, false_and,
      exists_false, false_or, not_false_eq_true, forall_true_iff, true_and]
    -- A route stays as long as its bucket does, and the bucket of a known route is known.
    refine and_congr_right fun counted => ?_
    obtain ⟨bucket, held⟩ := linked route id counted
    simp [held]
  | clear =>
    refine iff_of_false (fun found => ?_) ?_
    · cases found
    · rintro (⟨bucket, described, -⟩ | ⟨counted, -, kept⟩)
      · exact Gate.Event.not_clear_describes _ _ _ described
      · obtain ⟨bucket, found⟩ := linked route id counted
        exact kept bucket found trivial

/-- What is not known stays so until an event describes it. -/
theorem bucket?_onRegistry_eq_none {registry : Registry} {event : Gate.Event} {now : Instant}
    {id : String} (unknown : registry.bucket? id = none)
    (others : ∀ bucket source, event.Describes now source bucket → bucket.id ≠ id) :
    (event.onRegistry registry now).bucket? id = none := by
  refine Option.eq_none_iff_forall_ne_some.2 fun bucket found => ?_
  rcases (bucket?_onRegistry_eq_some_iff registry event now id bucket).1 found with
    ⟨⟨source, describes⟩, named⟩ | ⟨held, -⟩
  · exact others bucket source describes named
  · rw [unknown] at held
    cases held

theorem bucketId?_onRegistry_eq_none {registry : Registry} (linked : registry.IsLinked)
    {event : Gate.Event} {now : Instant} {route : RouteKey}
    (unknown : registry.bucketId? route = none)
    (silent : ∀ bucket, ¬event.Describes now route bucket) :
    (event.onRegistry registry now).bucketId? route = none := by
  refine Option.eq_none_iff_forall_ne_some.2 fun id found => ?_
  rcases (bucketId?_onRegistry_eq_some_iff linked event now route id).1 found with
    ⟨bucket, describes, -⟩ | ⟨held, -⟩
  · exact silent bucket describes
  · rw [unknown] at held
    cases held

theorem isLinked_onRegistry {registry : Registry} (linked : registry.IsLinked)
    (event : Gate.Event) (now : Instant) : (event.onRegistry registry now).IsLinked := by
  intro route id counted
  rcases (bucketId?_onRegistry_eq_some_iff linked event now route id).1 counted with
    ⟨bucket, described, named⟩ | ⟨before, -, kept⟩
  · refine ⟨bucket, (bucket?_onRegistry_eq_some_iff registry event now id bucket).2 ?_⟩
    exact .inl ⟨⟨route, described⟩, named⟩
  · obtain ⟨bucket, held⟩ := linked route id before
    -- Another route may have described the bucket anew.
    by_cases replaced : ∃ other route, event.Describes now route other ∧ other.id = id
    · obtain ⟨other, source, described, named⟩ := replaced
      refine ⟨other, (bucket?_onRegistry_eq_some_iff registry event now id other).2 ?_⟩
      exact .inl ⟨⟨source, described⟩, named⟩
    · refine ⟨bucket, (bucket?_onRegistry_eq_some_iff registry event now id bucket).2 ?_⟩
      refine .inr ⟨held, fun other source described named => ?_, kept bucket held⟩
      exact replaced ⟨other, source, described, named⟩

theorem record_of_incomplete (registry : Registry) (route : RouteKey) {report : Report}
    (now : Instant) (incomplete : report.isComplete = false) :
    registry.record route report now = (registry, none) := by
  rw [← Report.isSome_ofReport? report now, Option.isSome_eq_false_iff, Option.isNone_iff_eq_none]
    at incomplete
  rw [record, incomplete]

theorem onRegistry_of_isIncomplete (registry : Registry) {event : Gate.Event} (now : Instant)
    (incomplete : event.isIncomplete = true) : event.onRegistry registry now = registry := by
  cases event with
  | observe route report verdict | record route report =>
    simp only [Gate.Event.isIncomplete, Gate.Event.report?, Option.any_some,
      Bool.not_eq_true'] at incomplete
    simp only [Gate.Event.onRegistry, record_of_incomplete registry route now incomplete]
  | trigger length | prune grace | clear => cases incomplete

end Registry

/-! ## What a history does to a registry -/

namespace Gate

variable (origin : Instant) (fallback : Duration)

/-- After every history the bucket of a known route is known. -/
theorem isLinked_replay (history : History) :
    ((Gate.new origin fallback).replay history).registry.IsLinked := by
  induction history using List.reverseRecOn with
  | nil =>
    intro route id counted
    cases counted
  | append_singleton history entry ih =>
    rw [replay_concat, apply_registry]
    exact Registry.isLinked_onRegistry ih entry.2 entry.1

theorem bucket?_eq_some_iff_remembers (history : History) (id : String) (bucket : Bucket) :
    ((Gate.new origin fallback).replay history).registry.bucket? id = some bucket ↔
      history.Remembers id bucket := by
  induction history using List.reverseRecOn generalizing bucket with
  | nil =>
    constructor
    · intro held
      cases held
    · rintro ⟨before, entry, after, split, -⟩
      exact absurd split (by simp)
  | append_singleton history entry ih =>
    rw [replay_concat, apply_registry, Registry.bucket?_onRegistry_eq_some_iff,
      History.remembers_concat_iff, ih]

theorem bucketId?_eq_some_iff_assigns (history : History) (route : RouteKey) (id : String) :
    ((Gate.new origin fallback).replay history).registry.bucketId? route = some id ↔
      history.Assigns route id := by
  induction history using List.reverseRecOn with
  | nil =>
    constructor
    · intro counted
      cases counted
    · rintro ⟨before, entry, after, split, -⟩
      exact absurd split (by simp)
  | append_singleton history entry ih =>
    rw [replay_concat, apply_registry,
      Registry.bucketId?_onRegistry_eq_some_iff (isLinked_replay origin fallback history),
      History.assigns_concat_iff, ih]
    simp only [bucket?_eq_some_iff_remembers]

/-- Incomplete reports leave no trace in the registry. -/
theorem replay_filter_isIncomplete (gate : Gate) (history : History) :
    (gate.replay (history.filter fun entry => !entry.2.isIncomplete)).registry =
      (gate.replay history).registry := by
  induction history using List.reverseRecOn with
  | nil => rfl
  | append_singleton history entry ih =>
    rw [List.filter_append, replay_concat, apply_registry, ← ih]
    cases incomplete : entry.2.isIncomplete with
    | true =>
      rw [List.filter_cons_of_neg (by simp [incomplete]), List.filter_nil, List.append_nil,
        Registry.onRegistry_of_isIncomplete _ _ incomplete]
    | false =>
      rw [List.filter_cons_of_pos (by simp [incomplete]), List.filter_nil, replay_concat,
        apply_registry]

/-- The registry is a function of its history: it holds the buckets that the history remembers and
the routes that the history assigns to one, and incomplete reports change nothing. -/
theorem registry_of_history (history : History) :
    (∀ id bucket, ((Gate.new origin fallback).replay history).registry.bucket? id = some bucket ↔
      history.Remembers id bucket) ∧
    (∀ route id, ((Gate.new origin fallback).replay history).registry.bucketId? route = some id ↔
      history.Assigns route id) ∧
    ((Gate.new origin fallback).replay history).registry =
      ((Gate.new origin fallback).replay
        (history.filter fun entry => !entry.2.isIncomplete)).registry :=
  ⟨bucket?_eq_some_iff_remembers origin fallback history,
    bucketId?_eq_some_iff_assigns origin fallback history,
    (replay_filter_isIncomplete _ history).symm⟩

end Gate

end QuotaGate
