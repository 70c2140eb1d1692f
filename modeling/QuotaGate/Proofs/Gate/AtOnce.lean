import Mathlib.Data.List.Nodup
import QuotaGate.Proofs.Lockout.History
import QuotaGate.Proofs.Registry.History

/-!
# Responses at one instant

A response that is taken note of twice at one instant leaves what it has left the first time. The
bucket that its report describes is the same, and the lockout that it asks for is asked for already.

Two responses at one instant may come in either order if they are received on different routes and
name different buckets. Each writes down its own bucket and its own route, whatever bucket that
route was counted in before, and the lockout ends at the later of the two ends. A table remembers
in which order its keys came, so the two registries are compared by what they hold.

Results:
1. `Table.put_put`, `Table.perm_put_put`: what two changes of a table come to.
2. `Registry.record_record`, `Registry.holdsSame_record_record`: what two reports come to.
3. `Gate.observe_at_once`: the two statements above.
-/

namespace QuotaGate

/-! ## Tables -/

namespace Table

variable {κ ν : Type} [DecidableEq κ]

theorem putEntry_putEntry (key : κ) (value : ν) (entries : List (κ × ν)) :
    putEntry key value (putEntry key value entries) = putEntry key value entries := by
  induction entries with
  | nil => exact if_pos rfl
  | cons entry rest ih =>
    obtain ⟨other, held⟩ := entry
    by_cases same : other = key
    · rw [putEntry, if_pos same]
      exact if_pos rfl
    · rw [putEntry, if_neg same, putEntry, if_neg same, ih]

theorem put_put (table : Table κ ν) (key : κ) (value : ν) :
    (table.put key value).put key value = table.put key value := by
  unfold put
  congr 1
  exact putEntry_putEntry key value table.entries

theorem nodup_entries (table : Table κ ν) : table.entries.Nodup :=
  List.Nodup.of_map Prod.fst table.nodup_keys

/-- Tables in which the same values are found have the same entries. -/
theorem perm_of_get?_eq {table other : Table κ ν} (same : ∀ key, table.get? key = other.get? key) :
    table.entries.Perm other.entries := by
  refine (List.perm_ext_iff_of_nodup table.nodup_entries other.nodup_entries).2 fun entry => ?_
  obtain ⟨key, value⟩ := entry
  rw [← get?_eq_some_iff, ← get?_eq_some_iff, same]

theorem perm_put_put (table : Table κ ν) {first second : κ} (different : first ≠ second)
    (value other : ν) :
    ((table.put first value).put second other).entries.Perm
      ((table.put second other).put first value).entries := by
  refine perm_of_get?_eq fun key => ?_
  simp only [get?_put]
  by_cases atFirst : key = first
  · rw [if_pos atFirst, if_neg (atFirst ▸ different), if_pos atFirst]
  · rw [if_neg atFirst, if_neg atFirst]

end Table

/-! ## Registries -/

namespace Registry

/-- Two registries hold the same, in whatever order it came. -/
structure HoldsSame (registry other : Registry) : Prop where
  buckets : registry.buckets.entries.Perm other.buckets.entries
  routes : registry.routes.entries.Perm other.routes.entries

theorem HoldsSame.refl (registry : Registry) : registry.HoldsSame registry := ⟨.rfl, .rfl⟩

variable (registry : Registry) {route other : RouteKey} {report another : Report} {now : Instant}

/-- Whatever the registry knows, a report is given the name of the bucket that it describes. -/
theorem record_snd : (registry.record route report now).2 =
    (Bucket.ofReport? report now).map Bucket.id := by
  unfold record
  cases Bucket.ofReport? report now <;> rfl

theorem record_record : ((registry.record route report now).1.record route report now).1 =
    (registry.record route report now).1 := by
  cases described : Bucket.ofReport? report now with
  | none => simp only [record, described]
  | some bucket => simp only [record, described, Table.put_put]

theorem holdsSame_record_record (different : route ≠ other)
    (apart : ∀ id, report.bucket = some id → another.bucket ≠ some id) :
    ((registry.record route report now).1.record other another now).1.HoldsSame
      ((registry.record other another now).1.record route report now).1 := by
  cases first : Bucket.ofReport? report now with
  | none =>
    simp only [record, first]
    exact .refl _
  | some bucket =>
    cases second : Bucket.ofReport? another now with
    | none =>
      simp only [record, first, second]
      exact .refl _
    | some rival =>
      have named := ((Report.ofReport?_eq_some_iff ..).1 first).id
      have rivalNamed := ((Report.ofReport?_eq_some_iff ..).1 second).id
      have unlike : bucket.id ≠ rival.id := fun same => apart _ named (same ▸ rivalNamed)
      simp only [record, first, second]
      exact ⟨registry.buckets.perm_put_put unlike bucket rival,
        registry.routes.perm_put_put different bucket.id rival.id⟩

end Registry

/-! ## Gates -/

/-- To ask twice for the same lockout is to ask for it once. -/
theorem Lockout.trigger_trigger (lockout : Lockout) (length : Duration) (now : Instant) :
    (lockout.trigger length now).trigger length now = lockout.trigger length now := by
  refine eq_of_untilMicros_eq rfl ?_
  show max (max _ (lockout.endOf length now)) (lockout.endOf length now) = max _ _
  rw [Nat.max_assoc, Nat.max_self]

namespace Gate

variable (gate : Gate) {route : RouteKey} {report : Report} {verdict : Verdict} {now : Instant}

theorem observe_snd : (gate.observe route report verdict now).2 =
    (Bucket.ofReport? report now).map Bucket.id :=
  gate.registry.record_snd

theorem observe_observe :
    (gate.observe route report verdict now).1.observe route report verdict now =
      gate.observe route report verdict now := by
  refine Prod.ext ?_ ?_
  · simp only [observe, Registry.record_record]
    by_cases rejected : verdict = .limited ∧ report.isGlobal
    · simp only [lockoutOf?, rejected, and_self, if_true, Lockout.trigger_trigger]
    · simp only [lockoutOf?, rejected, if_false]
  · rw [observe_snd, observe_snd]

/-- At one instant a response may be taken note of again, and two responses on different routes
that name different buckets may be taken note of in either order. -/
theorem observe_at_once (gate : Gate) (route other : RouteKey) (report another : Report)
    (verdict otherVerdict : Verdict) (now : Instant) :
    let first := gate.observe route report verdict now
    let second := gate.observe other another otherVerdict now
    first.1.observe route report verdict now = first ∧
    (route ≠ other → (∀ id, report.bucket = some id → another.bucket ≠ some id) →
      let behind := first.1.observe other another otherVerdict now
      let ahead := second.1.observe route report verdict now
      behind.1.registry.HoldsSame ahead.1.registry ∧ behind.1.lockout = ahead.1.lockout ∧
        behind.1.fallback = ahead.1.fallback ∧ first.2 = ahead.2 ∧ second.2 = behind.2) := by
  intro first second
  refine ⟨gate.observe_observe, fun different apart => ?_⟩
  intro behind ahead
  have swapped : List.Perm
      [(now, Event.observe route report verdict), (now, .observe other another otherVerdict)]
      [(now, .observe other another otherVerdict), (now, .observe route report verdict)] :=
    List.Perm.swap ..
  refine ⟨gate.registry.holdsSame_record_record different apart,
    gate.lockout_replay_of_perm swapped, rfl, ?_, ?_⟩
  · rw [observe_snd, observe_snd]
  · rw [observe_snd, observe_snd]

/-- The report of a rejection for the whole application, which leaves a bucket empty. -/
def lockingFor (bucket : String) (length : Duration) : Report :=
  ⟨some bucket, some 5, some 0, none, some length, some length, some .global⟩

/-- Two routes are counted in two buckets. -/
def countedApart : Gate :=
  (Gate.new 0 defaultFallback).replay
    [(0, .record ⟨.get, "a"⟩ (lockingFor "first" (.ofSeconds 1))),
      (0, .record ⟨.get, "b"⟩ (lockingFor "second" (.ofSeconds 1)))]

/-- Two rejections move each route to the other one's bucket and lock the gate, for five seconds
and for two. Their order makes no difference, and the longer lockout stays. -/
theorem observe_at_once_exchanging :
    let first := countedApart.observe ⟨.get, "a"⟩ (lockingFor "second" (.ofSeconds 5)) .limited 0
    let second := countedApart.observe ⟨.get, "b"⟩ (lockingFor "first" (.ofSeconds 2)) .limited 0
    let behind := first.1.observe ⟨.get, "b"⟩ (lockingFor "first" (.ofSeconds 2)) .limited 0
    let ahead := second.1.observe ⟨.get, "a"⟩ (lockingFor "second" (.ofSeconds 5)) .limited 0
    behind.1.registry.HoldsSame ahead.1.registry ∧ behind.1.lockout = ahead.1.lockout ∧
      ahead.1.lockout.untilMicros = 5000000 ∧
      ahead.1.registry.bucketId? ⟨.get, "a"⟩ = some "second" := by
  have apart : ∀ id, (lockingFor "second" (.ofSeconds 5)).bucket = some id →
      (lockingFor "first" (.ofSeconds 2)).bucket ≠ some id := by
    rintro _ ⟨⟩
    decide
  obtain ⟨-, commutes⟩ := countedApart.observe_at_once ⟨.get, "a"⟩ ⟨.get, "b"⟩
    (lockingFor "second" (.ofSeconds 5)) (lockingFor "first" (.ofSeconds 2)) .limited .limited 0
  obtain ⟨holds, locked, -⟩ := commutes (by decide) apart
  exact ⟨holds, locked, by decide +kernel, by decide +kernel⟩

end Gate

end QuotaGate
