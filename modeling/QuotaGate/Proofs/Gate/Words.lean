import Mathlib
import QuotaGate.Proofs.Admission.Whole
import QuotaGate.Proofs.Gate.History
import QuotaGate.Proofs.Pruner.Ticks

/-!
# Arithmetic in words

The gate computes with numbers of any size. A machine has words: an instant ends at the last one, a
duration at the longest one, a count of microseconds fits 128 bits while it is taken and 64 bits
when it is stored. This module computes everything once more in words (`Gate.applied?`, `Gate.Computes`).
There a sum or a conversion that does not fit has no result, and each place saturates in its own way
where it does: a sum of an instant and a duration gives way to another sum, a conversion to the
greatest number, a difference to zero.

As long as the clock stays thirty years away from the last instant, all of it has a result, and the
result is that of the gate, whatever the server has sent before.

Results:
1. `Lockout.endOf?_eq`, `Bucket.resetsAt?_eq` and the like: each computation in words has a result.
2. `computes`: so has every event, query and wait at a gate whose records are early.
3. `replay?_eq`: and every history.
4. `arithmetic_in_words`: all of it in one statement, with what a record says of its window.
-/

namespace QuotaGate

/-! ## Words -/

/-- A number, if it is not above the greatest one that a word holds. -/
def fit? (most number : Nat) : Option Nat := if number ≤ most then some number else none

theorem fit?_of_le {most number : Nat} (fits : number ≤ most) : fit? most number = some number :=
  if_pos fits

/-- The greatest number that a count of microseconds can be before it is stored. -/
def Duration.mostMicros : Nat := 2 ^ 128 - 1

namespace Instant

/-- An instant that thirty years can be added to. -/
def IsEarly (instant : Instant) : Prop := instant + Duration.thirtyYears ≤ latest

instance (instant : Instant) : Decidable instant.IsEarly :=
  inferInstanceAs (Decidable (instant + Duration.thirtyYears ≤ latest))

/-- The instant `length` after `start`. Where there is none thirty years are added instead, and that
sum has to fit. -/
def addOrFar? (start : Instant) (length : Duration) : Option Instant :=
  (start.add? length).or (start.add? Duration.thirtyYears)

/-- The time since an earlier instant. -/
def elapsed? (now started : Instant) : Option Duration :=
  if started ≤ now then fit? Duration.longest (now - started) else none

/-- The time until a later instant, zero when it has passed. -/
def until? (later now : Instant) : Option Duration := fit? Duration.longest (later.since now)

theorem latest_le_longest : latest ≤ Duration.longest := by decide

theorem IsEarly.le_latest {instant : Instant} (early : instant.IsEarly) : instant ≤ latest :=
  Nat.le_trans (Nat.le_add_right _ _) early

theorem IsEarly.add?_thirtyYears {start : Instant} (early : start.IsEarly) :
    start.add? Duration.thirtyYears = some (start + Duration.thirtyYears) := if_pos early

theorem addOrFar?_eq {start : Instant} (early : start.IsEarly) (length : Duration) :
    start.addOrFar? length = some (start.addSaturating length) := by
  unfold addOrFar? addSaturating
  cases found : start.add? length with
  | none => rw [Option.none_or, Option.getD_none, early.add?_thirtyYears]
  | some stop => rfl

theorem addSaturating_le_latest {start : Instant} (early : start.IsEarly) (length : Duration) :
    start.addSaturating length ≤ latest := by
  unfold addSaturating add?
  split
  · next fits => exact fits
  · exact early

theorem since_le_longest {later : Instant} (inRange : later ≤ latest) (earlier : Instant) :
    later.since earlier ≤ Duration.longest :=
  Nat.le_trans (Nat.sub_le _ _) (Nat.le_trans inRange latest_le_longest)

theorem until?_eq {later : Instant} (inRange : later ≤ latest) (now : Instant) :
    later.until? now = some (later.since now) :=
  fit?_of_le (since_le_longest inRange now)

theorem elapsed?_eq {now started : Instant} (inRange : now ≤ latest) (past : started ≤ now) :
    now.elapsed? started = some (now.since started) := by
  rw [elapsed?, if_pos past]
  exact fit?_of_le (since_le_longest inRange started)

end Instant

namespace Duration

/-- The whole microseconds in a duration, before they are stored. -/
def micros? (length : Duration) : Option Nat := fit? mostMicros length.wholeMicros

theorem micros?_eq {length : Duration} (fits : length ≤ longest) :
    length.micros? = some length.wholeMicros := by
  refine fit?_of_le (Nat.le_trans (Nat.div_le_self _ _) (Nat.le_trans fits ?_))
  decide

/-- The duration of stored microseconds. -/
def ofMicros? (micros : Nat) : Option Duration := fit? longest (micros * microsecond)

theorem ofMicros?_eq {micros : Nat} (stored : micros ≤ Lockout.mostMicros) :
    ofMicros? micros = some (micros * microsecond) := by
  refine fit?_of_le (Nat.le_trans (Nat.mul_le_mul_right _ stored) ?_)
  decide

end Duration

/-! ## The lockout -/

namespace Lockout

def offset? (lockout : Lockout) (now : Instant) : Option Nat := do
  let elapsed ← now.until? lockout.origin
  let micros ← elapsed.micros?
  return (fit? mostMicros micros).getD mostMicros

def endOf? (lockout : Lockout) (length : Duration) (now : Instant) : Option Nat := do
  let offset ← lockout.offset? now
  let micros ← length.micros?
  return (fit? mostMicros micros).elim mostMicros fun stored => min mostMicros (offset + stored)

def trigger? (lockout : Lockout) (length : Duration) (now : Instant) : Option Lockout := do
  let stop ← lockout.endOf? length now
  if fits : max lockout.untilMicros stop ≤ mostMicros then
    some ⟨lockout.origin, max lockout.untilMicros stop, fits⟩
  else none

def isActive? (lockout : Lockout) (now : Instant) : Option Bool := do
  let offset ← lockout.offset? now
  return offset < lockout.untilMicros

def remaining? (lockout : Lockout) (now : Instant) : Option Duration := do
  let offset ← lockout.offset? now
  Duration.ofMicros? (lockout.untilMicros - offset)

/-- The instant at which the lockout ends, if there has been one and there is such an instant. -/
def stop? (lockout : Lockout) : Option (Option Instant) := do
  let length ← Duration.ofMicros? lockout.untilMicros
  return if lockout.untilMicros = 0 then none else lockout.origin.add? length

variable (lockout : Lockout) {now : Instant} {length : Duration}

theorem getD_fit? (micros : Nat) :
    (fit? mostMicros micros).getD mostMicros = min mostMicros micros := by
  unfold fit?
  split
  · next fits => exact (Nat.min_eq_right fits).symm
  · next large => exact (Nat.min_eq_left (Nat.le_of_not_le large)).symm

theorem offset?_eq (inRange : now ≤ Instant.latest) :
    lockout.offset? now = some (lockout.offset now) := by
  rw [offset?, Instant.until?_eq inRange, Option.bind_eq_bind, Option.bind_some,
    Duration.micros?_eq (Instant.since_le_longest inRange _), Option.bind_some, getD_fit?]
  rfl

theorem endOf?_eq (inRange : now ≤ Instant.latest) (fits : length ≤ Duration.longest) :
    lockout.endOf? length now = some (lockout.endOf length now) := by
  rw [endOf?, lockout.offset?_eq inRange, Option.bind_eq_bind, Option.bind_some,
    Duration.micros?_eq fits, Option.bind_some, fit?]
  split
  · rfl
  · next large =>
    -- The conversion saturates where the sum would.
    have above : mostMicros ≤ lockout.offset now + length.wholeMicros :=
      Nat.le_trans (Nat.le_of_not_le large) (Nat.le_add_left _ _)
    exact congrArg some (Nat.min_eq_left above).symm

theorem trigger?_eq (inRange : now ≤ Instant.latest) (fits : length ≤ Duration.longest) :
    lockout.trigger? length now = some (lockout.trigger length now) := by
  have stored : max lockout.untilMicros (lockout.endOf length now) ≤ mostMicros :=
    (lockout.trigger length now).untilMicros_le
  rw [trigger?, lockout.endOf?_eq inRange fits, Option.bind_eq_bind, Option.bind_some,
    dif_pos stored]
  rfl

theorem isActive?_eq (inRange : now ≤ Instant.latest) :
    lockout.isActive? now = some (lockout.isActive now) := by
  rw [isActive?, lockout.offset?_eq inRange]
  rfl

theorem remaining?_eq (inRange : now ≤ Instant.latest) :
    lockout.remaining? now = some (lockout.remaining now) := by
  rw [remaining?, lockout.offset?_eq inRange]
  exact Duration.ofMicros?_eq (Nat.le_trans (Nat.sub_le _ _) lockout.untilMicros_le)

theorem stop?_eq : lockout.stop? = some lockout.endsAt? := by
  rw [stop?, Duration.ofMicros?_eq lockout.untilMicros_le]
  rfl

end Lockout

/-! ## Buckets -/

namespace ResetTime

/-- The longest time that a calendar can be moved by: its milliseconds fit 63 bits. -/
def longestMove : Duration := Duration.ofMillis (2 ^ 63 - 1)

/-- The reset time of a report, computed with moves of the calendar. -/
def ofReportInWords (reset : Option Timestamp) (resetAfter : Duration) : ResetTime :=
  match reset with
  | some time => .reported time
  | none => (fit? longestMove resetAfter).elim .endOfCalendar fun move =>
    if move < horizon then .estimated else .endOfCalendar

/-- What no move can be lies past the calendar anyway. -/
theorem ofReportInWords_eq (reset : Option Timestamp) (resetAfter : Duration) :
    ofReportInWords reset resetAfter = ofReport reset resetAfter := by
  unfold ofReportInWords ofReport
  cases reset with
  | some time => rfl
  | none =>
    dsimp only
    unfold fit?
    split
    · rfl
    · next long =>
      have past : ¬resetAfter < horizon := fun near =>
        long (Nat.le_trans (Nat.le_of_lt near) (by decide))
      rw [if_neg past]
      rfl

end ResetTime

namespace Bucket

def resetsAt? (bucket : Bucket) : Option Instant := bucket.cachedAt.addOrFar? bucket.resetAfter

def waitAt? (bucket : Bucket) (now : Instant) : Option Duration := do
  let resets ← bucket.resetsAt?
  resets.until? now

def isStale? (bucket : Bucket) (grace : Duration) (now : Instant) : Option Bool := do
  let resets ← bucket.resetsAt?
  return (resets.add? grace).any (· ≤ now)

variable {bucket : Bucket}

theorem resetsAt?_eq (early : bucket.cachedAt.IsEarly) :
    bucket.resetsAt? = some bucket.resetsAt :=
  Instant.addOrFar?_eq early bucket.resetAfter

theorem waitAt?_eq (early : bucket.cachedAt.IsEarly) (now : Instant) :
    bucket.waitAt? now = some (bucket.waitAt now) := by
  rw [waitAt?, resetsAt?_eq early]
  exact Instant.until?_eq (Instant.addSaturating_le_latest early _) now

theorem isStale?_eq (early : bucket.cachedAt.IsEarly) (grace : Duration) (now : Instant) :
    bucket.isStale? grace now = some (bucket.isStale grace now) := by
  rw [isStale?, resetsAt?_eq early, isStale, Option.bind_eq_bind, Option.bind_some]
  cases bucket.resetsAt.add? grace <;> rfl

/-- What a record says of its window: it ends as long after the report as the report said, or thirty
years after it, and whoever waits waits for just that. -/
structure HasWindow (bucket : Bucket) : Prop where
  after : bucket.cachedAt ≤ bucket.resetsAt
  exact : bucket.cachedAt + bucket.resetAfter ≤ Instant.latest →
    bucket.resetsAt = bucket.cachedAt + bucket.resetAfter
  far : Instant.latest < bucket.cachedAt + bucket.resetAfter →
    bucket.resetsAt = bucket.cachedAt + Duration.thirtyYears
  wait : ∀ now : Instant, bucket.cachedAt ≤ now →
    now + bucket.waitAt now = max now bucket.resetsAt ∧ bucket.waitAt now ≤ bucket.resetAfter

theorem hasWindow (early : bucket.cachedAt.IsEarly) : bucket.HasWindow := by
  have window : (bucket.cachedAt + bucket.resetAfter ≤ Instant.latest →
        bucket.resetsAt = bucket.cachedAt + bucket.resetAfter) ∧
      (Instant.latest < bucket.cachedAt + bucket.resetAfter →
        bucket.resetsAt = bucket.cachedAt + Duration.thirtyYears) := by
    unfold resetsAt Instant.addSaturating Instant.add?
    constructor
    · intro fits
      rw [if_pos fits, Option.getD_some]
    · intro large
      rw [if_neg (Nat.not_le.2 large), Option.getD_none]
  obtain ⟨fits, far⟩ := window
  refine ⟨Instant.le_addSaturating _ _, fits, far, fun now past => ?_⟩
  unfold waitAt Instant.since
  rcases Nat.lt_or_ge Instant.latest (bucket.cachedAt + bucket.resetAfter) with large | small
  · rw [far large]
    unfold Instant.IsEarly at early
    simp only [Instant, Duration] at *
    omega
  · rw [fits small]
    simp only [Instant, Duration] at *
    omega

end Bucket

/-! ## The gate -/

namespace Registry

/-- Every record was made at an early instant. -/
def IsEarly (registry : Registry) : Prop :=
  ∀ id bucket, registry.bucket? id = some bucket → bucket.cachedAt.IsEarly

def recordInWords (registry : Registry) (route : RouteKey) (report : Report) (now : Instant) :
    Registry :=
  match Bucket.ofReport? report now with
  | none => registry
  | some bucket =>
    let bucket := { bucket with reset := .ofReportInWords report.reset bucket.resetAfter }
    ⟨registry.buckets.put bucket.id bucket, registry.routes.put route bucket.id⟩

def prune? (registry : Registry) (grace : Duration) (now : Instant) : Option Registry :=
  if registry.buckets.entries.all fun entry => (entry.2.isStale? grace now).isSome then
    some (registry.keep fun bucket => !(bucket.isStale? grace now).getD false)
  else none

def waitAt? (registry : Registry) (route : RouteKey) (now : Instant) : Option Duration :=
  match registry.bucketOf? route with
  | some bucket => if bucket.isExhausted then bucket.waitAt? now else some 0
  | none => some 0

variable {registry : Registry}

theorem recordInWords_eq (registry : Registry) (route : RouteKey) (report : Report)
    (now : Instant) : registry.recordInWords route report now = (registry.record route report now).1 := by
  unfold recordInWords record
  cases built : Bucket.ofReport? report now with
  | none => rfl
  | some bucket =>
    have reset := ((Report.ofReport?_eq_some_iff report now bucket).1 built).reset
    dsimp only
    rw [ResetTime.ofReportInWords_eq, ← reset]

theorem prune?_eq (early : registry.IsEarly) (grace : Duration) (now : Instant) :
    registry.prune? grace now = some (registry.prune grace now) := by
  have stale : ∀ entry ∈ registry.buckets.entries,
      entry.2.isStale? grace now = some (entry.2.isStale grace now) := fun entry member =>
    Bucket.isStale?_eq (early entry.1 entry.2 ((Table.get?_eq_some_iff _ _ _).2 member)) grace now
  have kept : (registry.buckets.retain fun _ bucket => !(bucket.isStale? grace now).getD false) =
      registry.buckets.retain fun _ bucket => !bucket.isStale grace now := by
    unfold Table.retain
    congr 1
    refine List.filter_congr fun entry member => ?_
    simp only [stale entry member, Option.getD_some]
  have allStale : (registry.buckets.entries.all fun entry =>
      (entry.2.isStale? grace now).isSome) = true := by
    rw [List.all_eq_true]
    intro entry member
    rw [stale entry member]
    rfl
  rw [prune?, if_pos allStale, prune_eq_keep, keep, kept]
  rfl

theorem waitAt?_eq (early : registry.IsEarly) (route : RouteKey) (now : Instant) :
    registry.waitAt? route now = some (registry.waitAt route now) := by
  unfold waitAt? waitAt bucketOf?
  cases registry.bucketId? route with
  | none => rfl
  | some id =>
    cases known : registry.bucket? id with
    | none => simp [known]
    | some bucket =>
      simp only [Option.bind_some, known]
      split
      · exact Bucket.waitAt?_eq (early id bucket known) now
      · rfl

theorem IsEarly.onRegistry (early : registry.IsEarly) (event : Gate.Event) {now : Instant}
    (inRange : now.IsEarly) : (event.onRegistry registry now).IsEarly := by
  intro id bucket known
  rcases (bucket?_onRegistry_eq_some_iff registry event now id bucket).1 known with
    ⟨⟨route, report, -, described⟩, -⟩ | ⟨before, -, -⟩
  · rw [described.cachedAt]
    exact inRange
  · exact early id bucket before

end Registry

namespace Gate

/-- The durations that an event carries are durations. -/
def Event.Fits : Event → Prop
  | observe _ report _ | record _ report =>
    (∀ length, report.resetAfter = some length → length ≤ Duration.longest) ∧
      ∀ length, report.retryAfter = some length → length ≤ Duration.longest
  | trigger length | prune length => length ≤ Duration.longest
  | clear => True

def applied? (gate : Gate) (event : Event) (now : Instant) : Option Gate :=
  match event with
  | .observe route report verdict =>
    let registry := gate.registry.recordInWords route report now
    match gate.lockoutOf? report verdict with
    | some length => (gate.lockout.trigger? length now).map fun lockout =>
      { gate with registry, lockout }
    | none => some { gate with registry }
  | .record route report =>
    some { gate with registry := gate.registry.recordInWords route report now }
  | .trigger length => (gate.lockout.trigger? length now).map fun lockout => { gate with lockout }
  | .prune grace => (gate.registry.prune? grace now).map fun registry => { gate with registry }
  | .clear => some { gate with registry := .empty }

def replay? (gate : Gate) (history : History) : Option Gate :=
  history.foldlM (fun gate entry => gate.applied? entry.2 entry.1) gate

end Gate

/-- The move of an admission. A sleep is added to the present instant. -/
def Admission.step? (gate : Gate) (route : RouteKey) (now : Instant) :
    Admission → Option (Option Admission)
  | checkingLockout => do
    let left ← gate.lockout.remaining? now
    if left = 0 then return some checkingBucket
    let deadline ← now.addOrFar? left
    return some (lockedOut deadline.ceilMillis)
  | checkingBucket => do
    let wait ← gate.registry.waitAt? route now
    if wait = 0 then return some admitted
    let deadline ← now.addOrFar? wait
    return some (awaitingReset deadline.ceilMillis)
  | lockedOut wake => some (if wake ≤ now then some checkingLockout else none)
  | awaitingReset wake => some (if wake ≤ now then some admitted else none)
  | admitted => some none

namespace Gate

/-- Everything that is done or asked at an instant has a result in words, and it is the gate's. -/
structure Computes (gate : Gate) (now : Instant) : Prop where
  apply : ∀ event : Event, event.Fits → gate.applied? event now = some (gate.apply event now)
  isActive : gate.lockout.isActive? now = some (gate.lockout.isActive now)
  remaining : gate.lockout.remaining? now = some (gate.lockout.remaining now)
  stop : gate.lockout.stop? = some gate.lockout.endsAt?
  waitAt : ∀ route, gate.registry.waitAt? route now = some (gate.registry.waitAt route now)
  step : ∀ route admission,
    Admission.step? gate route now admission = some (admission.step gate route now)
  sleep : ∀ length, (now.addOrFar? length).map Instant.ceilMillis = some (now.wakeAfter length)
  elapsed : ∀ started, started ≤ now → now.elapsed? started = some (now.since started)

/-- What is known was reported early, and the lockout without a hint is a duration. -/
structure IsEarly (gate : Gate) : Prop where
  registry : gate.registry.IsEarly
  fallback : gate.fallback ≤ Duration.longest

variable {gate : Gate} {now : Instant}

theorem applied?_eq (early : gate.IsEarly) (inRange : now ≤ Instant.latest) {event : Event}
    (fits : event.Fits) : gate.applied? event now = some (gate.apply event now) := by
  cases event with
  | observe route report verdict =>
    simp only [applied?, apply, observe, Registry.recordInWords_eq]
    cases asked : gate.lockoutOf? report verdict with
    | none => rfl
    | some length =>
      have short : length ≤ Duration.longest := by
        unfold lockoutOf? at asked
        split at asked
        · cases asked
          cases hint : report.retryAfter with
          | none => exact early.fallback
          | some length => exact fits.2 length hint
        · cases asked
      simp only [gate.lockout.trigger?_eq inRange short, Option.map_some]
  | record route report => simp only [applied?, apply, Registry.recordInWords_eq]
  | trigger length =>
    simp only [applied?, apply, gate.lockout.trigger?_eq inRange fits, Option.map_some]
  | prune grace => simp only [applied?, apply, Registry.prune?_eq early.registry, Option.map_some]
  | clear => rfl

theorem step?_eq (early : gate.IsEarly) (inRange : now.IsEarly) (route : RouteKey)
    (admission : Admission) :
    Admission.step? gate route now admission = some (admission.step gate route now) := by
  cases admission with
  | checkingLockout =>
    rw [Admission.step?, gate.lockout.remaining?_eq inRange.le_latest, Admission.step,
      Lockout.wakeAt?, Option.bind_eq_bind, Option.bind_some, Instant.addOrFar?_eq inRange]
    split <;> rfl
  | checkingBucket =>
    rw [Admission.step?, Registry.waitAt?_eq early.registry, Admission.step, Registry.wakeAt?,
      Option.bind_eq_bind, Option.bind_some, Instant.addOrFar?_eq inRange]
    split <;> rfl
  | lockedOut wake | awaitingReset wake | admitted => rfl

/-- At a gate whose records are early, everything has a result at an early instant. -/
theorem computes (early : gate.IsEarly) (inRange : now.IsEarly) : gate.Computes now where
  apply _ fits := applied?_eq early inRange.le_latest fits
  isActive := gate.lockout.isActive?_eq inRange.le_latest
  remaining := gate.lockout.remaining?_eq inRange.le_latest
  stop := gate.lockout.stop?_eq
  waitAt route := Registry.waitAt?_eq early.registry route now
  step := step?_eq early inRange
  sleep length := by
    rw [Instant.addOrFar?_eq inRange]
    rfl
  elapsed _ past := Instant.elapsed?_eq inRange.le_latest past

theorem IsEarly.apply (early : gate.IsEarly) (inRange : now.IsEarly) (event : Event) :
    (gate.apply event now).IsEarly where
  registry := by
    rw [apply_registry]
    exact early.registry.onRegistry event inRange
  fallback := by
    rw [apply_fallback]
    exact early.fallback

/-- Every history has a result, and what it leaves is early. -/
theorem replay?_eq {history : History} (early : gate.IsEarly)
    (inRange : ∀ entry ∈ history, entry.1.IsEarly) (fits : ∀ entry ∈ history, entry.2.Fits) :
    gate.replay? history = some (gate.replay history) ∧ (gate.replay history).IsEarly := by
  induction history generalizing gate with
  | nil => exact ⟨rfl, early⟩
  | cons entry history ih =>
    rw [List.forall_mem_cons] at inRange fits
    have applied := (computes early inRange.1).apply entry.2 fits.1
    obtain ⟨replayed, still⟩ := ih (early.apply inRange.1 entry.2) inRange.2 fits.2
    refine ⟨?_, still⟩
    rw [replay?, List.foldlM_cons, applied]
    exact replayed

/-- Whatever the server has sent, nothing that is done, asked or waited for at the gate overflows
while the clock is thirty years away from the last instant, and every record has its window. -/
theorem arithmetic_in_words (origin : Instant) {fallback : Duration}
    (short : fallback ≤ Duration.longest) {history : History}
    (inRange : ∀ entry ∈ history, entry.1.IsEarly) (fits : ∀ entry ∈ history, entry.2.Fits) :
    (Gate.new origin fallback).replay? history =
        some ((Gate.new origin fallback).replay history) ∧
      (∀ now : Instant, now.IsEarly → ((Gate.new origin fallback).replay history).Computes now) ∧
      ∀ id bucket,
        ((Gate.new origin fallback).replay history).registry.bucket? id = some bucket →
        bucket.HasWindow := by
  have new : (Gate.new origin fallback).IsEarly := by
    refine ⟨fun id bucket known => ?_, short⟩
    cases known
  obtain ⟨replayed, early⟩ := replay?_eq new inRange fits
  refine ⟨replayed, fun now late => computes early late, fun id bucket known => ?_⟩
  exact Bucket.hasWindow (early.registry id bucket known)

/-- A response that asks for as much as can be asked for. -/
def hugeReport : Report where
  bucket := some "b"
  limit := some (2 ^ 32 - 1)
  remaining := some 0
  reset := none
  resetAfter := some Duration.longest
  retryAfter := some Duration.longest
  scope := some .global

/-- The greatest hints of a server, and the longest lockout and grace. -/
def hugeHints : History :=
  [(0, .observe ⟨.get, "a"⟩ hugeReport .limited),
    (Duration.ofSeconds 60, .trigger Duration.longest),
    (Duration.ofSeconds 60, .prune Duration.longest)]

/-- After the greatest hints everything has a result, and the window of the bucket ends in thirty
years. -/
theorem arithmetic_after_hugeHints :
    (Gate.new 0 defaultFallback).replay? hugeHints =
        some ((Gate.new 0 defaultFallback).replay hugeHints) ∧
      ((Gate.new 0 defaultFallback).replay hugeHints).Computes (Duration.ofSeconds 120) ∧
      ∃ bucket, ((Gate.new 0 defaultFallback).replay hugeHints).registry.bucket? "b" =
          some bucket ∧ bucket.resetsAt = Duration.thirtyYears ∧ bucket.HasWindow := by
  have short : defaultFallback ≤ Duration.longest := by decide
  have inRange : ∀ entry ∈ hugeHints, entry.1.IsEarly := by decide
  have fits : ∀ entry ∈ hugeHints, entry.2.Fits := by
    simp [hugeHints, hugeReport, Event.Fits]
  obtain ⟨replayed, computes, windows⟩ := arithmetic_in_words 0 short inRange fits
  refine ⟨replayed, computes _ (by decide), ?_⟩
  let bucket : Bucket := ⟨"b", 2 ^ 32 - 1, 0, .endOfCalendar, Duration.longest, 0⟩
  have known : ((Gate.new 0 defaultFallback).replay hugeHints).registry.bucket? "b" =
      some bucket := by cbv
  exact ⟨bucket, known, by decide, windows "b" bucket known⟩

end Gate

end QuotaGate
