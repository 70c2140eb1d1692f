import Mathlib.Logic.Function.Iterate
import QuotaGate.Proofs.Gate.History
import QuotaGate.Session.Action

/-!
# The ticks of pruners

What prunings leave of a registry depends only on which buckets they spare. So they may be made in
any order, and more than once (`Gate.pruned_congr`).

That is why it does not matter that the pruners of a session are looked after one after the other,
nor at which instants between two events they are (`runPruners_runPruners`).

Results:
1. `Registry.keep_keep`, `Gate.pruned_congr`: the same prunings leave the same registry.
2. `Pruner.run_eq`: a pruner that goes through its loop prunes at the ticks of its interval.
3. `Pruner.scheduled_of_le`: one tick after the other is due, as long as an instant can hold it, a
   whole number of periods after the start.
4. `Session.World.runPruners_runPruners`: the ticks that were made early and the ones that are left
   are the ones that are due later.
-/

namespace QuotaGate

/-! ## Prunings spare buckets -/

theorem Table.retain_retain {κ ν : Type} [DecidableEq κ] (table : Table κ ν)
    (first second : κ → ν → Bool) :
    (table.retain first).retain second =
      table.retain fun key value => second key value && first key value := by
  unfold Table.retain
  congr 1
  exact List.filter_filter

namespace Registry

/-- Keeps the buckets that a test accepts, and the routes in them. -/
def keep (registry : Registry) (test : Bucket → Bool) : Registry :=
  let buckets := registry.buckets.retain fun _ bucket => test bucket
  ⟨buckets, registry.routes.retain fun _ id => (buckets.get? id).isSome⟩

theorem prune_eq_keep (registry : Registry) (grace : Duration) (now : Instant) :
    registry.prune grace now = registry.keep fun bucket => !bucket.isStale grace now := rfl

/-- Two tests may be made at once. -/
theorem keep_keep (registry : Registry) (first second : Bucket → Bool) :
    (registry.keep first).keep second =
      registry.keep fun bucket => first bucket && second bucket := by
  unfold keep
  simp only [Table.retain_retain, Table.get?_retain, Bool.and_comm (second _)]
  congr 2
  funext route id
  -- A bucket that both tests accept has passed the first.
  cases registry.buckets.get? id with
  | none => rfl
  | some bucket => cases accepted : first bucket <;> simp [Option.filter, accepted]

end Registry

/-- A pruning: its instant and its grace. -/
abbrev Pruning := Instant × Duration

/-- Whether none of the prunings finds a bucket stale. -/
def Bucket.isSpared (bucket : Bucket) (prunings : List Pruning) : Bool :=
  prunings.all fun (tick, grace) => !bucket.isStale grace tick

namespace Gate

/-- The gate after prunings. -/
def pruned (gate : Gate) (prunings : List Pruning) : Gate :=
  gate.replay (prunings.map fun (tick, grace) => (tick, .prune grace))

theorem pruned_append (gate : Gate) (earlier later : List Pruning) :
    gate.pruned (earlier ++ later) = (gate.pruned earlier).pruned later := by
  unfold pruned
  rw [List.map_append, replay_append]

/-- Prunings leave what they all spare. -/
theorem pruned_cons (gate : Gate) (first : Pruning) (prunings : List Pruning) :
    gate.pruned (first :: prunings) =
      { gate with
        registry := gate.registry.keep fun bucket => bucket.isSpared (first :: prunings) } := by
  induction prunings generalizing gate first with
  | nil =>
    show gate.apply (.prune first.2) first.1 = _
    simp only [apply, Registry.prune_eq_keep, Bucket.isSpared, List.all_cons, List.all_nil,
      Bool.and_true]
  | cons second prunings ih =>
    show (gate.apply (.prune first.2) first.1).pruned (second :: prunings) = _
    rw [ih]
    simp only [apply, Registry.prune_eq_keep, Registry.keep_keep]
    rfl

end Gate

theorem Bucket.isSpared_of_subset {bucket : Bucket} {prunings others : List Pruning}
    (within : others ⊆ prunings) (spared : bucket.isSpared prunings = true) :
    bucket.isSpared others = true :=
  List.all_eq_true.2 fun pruning member => List.all_eq_true.1 spared pruning (within member)

/-- The same prunings leave the same, in whatever order they are made. -/
theorem Gate.pruned_congr (gate : Gate) {prunings others : List Pruning}
    (within : prunings ⊆ others) (contains : others ⊆ prunings) :
    gate.pruned prunings = gate.pruned others := by
  cases prunings with
  | nil => rw [List.subset_nil.1 contains]
  | cons first rest =>
    cases others with
    | nil => cases List.subset_nil.1 within
    | cons other more =>
      have same : (fun bucket : Bucket => bucket.isSpared (first :: rest)) =
          fun bucket => bucket.isSpared (other :: more) := by
        funext bucket
        exact Bool.eq_iff_iff.2
          ⟨Bucket.isSpared_of_subset contains, Bucket.isSpared_of_subset within⟩
      rw [Gate.pruned_cons, Gate.pruned_cons, same]

/-! ## The ticks of one pruner -/

theorem Instant.ceilMillis_mono {instant later : Instant} (ordered : instant ≤ later) :
    instant.ceilMillis ≤ later.ceilMillis := by
  simp only [ceilMillis, Duration.millisecond, Instant, Duration] at *
  omega

namespace Interval

variable {interval : Interval} {now later limit : Instant}

theorem wake_le_wake_tick (interval : Interval) : interval.wake ≤ interval.tick.wake :=
  Instant.ceilMillis_mono (Nat.le_of_lt interval.due_lt_due_tick)

/-- The next tick but one comes no earlier than the next one is due. -/
theorem le_wake_tick (interval : Interval) : interval.due ≤ interval.tick.wake :=
  Nat.le_trans (Instant.le_ceilMillis _) interval.wake_le_wake_tick

/-- The instant of a tick that comes after so many others. -/
def tickAt (interval : Interval) (others : Nat) : Instant := (tick^[others] interval).wake

/-- The ticks that come by an instant. -/
def ticksBy (interval : Interval) (limit : Instant) : List Instant :=
  if _come : interval.wake ≤ limit then interval.wake :: interval.tick.ticksBy limit else []
termination_by limit + 1 - interval.due
decreasing_by exact sub_due_tick_lt _come

/-- The interval once these ticks have come. -/
def after (interval : Interval) (limit : Instant) : Interval :=
  if _come : interval.wake ≤ limit then interval.tick.after limit else interval
termination_by limit + 1 - interval.due
decreasing_by exact sub_due_tick_lt _come

theorem ticksBy_of_come (come : interval.wake ≤ limit) :
    interval.ticksBy limit = interval.wake :: interval.tick.ticksBy limit := by
  rw [ticksBy, dif_pos come]

theorem ticksBy_of_early (early : limit < interval.wake) : interval.ticksBy limit = [] := by
  rw [ticksBy, dif_neg (Nat.not_le.2 early)]

theorem after_of_come (come : interval.wake ≤ limit) :
    interval.after limit = interval.tick.after limit := by
  rw [after, dif_pos come]

theorem after_of_early (early : limit < interval.wake) : interval.after limit = interval := by
  rw [after, dif_neg (Nat.not_le.2 early)]

/-- The ticks that come later are left once those that come now have been made. -/
theorem ticksBy_eq_append (interval : Interval) (ordered : now ≤ later) :
    interval.ticksBy later = interval.ticksBy now ++ (interval.after now).ticksBy later := by
  fun_induction ticksBy interval now with
  | case1 interval come ih =>
    rw [ticksBy_of_come (Nat.le_trans come ordered), ih, after_of_come come, List.cons_append]
  | case2 interval early => rw [after_of_early (Nat.lt_of_not_le early), List.nil_append]

theorem after_after (interval : Interval) (ordered : now ≤ later) :
    (interval.after now).after later = interval.after later := by
  fun_induction after interval now with
  | case1 interval come ih => rw [ih, after_of_come (Nat.le_trans come ordered)]
  | case2 => rfl

end Interval

namespace Pruner

/-- The instants of ticks that come one period after another. Where there is no such instant the
next tick comes thirty years later. -/
def scheduled (start : Instant) (every : Duration) : Nat → Instant
  | 0 => start
  | tick + 1 => (scheduled start every tick).addSaturating every

theorem scheduled_of_le {start : Instant} {every : Duration} {tick : Nat}
    (fits : start + tick * every ≤ Instant.latest) :
    scheduled start every tick = start + tick * every := by
  induction tick with
  | zero => rw [scheduled, Nat.zero_mul, Nat.add_zero]
  | succ tick ih =>
    have next : start + tick * every + every = start + (tick + 1) * every := by
      rw [Nat.succ_mul, Nat.add_assoc]
    rw [← next] at fits ⊢
    rw [scheduled, ih (Nat.le_trans (Nat.le_add_right _ _) fits), Instant.addSaturating,
      Instant.add?, if_pos fits, Option.getD_some]

/-- The prunings of the ticks that come by an instant. -/
def prunings (pruner : Pruner) (limit : Instant) : List Pruning :=
  pruner.interval?.elim [] fun interval =>
    (interval.ticksBy limit).map fun tick => (tick, pruner.grace)

/-- The pruner once the ticks have been made that come by an instant. -/
def advance (pruner : Pruner) (limit : Instant) : Pruner :=
  { pruner with interval? := pruner.interval?.map (Interval.after · limit) }

/-- Going through the loop makes the ticks of the interval. -/
theorem loop_eq (pruner : Pruner) (gate : Gate) (limit : Instant) :
    pruner.loop (some gate) limit =
      (pruner.advance limit, some (gate.pruned (pruner.prunings limit))) := by
  generalize there : some gate = gate?
  fun_induction loop pruner gate? limit generalizing gate with
  | case1 pruner gate? ended =>
    obtain ⟨grace, interval?⟩ := pruner
    cases ended
    exact congrArg (Prod.mk _) there.symm
  | case2 pruner gate? interval running come ih =>
    subst there
    rw [ih _ rfl]
    simp only [turn, advance, prunings, running, Option.map_some, Option.elim_some,
      Interval.after_of_come come, Interval.ticksBy_of_come come]
    rfl
  | case3 pruner gate? interval running early =>
    obtain ⟨grace, interval?⟩ := pruner
    cases running
    simp only [← there, advance, prunings, Option.map_some, Option.elim_some,
      Interval.after_of_early (Nat.lt_of_not_le early),
      Interval.ticksBy_of_early (Nat.lt_of_not_le early)]
    rfl

theorem run_eq (pruner : Pruner) (gate : Gate) (limit : Instant) :
    pruner.run gate limit = (pruner.advance limit, gate.pruned (pruner.prunings limit)) := by
  rw [run, loop_eq]
  rfl

/-- The ticks that come later were made early, or are left. -/
theorem prunings_eq_append (pruner : Pruner) {now later : Instant} (ordered : now ≤ later) :
    pruner.prunings later = pruner.prunings now ++ (pruner.advance now).prunings later := by
  unfold prunings advance
  cases pruner.interval? with
  | none => rfl
  | some interval =>
    rw [Option.elim_some, interval.ticksBy_eq_append ordered, List.map_append]
    rfl

theorem advance_advance (pruner : Pruner) {now later : Instant} (ordered : now ≤ later) :
    (pruner.advance now).advance later = pruner.advance later := by
  unfold advance
  rw [Option.map_map]
  congr 2
  funext interval
  exact interval.after_after ordered

end Pruner

/-! ## The pruners of a session -/

namespace Session.World

/-- What the pruners do by an instant. -/
def prunings (world : World) (limit : Instant) : List Pruning :=
  world.pruners.flatMap (Pruner.prunings · limit)

/-- One pruner after the other makes the ticks that are due. -/
theorem foldl_run (limit : Instant) (pruners before : List Pruner) (gate : Gate) :
    pruners.foldl (fun (state : List Pruner × Gate) pruner =>
        (state.1 ++ [(pruner.run state.2 limit).1], (pruner.run state.2 limit).2)) (before, gate) =
      (before ++ pruners.map (Pruner.advance · limit),
        gate.pruned (pruners.flatMap (Pruner.prunings · limit))) := by
  induction pruners generalizing before gate with
  | nil => simp [Gate.pruned, Gate.replay_nil]
  | cons pruner rest ih =>
    rw [List.foldl_cons, ih, pruner.run_eq, List.append_assoc, ← Gate.pruned_append]
    rfl

theorem runPruners_eq (world : World) (limit : Instant) :
    world.runPruners limit =
      { exchange := { world.exchange with gate := world.gate.pruned (world.prunings limit) }
        pruners := world.pruners.map (Pruner.advance · limit) } := by
  unfold runPruners
  rw [prunings, ← List.nil_append (world.pruners.map _)]
  exact congrArg (fun state : List Pruner × Gate =>
      World.mk { world.exchange with gate := state.2 } state.1)
    (foldl_run limit world.pruners [] world.gate)

/-- Pruners that are looked after early do by a later instant what they would have done anyway. -/
theorem runPruners_runPruners (world : World) {now later : Instant} (ordered : now ≤ later) :
    (world.runPruners now).runPruners later = world.runPruners later := by
  have left : (world.runPruners now).prunings later =
      world.pruners.flatMap fun pruner => (pruner.advance now).prunings later := by
    rw [runPruners_eq, prunings, List.flatMap_map]
  -- The same prunings, pruner by pruner on one side and first the early ones on the other.
  have same (pruning : Pruning) :
      pruning ∈ world.prunings now ++ (world.runPruners now).prunings later ↔
        pruning ∈ world.prunings later := by
    rw [left, prunings, prunings]
    rw [List.mem_append, List.mem_flatMap, List.mem_flatMap, List.mem_flatMap, ← exists_or]
    refine exists_congr fun pruner => ?_
    rw [← and_or_left, ← List.mem_append, ← pruner.prunings_eq_append ordered]
  have sameGate : world.gate.pruned (world.prunings now ++ (world.runPruners now).prunings later) =
      world.gate.pruned (world.prunings later) :=
    Gate.pruned_congr _ (fun _ => (same _).1) fun _ => (same _).2
  rw [runPruners_eq (world.runPruners now), runPruners_eq world later, ← sameGate,
    Gate.pruned_append]
  simp only [runPruners_eq world now, List.map_map, gate]
  congr 1
  exact List.map_congr_left fun pruner _ => pruner.advance_advance ordered

end Session.World

end QuotaGate
