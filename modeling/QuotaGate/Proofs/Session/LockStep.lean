import Mathlib.Data.List.Forall2
import QuotaGate.Session.Clock

/-!
# Sessions in lock step

Two sessions can be compared poll by poll. The clock looks at a task for no more than the instant at
which it wakes, and at what the tasks share for no more than what the pruners do to it. So whatever
relation the polls of two sessions keep, and the pruners, their steps keep as well. What the tasks
are compared for, and what they share, is left open here.

Results:
1. `LockStep.alike_drive`: tasks that are alike are so after any moves of the clock.
2. `LockStep.alike_perform`: actions that are alike have results that are alike, at the same
   instants.
-/

namespace QuotaGate.Session

/-- That tasks which are alike, on worlds that are alike, go on alike. Their results are the same
but for how they are shown. -/
structure LockStep (acts : Action → Action → Prop) (alike : Task → Task → Prop)
    (shared : World → World → Prop) (shown : Result → Result) : Prop where
  begins {action other : Action} (wake : Instant) :
    acts action other → alike (.delayed wake action) (.delayed wake other)
  polls {task mirrored : Task} {world other : World} (now : Instant) :
    shared world other → alike task mirrored →
      alike (task.poll world now).1 (mirrored.poll other now).1 ∧
        shared (task.poll world now).2 (mirrored.poll other now).2
  prunes {world other : World} (now : Instant) :
    shared world other → shared (world.runPruners now) (other.runPruners now)
  wakes {task mirrored : Task} : alike task mirrored → mirrored.wake? = task.wake?
  results {task mirrored : Task} :
    alike task mirrored → mirrored.result? = task.result?.map (Prod.map shown id)
  replies {world other : World} : shared world other →
    other.exchange.wire.replies.length = world.exchange.wire.replies.length

namespace LockStep

variable {acts : Action → Action → Prop} {alike : Task → Task → Prop}
  {shared : World → World → Prop} {shown : Result → Result} {tasks mirrored : List Task}

theorem alike_pollAll (lockStep : LockStep acts alike shared shown) {world other : World}
    (worlds : shared world other) (same : List.Forall₂ alike tasks mirrored) (now : Instant) :
    List.Forall₂ alike (pollAll tasks world now).1 (pollAll mirrored other now).1 ∧
      shared (pollAll tasks world now).2 (pollAll mirrored other now).2 := by
  induction same generalizing world other with
  | nil => exact ⟨.nil, worlds⟩
  | cons first _ ih =>
    obtain ⟨firstAlike, after⟩ := lockStep.polls now worlds first
    obtain ⟨restAlike, last⟩ := ih after
    exact ⟨.cons firstAlike restAlike, last⟩

theorem nextWake?_eq (lockStep : LockStep acts alike shared shown)
    (same : List.Forall₂ alike tasks mirrored) : nextWake? mirrored = nextWake? tasks := by
  have wakes : mirrored.filterMap Task.wake? = tasks.filterMap Task.wake? := by
    induction same with
    | nil => rfl
    | cons first _ ih => rw [List.filterMap_cons, lockStep.wakes first, ih, List.filterMap_cons]
  rw [nextWake?, wakes, nextWake?]

theorem results_eq (lockStep : LockStep acts alike shared shown)
    (same : List.Forall₂ alike tasks mirrored) :
    mirrored.filterMap Task.result? =
      (tasks.filterMap Task.result?).map (Prod.map shown id) := by
  induction same with
  | nil => rfl
  | @cons task _ _ _ first _ ih =>
    rw [List.filterMap_cons, lockStep.results first, ih, List.filterMap_cons]
    cases task.result? <;> rfl

theorem alike_drive (lockStep : LockStep acts alike shared shown) (fuel : Nat)
    {session other : Session} (now : other.now = session.now)
    (worlds : shared session.world other.world) (same : List.Forall₂ alike tasks mirrored) :
    List.Forall₂ alike (drive fuel tasks session).1 (drive fuel mirrored other).1 ∧
      (drive fuel mirrored other).2.now = (drive fuel tasks session).2.now ∧
      shared (drive fuel tasks session).2.world (drive fuel mirrored other).2.world := by
  induction fuel generalizing tasks mirrored session other with
  | zero => exact ⟨same, now, worlds⟩
  | succ fuel ih =>
    obtain ⟨sessionNow, world⟩ := session
    obtain ⟨otherNow, otherWorld⟩ := other
    obtain rfl : otherNow = sessionNow := now
    obtain ⟨polled, after⟩ := lockStep.alike_pollAll worlds same otherNow
    simp only [drive, lockStep.nextWake?_eq polled]
    split
    · exact ⟨polled, rfl, after⟩
    · next wake _ => exact ih rfl (lockStep.prunes (wake - 1) after) polled

/-- Actions that are alike have the same results at the same instants, but for how they are shown,
and leave sessions that are alike. -/
theorem alike_perform (lockStep : LockStep acts alike shared shown) {session other : Session}
    (now : other.now = session.now) (worlds : shared session.world other.world)
    {actions others : List (Duration × Action)}
    (same : List.Forall₂ (fun delayed other => other.1 = delayed.1 ∧ acts delayed.2 other.2)
      actions others) :
    (other.perform others).1 = (session.perform actions).1.map (Prod.map shown id) ∧
      (other.perform others).2.now = (session.perform actions).2.now ∧
      shared (session.perform actions).2.world (other.perform others).2.world := by
  have tasks : List.Forall₂ alike
      (actions.map fun delayed => Task.delayed (session.now.wakeAfter delayed.1) delayed.2)
      (others.map fun delayed => Task.delayed (other.now.wakeAfter delayed.1) delayed.2) := by
    rw [List.forall₂_map_left_iff, List.forall₂_map_right_iff, now]
    refine same.imp fun delayed other same => ?_
    obtain ⟨delay, action⟩ := delayed
    obtain ⟨otherDelay, otherAction⟩ := other
    obtain ⟨rfl, acting⟩ := same
    exact lockStep.begins _ acting
  obtain ⟨driven, later, after⟩ := lockStep.alike_drive
    (mostMoves actions.length session.world.exchange.wire.replies.length) now worlds tasks
  simp only [perform, List.length_map, lockStep.replies worlds, ← same.length_eq]
  refine ⟨lockStep.results_eq driven, later, ?_⟩
  rw [later]
  exact lockStep.prunes _ after

end LockStep

end QuotaGate.Session
