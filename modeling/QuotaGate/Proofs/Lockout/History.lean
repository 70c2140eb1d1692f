import Mathlib.Order.Bounds.Basic
import QuotaGate.Proofs.Traffic

/-!
# What a lockout remembers

The end of the lockout is the latest of all the ends that were ever asked for. It is asked for by
hand, and by a response that rejects the request for the whole application. Nothing else moves it,
and a lockout that ends sooner than one before leaves no trace.

Results:
1. `Gate.isGreatest_untilMicros_replay`: after a history, the lockout ends where it ended before or
   at the latest of the ends that the history asks for.
2. `Gate.lockout_replay_of_perm`: the order of a history does not matter to the lockout.
3. `Traffic.untilMicros_of_log`: both for the tasks at one gate, and nothing else moves the lockout.
-/

namespace QuotaGate

/-! ## Asking for a lockout -/

namespace Gate.Event

/-- An event asks for a lockout of a length. A response does so only if it is a rejection for
exceeding a quota and its scope is the whole application; without a hint it asks for the length
`fallback`. -/
inductive Locks (fallback : Duration) : Event → Duration → Prop
  | byHand (length : Duration) : Locks fallback (.trigger length) length
  | hinted {route : RouteKey} {report : Report} {length : Duration} :
      report.scope = some .global → report.retryAfter = some length →
      Locks fallback (.observe route report .limited) length
  | unhinted {route : RouteKey} {report : Report} :
      report.scope = some .global → report.retryAfter = none →
      Locks fallback (.observe route report .limited) fallback

theorem lockout?_eq_some_iff (fallback : Duration) (event : Event) (length : Duration) :
    event.lockout? fallback = some length ↔ event.Locks fallback length := by
  constructor
  · intro asked
    cases event with
    | observe route report verdict =>
      simp only [lockout?, Report.isGlobal, decide_eq_true_eq] at asked
      split at asked
      · next rejected =>
        obtain ⟨rfl, global⟩ := rejected
        cases hint : report.retryAfter with
        | none =>
          rw [hint] at asked
          cases asked
          exact .unhinted global hint
        | some given =>
          rw [hint] at asked
          cases asked
          exact .hinted global hint
      · cases asked
    | trigger given =>
      cases asked
      exact .byHand length
    | record route report | prune grace | clear => cases asked
  · intro locks
    cases locks with
    | byHand => rfl
    | hinted global hint | unhinted global hint =>
      simp [lockout?, Report.isGlobal, global, hint]

end Gate.Event

namespace Lockout

/-- The time from the origin is cut off before the length is added; that makes no difference. -/
theorem endOf_eq (lockout : Lockout) (length : Duration) (now : Instant) :
    lockout.endOf length now =
      min (UInt64.size - 1) ((now.since lockout.origin).wholeMicros + length.wholeMicros) := by
  have most : mostMicros = UInt64.size - 1 := rfl
  unfold endOf offset
  omega

theorem eq_of_untilMicros_eq {lockout other : Lockout} (origin : lockout.origin = other.origin)
    (untilMicros : lockout.untilMicros = other.untilMicros) : lockout = other := by
  obtain ⟨_, _, _⟩ := lockout
  obtain ⟨_, _, _⟩ := other
  cases origin
  cases untilMicros
  rfl

end Lockout

/-! ## Histories -/

namespace Gate

/-- The ends of all lockouts that a history asks for, in whole microseconds after `start` and at
most the greatest number of 64 bits. -/
def History.lockoutEnds (history : History) (start : Instant) (fallback : Duration) : Set Nat :=
  {stop | ∃ entry ∈ history, ∃ length, entry.2.Locks fallback length ∧
    stop = min (UInt64.size - 1) ((entry.1.since start).wholeMicros + length.wholeMicros)}

theorem lockoutEnd?_eq_some_iff (gate : Gate) (entry : Instant × Event) (stop : Nat) :
    gate.lockoutEnd? entry = some stop ↔ ∃ length, entry.2.Locks gate.fallback length ∧
      stop = min (UInt64.size - 1)
        ((entry.1.since gate.lockout.origin).wholeMicros + length.wholeMicros) := by
  simp only [lockoutEnd?, Option.map_eq_some_iff, Event.lockout?_eq_some_iff, Lockout.endOf_eq,
    @eq_comm Nat _ stop]

theorem mem_lockoutEnds_iff (gate : Gate) (history : History) (stop : Nat) :
    stop ∈ history.lockoutEnds gate.lockout.origin gate.fallback ↔
      ∃ entry ∈ history, gate.lockoutEnd? entry = some stop := by
  simp only [lockoutEnd?_eq_some_iff]
  rfl

/-- The lockout ends where it ended before, or at the latest of the ends that the history asks
for. -/
theorem isGreatest_untilMicros_replay (gate : Gate) (history : History) :
    IsGreatest
      (insert gate.lockout.untilMicros
        (history.lockoutEnds gate.lockout.origin gate.fallback))
      (gate.replay history).lockout.untilMicros := by
  have ends := fun micros => lt_untilMicros_replay_iff gate history micros
  have upper : ∀ stop ∈ insert gate.lockout.untilMicros
      (history.lockoutEnds gate.lockout.origin gate.fallback),
      stop ≤ (gate.replay history).lockout.untilMicros := by
    rintro stop (rfl | asked)
    · exact Nat.le_of_not_lt fun less => Nat.lt_irrefl _ ((ends _).2 (.inl less))
    · obtain ⟨entry, member, found⟩ := (mem_lockoutEnds_iff gate history stop).1 asked
      refine Nat.le_of_not_lt fun less => Nat.lt_irrefl _ ((ends _).2 (.inr ?_))
      exact ⟨entry, member, stop, found, less⟩
  refine ⟨?_, upper⟩
  cases reached : (gate.replay history).lockout.untilMicros with
  | zero =>
    have none := upper _ (.inl rfl)
    rw [reached] at none
    exact .inl (Nat.le_zero.1 none).symm
  | succ micros =>
    -- Somebody asked for an end past the last microsecond before this one.
    have before : micros < (gate.replay history).lockout.untilMicros :=
      reached ▸ Nat.lt_succ_self micros
    rcases (ends micros).1 before with earlier | ⟨entry, member, stop, found, later⟩
    · have most := upper _ (.inl rfl)
      exact .inl (by omega)
    · have asked := (mem_lockoutEnds_iff gate history stop).2 ⟨entry, member, found⟩
      have most := upper _ (.inr asked)
      have same : micros + 1 = stop := by omega
      exact .inr (same ▸ asked)

theorem lockoutEnds_of_perm {history other : History} (same : other.Perm history)
    (start : Instant) (fallback : Duration) :
    other.lockoutEnds start fallback = history.lockoutEnds start fallback := by
  simp only [History.lockoutEnds, same.mem_iff]

/-- In which order things happened does not matter to the lockout, as each knows its instant. -/
theorem lockout_replay_of_perm (gate : Gate) {history other : History}
    (same : other.Perm history) : (gate.replay other).lockout = (gate.replay history).lockout := by
  refine Lockout.eq_of_untilMicros_eq ?_ ?_
  · rw [replay_origin, replay_origin]
  · have reordered := isGreatest_untilMicros_replay gate other
    rw [lockoutEnds_of_perm same] at reordered
    exact reordered.unique (isGreatest_untilMicros_replay gate history)

theorem untilMicros_le_replay (gate : Gate) (history : History) :
    gate.lockout.untilMicros ≤ (gate.replay history).lockout.untilMicros :=
  (isGreatest_untilMicros_replay gate history).2 (.inl rfl)

/-- A history that asks for no lockout leaves the lockout alone. -/
theorem lockout_replay_of_not_locks (gate : Gate) {history : History}
    (quiet : ∀ entry ∈ history, ∀ length, ¬entry.2.Locks gate.fallback length) :
    (gate.replay history).lockout = gate.lockout := by
  refine Lockout.eq_of_untilMicros_eq (replay_origin gate history) ?_
  rcases (isGreatest_untilMicros_replay gate history).1 with
    same | ⟨entry, member, length, locks, -⟩
  · exact same
  · exact absurd locks (quiet entry member length)

end Gate

/-! ## Traffic -/

namespace Traffic

/-- At a gate that was new when the traffic began, the lockout ends at the latest of the ends that
were asked for, or never was on. It never moves back, only asking for a lockout moves it, and the
order of what happened does not matter. -/
theorem untilMicros_of_log {wire : Http.Wire} {start : Instant} {fallback : Duration}
    {traffic : Traffic} (reached : (opening ⟨.new start fallback, wire⟩ start).Reaches traffic) :
    IsGreatest (insert 0 (traffic.log.lockoutEnds start fallback))
      traffic.gate.lockout.untilMicros ∧
    (∀ later, traffic.Reaches later → ∃ entries, later.log = traffic.log ++ entries ∧
      traffic.gate.lockout.untilMicros ≤ later.gate.lockout.untilMicros ∧
      ((∀ entry ∈ entries, ∀ length, ¬entry.2.Locks fallback length) →
        later.gate.lockout = traffic.gate.lockout)) ∧
    ∀ other : Gate.History, other.Perm traffic.log →
      ((Gate.new start fallback).replay other).lockout = traffic.gate.lockout := by
  have current : traffic.gate = (Gate.new start fallback).replay traffic.log :=
    reached.sound.gate_eq
  refine ⟨?_, fun later goesOn => ?_, fun other same => ?_⟩
  · rw [current]
    exact Gate.isGreatest_untilMicros_replay (Gate.new start fallback) traffic.log
  · obtain ⟨entries, gained⟩ := goesOn.gains
    refine ⟨entries, gained.log_eq, ?_, fun quiet => ?_⟩
    · rw [gained.gate_eq]
      exact Gate.untilMicros_le_replay traffic.gate entries
    · rw [gained.gate_eq]
      refine Gate.lockout_replay_of_not_locks traffic.gate ?_
      rw [current, Gate.replay_fallback]
      exact quiet
  · rw [current]
    exact Gate.lockout_replay_of_perm (Gate.new start fallback) same

/-- A response locks the gate for five seconds. A lockout of one second that is asked for one
second later is over sooner and leaves no trace. -/
theorem untilMicros_after_shorter_lockout :
    ∃ traffic, (opening ⟨.new 0 Gate.defaultFallback, .ofReplies []⟩ 0).Reaches traffic ∧
      traffic.log = [(0, locking), (Duration.ofSeconds 1, .trigger (.ofSeconds 1))] ∧
      traffic.gate.lockout.untilMicros = 5000000 := by
  let first := opening ⟨.new 0 Gate.defaultFallback, .ofReplies []⟩ 0
  let second : Traffic := { first.happen locking with now := Duration.ofSeconds 1 }
  have locked : first.Reaches second :=
    (Relation.ReflTransGen.single (.happen locking)).tail (.pass _ (Nat.zero_le _))
  have reached : first.Reaches (second.happen (.trigger (.ofSeconds 1))) := locked.tail (.happen _)
  refine ⟨_, reached, rfl, (untilMicros_of_log reached).1.unique ⟨.inr ?_, ?_⟩⟩
  · exact ⟨_, List.mem_cons_self, _, .hinted rfl rfl, by decide⟩
  · rintro stop (rfl | ⟨entry, member, length, locks, rfl⟩)
    · exact Nat.zero_le _
    · rcases List.mem_cons.1 member with rfl | last
      · cases locks with
        | hinted global hint =>
          cases hint
          decide
        | unhinted global hint => cases hint
      · cases List.mem_singleton.1 last
        cases locks
        decide

end Traffic

end QuotaGate
