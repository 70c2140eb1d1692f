import Mathlib.Data.List.Induction
import QuotaGate.Quota.Gate

/-!
# Histories of a gate

A history lists what happened to a gate, each event with its instant. The registry and the lockout
go through a history side by side: no event of the one depends on the other. The lockout ends
where it ended before the history, or where the latest of the lockouts ends that the history asks
for, whichever is later (`lt_untilMicros_replay_iff`).
-/

namespace QuotaGate.Gate

/-- What happened to a gate, in order, each event with its instant. -/
abbrev History := List (Instant × Event)

theorem replay_nil (gate : Gate) : gate.replay [] = gate := rfl

theorem replay_cons (gate : Gate) (entry : Instant × Event) (history : History) :
    gate.replay (entry :: history) = (gate.apply entry.2 entry.1).replay history := rfl

theorem replay_append (gate : Gate) (earlier later : History) :
    gate.replay (earlier ++ later) = (gate.replay earlier).replay later :=
  List.foldl_append

theorem replay_concat (gate : Gate) (history : History) (now : Instant) (event : Event) :
    gate.replay (history ++ [(now, event)]) = (gate.replay history).apply event now :=
  replay_append gate history [(now, event)]

/-! ## The registry -/

namespace Event

def onRegistry (event : Event) (registry : Registry) (now : Instant) : Registry :=
  match event with
  | observe route report _ | record route report => (registry.record route report now).1
  | trigger _ => registry
  | prune grace => registry.prune grace now
  | clear => .empty

end Event

theorem apply_registry (gate : Gate) (event : Event) (now : Instant) :
    (gate.apply event now).registry = event.onRegistry gate.registry now := by
  cases event <;> rfl

/-! ## The lockout -/

namespace Event

/-- The length of the lockout that an event asks for. A response asks for one when it rejects the
whole application, as long as its hint says or else as long as `fallback`. -/
def lockout? (fallback : Duration) : Event → Option Duration
  | observe _ report verdict =>
    if verdict = .limited ∧ report.isGlobal then some (report.retryAfter.getD fallback) else none
  | trigger length => some length
  | _ => none

end Event

/-- The end of the lockout that an entry of a history asks for, in stored microseconds. -/
def lockoutEnd? (gate : Gate) (entry : Instant × Event) : Option Nat :=
  (entry.2.lockout? gate.fallback).map (gate.lockout.endOf · entry.1)

theorem apply_lockout (gate : Gate) (event : Event) (now : Instant) :
    (gate.apply event now).lockout =
      (event.lockout? gate.fallback).elim gate.lockout (gate.lockout.trigger · now) := by
  cases event with
  | observe route report verdict =>
    by_cases rejected : verdict = .limited ∧ report.isGlobal <;>
      simp [apply, observe, lockoutOf?, Event.lockout?, rejected]
  | record route report => rfl
  | trigger length => rfl
  | prune grace => rfl
  | clear => rfl

theorem apply_fallback (gate : Gate) (event : Event) (now : Instant) :
    (gate.apply event now).fallback = gate.fallback := by
  cases event <;> rfl

theorem apply_origin (gate : Gate) (event : Event) (now : Instant) :
    (gate.apply event now).lockout.origin = gate.lockout.origin := by
  rw [apply_lockout]
  cases event.lockout? gate.fallback <;> rfl

theorem lockoutEnd?_apply (gate : Gate) (event : Event) (now : Instant)
    (entry : Instant × Event) :
    (gate.apply event now).lockoutEnd? entry = gate.lockoutEnd? entry := by
  have sameEnd : (gate.apply event now).lockout.endOf = gate.lockout.endOf := by
    funext length instant
    simp only [Lockout.endOf, Lockout.offset, apply_origin]
  rw [lockoutEnd?, lockoutEnd?, apply_fallback, sameEnd]

theorem replay_origin (gate : Gate) (history : History) :
    (gate.replay history).lockout.origin = gate.lockout.origin := by
  induction history generalizing gate with
  | nil => rfl
  | cons entry history ih => rw [replay_cons, ih, apply_origin]

theorem replay_fallback (gate : Gate) (history : History) :
    (gate.replay history).fallback = gate.fallback := by
  induction history generalizing gate with
  | nil => rfl
  | cons entry history ih => rw [replay_cons, ih, apply_fallback]

theorem offset_replay (gate : Gate) (history : History) (now : Instant) :
    (gate.replay history).lockout.offset now = gate.lockout.offset now := by
  rw [Lockout.offset, Lockout.offset, replay_origin]

theorem lockoutEnd?_replay (gate : Gate) (history : History) (entry : Instant × Event) :
    (gate.replay history).lockoutEnd? entry = gate.lockoutEnd? entry := by
  induction history generalizing gate with
  | nil => rfl
  | cons first history ih => rw [replay_cons, ih, lockoutEnd?_apply]

/-- One event moves the end of the lockout exactly to where it asks for, if that is later. -/
theorem lt_untilMicros_apply_iff (gate : Gate) (event : Event) (now : Instant) (micros : Nat) :
    micros < (gate.apply event now).lockout.untilMicros ↔
      micros < gate.lockout.untilMicros ∨
        ∃ stop, gate.lockoutEnd? (now, event) = some stop ∧ micros < stop := by
  rw [apply_lockout, lockoutEnd?]
  cases event.lockout? gate.fallback with
  | none => simp
  | some length =>
    simp only [Option.elim_some, Option.map_some, Option.some.injEq, exists_eq_left',
      Lockout.trigger]
    omega

/-- The lockout ends after a point of time exactly when it did so before the history, or when the
history asks for a lockout that does. -/
theorem lt_untilMicros_replay_iff (gate : Gate) (history : History) (micros : Nat) :
    micros < (gate.replay history).lockout.untilMicros ↔
      micros < gate.lockout.untilMicros ∨
        ∃ entry ∈ history, ∃ stop, gate.lockoutEnd? entry = some stop ∧ micros < stop := by
  induction history generalizing gate with
  | nil => simp [replay_nil]
  | cons entry history ih =>
    simp only [replay_cons, ih, lt_untilMicros_apply_iff, lockoutEnd?_apply, List.mem_cons]
    grind

/-- Events that ask for no lockout may be left out of a history. -/
theorem lockout_replay_filter (gate : Gate) {keep : Event → Bool}
    (quiet : ∀ event, keep event = false → event.lockout? gate.fallback = none)
    (history : History) :
    (gate.replay (history.filter fun entry => keep entry.2)).lockout =
      (gate.replay history).lockout := by
  induction history using List.reverseRecOn with
  | nil => rfl
  | append_singleton history entry ih =>
    obtain ⟨now, event⟩ := entry
    rw [List.filter_append, replay_concat, apply_lockout, replay_fallback, ← ih]
    cases kept : keep event with
    | true =>
      rw [List.filter_cons_of_pos (by exact kept), List.filter_nil, replay_concat, apply_lockout,
        replay_fallback]
    | false =>
      rw [List.filter_cons_of_neg (by simp [kept]), List.filter_nil, List.append_nil,
        quiet event kept, Option.elim_none]

/-! ## Gates that lock alike -/

/-- Two gates differ at most in what they know about buckets. -/
structure LocksLike (gate other : Gate) : Prop where
  lockout_eq : gate.lockout = other.lockout
  fallback_eq : gate.fallback = other.fallback

theorem LocksLike.trans {gate other third : Gate} (first : gate.LocksLike other)
    (second : other.LocksLike third) : gate.LocksLike third where
  lockout_eq := first.lockout_eq.trans second.lockout_eq
  fallback_eq := first.fallback_eq.trans second.fallback_eq

theorem LocksLike.apply {gate other : Gate} (alike : gate.LocksLike other) (event : Event)
    (now : Instant) : (gate.apply event now).LocksLike (other.apply event now) where
  lockout_eq := by rw [apply_lockout, apply_lockout, alike.lockout_eq, alike.fallback_eq]
  fallback_eq := by rw [apply_fallback, apply_fallback, alike.fallback_eq]

theorem LocksLike.replay {gate other : Gate} (alike : gate.LocksLike other) (history : History) :
    (gate.replay history).LocksLike (other.replay history) := by
  induction history generalizing gate other with
  | nil => exact alike
  | cons entry history ih => exact ih (alike.apply entry.2 entry.1)

end QuotaGate.Gate
