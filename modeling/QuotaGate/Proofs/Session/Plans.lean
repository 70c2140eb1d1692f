import Mathlib.Data.Finset.Card
import Mathlib.Data.List.Forall2
import QuotaGate.Proofs.Admission.Whole
import QuotaGate.Proofs.Gate.History
import QuotaGate.Proofs.Session.Instants

/-!
# Plans

A plan says what is to happen to a gate: it is a history of events that are still to come. In a
session there is a task for each event: it sleeps until the event's instant, whole millisecond or
not, makes the event happen and is done. So what such tasks have done by an instant is the part of
the plan that is due before it.

Results:
1. `drive_settles`: a clock that stops only at instants of a finite set comes to rest.
2. `MakesAll.poll`, `MakesAll.pass`: those who are polled make what is due, and nothing happens
   until one of them wakes.
-/

namespace QuotaGate

namespace Session

/-! ## The clock comes to rest -/

/-- A clock that stops only at instants of a finite set comes to rest: what holds of the tasks at
each of its stops holds of them at the last one. -/
theorem drive_settles (Sound : List Task → Session → Prop) (stops : Finset Instant)
    (goesOn : ∀ tasks session wake, Sound tasks session →
      nextWake? (pollAll tasks session.world session.now).1 = some wake →
      wake ∈ stops ∧ Sound (pollAll tasks session.world session.now).1
        ⟨wake, (pollAll tasks session.world session.now).2.runPruners (wake - 1)⟩)
    {fuel : Nat} {tasks : List Task} {session : Session} (sound : Sound tasks session)
    (enough : (stops.filter (session.now < ·)).card < fuel) :
    ∃ before last, Sound before last ∧
      (drive fuel tasks session).1 = (pollAll before last.world last.now).1 ∧
      nextWake? (drive fuel tasks session).1 = none := by
  induction fuel generalizing tasks session with
  | zero => exact absurd enough (Nat.not_lt_zero _)
  | succ fuel ih =>
    cases next : nextWake? (pollAll tasks session.world session.now).1 with
    | none =>
      simp only [drive, next]
      exact ⟨tasks, session, sound, rfl, trivial⟩
    | some wake =>
      obtain ⟨stop, still⟩ := goesOn tasks session wake sound next
      have later := lt_of_nextWake?_pollAll next
      -- The clock only moves on, so it has one stop less before it.
      have fewer : (stops.filter (wake < ·)).card < (stops.filter (session.now < ·)).card := by
        refine Finset.card_lt_card (Finset.ssubset_iff_of_subset ?_ |>.2 ⟨wake, ?_, ?_⟩)
        · exact Finset.monotone_filter_right _ fun instant _ past => Nat.lt_trans later past
        · exact Finset.mem_filter.2 ⟨stop, later⟩
        · exact fun again => Nat.lt_irrefl wake (Finset.mem_filter.1 again).2
      simp only [drive, next]
      exact ih still (Nat.lt_of_lt_of_le fewer (Nat.le_of_lt_succ enough))

/-- The clock may stop twice for each task, and once more. -/
theorem two_mul_lt_mostMoves (taskCount replyCount : Nat) :
    2 * taskCount + 1 < mostMoves taskCount replyCount := by
  have square := Nat.le_mul_self (taskCount + replyCount + 2)
  unfold mostMoves
  omega

theorem pollAll_append (first rest : List Task) (world : World) (now : Instant) :
    pollAll (first ++ rest) world now =
      ((pollAll first world now).1 ++ (pollAll rest (pollAll first world now).2 now).1,
        (pollAll rest (pollAll first world now).2 now).2) := by
  induction first generalizing world with
  | nil => rfl
  | cons task first ih => simp only [List.cons_append, pollAll, ih]

/-! ## Tasks that make things happen -/

/-- The action that makes an event happen. -/
def Action.ofEvent : Gate.Event → Action
  | .observe route report verdict => .observe route report verdict
  | .record route report => .record route report
  | .trigger length => .trigger length
  | .prune grace => .prune grace
  | .clear => .clear

/-- The task that is to make an event happen. -/
def Task.planned (entry : Instant × Gate.Event) : Task :=
  .delayed entry.1 (.ofEvent entry.2)

/-- How a task that makes an event happen stands when everything before an instant has happened. -/
inductive Makes (now : Instant) : Instant × Gate.Event → Task → Prop
  | yet {instant : Instant} {event : Gate.Event} : now ≤ instant →
      Makes now (instant, event) (.delayed instant (.ofEvent event))
  | made {instant finishedAt : Instant} {event : Gate.Event} {result : Result} : instant < now →
      Makes now (instant, event) (.done result finishedAt)

/-- How several tasks stand that make the events of a history. -/
abbrev MakesAll (now : Instant) : Gate.History → List Task → Prop := List.Forall₂ (Makes now)

section Makes

variable {now wake : Instant} {history : Gate.History} {tasks : List Task}

theorem begin_ofEvent (event : Gate.Event) (world : World) (now : Instant) :
    ∃ result,
      Task.begin (.ofEvent event) world now = (.done result now, world.apply event now) := by
  cases event <;> exact ⟨_, rfl⟩

/-- Those who are polled make what is due and nothing else. -/
theorem MakesAll.poll (makes : MakesAll now history tasks) (world : World) :
    MakesAll (now + 1) history (pollAll tasks world now).1 ∧
      (pollAll tasks world now).2.gate =
        world.gate.replay (history.filter (·.1 = now)) := by
  induction makes generalizing world with
  | nil => exact ⟨.nil, rfl⟩
  | @cons entry task history tasks first _ ih =>
    cases first with
    | @made instant finishedAt event result past =>
      obtain ⟨rest, gate⟩ := ih world
      rw [List.filter_cons_of_neg (by simpa using Nat.ne_of_lt past)]
      exact ⟨.cons (.made (Nat.lt_succ_of_lt past)) rest, gate⟩
    | @yet instant event early =>
      by_cases due : instant = now
      · subst due
        obtain ⟨result, begins⟩ := begin_ofEvent event world instant
        obtain ⟨rest, gate⟩ := ih (world.apply event instant)
        have polled : (Task.delayed instant (.ofEvent event)).poll world instant =
            (.done result instant, world.apply event instant) := by
          rw [Task.poll, if_pos (Nat.le_refl instant), begins]
          rfl
        rw [List.filter_cons_of_pos (by simp), Gate.replay_cons]
        simp only [pollAll, polled]
        exact ⟨.cons (.made (Nat.lt_succ_self instant)) rest, gate⟩
      · have later : now < instant := Nat.lt_of_le_of_ne early (Ne.symm due)
        obtain ⟨rest, gate⟩ := ih world
        have polled : (Task.delayed instant (.ofEvent event)).poll world now =
            (.delayed instant (.ofEvent event), world) := by
          rw [Task.poll, if_neg (Nat.not_le.2 later)]
        rw [List.filter_cons_of_neg (by simpa using due)]
        simp only [pollAll, polled]
        exact ⟨.cons (.yet later) rest, gate⟩

/-- Until one of them wakes nothing happens. -/
theorem MakesAll.pass (makes : MakesAll now history tasks) (later : now ≤ wake)
    (none : NoneBefore tasks wake) :
    MakesAll wake history tasks ∧
      history.filter (·.1 < now) = history.filter (·.1 < wake) := by
  induction makes with
  | nil => exact ⟨.nil, rfl⟩
  | @cons entry task history tasks first _ ih =>
    obtain ⟨rest, same⟩ := ih fun task member => none task (List.mem_cons_of_mem _ member)
    cases first with
    | made past =>
      have before := Nat.lt_of_lt_of_le past later
      rw [List.filter_cons_of_pos (by simpa using past),
        List.filter_cons_of_pos (by simpa using before), same]
      exact ⟨.cons (.made before) rest, rfl⟩
    | yet early =>
      have still := none _ List.mem_cons_self _ rfl
      rw [List.filter_cons_of_neg (by simpa using early),
        List.filter_cons_of_neg (by simpa using still), same]
      exact ⟨.cons (.yet still) rest, rfl⟩

theorem MakesAll.wakes (makes : MakesAll now history tasks) {task : Task} (member : task ∈ tasks)
    (waits : task.wake? = some wake) : ∃ entry ∈ history, wake = entry.1 := by
  induction makes with
  | nil => cases member
  | @cons entry other history tasks first _ ih =>
    rcases List.mem_cons.1 member with rfl | earlier
    · cases first with
      | yet =>
        cases waits
        exact ⟨_, List.mem_cons_self, rfl⟩
      | made => cases waits
    · obtain ⟨found, present, same⟩ := ih earlier
      exact ⟨found, List.mem_cons_of_mem _ present, same⟩

theorem makesAll_planned (ahead : ∀ entry ∈ history, now ≤ entry.1) :
    MakesAll now history (history.map Task.planned) := by
  rw [MakesAll, List.forall₂_map_right_iff, List.forall₂_same]
  exact fun entry member => .yet (ahead entry member)

theorem filter_eq_nil_of_ahead (ahead : ∀ entry ∈ history, now ≤ entry.1) :
    history.filter (·.1 < now) = [] :=
  List.filter_eq_nil_iff.2 fun entry member => by simpa using ahead entry member

end Makes

end Session

end QuotaGate
