import QuotaGate.Proofs.Registry.History

/-!
# What pruning takes from a registry

A history is compared with the same history without its prunings. Pruning takes a bucket away only
after its window, when nobody waits for it any more. But it takes the routes of the bucket away as
well, and a route comes back only with a report of its own. Where the bucket is reported again on
another route meanwhile, the route is stranded: without the pruning it would share the bucket's new
window, and after the pruning it waits for nothing.

Results:
1. `Gate.History.Remembers.unpruned`, `Gate.History.Assigns.unpruned`: what is known after a pruned
   history is known without the prunings as well.
2. `Gate.History.remembers_or_ended`, `Gate.History.assigns_or_drops`: what is not known any more is
   a bucket whose window has ended, or a route that was dropped together with its bucket.
3. `Gate.waitAt_replay_of_not_strands`, `Gate.waitAt_replay_of_strands`: pruning changes no wait but
   that of a stranded route, and takes that one away.
-/

namespace QuotaGate.Gate

/-! ## Histories without prunings -/

namespace Event

def isPrune : Event → Bool
  | prune _ => true
  | _ => false

theorem eq_prune_of_isPrune {event : Event} (prunes : event.isPrune = true) :
    ∃ grace, event = prune grace := by
  cases event with
  | prune grace => exact ⟨grace, rfl⟩
  | observe route report verdict | record route report | trigger length | clear => cases prunes

/-- Only pruning looks at what it makes the registry forget. -/
theorem Forgets.of_not_isPrune {event : Event} (other : event.isPrune = false) {now : Instant}
    {bucket : Bucket} (forgets : event.Forgets now bucket) (instead : Bucket) :
    event.Forgets now instead := by
  cases event with
  | prune grace => cases other
  | clear => trivial
  | observe route report verdict | record route report | trigger length => exact forgets

end Event

namespace History

/-- The history without its prunings. -/
def unpruned (history : History) : History := history.filter fun entry => !entry.2.isPrune

theorem unpruned_concat_of_isPrune (history : History) {now : Instant} {event : Event}
    (prunes : event.isPrune = true) : unpruned (history ++ [(now, event)]) = history.unpruned := by
  simp [unpruned, List.filter_append, prunes]

theorem unpruned_concat_of_not_isPrune (history : History) {now : Instant} {event : Event}
    (other : event.isPrune = false) :
    unpruned (history ++ [(now, event)]) = history.unpruned ++ [(now, event)] := by
  simp [unpruned, List.filter_append, other]

/-! ## What a history says is one thing at most -/

theorem Remembers.unique {history : History} {id : String} {bucket other : Bucket}
    (first : history.Remembers id bucket) (second : history.Remembers id other) :
    bucket = other := by
  rw [← bucket?_eq_some_iff_remembers 0 0] at first second
  exact Option.some.inj (first.symm.trans second)

theorem Assigns.unique {history : History} {route : RouteKey} {id other : String}
    (first : history.Assigns route id) (second : history.Assigns route other) : id = other := by
  rw [← bucketId?_eq_some_iff_assigns 0 0] at first second
  exact Option.some.inj (first.symm.trans second)

/-- A route is assigned to a bucket that is remembered. -/
theorem Assigns.exists_remembers {history : History} {route : RouteKey} {id : String}
    (assigned : history.Assigns route id) : ∃ bucket, history.Remembers id bucket := by
  simp only [← bucket?_eq_some_iff_remembers 0 0]
  exact isLinked_replay 0 0 history route id ((bucketId?_eq_some_iff_assigns 0 0 ..).2 assigned)

/-! ## What is known after pruning is known without -/

theorem Remembers.unpruned {history : History} {id : String} {bucket : Bucket}
    (remembered : history.Remembers id bucket) : history.unpruned.Remembers id bucket := by
  induction history using List.reverseRecOn with
  | nil => exact remembered
  | append_singleton history entry ih =>
    obtain ⟨now, event⟩ := entry
    rw [remembers_concat_iff] at remembered
    cases prunes : event.isPrune with
    | true =>
      obtain ⟨grace, rfl⟩ := Event.eq_prune_of_isPrune prunes
      rw [unpruned_concat_of_isPrune history prunes]
      rcases remembered with ⟨⟨route, described⟩, -⟩ | ⟨before, -⟩
      · exact (Event.not_prune_describes _ _ _ _ described).elim
      · exact ih before
    | false =>
      rw [unpruned_concat_of_not_isPrune history prunes, remembers_concat_iff]
      exact remembered.imp (fun new => new) fun ⟨before, kept⟩ => ⟨ih before, kept⟩

theorem Assigns.unpruned {history : History} {route : RouteKey} {id : String}
    (assigned : history.Assigns route id) : history.unpruned.Assigns route id := by
  induction history using List.reverseRecOn with
  | nil => exact assigned
  | append_singleton history entry ih =>
    obtain ⟨now, event⟩ := entry
    rw [assigns_concat_iff] at assigned
    cases prunes : event.isPrune with
    | true =>
      obtain ⟨grace, rfl⟩ := Event.eq_prune_of_isPrune prunes
      rw [unpruned_concat_of_isPrune history prunes]
      rcases assigned with ⟨bucket, described, -⟩ | ⟨before, -⟩
      · exact (Event.not_prune_describes _ _ _ _ described).elim
      · exact ih before
    | false =>
      rw [unpruned_concat_of_not_isPrune history prunes, assigns_concat_iff]
      refine assigned.imp (fun new => new) fun ⟨before, other, kept⟩ => ⟨ih before, other, ?_⟩
      -- The bucket may be known in two states, but only a pruning would make a difference.
      obtain ⟨held, remembered⟩ := before.exists_remembers
      exact fun bucket _ forgets => kept held remembered (forgets.of_not_isPrune prunes held)

/-! ## What is known without pruning only -/

/-- A bucket that only the history without prunings remembers has seen the end of its window. -/
theorem remembers_or_ended {history : History} {id : String} {bucket : Bucket}
    (remembered : history.unpruned.Remembers id bucket) :
    history.Remembers id bucket ∨ ∃ entry ∈ history, bucket.resetsAt ≤ entry.1 := by
  induction history using List.reverseRecOn with
  | nil => exact .inl remembered
  | append_singleton history entry ih =>
    obtain ⟨now, event⟩ := entry
    have earlier : (∃ entry ∈ history, bucket.resetsAt ≤ entry.1) →
        ∃ entry ∈ history ++ [(now, event)], bucket.resetsAt ≤ entry.1 :=
      fun ⟨entry, member, ended⟩ => ⟨entry, List.mem_append_left _ member, ended⟩
    rw [remembers_concat_iff]
    cases prunes : event.isPrune with
    | true =>
      obtain ⟨grace, rfl⟩ := Event.eq_prune_of_isPrune prunes
      rw [unpruned_concat_of_isPrune history prunes] at remembered
      rcases ih remembered with kept | ended
      · by_cases forgets : (Event.prune grace).Forgets now bucket
        · refine .inr ⟨(now, .prune grace), by simp, ?_⟩
          exact Nat.le_trans (Nat.le_add_right _ grace) forgets.2
        · refine .inl (.inr ⟨kept, fun other route described => ?_, forgets⟩)
          exact (Event.not_prune_describes _ _ _ _ described).elim
      · exact .inr (earlier ended)
    | false =>
      rw [unpruned_concat_of_not_isPrune history prunes, remembers_concat_iff] at remembered
      rcases remembered with described | ⟨before, kept⟩
      · exact .inl (.inl described)
      · rcases ih before with held | ended
        · exact .inl (.inr ⟨held, kept⟩)
        · exact .inr (earlier ended)

/-- A pruning forgot the bucket that a route was assigned to, and so the route. No complete report
on the route is among what happened after that. -/
def Drops (history : History) (route : RouteKey) (id : String) (after : History) : Prop :=
  ∃ before now grace, history = before ++ (now, .prune grace) :: after ∧
    before.Assigns route id ∧
    (∃ bucket, before.Remembers id bucket ∧ (Event.prune grace).Forgets now bucket) ∧
    ∀ later ∈ after, ∀ other, ¬later.2.Describes later.1 route other

/-- A route was dropped together with its bucket, and the bucket was reported again after that.
Reports on the route itself do not count, so it was another route. -/
def Strands (history : History) (route : RouteKey) : Prop :=
  ∃ id after, history.Drops route id after ∧
    ∃ later ∈ after, ∃ source bucket, later.2.Describes later.1 source bucket ∧ bucket.id = id

/-- The same, said of one pruning: the one right before `since`. -/
def StrandsSince (history since : History) (route : RouteKey) : Prop :=
  ∃ id, history.Drops route id since ∧
    ∃ later ∈ since, ∃ source bucket, later.2.Describes later.1 source bucket ∧ bucket.id = id

theorem StrandsSince.strands {history since : History} {route : RouteKey}
    (strands : history.StrandsSince since route) : history.Strands route := by
  obtain ⟨id, drops, reported⟩ := strands
  exact ⟨id, since, drops, reported⟩

/-- A report that comes right after the pruning strands the route if it names the bucket that was
forgotten and says nothing of the route itself. -/
theorem strandsSince_of_describes {before : History} {route source : RouteKey} {lost found : Bucket}
    {tick now : Instant} {grace : Duration} {event : Event}
    (assigned : before.Assigns route lost.id) (remembered : before.Remembers lost.id lost)
    (forgets : (Event.prune grace).Forgets tick lost)
    (described : event.Describes now source found) (again : found.id = lost.id)
    (silent : ∀ bucket, ¬event.Describes now route bucket) :
    StrandsSince (before ++ (tick, .prune grace) :: [(now, event)]) [(now, event)] route := by
  refine ⟨lost.id, ⟨before, tick, grace, rfl, assigned, ⟨lost, remembered, forgets⟩, ?_⟩, _,
    List.mem_singleton_self _, source, found, described, again⟩
  intro later member bucket onRoute
  rw [List.mem_singleton.1 member] at onRoute
  exact silent bucket onRoute

theorem Drops.concat {history after : History} {route : RouteKey} {id : String}
    (drops : history.Drops route id after) {entry : Instant × Event}
    (other : ∀ bucket, ¬entry.2.Describes entry.1 route bucket) :
    Drops (history ++ [entry]) route id (after ++ [entry]) := by
  obtain ⟨before, now, grace, rfl, assigned, forgotten, since⟩ := drops
  refine ⟨before, now, grace, by simp, assigned, forgotten, fun later member => ?_⟩
  rcases List.mem_append.1 member with old | new
  · exact since later old
  · rw [List.mem_singleton.1 new]
    exact other

/-- A route that only the history without prunings assigns to a bucket was dropped. -/
theorem assigns_or_drops {history : History} {route : RouteKey} {id : String}
    (assigned : history.unpruned.Assigns route id) :
    history.Assigns route id ∨ ∃ after, history.Drops route id after := by
  induction history using List.reverseRecOn with
  | nil => exact .inl assigned
  | append_singleton history entry ih =>
    obtain ⟨now, event⟩ := entry
    rw [assigns_concat_iff]
    cases prunes : event.isPrune with
    | true =>
      obtain ⟨grace, rfl⟩ := Event.eq_prune_of_isPrune prunes
      have silent : ∀ other, ¬(Event.prune grace).Describes now route other :=
        fun other => Event.not_prune_describes route now other grace
      rw [unpruned_concat_of_isPrune history prunes] at assigned
      rcases ih assigned with kept | ⟨after, drops⟩
      · -- The pruning drops the route now, or the route stays.
        by_cases forgotten :
          ∃ bucket, Remembers history id bucket ∧ (Event.prune grace).Forgets now bucket
        · exact .inr ⟨[], history, now, grace, rfl, kept, forgotten, by simp⟩
        · exact .inl (.inr ⟨kept, silent, fun bucket held forgets =>
            forgotten ⟨bucket, held, forgets⟩⟩)
      · exact .inr ⟨_, drops.concat silent⟩
    | false =>
      rw [unpruned_concat_of_not_isPrune history prunes, assigns_concat_iff] at assigned
      rcases assigned with described | ⟨before, other, kept⟩
      · exact .inl (.inl described)
      · rcases ih before with held | ⟨after, drops⟩
        · refine .inl (.inr ⟨held, other, fun bucket _ forgets => ?_⟩)
          obtain ⟨known, remembered⟩ := before.exists_remembers
          exact kept known remembered (forgets.of_not_isPrune prunes known)
        · exact .inr ⟨_, drops.concat other⟩

/-! ## Dropped routes -/

/-- What holds of a history, and is kept by each of the entries that follow, holds with all of
them. -/
theorem append_induction {motive : History → Prop} {history after : History}
    (now : motive history)
    (kept : ∀ entry ∈ after, ∀ earlier, motive earlier → motive (earlier ++ [entry])) :
    motive (history ++ after) := by
  induction after generalizing history with
  | nil => rwa [List.append_nil]
  | cons entry after ih =>
    rw [List.append_cons]
    exact ih (kept entry List.mem_cons_self history now) fun later member =>
      kept later (List.mem_cons_of_mem entry member)

/-- Without a report on it, a route that is assigned to nothing stays so. -/
theorem not_assigns_append {history : History} {route : RouteKey}
    (free : ∀ id, ¬history.Assigns route id) {after : History}
    (silent : ∀ later ∈ after, ∀ other, ¬later.2.Describes later.1 route other) (id : String) :
    ¬Assigns (history ++ after) route id := by
  refine append_induction (motive := fun history => ¬history.Assigns route id) (free id) ?_
  rintro ⟨now, event⟩ member earlier free
  rw [assigns_concat_iff]
  rintro (⟨bucket, described, -⟩ | ⟨before, -⟩)
  · exact silent (now, event) member bucket described
  · exact free before

/-- Without a report of it, a bucket that is not remembered stays so. -/
theorem not_remembers_append {history : History} {id : String}
    (free : ∀ bucket, ¬history.Remembers id bucket) {after : History}
    (silent : ∀ later ∈ after, ∀ source bucket, later.2.Describes later.1 source bucket →
      bucket.id ≠ id) (bucket : Bucket) :
    ¬Remembers (history ++ after) id bucket := by
  refine append_induction (motive := fun history => ¬history.Remembers id bucket) (free bucket) ?_
  rintro ⟨now, event⟩ member earlier free
  rw [remembers_concat_iff]
  rintro (⟨⟨source, described⟩, named⟩ | ⟨before, -⟩)
  · exact silent (now, event) member source bucket described named
  · exact free before

theorem Drops.not_assigns {history after : History} {route : RouteKey} {id : String}
    (drops : history.Drops route id after) (other : String) : ¬history.Assigns route other := by
  obtain ⟨before, now, grace, rfl, assigned, ⟨bucket, remembered, forgets⟩, silent⟩ := drops
  rw [List.append_cons]
  refine not_assigns_append (fun name => ?_) silent other
  rw [assigns_concat_iff]
  rintro (⟨found, described, -⟩ | ⟨counted, -, kept⟩)
  · exact Event.not_prune_describes _ _ _ _ described
  · obtain rfl := counted.unique assigned
    exact kept bucket remembered forgets

/-- The bucket of a dropped route is not remembered unless it was reported again. -/
theorem Drops.not_remembers {history after : History} {route : RouteKey} {id : String}
    (drops : history.Drops route id after)
    (silent : ∀ later ∈ after, ∀ source other, later.2.Describes later.1 source other →
      other.id ≠ id) (bucket : Bucket) :
    ¬history.Remembers id bucket := by
  obtain ⟨before, now, grace, rfl, assigned, ⟨lost, remembered, forgets⟩, -⟩ := drops
  rw [List.append_cons]
  refine not_remembers_append (fun found => ?_) silent bucket
  rw [remembers_concat_iff]
  rintro (⟨⟨source, described⟩, -⟩ | ⟨held, -, kept⟩)
  · exact Event.not_prune_describes _ _ _ _ described
  · obtain rfl := held.unique remembered
    exact kept forgets

end History

/-! ## What a route waits for -/

section Wait

variable {origin : Instant} {fallback : Duration} {history : History} {route : RouteKey}
  {now : Instant}

theorem bucketOf?_replay_eq_some_iff {bucket : Bucket} :
    ((Gate.new origin fallback).replay history).registry.bucketOf? route = some bucket ↔
      ∃ id, history.Assigns route id ∧ history.Remembers id bucket := by
  simp only [Registry.bucketOf?, Option.bind_eq_some_iff, bucketId?_eq_some_iff_assigns,
    bucket?_eq_some_iff_remembers]

theorem waitAt_replay_eq_zero_of_free (free : ∀ id, ¬history.Assigns route id) :
    ((Gate.new origin fallback).replay history).registry.waitAt route now = 0 := by
  unfold Registry.waitAt
  split
  · next bucket found =>
    obtain ⟨id, assigned, -⟩ := bucketOf?_replay_eq_some_iff.1 found
    exact absurd assigned (free id)
  · rfl

/-- A stranded route waits for nothing. -/
theorem waitAt_replay_of_strands (stranded : history.Strands route) :
    ((Gate.new origin fallback).replay history).registry.waitAt route now = 0 := by
  obtain ⟨id, after, drops, -⟩ := stranded
  exact waitAt_replay_eq_zero_of_free drops.not_assigns

/-- A route that is not stranded waits as long as it would without the prunings. -/
theorem waitAt_replay_of_not_strands (past : ∀ entry ∈ history, entry.1 ≤ now)
    (reached : ¬history.Strands route) :
    ((Gate.new origin fallback).replay history).registry.waitAt route now =
      ((Gate.new origin fallback).replay history.unpruned).registry.waitAt route now := by
  by_cases known : ∃ id, history.unpruned.Assigns route id
  · obtain ⟨id, assigned⟩ := known
    obtain ⟨bucket, remembered⟩ := assigned.exists_remembers
    have found : ((Gate.new origin fallback).replay history.unpruned).registry.bucketOf? route =
        some bucket := bucketOf?_replay_eq_some_iff.2 ⟨id, assigned, remembered⟩
    rcases History.assigns_or_drops assigned with kept | ⟨after, drops⟩
    · obtain ⟨held, holds⟩ := kept.exists_remembers
      obtain rfl := holds.unpruned.unique remembered
      have same : ((Gate.new origin fallback).replay history).registry.bucketOf? route =
          some held := bucketOf?_replay_eq_some_iff.2 ⟨id, kept, holds⟩
      rw [Registry.waitAt, Registry.waitAt, found, same]
    · -- The bucket was forgotten for good, and so its window is over.
      rcases History.remembers_or_ended remembered with kept | ⟨entry, member, ended⟩
      · have silent : ∀ later ∈ after, ∀ source other, later.2.Describes later.1 source other →
            other.id ≠ id := fun later member source other described named =>
          reached ⟨id, after, drops, later, member, source, other, described, named⟩
        exact absurd kept (drops.not_remembers silent bucket)
      · have nothing : bucket.waitAt now = 0 :=
          Nat.sub_eq_zero_of_le (Nat.le_trans ended (past entry member))
        rw [waitAt_replay_eq_zero_of_free drops.not_assigns, Registry.waitAt, found]
        simp only [nothing, ite_self]
  · rw [waitAt_replay_eq_zero_of_free fun id assigned => known ⟨id, assigned.unpruned⟩,
      waitAt_replay_eq_zero_of_free fun id assigned => known ⟨id, assigned⟩]

end Wait

end QuotaGate.Gate
