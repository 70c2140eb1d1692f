import Mathlib
import QuotaGate.Proofs.Delivery.Renaming
import QuotaGate.Proofs.Session.LockStep

/-!
# A session by other names

Where every route goes by another name, each task of a session goes on as before, and so does the
clock. The results are the same but for the names that failures tell, and so are their instants and
the requests that are sent.

A client may make one request out of two paths, so its request need not be renamed path and all: it
is enough that the same request is made on the route's other name.

Results:
1. `Session.Task.mirrors_begin`, `Session.Task.mirrors_poll`: each task goes on alike.
2. `Session.mirrors_perform`: so does a step of a session.
-/

namespace QuotaGate

variable {names : RouteKey → RouteKey}

/-! ## Tasks -/

theorem Acquisition.result?_rename (route : RouteKey) (admission : Admission)
    (deadline : Option Instant) (now : Instant) :
    (⟨names route, admission, deadline⟩ : Acquisition).result? now =
      ((⟨route, admission, deadline⟩ : Acquisition).result? now).map
        (Except.mapError (Failure.rename names)) := by
  unfold result?
  split
  · rfl
  · split <;> rfl

namespace Session

/-- The result with the other name in its failure. -/
def Result.rename (names : RouteKey → RouteKey) : Result → Result
  | acquired result length => acquired (result.mapError (Failure.rename names)) length
  | delivered result changes length =>
    delivered (result.mapError (Failure.rename names)) changes length
  | answered result changes length =>
    answered (result.mapError (Failure.rename names)) changes length
  | other => other

/-- One action does to a route what the other does to the route by its other name. A client may make
the same request out of two paths. -/
inductive Action.Mirrors (names : RouteKey → RouteKey) : Action → Action → Prop
  | sleep (length : Duration) : Mirrors names (.sleep length) (.sleep length)
  | observe (route : RouteKey) (report : Report) (verdict : Verdict) :
      Mirrors names (.observe route report verdict) (.observe (names route) report verdict)
  | record (route : RouteKey) (report : Report) :
      Mirrors names (.record route report) (.record (names route) report)
  | acquire (route : RouteKey) (longest : Option Duration) :
      Mirrors names (.acquire route longest) (.acquire (names route) longest)
  | tryAcquire (route : RouteKey) : Mirrors names (.tryAcquire route) (.tryAcquire (names route))
  | awaitLockout : Mirrors names .awaitLockout .awaitLockout
  | awaitBucket (route : RouteKey) :
      Mirrors names (.awaitBucket route) (.awaitBucket (names route))
  | trigger (length : Duration) : Mirrors names (.trigger length) (.trigger length)
  | prune (grace : Duration) : Mirrors names (.prune grace) (.prune grace)
  | clear : Mirrors names .clear .clear
  | spawnPruner (every grace : Duration) :
      Mirrors names (.spawnPruner every grace) (.spawnPruner every grace)
  | send (route : RouteKey) (request : Http.Request) (budget : Nat) (timeout : Option Duration) :
      Mirrors names (.send route request budget timeout)
        (.send (names route) request budget timeout)
  | call {client : Client} {route other : Route} {body : Option Json.Value} :
      other.key = names route.key → client.requestOf other body = client.requestOf route body →
      Mirrors names (.call client route body) (.call client other body)
  | shutdown : Mirrors names .shutdown .shutdown

/-- A task goes on with the other name where the other task goes on with the name. -/
inductive Task.Mirrors (names : RouteKey → RouteKey) : Task → Task → Prop
  | delayed {action other : Action} (wake : Instant) : action.Mirrors names other →
      Mirrors names (.delayed wake action) (.delayed wake other)
  | asleep (wake : Instant) : Mirrors names (.asleep wake) (.asleep wake)
  | acquiring (route : RouteKey) (admission : Admission) (deadline : Option Instant)
      (since : Instant) : Mirrors names (.acquiring ⟨route, admission, deadline⟩ since)
        (.acquiring ⟨names route, admission, deadline⟩ since)
  | lockedOut (wake since : Instant) : Mirrors names (.lockedOut wake since) (.lockedOut wake since)
  | awaitingReset (wake : Instant) (announced : Duration) (since : Instant) :
      Mirrors names (.awaitingReset wake announced since) (.awaitingReset wake announced since)
  | delivering (delivery : Delivery) (since : Instant) :
      Mirrors names (.delivering delivery since) (.delivering (delivery.rename names) since)
  | answering (delivery : Delivery) (since : Instant) :
      Mirrors names (.answering delivery since) (.answering (delivery.rename names) since)
  | done {result other : Result} (finishedAt : Instant) : other = result.rename names →
      Mirrors names (.done result finishedAt) (.done other finishedAt)

/-- What the tasks share, with other names for the routes. -/
structure World.Mirrors (names : RouteKey → RouteKey) (world other : World) : Prop where
  exchange : world.exchange.Mirrors names other.exchange
  pruners : other.pruners = world.pruners

theorem World.Mirrors.runPruners {world other : World} (mirrors : world.Mirrors names other)
    (now : Instant) : (world.runPruners now).Mirrors names (other.runPruners now) := by
  have due : other.prunings now = world.prunings now := by
    rw [World.prunings, mirrors.pruners, World.prunings]
  rw [World.runPruners_eq, World.runPruners_eq]
  have advanced := congrArg (List.map (Pruner.advance · now)) mirrors.pruners
  refine ⟨⟨?_, mirrors.exchange.wire⟩, advanced⟩
  rw [due]
  exact mirrors.exchange.gate.pruned _

theorem World.Mirrors.apply {world other : World} (injective : Function.Injective names)
    (mirrors : world.Mirrors names other) (event : Gate.Event) (now : Instant) :
    (world.apply event now).Mirrors names (other.apply (event.rename names) now) :=
  ⟨⟨mirrors.exchange.gate.apply injective event now, mirrors.exchange.wire⟩, mirrors.pruners⟩

namespace Task

variable {world other : World} {task mirrored : Task} {now : Instant}

theorem Mirrors.wake?_eq (mirrors : task.Mirrors names mirrored) : mirrored.wake? = task.wake? := by
  cases mirrors with
  | delivering delivery since | answering delivery since => exact delivery.wake?_rename
  | _ => rfl

theorem Mirrors.result?_eq (mirrors : task.Mirrors names mirrored) :
    mirrored.result? = task.result?.map (Prod.map (Result.rename names) id) := by
  cases mirrors with
  | done finishedAt renamed => exact congrArg (fun result => some (result, finishedAt)) renamed
  | _ => rfl

/-- The two tasks and what they share. -/
structure StateMirrors (names : RouteKey → RouteKey) (state other : Task × World) : Prop where
  task : state.1.Mirrors names other.1
  world : state.2.Mirrors names other.2

theorem mirrors_begin (injective : Function.Injective names) (mirrors : world.Mirrors names other)
    {action mirroredAction : Action} (actions : action.Mirrors names mirroredAction)
    (now : Instant) :
    StateMirrors names (begin action world now) (begin mirroredAction other now) := by
  have gate : world.gate.Mirrors names other.gate := mirrors.exchange.gate
  cases actions with
  | sleep length => exact ⟨.asleep _, mirrors⟩
  | observe route report verdict =>
    have named := (gate.observe injective route report verdict now).1
    exact ⟨.done now (congrArg Result.bucket named),
      mirrors.apply injective (.observe route report verdict) now⟩
  | record route report =>
    have named := (gate.registry.record injective route report now).1
    exact ⟨.done now (congrArg Result.bucket named),
      mirrors.apply injective (.record route report) now⟩
  | acquire route longest => exact ⟨.acquiring _ _ _ _, mirrors⟩
  | tryAcquire route =>
    have same := Admission.poll_mirrors gate route now .checkingLockout
    refine ⟨.done now ?_, mirrors⟩
    rw [same]
    rfl
  | awaitLockout => exact ⟨.lockedOut _ _, mirrors⟩
  | awaitBucket route =>
    obtain ⟨waits, wakes⟩ := gate.registry.wakeAt?_eq route now
    refine ⟨?_, mirrors⟩
    simp only [begin, waits, wakes]
    exact .awaitingReset _ _ _
  | trigger length => exact ⟨.done now rfl, mirrors.apply injective (.trigger length) now⟩
  | prune grace =>
    have counted := gate.registry.staleCount_eq grace now
    exact ⟨.done now (congrArg Result.removed counted),
      mirrors.apply injective (.prune grace) now⟩
  | clear => exact ⟨.done now rfl, mirrors.apply injective .clear now⟩
  | spawnPruner every grace =>
    have spawned := congrArg (· ++ [Pruner.spawn every grace now]) mirrors.pruners
    exact ⟨.done now rfl, mirrors.exchange, spawned⟩
  | send route request budget timeout => exact ⟨.delivering _ _, mirrors⟩
  | @call client route otherRoute body named made =>
    have begun : client.begin otherRoute body now = (client.begin route body now).rename names := by
      rw [Client.begin, named, made]
      rfl
    refine ⟨?_, mirrors⟩
    simp only [begin, begun]
    exact .answering _ _
  | shutdown =>
    have stopped := congrArg (List.modifyHead Pruner.stop) mirrors.pruners
    exact ⟨.done now rfl, mirrors.exchange, stopped⟩

theorem answer_mapError (result : Except Failure Http.Response) :
    Client.answer (result.mapError (Failure.rename names)) =
      (Client.answer result).mapError (Failure.rename names) := by
  cases result with
  | error failure => rfl
  | ok response =>
    show Client.decode response = (Client.decode response).mapError _
    unfold Client.decode
    split
    · rfl
    · split <;> rfl

theorem mirrors_advance (injective : Function.Injective names)
    (mirrors : world.Mirrors names other) (tasks : task.Mirrors names mirrored) (now : Instant) :
    StateMirrors names (task.advance world now) (mirrored.advance other now) := by
  cases tasks with
  | delayed wake actions => exact ⟨.delayed wake actions, mirrors⟩
  | done finishedAt renamed => exact ⟨.done finishedAt renamed, mirrors⟩
  | asleep wake =>
    refine ⟨?_, mirrors⟩
    simp only [advance]
    split
    · exact .done now rfl
    · exact .asleep wake
  | awaitingReset wake announced since =>
    refine ⟨?_, mirrors⟩
    simp only [advance]
    split
    · exact .done now rfl
    · exact .awaitingReset wake announced since
  | lockedOut wake since =>
    have lockout : other.gate.lockout = world.gate.lockout := mirrors.exchange.gate.lockout
    simp only [advance, lockout]
    split
    · split
      · exact ⟨.lockedOut _ since, mirrors⟩
      · exact ⟨.done now rfl, mirrors⟩
    · exact ⟨.lockedOut wake since, mirrors⟩
  | acquiring route admission deadline since =>
    have gate : world.gate.Mirrors names other.gate := mirrors.exchange.gate
    have same := Admission.poll_mirrors gate route now admission
    simp only [advance, Acquisition.poll, same, Acquisition.result?_rename]
    cases (⟨route, admission.poll world.gate route now, deadline⟩ : Acquisition).result? now with
    | none => exact ⟨.acquiring _ _ _ since, mirrors⟩
    | some result => exact ⟨.done now rfl, mirrors⟩
  | delivering delivery since =>
    obtain ⟨same, exchange⟩ := Delivery.mirrors_poll injective mirrors.exchange delivery now
    simp only [advance, same, Delivery.result?_rename]
    cases (delivery.poll world.exchange now).1.result? with
    | none => exact ⟨.delivering _ since, exchange, mirrors.pruners⟩
    | some result => exact ⟨.done now rfl, exchange, mirrors.pruners⟩
  | answering delivery since =>
    obtain ⟨same, exchange⟩ := Delivery.mirrors_poll injective mirrors.exchange delivery now
    simp only [advance, same, Delivery.result?_rename]
    cases (delivery.poll world.exchange now).1.result? with
    | none => exact ⟨.answering _ since, exchange, mirrors.pruners⟩
    | some result =>
      -- The response is decoded on the way, which can fail but names no route.
      refine ⟨.done now ?_, exchange, mirrors.pruners⟩
      exact congrArg (Result.answered · _ _) (answer_mapError result)

theorem mirrors_poll (injective : Function.Injective names) (mirrors : world.Mirrors names other)
    (tasks : task.Mirrors names mirrored) (now : Instant) :
    StateMirrors names (task.poll world now) (mirrored.poll other now) := by
  cases tasks with
  | delayed wake actions =>
    simp only [poll]
    split
    · obtain ⟨begun, shared⟩ := mirrors_begin injective mirrors actions now
      exact mirrors_advance injective shared begun now
    · exact ⟨.delayed wake actions, mirrors⟩
  | asleep wake => exact mirrors_advance injective mirrors (.asleep wake) now
  | acquiring route admission deadline since =>
    exact mirrors_advance injective mirrors (.acquiring route admission deadline since) now
  | lockedOut wake since => exact mirrors_advance injective mirrors (.lockedOut wake since) now
  | awaitingReset wake announced since =>
    exact mirrors_advance injective mirrors (.awaitingReset wake announced since) now
  | delivering delivery since =>
    exact mirrors_advance injective mirrors (.delivering delivery since) now
  | answering delivery since =>
    exact mirrors_advance injective mirrors (.answering delivery since) now
  | done finishedAt renamed =>
    exact mirrors_advance injective mirrors (.done finishedAt renamed) now

end Task

/-! ## Steps of a session -/

/-- Under other names the tasks of a session go on in lock step. -/
theorem lockStep_mirrors (injective : Function.Injective names) :
    LockStep (Action.Mirrors names) (Task.Mirrors names) (World.Mirrors names)
      (Result.rename names) where
  begins wake actions := .delayed wake actions
  polls now worlds tasks := by
    obtain ⟨task, world⟩ := Task.mirrors_poll injective worlds tasks now
    exact ⟨task, world⟩
  prunes now worlds := worlds.runPruners now
  wakes tasks := tasks.wake?_eq
  results tasks := tasks.result?_eq
  replies worlds := by rw [worlds.exchange.wire]

/-- The other session is at the same instant, with other names for the routes. -/
structure Mirrors (names : RouteKey → RouteKey) (session other : Session) : Prop where
  now : other.now = session.now
  world : session.world.Mirrors names other.world

/-- Actions that do the same under other names have the same results, but for the names in
failures, at the same instants, and leave a session that differs in the names only. -/
theorem mirrors_perform (injective : Function.Injective names) {session other : Session}
    (mirrors : session.Mirrors names other) {actions mirrored : List (Duration × Action)}
    (alike : List.Forall₂ (fun delayed other => other.1 = delayed.1 ∧
      delayed.2.Mirrors names other.2) actions mirrored) :
    (other.perform mirrored).1 =
        (session.perform actions).1.map (Prod.map (Result.rename names) id) ∧
      (session.perform actions).2.Mirrors names (other.perform mirrored).2 := by
  obtain ⟨results, now, world⟩ :=
    (lockStep_mirrors injective).alike_perform mirrors.now mirrors.world alike
  exact ⟨results, now, world⟩

end Session

end QuotaGate
