import QuotaGate.Session.Action

/-!
# Tasks

A task begins its action after a delay and goes on by itself until it has to wait. It waits for
instants only, so at any other instant polling it changes nothing.
-/

namespace QuotaGate.Session

/-- How far a task has come. Where it waits, it knows since when. -/
inductive Task where
  | delayed (wake : Instant) (action : Action)
  | asleep (wake : Instant)
  | acquiring (acquisition : Acquisition) (since : Instant)
  | lockedOut (wake : Instant) (since : Instant)
  | awaitingReset (wake : Instant) (announced : Duration) (since : Instant)
  | delivering (delivery : Delivery) (since : Instant)
  | answering (delivery : Delivery) (since : Instant)
  | done (result : Result) (finishedAt : Instant)

namespace Task

/-- The result, if the task is done, and the instant at which it was. -/
def result? : Task → Option (Result × Instant)
  | done result finishedAt => some (result, finishedAt)
  | _ => none

/-- The next instant at which something can happen. -/
def wake? : Task → Option Instant
  | delayed wake _ | asleep wake | lockedOut wake _ | awaitingReset wake _ _ => some wake
  | acquiring acquisition _ => acquisition.wake?
  | delivering delivery _ | answering delivery _ => delivery.wake?
  | done .. => none

def advance (task : Task) (world : World) (now : Instant) : Task × World :=
  match task with
  | asleep wake => (if wake ≤ now then done .nothing now else task, world)
  | acquiring acquisition since =>
    let acquisition := acquisition.poll world.gate now
    match acquisition.result? now with
    | some result => (done (.acquired result (now.since since)) now, world)
    | none => (acquiring acquisition since, world)
  | lockedOut wake since =>
    if wake ≤ now then
      match world.gate.lockout.wakeAt? now with
      | some wake => (lockedOut wake since, world)
      | none => (done (.waited (now.since since) (now.since since)) now, world)
    else (task, world)
  | awaitingReset wake announced since =>
    (if wake ≤ now then done (.waited announced (now.since since)) now else task, world)
  | delivering delivery since =>
    let (delivery, exchange) := delivery.poll world.exchange now
    let world := { world with exchange }
    match delivery.result? with
    | some result => (done (.delivered result delivery.changes (now.since since)) now, world)
    | none => (delivering delivery since, world)
  | answering delivery since =>
    let (delivery, exchange) := delivery.poll world.exchange now
    let world := { world with exchange }
    match delivery.result? with
    | some result =>
      (done (.answered (Client.answer result) delivery.changes (now.since since)) now, world)
    | none => (answering delivery since, world)
  | _ => (task, world)

def begin (action : Action) (world : World) (now : Instant) : Task × World :=
  match action with
  | .sleep length => (asleep (now.wakeAfter (min length Duration.thirtyYears)), world)
  | .observe route report verdict =>
    let (gate, id) := world.gate.observe route report verdict now
    (done (.bucket id) now, { world with exchange := { world.exchange with gate } })
  | .record route report =>
    (done (.bucket (world.gate.registry.record route report now).2) now,
      world.apply (.record route report) now)
  | .acquire route longest => (acquiring (.begin route longest now) now, world)
  | .tryAcquire route =>
    let admission := Admission.checkingLockout.poll world.gate route now
    (done (.ready (admission = .admitted)) now, world)
  | .awaitLockout => (lockedOut now now, world)
  | .awaitBucket route =>
    let announced := world.gate.registry.waitAt route now
    (awaitingReset ((world.gate.registry.wakeAt? route now).getD now) announced now, world)
  | .trigger length => (done .nothing now, world.apply (.trigger length) now)
  | .prune grace =>
    (done (.removed (world.gate.registry.staleCount grace now)) now,
      world.apply (.prune grace) now)
  | .clear => (done .nothing now, world.apply .clear now)
  | .spawnPruner every grace =>
    (done .nothing now, { world with pruners := world.pruners ++ [.spawn every grace now] })
  | .send route request budget timeout =>
    (delivering (.begin route request budget timeout now) now, world)
  | .call client route body => (answering (client.begin route body now) now, world)
  | .shutdown => (done .nothing now, { world with pruners := world.pruners.modifyHead Pruner.stop })

/-- Goes on as far as the instant allows. -/
def poll (task : Task) (world : World) (now : Instant) : Task × World :=
  match task with
  | delayed wake action =>
    if wake ≤ now then
      let (task, world) := begin action world now
      task.advance world now
    else (task, world)
  | _ => task.advance world now

end Task

end QuotaGate.Session
