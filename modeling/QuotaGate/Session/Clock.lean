import QuotaGate.Session.Task

/-!
# The clock of a session

The clock stands still while any task can go on, and then moves straight to the next instant that
a task waits for. At one instant the tasks are polled in their order, and after them the pruners
make the ticks that are due.
-/

namespace QuotaGate

/-- The present instant and what the tasks share. -/
structure Session where
  now : Instant
  world : Session.World

namespace Session

def pollAll (tasks : List Task) (world : World) (now : Instant) : List Task × World :=
  match tasks with
  | [] => ([], world)
  | task :: rest =>
    let (task, world) := task.poll world now
    let (rest, world) := pollAll rest world now
    (task :: rest, world)

/-- The first instant that a task waits for. -/
def nextWake? (tasks : List Task) : Option Instant := (tasks.filterMap Task.wake?).min?

/-- Runs tasks until all are done, in at most so many moves of the clock. -/
def drive : Nat → List Task → Session → List Task × Session
  | 0, tasks, session => (tasks, session)
  | fuel + 1, tasks, ⟨now, world⟩ =>
    let (tasks, world) := pollAll tasks world now
    match nextWake? tasks with
    | none => (tasks, ⟨now, world⟩)
    | some wake => drive fuel tasks ⟨wake, world.runPruners (wake - 1)⟩

/-- How often the clock moves at most. A task wakes for its delay, its sleep, its deadline, for
each of its attempts, and for each time that a lockout it sleeps through is extended; attempts
and extensions take a reply or a task each. -/
def mostMoves (taskCount replyCount : Nat) : Nat :=
  8 * ((taskCount + replyCount + 2) * (taskCount + replyCount + 2))

/-- Runs actions side by side, each after its delay, and gives their results with the instants at
which they came. -/
def perform (session : Session) (actions : List (Duration × Action)) :
    List (Result × Instant) × Session :=
  let tasks := actions.map fun (delay, action) =>
    Task.delayed (session.now.wakeAfter delay) action
  let fuel := mostMoves tasks.length session.world.exchange.wire.replies.length
  let (tasks, session) := drive fuel tasks session
  (tasks.filterMap Task.result?,
    { session with world := session.world.runPruners session.now })

/-- A session on a gate, with no replies. -/
def ofGate (fallback : Duration) (replies : List Http.Prepared) : Session :=
  ⟨0, ⟨.new 0 fallback, .ofReplies replies⟩, []⟩

/-- A session of a client, whose pruner starts at once. -/
def ofSettings (settings : Settings) (replies : List Http.Prepared) : Session :=
  let session := ofGate settings.fallback replies
  { session with
    world.pruners := [.spawn settings.pruneEvery settings.pruneGrace session.now] }

end Session

end QuotaGate
