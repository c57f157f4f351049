import CommandLog.World

/-!
One order in which to run the tasks of a world: those that can run take turns in the order in which
they became able to, and each goes on until it has to wait. Time goes on when all of them wait, and
stops at every moment at which something is due. Every change is a step of the world.
-/

namespace CommandLog

structure Schedule where
  world : World
  ready : List Key := []
  nextKey : Key := 0

namespace Schedule

def order (world : World) : List Key :=
  let waiting := world.lock.queue.map Waiter.key
  waiting ++ (Table.keys world.tasks).filter fun key => !waiting.contains key

/-- Goes on with `world`, and lets those queue up for a turn that can run now and have no turn yet. The
task whose turn it is needs none. -/
def goOn (schedule : Schedule) (world : World) (running : Option Key) : Schedule :=
  let woken := (order world).filter fun key =>
    some key != running && !schedule.ready.contains key && world.canRun key
  { schedule with world, ready := schedule.ready ++ woken }

def act (schedule : Schedule) (action : Action) (running : Option Key) : Schedule :=
  match schedule.world.step action with
  | none => schedule
  | some world => schedule.goOn world running

/-- More steps than the tasks can take before all of them wait. Every byte that has arrived is read
once, and no reply is longer than the log would be with all that is on its way to it. -/
def budget (world : World) : Nat :=
  let queued := fun (worker : Worker) =>
    (worker.stream.incoming.map fun item => match item with
      | .bytes data => data.length + 1
      | _ => 1).foldl (· + ·) 0
  let held := fun (worker : Worker) =>
    worker.line.pending.length + match worker.point with
      | .requesting (.write bytes) | .waiting (.write bytes) | .holding (.write bytes) => bytes.length
      | .sending rest => rest.length
      | _ => 0
  let arrived := (world.tasks.map fun (_, task) => match task with
    | .session worker => queued worker
    | .call _ => 0).foldl (· + ·) 0
  let underWay := (world.tasks.map fun (_, task) => match task with
    | .session worker => queued worker + held worker
    | .call { request := .write bytes, .. } => bytes.length
    | .call _ => 0).foldl (· + ·) 0
  (8 + arrived + world.tasks.length) * (16 + Log.totalBytes world.log + underWay)

def runTask : (fuel : Nat) → Key → Schedule → Schedule
  | 0, _, schedule => schedule
  | fuel + 1, key, schedule =>
      match schedule.world.step (.run key) with
      | none => schedule
      | some world => runTask fuel key (schedule.goOn world (some key))

def runTurn (schedule : Schedule) (key : Key) : Schedule :=
  runTask (budget schedule.world) key
    { schedule with ready := schedule.ready.filter (· != key) }

def settleFor : (fuel : Nat) → Schedule → Schedule
  | 0, schedule => schedule
  | fuel + 1, schedule =>
      match schedule.ready with
      | [] => schedule
      | key :: _ => settleFor fuel (schedule.runTurn key)

def settle (schedule : Schedule) : Schedule := settleFor (budget schedule.world) schedule

def elapse (schedule : Schedule) (limit : Nat) : Schedule :=
  let moment := match schedule.world.nextDue? with
    | none => limit
    | some due => min due limit
  schedule.act (.elapse (moment - schedule.world.clock)) none

def advanceFor : (fuel : Nat) → (limit : Nat) → Schedule → Schedule
  | 0, _, schedule => schedule
  | fuel + 1, limit, schedule =>
      let schedule := schedule.settle
      if limit ≤ schedule.world.clock then schedule
      else advanceFor fuel limit (schedule.elapse limit)

def advanceTo (schedule : Schedule) (limit : Nat) : Schedule :=
  advanceFor (budget schedule.world) limit schedule

def advance (schedule : Schedule) (span : Duration) : Schedule :=
  schedule.advanceTo (schedule.world.clock + span.nanoseconds)

def launch (schedule : Schedule) (worker : Worker) : Schedule × Key :=
  let key := schedule.nextKey
  ({ schedule with nextKey := key + 1 }.act (.launch key worker) none, key)

def spawn (schedule : Schedule) (peer : Option Net.SocketAddress) : Schedule × Key :=
  let key := schedule.nextKey
  ({ schedule with nextKey := key + 1 }.act (.spawn key peer) none, key)

def answerOf? (world : World) (key : Key) : Option (Except LogError Answer) :=
  match (world.call? key).map Call.point with
  | some (.finished answer) => some answer
  | _ => none

/-- Runs a call until it is answered: it has the first turn, and when it has to wait the others run
and time goes on. -/
def callFor : (fuel : Nat) → Key → Schedule → Schedule × Option (Except LogError Answer)
  | 0, _, schedule => (schedule, none)
  | fuel + 1, key, schedule =>
      let schedule := schedule.runTurn key
      match answerOf? schedule.world key with
      | some answer => (schedule.act (.collect key) none, some answer)
      | none =>
          let schedule := schedule.settle
          match schedule.world.nextDue? with
          | some due => callFor fuel key (schedule.elapse due)
          | none => callFor fuel key schedule

def call (schedule : Schedule) (request : Request) : Schedule × Option (Except LogError Answer) :=
  let key := schedule.nextKey
  let schedule := { schedule with nextKey := key + 1 }.act (.call key request) none
  callFor (budget schedule.world) key schedule

/-- Somebody else takes the log, to copy all of it, unless there is nothing to copy; returns whether
the log is held so. -/
def hold (schedule : Schedule) : Schedule × Bool :=
  let schedule :=
    if Log.totalBytes schedule.world.log = 0 then schedule else schedule.act .hold none
  (schedule, schedule.world.lock.holder == some .outsider)

def reap (schedule : Schedule) : Schedule × Nat :=
  (schedule.act .reap none, schedule.world.reap.2)

def drainFor : (fuel : Nat) → Schedule → Schedule × DrainReport
  | 0, schedule => (schedule, ⟨0, 0⟩)
  | fuel + 1, schedule =>
      match schedule.world.look with
      | none => (schedule, ⟨0, 0⟩)
      | some (_, some report) => ((schedule.act .look none).settle, report)
      | some (world, none) =>
          let nextLook := (world.drain.map Drain.nextLook).getD world.clock
          drainFor fuel ((schedule.act .look none).advanceTo nextLook)

def finishDrain (schedule : Schedule) : Schedule × DrainReport :=
  match schedule.world.drain with
  | none => (schedule, ⟨0, 0⟩)
  | some drain =>
      let left := drain.deadline - schedule.world.clock
      drainFor (left / Drain.interval.nanoseconds + 2) schedule

/-- Drains the registry; a drain that fails has no report. -/
def drain (schedule : Schedule) (grace : Duration) : Schedule × Option DrainReport :=
  let begun := schedule.act (.drain grace) none
  if schedule.world.failsToDrain grace then (begun, none)
  else
    let (schedule, report) := begun.finishDrain
    (schedule, some report)

end Schedule

end CommandLog
