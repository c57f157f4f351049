import CommandLog.Lock
import CommandLog.Registry

/-!
Everything that serves clients together: the log and its lock, the workers, the calls made to the log
directly, the registry, the time, and what has been reported. `step` is the only way in which this
world changes. Whatever order the tasks run in is a list of actions, so what holds after every list of
actions holds however they are interleaved.
-/

namespace CommandLog

inductive CallPoint where
  | fresh
  | requesting
  | waiting
  | holding
  | finished (answer : Except LogError Answer)

structure Call where
  request : Request
  point : CallPoint := .fresh

inductive Task where
  | session (worker : Worker)
  | call (call : Call)

structure World where
  log : Log
  lockTimeout : Duration
  memory : Memory := .unlimited
  lock : Lock := {}
  /-- What the clock shows, in nanoseconds. -/
  clock : Nat := 0
  tasks : Table Key Task := []
  registry : Registry := {}
  drain : Option Drain := none
  journal : List Event := []

inductive Action where
  | launch (key : Key) (worker : Worker)
  | spawn (key : Key) (peer : Option Net.SocketAddress)
  | arrive (key : Key) (item : Incoming)
  | setWrite (key : Key) (mode : WriteMode)
  | setFlush (key : Key) (readiness : Readiness)
  | setShutdown (key : Key) (readiness : Readiness)
  | discard (key : Key)
  | call (key : Key) (request : Request)
  | collect (key : Key)
  | run (key : Key)
  | remember (memory : Memory)
  | hold
  | release
  | elapse (nanoseconds : Nat)
  | reap
  | drain (grace : Duration)
  | look

namespace World

def worker? (world : World) (key : Key) : Option Worker :=
  match Table.find? key world.tasks with
  | some (.session worker) => some worker
  | _ => none

def call? (world : World) (key : Key) : Option Call :=
  match Table.find? key world.tasks with
  | some (.call call) => some call
  | _ => none

def putTask (world : World) (key : Key) (task : Task) : World :=
  { world with tasks := Table.put key task world.tasks }

def putWorker (world : World) (key : Key) (worker : Worker) : World :=
  world.putTask key (.session worker)

def putCall (world : World) (key : Key) (call : Call) : World := world.putTask key (.call call)

def report (world : World) (events : List Event) : World :=
  { world with journal := world.journal ++ events }

def askLog (world : World) (key : Key) : World :=
  { world with lock := world.lock.request key (world.clock + world.lockTimeout.nanoseconds) }

def holdsLog (world : World) (key : Key) : Bool := world.lock.isHeldBy key

def hasExpired (world : World) (key : Key) : Bool :=
  match world.lock.deadline? key with
  | some deadline => deadline ≤ world.clock
  | none => false

def giveUpLog (world : World) (key : Key) : World :=
  { world with lock := world.lock.withdraw key }

def returnLog {α : Type} (world : World) (served : Served α) : World :=
  { world with log := served.log, lock := world.lock.release }.report
    (Event.ofDisplaced served.displaced)

/-- One step of a worker; nothing when it has to wait, or has ended. -/
def runWorker (world : World) (key : Key) (worker : Worker) : Option World :=
  match worker.point with
  | .fresh =>
      if worker.origin = .nobody then none else some (world.putWorker key worker.start)
  | .receiving =>
      (worker.receive? world.memory).map fun (worker, events) =>
        (world.putWorker key worker).report events
  | .requesting command =>
      let asked := world.askLog key
      some (asked.putWorker key { worker with
        point := if asked.holdsLog key then .holding command else .waiting command })
  | .waiting command =>
      if world.holdsLog key then some (world.putWorker key { worker with point := .holding command })
      else if world.hasExpired key then
        let (worker, events) := worker.refuse (.log (.lockTimeout world.lockTimeout))
        some (((world.giveUpLog key).putWorker key worker).report events)
      else none
  | .holding command =>
      let served := Log.exchange world.memory world.log worker.cursor command
      let (worker, events) := worker.conclude command served.answer
      some (((world.returnLog served).putWorker key worker).report events)
  | .sending rest => (worker.send? rest).map (world.putWorker key)
  | .flushing => worker.flush?.map (world.putWorker key)
  | .closing result =>
      (worker.shutDown? result).map fun (worker, events) =>
        (world.putWorker key worker).report events
  | .ended _ => none

def runCall (world : World) (key : Key) (call : Call) : Option World :=
  let goTo := fun (world : World) point => some (world.putCall key { call with point })
  match call.point with
  | .fresh =>
      match call.request.prepare world.memory with
      | .error error => goTo world (.finished (.error error))
      | .ok () => goTo world .requesting
  | .requesting =>
      let asked := world.askLog key
      goTo asked (if asked.holdsLog key then .holding else .waiting)
  | .waiting =>
      if world.holdsLog key then goTo world .holding
      else if world.hasExpired key then
        goTo (world.giveUpLog key) (.finished (.error (.lockTimeout world.lockTimeout)))
      else none
  | .holding =>
      let served := Log.serve world.memory world.log call.request
      goTo (world.returnLog served) (.finished served.answer)
  | .finished _ => none

def run (world : World) (key : Key) : Option World :=
  match Table.find? key world.tasks with
  | some (.session worker) => world.runWorker key worker
  | some (.call call) => world.runCall key call
  | none => none

def canRun (world : World) (key : Key) : Bool := (world.run key).isSome

def isQuiet (world : World) : Bool := (Table.keys world.tasks).all fun key => !world.canRun key

def addTask (world : World) (key : Key) (task : Task) : Option World :=
  match Table.find? key world.tasks with
  | none => some (world.putTask key task)
  | some _ => none

def changeStream (world : World) (key : Key) (change : Stream → Stream) : Option World :=
  (world.worker? key).map fun worker =>
    world.putWorker key { worker with stream := change worker.stream }

def discardWorker (world : World) (key : Key) : Option World :=
  (world.worker? key).bind fun worker =>
    match worker.origin, worker.point with
    | .nobody, .fresh => some (world.putWorker key (worker.finish .discarded))
    | _, _ => none

def sessionOf? (world : World) (id : Nat) : Option Session :=
  (world.registry.find? id).bind fun record => (world.worker? record.key).map Worker.session

def hasDone (world : World) (record : Record) : Bool :=
  match world.worker? record.key with
  | some worker => worker.session.isComplete
  | none => false

def hasEnded (world : World) (record : Record) : Bool :=
  match world.worker? record.key with
  | some worker => worker.isEnded
  | none => true

def spawn (world : World) (key : Key) (peer : Option Net.SocketAddress) : Option World :=
  let registry := world.registry
  let worker := Worker.create ⟨registry.nextId, peer⟩ .registry registry.readBuffer
  { world with registry := registry.add key }.addTask key (.session worker)

def joinEvents (world : World) (records : List Record) : List Event :=
  records.flatMap fun record =>
    match world.worker? record.key with
    | some worker => worker.joinEvents
    | none => []

def reap (world : World) : World × Nat :=
  let finished := world.registry.records.filter world.hasDone
  let kept := world.registry.records.filter fun record => !world.hasDone record
  let summary := if finished.isEmpty then [] else [Event.reaped finished.length kept.length]
  ({ world with registry := { world.registry with records := kept } }.report
      (world.joinEvents finished ++ summary),
    finished.length)

/-- Stops a worker where it stands. It loses its connection and its part in the lock. -/
def abort (world : World) (key : Key) : World :=
  match world.worker? key with
  | some worker =>
      if worker.isEnded then world
      else (world.giveUpLog key).putWorker key (worker.finish .aborted)
  | none => world

/-- Takes all records out of the registry, to give their workers `grace` to end. A drain that cannot
tell when that is fails, and its records are gone. -/
def beginDrain (world : World) (grace : Duration) : World :=
  let records := world.registry.records
  if world.registry.isEmpty then world
  else
    { world with
      registry := { world.registry with records := [] }
      drain := (Clock.later? world.clock grace).map fun deadline =>
        ⟨records, deadline, world.clock⟩ }.report
      [.draining records.length]

def failsToDrain (world : World) (grace : Duration) : Bool :=
  !world.registry.isEmpty && (Clock.later? world.clock grace).isNone

def endDrain (world : World) (records : List Record) : World × DrainReport :=
  let unfinished := records.filter fun record => !world.hasEnded record
  let world := unfinished.foldl (fun world record => world.abort record.key) world
  ({ world with drain := none }.report (world.joinEvents records),
    ⟨records.length, unfinished.length⟩)

/-- A look at the workers of a drain, when it is time: the drain is over when all have ended or the
grace is over, and else there is another look. -/
def look (world : World) : Option (World × Option DrainReport) :=
  match world.drain with
  | none => none
  | some drain =>
      if world.clock ≠ drain.nextLook then none
      else if drain.records.all world.hasEnded || drain.deadline ≤ world.clock then
        let (world, report) := world.endDrain drain.records
        some (world, some report)
      else
        let nextLook := world.clock + Drain.interval.nanoseconds
        some ({ world with drain := some { drain with nextLook } }, none)

def nextDue? (world : World) : Option Nat :=
  (world.lock.nextDeadline?.toList ++ (world.drain.map Drain.nextLook).toList).min?

/-- Time passes only while every task waits, and never past a moment at which something is due. -/
def elapse (world : World) (nanoseconds : Nat) : Option World :=
  let clock := world.clock + nanoseconds
  let inTime := match world.nextDue? with
    | none => true
    | some due => clock ≤ due
  if world.isQuiet && inTime then some { world with clock } else none

def step (world : World) : Action → Option World
  | .launch key worker =>
      match worker.origin, worker.point with
      | .registry, _ => none
      | _, .fresh => world.addTask key (.session worker)
      | _, _ => none
  | .spawn key peer => if world.drain.isSome then none else world.spawn key peer
  | .arrive key item => world.changeStream key (·.arrive item)
  | .setWrite key mode => world.changeStream key fun stream => { stream with onWrite := mode }
  | .setFlush key readiness =>
      world.changeStream key fun stream => { stream with onFlush := readiness }
  | .setShutdown key readiness =>
      world.changeStream key fun stream => { stream with onShutdown := readiness }
  | .discard key => world.discardWorker key
  | .call key request => world.addTask key (.call { request })
  | .collect key =>
      match world.call? key with
      | some { point := .finished _, .. } =>
          some { world with tasks := Table.erase key world.tasks }
      | _ => none
  | .run key => world.run key
  | .remember memory => some { world with memory }
  | .hold =>
      match world.lock.holder with
      | none => some { world with lock := { world.lock with holder := some .outsider } }
      | some _ => none
  | .release =>
      match world.lock.holder with
      | some .outsider => some { world with lock := world.lock.release }
      | _ => none
  | .elapse nanoseconds => world.elapse nanoseconds
  | .reap => if world.drain.isSome then none else some world.reap.1
  | .drain grace => if world.drain.isSome then none else some (world.beginDrain grace)
  | .look => world.look.map Prod.fst

def steps (world : World) : List Action → Option World
  | [] => some world
  | action :: actions => (world.step action).bind fun next => next.steps actions

end World

def World.initial (log : Log) (lockTimeout : Duration) (readBuffer : Nat) : World :=
  { log, lockTimeout, registry := { readBuffer } }

end CommandLog
