import CommandLog.Event
import CommandLog.LineBuffer
import CommandLog.Log.Request

/-!
The worker that serves one connection: it reads until a command is complete, has the command served
by the log, sends the reply, flushes it, and reads on. It waits in four places only: for bytes, for
the log, for its connection to take bytes, and for the connection to shut down. A command that fails
is answered with nothing; only the connection itself can end the session.
-/

namespace CommandLog

inductive Point where
  | fresh
  | receiving
  | requesting (command : Command)
  | waiting (command : Command)
  | holding (command : Command)
  | sending (rest : Bytes)
  | flushing
  | closing (result : Except SessionFailure Unit)
  | ended (ending : Ending)

/-- Who has started the worker, and so who learns how it ends. -/
inductive Origin where
  | registry
  | caller
  | nobody
deriving DecidableEq, Repr

structure Worker where
  session : Session
  origin : Origin
  readBuffer : Nat
  stream : Stream := {}
  line : LineBuffer := {}
  cursor : Nat := 0
  exchanges : Nat := 0
  point : Point := .fresh

namespace Worker

def defaultReadBuffer : Nat := 1024

def create (identity : Identity) (origin : Origin) (readBuffer : Nat) : Worker :=
  { session := { identity with }, origin, readBuffer := max readBuffer 1 }

def identity (worker : Worker) : Identity := worker.session.toIdentity

def enter (worker : Worker) (phase : Phase) (point : Point) : Worker :=
  { worker with session := { worker.session with phase }, point }

def start (worker : Worker) : Worker := worker.enter .processing .receiving

/-- The exchanges are over; what is left is to shut the connection down. -/
def close (worker : Worker) (result : Except SessionFailure Unit) : Worker :=
  worker.enter .closing (.closing result)

def finish (worker : Worker) (ending : Ending) : Worker :=
  { worker.enter .done (.ended ending) with stream := worker.stream.drop }

def isEnded (worker : Worker) : Bool :=
  match worker.point with
  | .ended _ => true
  | _ => false

def refuse (worker : Worker) (error : CommandError) : Worker × List Event :=
  ({ worker with point := .sending [] }, [.commandFailed worker.identity error])

def dispatch (memory : Memory) (worker : Worker) (line : Bytes) : Worker × List Event :=
  match Command.parse line with
  | .error error => worker.refuse (.seek error)
  | .ok command =>
      match (Request.exchange command worker.cursor).prepare memory with
      | .error error => worker.refuse (.log error)
      | .ok () => ({ worker with point := .requesting command }, [])

/-- Takes one raw read. Bytes behind the line feed are reported before the command is looked at. -/
def take (memory : Memory) (worker : Worker) (chunk : Bytes) : Worker × List Event :=
  let (outcome, line) := worker.line.feed memory chunk
  let worker := { worker with line }
  match outcome with
  | .error error => (worker, [.commandFailed worker.identity (.log error)])
  | .ok .incomplete => (worker, [])
  | .ok (.complete line discarded) =>
      let dropped := if discarded = 0 then [] else [Event.droppedBytes worker.identity discarded]
      let (worker, events) := worker.dispatch memory line
      (worker, dropped ++ events)

def leave (worker : Worker) : Worker × List Event :=
  let pending := worker.line.pending.length
  (worker.close (.ok ()),
    if pending = 0 then [] else [.partialCommand worker.identity pending])

def receive? (memory : Memory) (worker : Worker) : Option (Worker × List Event) :=
  (worker.stream.receive? worker.readBuffer).map fun (item, stream) =>
    let worker := { worker with stream }
    match item with
    | .endOfStream | .bytes [] => worker.leave
    | .bytes chunk => worker.take memory chunk
    | .failure cause => (worker.close (.error ⟨.receive, cause⟩), [])
    | .crash => (worker.finish .panicked, [])

def conclude (worker : Worker) (command : Command) (answer : Except LogError Reply) :
    Worker × List Event :=
  match answer with
  | .error error => worker.refuse (.log error)
  | .ok reply =>
      ({ worker with cursor := reply.cursor, point := .sending reply.bytes },
        [match command with
          | .write bytes => .appended worker.identity bytes.length
          | .seek index offset => .movedCursor worker.identity index offset reply.cursor])

/-- One write of the reply; when nothing is left the reply is flushed, also when it was empty. -/
def send? (worker : Worker) (rest : Bytes) : Option Worker :=
  if rest.isEmpty then some { worker with point := .flushing }
  else (worker.stream.write? rest).map fun (taken, stream) =>
    let worker := { worker with stream }
    match taken with
    | .ok count => { worker with point := .sending (rest.drop count) }
    | .error cause => worker.close (.error ⟨.send, cause⟩)

def flush? (worker : Worker) : Option Worker :=
  worker.stream.flush?.map fun (flushed, stream) =>
    let worker := { worker with stream }
    match flushed with
    | .ok () => { worker with exchanges := worker.exchanges + 1, point := .receiving }
    | .error cause => worker.close (.error ⟨.flush, cause⟩)

def returnEvents (worker : Worker) (result : Except SessionFailure Unit) : List Event :=
  match worker.origin, result with
  | .registry, .error failure => [.sessionFailed worker.identity failure]
  | _, _ => []

/-- Shuts the connection down and returns `result`. A failing shutdown is reported and changes nothing. -/
def shutDown? (worker : Worker) (result : Except SessionFailure Unit) :
    Option (Worker × List Event) :=
  worker.stream.shutDown?.map fun (shut, stream) =>
    let failed := match shut with
      | .ok () => []
      | .error cause => [Event.shutdownFailed worker.identity cause]
    ({ worker with stream }.finish (.returned result),
      failed ++ [.closed worker.identity worker.exchanges] ++ worker.returnEvents result)

def joinEvents (worker : Worker) : List Event :=
  match worker.point with
  | .ended .aborted => [.workerAborted worker.identity]
  | .ended .panicked => [.workerPanicked worker.identity]
  | _ => []

end Worker

end CommandLog
