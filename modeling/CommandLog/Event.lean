import CommandLog.Failure
import CommandLog.Session

/-!
What is reported while clients are served. An event has a level, a message and named fields, and most
events belong to one session.
-/

namespace CommandLog

inductive Level where
  | debug
  | info
  | warn
deriving DecidableEq, Repr

def Level.name : Level → String
  | .debug => "DEBUG"
  | .info => "INFO"
  | .warn => "WARN"

inductive Value where
  | number (value : Nat)
  | text (value : String)
  | flag (value : Bool)
deriving DecidableEq, Repr

/-- What a drain had to do: how many workers it has joined, and how many of those it aborted first. -/
structure DrainReport where
  joined : Nat
  aborted : Nat
deriving DecidableEq, Repr

inductive Event where
  | overwrote (bytes : Nat)
  | appended (session : Identity) (bytes : Nat)
  | movedCursor (session : Identity) (index offset cursor : Nat)
  | commandFailed (session : Identity) (error : CommandError)
  | droppedBytes (session : Identity) (count : Nat)
  | partialCommand (session : Identity) (pending : Nat)
  | shutdownFailed (session : Identity) (error : StreamError)
  | closed (session : Identity) (exchanges : Nat)
  | sessionFailed (session : Identity) (failure : SessionFailure)
  | workerAborted (session : Identity)
  | workerPanicked (session : Identity)
  | reaped (count live : Nat)
  | draining (count : Nat)
  | acceptedConnection (session : Identity)
  | shutdownRequested
  | signalReceived
  | stopped (report : DrainReport)
deriving DecidableEq, Repr

namespace Event

def ofDisplaced (displaced : Option Bytes) : List Event :=
  displaced.toList.map fun entry => .overwrote entry.length

def level : Event → Level
  | .overwrote _ | .appended .. | .movedCursor .. | .partialCommand .. | .shutdownFailed ..
  | .workerAborted _ | .reaped .. => .debug
  | .commandFailed .. | .droppedBytes .. | .sessionFailed .. | .workerPanicked _ => .warn
  | .closed .. | .draining _ | .acceptedConnection _ | .shutdownRequested | .signalReceived
  | .stopped _ => .info

def message : Event → String
  | .overwrote _ => "overwrote oldest log entry"
  | .appended .. => "appended command"
  | .movedCursor .. => "moved cursor"
  | .commandFailed .. => "command failed, replying with nothing"
  | .droppedBytes .. => "dropping bytes after line feed; pipelined commands are not supported"
  | .partialCommand .. => "peer closed mid-command, discarding partial command"
  | .shutdownFailed .. => "failed to shut down stream cleanly"
  | .closed .. => "closed connection"
  | .sessionFailed .. => "session closed with error"
  | .workerAborted _ => "session worker aborted"
  | .workerPanicked _ => "session worker panicked"
  | .reaped .. => "reaped finished sessions"
  | .draining _ => "draining sessions"
  | .acceptedConnection _ => "accepted connection"
  | .shutdownRequested => "shutdown requested"
  | .signalReceived => "shutdown signal received"
  | .stopped _ => "server stopped"

def session? : Event → Option Identity
  | .appended session _ | .movedCursor session .. | .commandFailed session _
  | .droppedBytes session _ | .partialCommand session _ | .shutdownFailed session _
  | .closed session _ | .sessionFailed session _ | .workerAborted session
  | .workerPanicked session | .acceptedConnection session => some session
  | .overwrote _ | .reaped .. | .draining _ | .shutdownRequested | .signalReceived
  | .stopped _ => none

def fields : Event → List (String × Value)
  | .overwrote bytes => [("bytes", .number bytes)]
  | .appended _ bytes => [("bytes", .number bytes)]
  | .movedCursor _ index offset cursor =>
      [("index", .number index), ("offset", .number offset), ("cursor", .number cursor)]
  | .commandFailed _ error =>
      [("error", .text error.message), ("retryable", .flag error.isRetryable)]
  | .droppedBytes _ count => [("discarded", .number count)]
  | .partialCommand _ pending => [("pending", .number pending)]
  | .shutdownFailed _ error => [("error", .text ("Kind(" ++ error.kind ++ ")"))]
  | .closed session exchanges =>
      [("peer", .text session.peerText), ("exchanges", .number exchanges)]
  | .sessionFailed session failure =>
      [("peer", .text session.peerText), ("error", .text failure.report)]
  | .reaped count live => [("reaped", .number count), ("live", .number live)]
  | .draining count => [("sessions", .number count)]
  | .stopped report => [("joined", .number report.joined), ("aborted", .number report.aborted)]
  | .workerAborted _ | .workerPanicked _ | .acceptedConnection _ | .shutdownRequested
  | .signalReceived => []

end Event

end CommandLog
