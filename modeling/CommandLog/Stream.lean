import CommandLog.Bytes

/-!
A client's connection as its worker meets it: what arrives, in order, how the connection takes what is
sent, and what has been sent so far. An operation that has to wait yields nothing.
-/

namespace CommandLog

inductive StreamError where
  | connectionReset
  | connectionAborted
  | brokenPipe
  | timedOut
  | interrupted
  | unexpectedEof
  | permissionDenied
  | notConnected
  | writeZero
deriving DecidableEq, Repr

namespace StreamError

def message : StreamError → String
  | .connectionReset => "connection reset"
  | .connectionAborted => "connection aborted"
  | .brokenPipe => "broken pipe"
  | .timedOut => "timed out"
  | .interrupted => "operation interrupted"
  | .unexpectedEof => "unexpected end of file"
  | .permissionDenied => "permission denied"
  | .notConnected => "not connected"
  | .writeZero => "write zero"

def kind : StreamError → String
  | .connectionReset => "ConnectionReset"
  | .connectionAborted => "ConnectionAborted"
  | .brokenPipe => "BrokenPipe"
  | .timedOut => "TimedOut"
  | .interrupted => "Interrupted"
  | .unexpectedEof => "UnexpectedEof"
  | .permissionDenied => "PermissionDenied"
  | .notConnected => "NotConnected"
  | .writeZero => "WriteZero"

def all : List StreamError :=
  [.connectionReset, .connectionAborted, .brokenPipe, .timedOut, .interrupted, .unexpectedEof,
    .permissionDenied, .notConnected, .writeZero]

def ofKind? (name : String) : Option StreamError := all.find? (·.kind == name)

end StreamError

inductive Incoming where
  | bytes (data : Bytes)
  | endOfStream
  | failure (error : StreamError)
  | crash
deriving DecidableEq, Repr

inductive WriteMode where
  | all
  | atMost (limit : Nat)
  | stalled
  | failing (error : StreamError)
deriving DecidableEq, Repr

inductive Readiness where
  | ready
  | stalled
  | failing (error : StreamError)
deriving DecidableEq, Repr

structure Stream where
  incoming : List Incoming := []
  onWrite : WriteMode := .all
  onFlush : Readiness := .ready
  onShutdown : Readiness := .ready
  output : Bytes := []
  flushes : Nat := 0
  isShutDown : Bool := false
  isDropped : Bool := false
deriving DecidableEq, Repr

namespace Stream

/-- What arrives queues up behind what has not been read yet; a dropped connection takes nothing. -/
def arrive (stream : Stream) (item : Incoming) : Stream :=
  if stream.isDropped then stream else { stream with incoming := stream.incoming ++ [item] }

/-- One read of at most `size` bytes. It never joins bytes that arrived apart. -/
def receive? (size : Nat) (stream : Stream) : Option (Incoming × Stream) :=
  match stream.incoming with
  | [] => none
  | .bytes data :: later =>
      match data.drop size with
      | [] => some (.bytes data, { stream with incoming := later })
      | rest => some (.bytes (data.take size), { stream with incoming := .bytes rest :: later })
  | item :: later => some (item, { stream with incoming := later })

/-- One write: how many bytes of `data` are taken. Taking none of them is an error. -/
def write? (data : Bytes) (stream : Stream) : Option (Except StreamError Nat × Stream) :=
  let take := fun count =>
    if count = 0 then (.error .writeZero, stream)
    else (.ok count, { stream with output := stream.output ++ data.take count })
  match stream.onWrite with
  | .all => some (take data.length)
  | .atMost limit => some (take (min limit data.length))
  | .stalled => none
  | .failing error => some (.error error, stream)

def flush? (stream : Stream) : Option (Except StreamError Unit × Stream) :=
  match stream.onFlush with
  | .ready => some (.ok (), { stream with flushes := stream.flushes + 1 })
  | .stalled => none
  | .failing error => some (.error error, stream)

def shutDown? (stream : Stream) : Option (Except StreamError Unit × Stream) :=
  match stream.onShutdown with
  | .ready => some (.ok (), { stream with isShutDown := true })
  | .stalled => none
  | .failing error => some (.error error, stream)

def drop (stream : Stream) : Stream := { stream with incoming := [], isDropped := true }

end Stream

end CommandLog
