import CommandLog.World

/-!
The id of a session is a name for those who look at it. Its worker does the same under any other id, and
reports the same of it under that id.
-/

namespace CommandLog

def Identity.renumber (rename : Nat → Nat) (identity : Identity) : Identity :=
  { identity with id := rename identity.id }

def Event.renumber (rename : Nat → Nat) : Event → Event
  | .appended session bytes => .appended (session.renumber rename) bytes
  | .movedCursor session index offset cursor =>
      .movedCursor (session.renumber rename) index offset cursor
  | .commandFailed session error => .commandFailed (session.renumber rename) error
  | .droppedBytes session count => .droppedBytes (session.renumber rename) count
  | .partialCommand session pending => .partialCommand (session.renumber rename) pending
  | .shutdownFailed session error => .shutdownFailed (session.renumber rename) error
  | .closed session exchanges => .closed (session.renumber rename) exchanges
  | .sessionFailed session failure => .sessionFailed (session.renumber rename) failure
  | .workerAborted session => .workerAborted (session.renumber rename)
  | .workerPanicked session => .workerPanicked (session.renumber rename)
  | .acceptedConnection session => .acceptedConnection (session.renumber rename)
  | .overwrote bytes => .overwrote bytes
  | .reaped count live => .reaped count live
  | .draining count => .draining count
  | .shutdownRequested => .shutdownRequested
  | .signalReceived => .signalReceived
  | .stopped report => .stopped report

theorem Event.session?_renumber (rename : Nat → Nat) (event : Event) :
    (event.renumber rename).session? = event.session?.map (Identity.renumber rename) := by
  cases event <;> rfl

theorem Event.map_renumber_ofDisplaced (rename : Nat → Nat) (displaced : Option Bytes) :
    (ofDisplaced displaced).map (renumber rename) = ofDisplaced displaced := by
  cases displaced <;> rfl

namespace Worker

variable {memory : Memory} {rename : Nat → Nat}

def renumber (rename : Nat → Nat) (worker : Worker) : Worker :=
  { worker with session := { worker.session with toIdentity := worker.identity.renumber rename } }

@[simp] theorem renumber_point (worker : Worker) : (worker.renumber rename).point = worker.point := rfl

@[simp] theorem renumber_cursor (worker : Worker) : (worker.renumber rename).cursor = worker.cursor := rfl

def renumberTurn (rename : Nat → Nat) (turn : Worker × List Event) : Worker × List Event :=
  (turn.1.renumber rename, turn.2.map (Event.renumber rename))

theorem dispatch_renumber (worker : Worker) (line : Bytes) :
    (worker.renumber rename).dispatch memory line =
      renumberTurn rename (worker.dispatch memory line) := by
  simp only [dispatch, renumber_cursor]
  split
  · rfl
  · split <;> rfl

theorem take_renumber (worker : Worker) (chunk : Bytes) :
    (worker.renumber rename).take memory chunk = renumberTurn rename (worker.take memory chunk) := by
  have line : (worker.renumber rename).line = worker.line := rfl
  simp only [take, line]
  cases worker.line.feed memory chunk with
  | mk outcome line =>
      cases outcome with
      | error error => rfl
      | ok feed =>
          cases feed with
          | incomplete => rfl
          | complete text discarded =>
              have dispatched : { worker.renumber rename with line }.dispatch memory text =
                  renumberTurn rename ({ worker with line }.dispatch memory text) :=
                dispatch_renumber { worker with line } text
              simp only [dispatched, renumberTurn, List.map_append]
              split <;> rfl

theorem leave_renumber (worker : Worker) :
    (worker.renumber rename).leave = renumberTurn rename worker.leave := by
  have line : (worker.renumber rename).line = worker.line := rfl
  simp only [leave, line, renumberTurn]
  split <;> rfl

theorem receive?_renumber (worker : Worker) : (worker.renumber rename).receive? memory =
    (worker.receive? memory).map (renumberTurn rename) := by
  have same : (worker.renumber rename).stream.receive? (worker.renumber rename).readBuffer =
      worker.stream.receive? worker.readBuffer := rfl
  simp only [receive?, same]
  cases worker.stream.receive? worker.readBuffer with
  | none => rfl
  | some received =>
      obtain ⟨item, stream⟩ := received
      cases item with
      | bytes chunk =>
          cases chunk with
          | nil => exact congrArg some (leave_renumber { worker with stream })
          | cons first rest => exact congrArg some (take_renumber { worker with stream } (first :: rest))
      | endOfStream => exact congrArg some (leave_renumber { worker with stream })
      | failure cause => rfl
      | crash => rfl

theorem conclude_renumber (worker : Worker) (command : Command) (answer : Except LogError Reply) :
    (worker.renumber rename).conclude command answer =
      renumberTurn rename (worker.conclude command answer) := by
  cases answer with
  | error error => rfl
  | ok reply => cases command <;> rfl

theorem send?_renumber (worker : Worker) (rest : Bytes) :
    (worker.renumber rename).send? rest = (worker.send? rest).map (renumber rename) := by
  have same : (worker.renumber rename).stream.write? rest = worker.stream.write? rest := rfl
  simp only [send?, same]
  split
  · rfl
  · cases worker.stream.write? rest with
    | none => rfl
    | some written =>
        obtain ⟨taken, stream⟩ := written
        cases taken <;> rfl

theorem flush?_renumber (worker : Worker) :
    (worker.renumber rename).flush? = worker.flush?.map (renumber rename) := by
  have same : (worker.renumber rename).stream.flush? = worker.stream.flush? := rfl
  simp only [flush?, same]
  cases worker.stream.flush? with
  | none => rfl
  | some flushed =>
      obtain ⟨outcome, stream⟩ := flushed
      cases outcome <;> rfl

theorem returnEvents_renumber (worker : Worker) (result : Except SessionFailure Unit) :
    (worker.renumber rename).returnEvents result =
      (worker.returnEvents result).map (Event.renumber rename) := by
  have origin : (worker.renumber rename).origin = worker.origin := rfl
  simp only [returnEvents, origin]
  split <;> rfl

theorem shutDown?_renumber (worker : Worker) (result : Except SessionFailure Unit) :
    (worker.renumber rename).shutDown? result =
      (worker.shutDown? result).map (renumberTurn rename) := by
  have same : (worker.renumber rename).stream.shutDown? = worker.stream.shutDown? := rfl
  simp only [shutDown?, same, returnEvents_renumber]
  cases worker.stream.shutDown? with
  | none => rfl
  | some shut =>
      obtain ⟨outcome, stream⟩ := shut
      cases outcome <;> simp [renumberTurn, Event.renumber, renumber, finish, enter, identity]

theorem joinEvents_renumber (worker : Worker) :
    (worker.renumber rename).joinEvents = worker.joinEvents.map (Event.renumber rename) := by
  simp only [joinEvents, renumber_point]
  split <;> rfl

/-- A turn in which a worker has nothing to do with the log. -/
def turn? (memory : Memory) (worker : Worker) : Option (Worker × List Event) :=
  match worker.point with
  | .fresh => if worker.origin = .nobody then none else some (worker.start, [])
  | .receiving => worker.receive? memory
  | .sending rest => (worker.send? rest).map (·, [])
  | .flushing => worker.flush?.map (·, [])
  | .closing result => worker.shutDown? result
  | .requesting _ | .waiting _ | .holding _ | .ended _ => none

theorem turn?_renumber (worker : Worker) : (worker.renumber rename).turn? memory =
    (worker.turn? memory).map (renumberTurn rename) := by
  have origin : (worker.renumber rename).origin = worker.origin := rfl
  simp only [turn?, renumber_point]
  cases worker.point with
  | fresh =>
      simp only [origin]
      split <;> rfl
  | receiving => exact receive?_renumber worker
  | sending rest =>
      simp only [send?_renumber, Option.map_map]
      rfl
  | flushing =>
      simp only [flush?_renumber, Option.map_map]
      rfl
  | closing result => exact shutDown?_renumber worker result
  | _ => rfl

end Worker

end CommandLog
