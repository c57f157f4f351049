import CommandLog.Proofs.World.Move

/-!
All that a worker can do when it has a turn to run, one constructor for each, with what is reported of
it. A worker knows of the log only what its own command makes of it.
-/

namespace CommandLog

deriving instance DecidableEq for Ending, Point

theorem Request.prepare_exchange (memory : Memory) (command : Command) (cursor : Nat) :
    (Request.exchange command cursor).prepare memory = (Request.exchange command 0).prepare memory := by
  cases command <;> rfl

/-- The command of a line, when nothing fails before the log is asked for. -/
def Command.ready? (memory : Memory) (line : Bytes) : Option Command :=
  match parse line with
  | .error _ => none
  | .ok command =>
      match (Request.exchange command 0).prepare memory with
      | .error _ => none
      | .ok _ => some command

theorem Command.parse_of_ready? {memory : Memory} {line : Bytes} {command : Command}
    (ready : ready? memory line = some command) : parse line = .ok command := by
  simp only [ready?] at ready
  split at ready
  · cases ready
  · rename_i parsed
    split at ready
    · cases ready
    · cases ready
      exact parsed

def Feed.line? : Except LogError Feed → Option Bytes
  | .ok (.complete line _) => some line
  | _ => none

namespace Worker

def fedEvents (worker : Worker) : Except LogError Feed → List Event
  | .error error => [.commandFailed worker.identity (.log error)]
  | .ok .incomplete => []
  | .ok (.complete _ discarded) =>
      if discarded = 0 then [] else [.droppedBytes worker.identity discarded]

/-- A turn of a worker in this world: the worker before it, after it, and what is reported. -/
inductive Step (world : World) : Worker → Worker → List Event → Prop
  | start {worker} : worker.point = .fresh → Step world worker worker.start []
  | leave {worker item stream} : worker.point = .receiving →
      worker.stream.receive? worker.readBuffer = some (item, stream) →
      item = .endOfStream ∨ item = .bytes [] →
      Step world worker ({ worker with stream }.close (.ok ()))
        (if worker.line.pending.length = 0 then []
          else [.partialCommand worker.identity worker.line.pending.length])
  | break {worker cause stream} : worker.point = .receiving →
      worker.stream.receive? worker.readBuffer = some (.failure cause, stream) →
      Step world worker ({ worker with stream }.close (.error ⟨.receive, cause⟩)) []
  | crash {worker stream} : worker.point = .receiving →
      worker.stream.receive? worker.readBuffer = some (.crash, stream) →
      Step world worker ({ worker with stream }.finish .panicked) []
  | read {worker chunk stream outcome line} : worker.point = .receiving →
      worker.stream.receive? worker.readBuffer = some (.bytes chunk, stream) → chunk ≠ [] →
      worker.line.feed world.memory chunk = (outcome, line) → Feed.line? outcome = none →
      Step world worker { worker with stream, line } (worker.fedEvents outcome)
  | refuse {worker chunk stream outcome text line error} : worker.point = .receiving →
      worker.stream.receive? worker.readBuffer = some (.bytes chunk, stream) → chunk ≠ [] →
      worker.line.feed world.memory chunk = (outcome, line) → Feed.line? outcome = some text →
      Command.ready? world.memory text = none →
      Step world worker { worker with stream, line, point := .sending [] }
        (worker.fedEvents outcome ++ [.commandFailed worker.identity error])
  | ask {worker chunk stream outcome text line command} : worker.point = .receiving →
      worker.stream.receive? worker.readBuffer = some (.bytes chunk, stream) → chunk ≠ [] →
      worker.line.feed world.memory chunk = (outcome, line) → Feed.line? outcome = some text →
      Command.ready? world.memory text = some command →
      Step world worker { worker with stream, line, point := .requesting command }
        (worker.fedEvents outcome)
  | take {worker command} : worker.point = .requesting command →
      Step world worker { worker with point := .holding command } []
  | wait {worker command} : worker.point = .requesting command →
      Step world worker { worker with point := .waiting command } []
  | wake {worker command} : worker.point = .waiting command →
      Step world worker { worker with point := .holding command } []
  | expire {worker command} : worker.point = .waiting command →
      Step world worker { worker with point := .sending [] }
        [.commandFailed worker.identity (.log (.lockTimeout world.lockTimeout))]
  | conclude {worker command} : worker.point = .holding command →
      Step world worker { worker with
        cursor := (world.log.shown world.memory worker.cursor command).cursor
        point := .sending (world.log.shown world.memory worker.cursor command).bytes }
        (Event.ofDisplaced (world.log.exchange world.memory worker.cursor command).displaced ++
          (worker.conclude command
            (world.log.exchange world.memory worker.cursor command).answer).2)
  | send {worker rest count stream} : worker.point = .sending rest → rest ≠ [] →
      worker.stream.write? rest = some (.ok count, stream) →
      Step world worker { worker with stream, point := .sending (rest.drop count) } []
  | sendFails {worker rest cause stream} : worker.point = .sending rest → rest ≠ [] →
      worker.stream.write? rest = some (.error cause, stream) →
      Step world worker ({ worker with stream }.close (.error ⟨.send, cause⟩)) []
  | sent {worker} : worker.point = .sending [] →
      Step world worker { worker with point := .flushing } []
  | flush {worker stream} : worker.point = .flushing →
      worker.stream.flush? = some (.ok (), stream) →
      Step world worker { worker with
        stream, exchanges := worker.exchanges + 1, point := .receiving } []
  | flushFails {worker cause stream} : worker.point = .flushing →
      worker.stream.flush? = some (.error cause, stream) →
      Step world worker ({ worker with stream }.close (.error ⟨.flush, cause⟩)) []
  | shut {worker result outcome stream} {failed : List Event} : worker.point = .closing result →
      worker.stream.shutDown? = some (outcome, stream) →
      (∀ event, event ∈ failed → ∃ cause, event = .shutdownFailed worker.identity cause) →
      Step world worker ({ worker with stream }.finish (.returned result))
        (failed ++ [.closed worker.identity worker.exchanges] ++ worker.returnEvents result)

variable {world : World} {worker next : Worker} {told : List Event}

theorem dispatch_of_ready {memory : Memory} {text : Bytes} {command : Command}
    (ready : Command.ready? memory text = some command) :
    worker.dispatch memory text = ({ worker with point := .requesting command }, []) := by
  simp only [Command.ready?] at ready
  simp only [dispatch]
  cases parsed : Command.parse text with
  | error error => simp [parsed] at ready
  | ok found =>
      simp only [parsed] at ready
      simp only [Request.prepare_exchange memory found worker.cursor]
      split at ready
      · cases ready
      · rename_i prepared
        cases ready
        rw [prepared]

theorem dispatch_of_unready (worker : Worker) {memory : Memory} {text : Bytes}
    (unready : Command.ready? memory text = none) :
    ∃ error, worker.dispatch memory text =
      ({ worker with point := .sending [] }, [.commandFailed worker.identity error]) := by
  simp only [Command.ready?] at unready
  simp only [dispatch]
  cases parsed : Command.parse text with
  | error error => exact ⟨.seek error, rfl⟩
  | ok found =>
      simp only [parsed] at unready
      simp only [Request.prepare_exchange memory found worker.cursor]
      split at unready
      · rename_i error prepared
        rw [prepared]
        exact ⟨.log error, rfl⟩
      · cases unready

theorem take_step {chunk : Bytes} {stream : Stream} (reading : worker.point = .receiving)
    (arrived : worker.stream.receive? worker.readBuffer = some (.bytes chunk, stream))
    (filled : chunk ≠ []) :
    Step world worker (take world.memory { worker with stream } chunk).1
      (take world.memory { worker with stream } chunk).2 := by
  simp only [take]
  cases fed : worker.line.feed world.memory chunk with
  | mk outcome line =>
      cases outcome with
      | error error => exact .read reading arrived filled fed rfl
      | ok feed =>
          cases feed with
          | incomplete => exact .read reading arrived filled fed rfl
          | complete text dropped =>
              cases ready : Command.ready? world.memory text with
              | none =>
                  obtain ⟨error, refused⟩ :=
                    dispatch_of_unready { worker with stream, line } ready
                  simp only [refused]
                  exact .refuse reading arrived filled fed rfl ready
              | some command =>
                  simp only [dispatch_of_ready ready, List.append_nil]
                  exact .ask reading arrived filled fed rfl ready

theorem receive?_step (reading : worker.point = .receiving)
    (received : worker.receive? world.memory = some (next, told)) : Step world worker next told := by
  simp only [receive?] at received
  obtain ⟨⟨item, stream⟩, arrived, received⟩ := Option.map_eq_some_iff.mp received
  cases item with
  | bytes chunk =>
      cases chunk with
      | nil =>
          cases received
          exact .leave reading arrived (Or.inr rfl)
      | cons first rest =>
          obtain ⟨rfl, rfl⟩ := Prod.mk.inj received
          exact take_step reading arrived (List.cons_ne_nil first rest)
  | endOfStream =>
      cases received
      exact .leave reading arrived (Or.inl rfl)
  | failure cause =>
      cases received
      exact .break reading arrived
  | crash =>
      cases received
      exact .crash reading arrived

theorem conclude_eq (memory : Memory) (log : Log) (worker : Worker) (command : Command) :
    (worker.conclude command (log.exchange memory worker.cursor command).answer).1 =
      { worker with
        cursor := (log.shown memory worker.cursor command).cursor
        point := .sending (log.shown memory worker.cursor command).bytes } := by
  simp only [Log.shown]
  cases (log.exchange memory worker.cursor command).answer <;> rfl

theorem send?_step {rest : Bytes} (sending : worker.point = .sending rest)
    (sent : worker.send? rest = some next) : Step world worker next [] := by
  simp only [send?] at sent
  split at sent
  · rename_i nothing
    cases sent
    have empty : rest = [] := by simpa using nothing
    exact .sent (empty ▸ sending)
  · rename_i something
    have filled : rest ≠ [] := by simpa using something
    obtain ⟨⟨taken, stream⟩, written, rfl⟩ := Option.map_eq_some_iff.mp sent
    cases taken with
    | ok count => exact .send sending filled written
    | error cause => exact .sendFails sending filled written

theorem flush?_step (flushing : worker.point = .flushing) (flushed : worker.flush? = some next) :
    Step world worker next [] := by
  obtain ⟨⟨outcome, stream⟩, drained, rfl⟩ := Option.map_eq_some_iff.mp flushed
  cases outcome with
  | ok _ => exact .flush flushing drained
  | error cause => exact .flushFails flushing drained

theorem shutDown?_step {result : Except SessionFailure Unit} (closing : worker.point = .closing result)
    (shut : worker.shutDown? result = some (next, told)) : Step world worker next told := by
  obtain ⟨⟨outcome, stream⟩, down, rest⟩ := Option.map_eq_some_iff.mp shut
  cases rest
  refine .shut closing down ?_
  cases outcome with
  | ok _ => simp
  | error cause => exact fun event member => ⟨cause, List.mem_singleton.mp member⟩

theorem Step.concluded {before after : Worker} {command : Command}
    (step : Step world before after told) (holding : before.point = .holding command) :
    after = { before with
      cursor := (world.log.shown world.memory before.cursor command).cursor
      point := .sending (world.log.shown world.memory before.cursor command).bytes } := by
  cases step with
  | conclude point =>
      rw [holding] at point
      cases point
      rfl
  | start point | leave point | «break» point | crash point | read point | refuse point | ask point
  | take point | wait point | wake point | expire point | send point | sendFails point | sent point
  | flush point | flushFails point | shut point =>
      rw [holding] at point
      cases point

theorem Step.expired {before after : Worker} {command : Command} {bytes : Bytes}
    (step : Step world before after told) (waiting : before.point = .waiting command)
    (sends : after.point = .sending bytes) : after = { before with point := .sending [] } := by
  cases step with
  | expire point => rfl
  | wake point => cases sends
  | start point | leave point | «break» point | crash point | read point | refuse point | ask point
  | take point | wait point | conclude point | send point | sendFails point | sent point
  | flush point | flushFails point | shut point =>
      rw [waiting] at point
      cases point

end Worker

namespace World

variable {world next : World} {key : Key} {worker : Worker}

def logAfter (world : World) (worker : Worker) : Log :=
  match worker.point with
  | .holding command => (world.log.exchange world.memory worker.cursor command).log
  | _ => world.log

theorem runWorker_step (ran : world.runWorker key worker = some next) :
    ∃ after told, Worker.Step world worker after told ∧
      next.tasks = Table.put key (.session after) world.tasks ∧
      next.journal = world.journal ++ told ∧ next.log = world.logAfter worker := by
  simp only [logAfter]
  have silent : world.journal = world.journal ++ [] := (List.append_nil _).symm
  simp only [runWorker] at ran
  cases point : worker.point with
  | fresh =>
      simp only [point] at ran
      split at ran
      · cases ran
      · cases ran
        exact ⟨_, _, .start point, rfl, silent, rfl⟩
  | receiving =>
      simp only [point] at ran
      obtain ⟨⟨after, told⟩, received, rfl⟩ := Option.map_eq_some_iff.mp ran
      exact ⟨after, told, Worker.receive?_step point received, rfl, rfl, rfl⟩
  | requesting command =>
      simp only [point] at ran
      cases ran
      refine ⟨_, _, ?_, rfl, silent, rfl⟩
      split
      · exact .take point
      · exact .wait point
  | waiting command =>
      simp only [point] at ran
      split at ran
      · cases ran
        exact ⟨_, _, .wake point, rfl, silent, rfl⟩
      · split at ran
        · cases ran
          exact ⟨_, _, .expire point, rfl, rfl, rfl⟩
        · cases ran
  | holding command =>
      simp only [point] at ran
      cases ran
      refine ⟨_, _, ?_, rfl, List.append_assoc _ _ _, rfl⟩
      rw [Worker.conclude_eq]
      exact .conclude point
  | sending rest =>
      simp only [point] at ran
      obtain ⟨after, sent, rfl⟩ := Option.map_eq_some_iff.mp ran
      exact ⟨after, _, Worker.send?_step point sent, rfl, silent, rfl⟩
  | flushing =>
      simp only [point] at ran
      obtain ⟨after, flushed, rfl⟩ := Option.map_eq_some_iff.mp ran
      exact ⟨after, _, Worker.flush?_step point flushed, rfl, silent, rfl⟩
  | closing result =>
      simp only [point] at ran
      obtain ⟨⟨after, told⟩, shut, rfl⟩ := Option.map_eq_some_iff.mp ran
      exact ⟨after, told, Worker.shutDown?_step point shut, rfl, rfl, rfl⟩
  | ended ending =>
      simp only [point] at ran
      cases ran

end World

end CommandLog
