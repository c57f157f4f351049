import CommandLog.Proofs.World.PartialWrites
import CommandLog.Proofs.World.Turns
import CommandLog.Proofs.Worker.Framing

/-!
Nobody keeps others from the log by not reading. A session that waits for its connection has no part in
the lock; once all tasks wait, the lock is free unless it is held elsewhere; and then a command that
arrives is served by the steps of its own session alone, at the same moment.
-/

namespace CommandLog

theorem Request.prepare_fails {memory : Memory} {request : Request} {error : LogError}
    (failed : request.prepare memory = .error error) : ∃ bytes, error = .allocation bytes := by
  have copies {bytes : Bytes} (failed : memory.copyEntry bytes = .error error) :
      ∃ bytes, error = .allocation bytes := by
    simp only [Memory.copyEntry] at failed
    split at failed <;> cases failed
    exact ⟨_, rfl⟩
  cases request with
  | write bytes => exact copies failed
  | exchange command cursor =>
      cases command with
      | write bytes => exact copies failed
      | seek index offset => cases failed
  | _ => cases failed

/-- Whether a worker waits for its connection there: to read, to write, to flush, or to shut down. -/
def Point.isOnStream : Point → Bool
  | .receiving | .sending _ | .flushing | .closing _ => true
  | .fresh | .requesting _ | .waiting _ | .holding _ | .ended _ => false

def Answer.sent : Except LogError Answer → Bytes
  | .ok (.reply taken) => taken.bytes
  | .ok _ | .error _ => []

namespace Worker

def toRead (worker : Worker) (later : List Incoming) : Worker :=
  { worker with stream := { worker.stream with incoming := later } }

def hasTaken (worker : Worker) (front : Bytes) (later : List Incoming) : Worker :=
  { worker.toRead later with line := { worker.line with pending := worker.line.pending ++ front } }

/-- A worker that waits for its client, whose line is that of `command` once it has `front` and a line
feed behind what has been read of it; and there is memory for that line. -/
structure Awaits (memory : Memory) (front : Bytes) (command : Command) (worker : Worker) : Prop where
  reading : worker.point = .receiving
  going : worker.line.discarding = false
  clean : lineFeed ∉ front
  room : ∀ bytes, bytes ≤ worker.line.pending.length + front.length + 1 →
    memory.allows .line bytes = true
  parsed : Command.parse (worker.line.pending ++ front ++ [lineFeed]) = .ok command

theorem Awaits.hasTaken {memory : Memory} {part rest : Bytes} {command : Command} {worker : Worker}
    (awaits : worker.Awaits memory (part ++ rest) command) (later : List Incoming) :
    (worker.hasTaken part later).Awaits memory rest command := by
  refine ⟨awaits.reading, awaits.going, fun member => awaits.clean (List.mem_append_right _ member),
    fun bytes bound => awaits.room bytes ?_, ?_⟩
  · simpa only [Worker.hasTaken, List.length_append, Nat.add_assoc] using bound
  · simpa only [Worker.hasTaken, List.append_assoc] using awaits.parsed

theorem Awaits.toRead {memory : Memory} {front : Bytes} {command : Command} {worker : Worker}
    (awaits : worker.Awaits memory front command) (later : List Incoming) :
    (worker.toRead later).Awaits memory front command :=
  ⟨awaits.reading, awaits.going, awaits.clean, awaits.room, awaits.parsed⟩

def pointWith (memory : Memory) (worker : Worker) (command : Command) : Point :=
  match (Request.exchange command worker.cursor).prepare memory with
  | .error _ => .sending []
  | .ok _ => .requesting command

end Worker

structure Worker.Intact (worker : Worker) : Prop where
  reads : 1 ≤ worker.readBuffer
  listens : worker.isEnded = false → worker.stream.isDropped = false

namespace Worker

variable {world : World} {before after : Worker} {told : List Event}

theorem intact_create (identity : Identity) (origin : Origin) (readBuffer : Nat) :
    (create identity origin readBuffer).Intact :=
  ⟨Nat.le_max_right readBuffer 1, fun _ => rfl⟩

theorem Intact.finish (intact : before.Intact) (ending : Ending) : (before.finish ending).Intact := by
  refine ⟨intact.reads, fun going => ?_⟩
  cases going

theorem Step.intact (step : Step world before after told) (intact : before.Intact) : after.Intact := by
  have listens (going : ∀ ending, before.point ≠ .ended ending) :
      before.stream.isDropped = false := by
    refine intact.listens ?_
    cases point : before.point with
    | ended ending => exact absurd point (going ending)
    | _ => simp only [isEnded, point]
  cases step with
  | start point | take point | wait point | wake point | expire point | conclude point | sent point =>
      exact ⟨intact.reads, fun _ => listens (by simp [point])⟩
  | leave point arrived | «break» point arrived | read point arrived | refuse point arrived
  | ask point arrived =>
      obtain ⟨incoming, rfl⟩ := Stream.receive?_eq arrived
      exact ⟨intact.reads, fun _ => listens (by simp [point])⟩
  | send point filled written =>
      obtain ⟨_, rfl⟩ := Stream.write?_ok filled written
      exact ⟨intact.reads, fun _ => listens (by simp [point])⟩
  | sendFails point filled written =>
      cases Stream.write?_error written
      exact ⟨intact.reads, fun _ => listens (by simp [point])⟩
  | flush point flushed =>
      cases Stream.flush?_ok flushed
      exact ⟨intact.reads, fun _ => listens (by simp [point])⟩
  | flushFails point flushed =>
      cases Stream.flush?_error flushed
      exact ⟨intact.reads, fun _ => listens (by simp [point])⟩
  | crash point arrived | shut point shut => exact ⟨intact.reads, fun going => by cases going⟩

end Worker

namespace World

variable {log : Log} {lockTimeout : Duration} {readBuffer : Nat} {action : Action}
variable {actions : List Action} {world next final : World} {key : Key} {worker : Worker}

theorem intact_run (launches : ∀ action, action ∈ actions → action.LaunchesNew)
    (ran : (initial log lockTimeout readBuffer).steps actions = some final)
    (found : final.worker? key = some worker) : worker.Intact := by
  refine workers_run Worker.Intact Worker.intact_create ?_ ?_ ?_ launches ran found
  · intro worker action key change changes intact
    obtain ⟨_, _, dropped⟩ := changes_keep changes worker.stream
    exact ⟨intact.reads, fun going => dropped.trans (intact.listens going)⟩
  · intro world before after told step intact
    exact step.intact intact
  · intro worker ending intact
    exact intact.finish ending

theorem putWorker_again (world : World) (key : Key) (first second : Worker) :
    (world.putWorker key first).putWorker key second = world.putWorker key second := by
  simp only [putWorker, putTask, Table.put_put]

structure HasRead (world : World) (key : Key) (worker : Worker) (command : Command) (count : Nat)
    (last : Worker) (told : List Event) : Prop where
  steps : world.steps (List.replicate count (.run key)) =
    some ((world.putWorker key last).report told)
  cursor : last.cursor = worker.cursor
  session : last.session = worker.session
  point : last.point = worker.pointWith world.memory command
  inTime : ∀ waited, .commandFailed worker.identity (.log (.lockTimeout waited)) ∉ told

variable {command : Command} {front behind : Bytes}

theorem HasRead.more {later : List Incoming} {last : Worker} {count : Nat} {told : List Event}
    (read : (world.putWorker key (worker.hasTaken front later)).HasRead key
      (worker.hasTaken front later) command count last told)
    (found : world.worker? key = some worker)
    (took : world.runWorker key worker = some (world.putWorker key (worker.hasTaken front later))) :
    world.HasRead key worker command (count + 1) last told := by
  refine ⟨?_, read.cursor, read.session, read.point, read.inTime⟩
  have rest := read.steps
  rw [putWorker_again] at rest
  have first : world.step (.run key) = _ := (run_of_worker? found).trans took
  rw [List.replicate_succ, World.steps, first]
  exact rest

theorem steps_run_once (found : world.worker? key = some worker) :
    world.steps (List.replicate 1 (.run key)) = world.runWorker key worker := by
  simp only [List.replicate_one, steps, step, run_of_worker? found]
  cases world.runWorker key worker <;> rfl

theorem runWorker_takes {chunk : Bytes} {stream : Stream} (reading : worker.point = .receiving)
    (arrived : worker.stream.receive? worker.readBuffer = some (.bytes chunk, stream))
    (filled : chunk ≠ []) : world.runWorker key worker =
      some ((world.putWorker key (Worker.take world.memory { worker with stream } chunk).1).report
        (Worker.take world.memory { worker with stream } chunk).2) := by
  cases chunk with
  | nil => exact absurd rfl filled
  | cons first rest => simp only [runWorker, reading, Worker.receive?, arrived, Option.map_some]

theorem receive?_completes {stream : Stream} {size : Nat}
    (incoming : stream.incoming = [.bytes (front ++ lineFeed :: behind)]) (fits : front.length < size) :
    ∃ tail next, stream.receive? size = some (.bytes (front ++ lineFeed :: tail), next) := by
  simp only [Stream.receive?, incoming]
  cases (front ++ lineFeed :: behind).drop size with
  | nil => exact ⟨behind, _, rfl⟩
  | cons first rest =>
      obtain ⟨more, rfl⟩ := Nat.exists_eq_add_of_lt fits
      refine ⟨behind.take more, { stream with incoming := [.bytes (first :: rest)] }, ?_⟩
      rw [show front.length + more + 1 = front.length + (more + 1) by omega, List.take_length_add_append,
        List.take_succ_cons]

theorem receive?_goes_on {stream : Stream} {size : Nat}
    (incoming : stream.incoming = [.bytes (front ++ lineFeed :: behind)]) (long : size ≤ front.length) :
    stream.receive? size = some (.bytes (front.take size),
      { stream with incoming := [.bytes (front.drop size ++ lineFeed :: behind)] }) := by
  have rest : (front ++ lineFeed :: behind).drop size = front.drop size ++ lineFeed :: behind :=
    List.drop_append_of_le_length long
  simp only [Stream.receive?, incoming, rest, List.take_append_of_le_length long]
  cases front.drop size <;> rfl

theorem unread_of_receive? {stream : Stream} {size : Nat} (waits : stream.receive? size = none) :
    stream.incoming = [] := by
  cases incoming : stream.incoming with
  | nil => rfl
  | cons item later =>
      cases item with
      | bytes data =>
          simp only [Stream.receive?, incoming] at waits
          split at waits <;> cases waits
      | _ => simp [Stream.receive?, incoming] at waits

theorem reads_last (found : world.worker? key = some worker)
    (awaits : worker.Awaits world.memory front command) (fits : front.length < worker.readBuffer)
    (incoming : worker.stream.incoming = [.bytes (front ++ lineFeed :: behind)]) :
    ∃ last told, world.HasRead key worker command 1 last told := by
  obtain ⟨tail, stream, arrived⟩ := receive?_completes incoming fits
  have room : world.memory.growsLine worker.line.pending.length (front.length + 1) = true := by
    simp only [Memory.growsLine, Bool.or_eq_true]
    exact Or.inr (awaits.room _ (by omega))
  have takes : world.runWorker key worker = _ := runWorker_takes awaits.reading arrived (by simp)
  have fed : worker.line.feed world.memory (front ++ lineFeed :: tail) = _ :=
    LineBuffer.feed_complete awaits.going awaits.clean room
  simp only [Worker.take, fed, Worker.dispatch, awaits.parsed] at takes
  cases prepared : (Request.exchange command worker.cursor).prepare world.memory with
  | error error =>
      simp only [prepared] at takes
      refine ⟨_, _, (steps_run_once found).trans takes, rfl, rfl, ?_, ?_⟩
      · simp only [Worker.pointWith, prepared, Worker.refuse]
      · obtain ⟨bytes, rfl⟩ := Request.prepare_fails prepared
        intro waited
        split <;> simp [Worker.refuse]
  | ok done =>
      simp only [prepared] at takes
      refine ⟨_, _, (steps_run_once found).trans takes, rfl, rfl, ?_, ?_⟩
      · simp only [Worker.pointWith, prepared]
      · intro waited
        split <;> simp

theorem reads_part (awaits : worker.Awaits world.memory front command)
    (positive : 1 ≤ worker.readBuffer) (long : worker.readBuffer ≤ front.length)
    (incoming : worker.stream.incoming = [.bytes (front ++ lineFeed :: behind)]) :
    world.runWorker key worker = some (world.putWorker key
      (worker.hasTaken (front.take worker.readBuffer)
        [.bytes (front.drop worker.readBuffer ++ lineFeed :: behind)])) := by
  have filled : front.take worker.readBuffer ≠ [] := by
    rw [← List.length_pos_iff, List.length_take]
    omega
  have grows : world.memory.growsLine worker.line.pending.length
      (front.take worker.readBuffer).length = true := by
    simp only [Memory.growsLine, Bool.or_eq_true]
    exact Or.inr (awaits.room _ (by rw [List.length_take]; omega))
  have takes : world.runWorker key worker = _ :=
    runWorker_takes awaits.reading (receive?_goes_on incoming long) filled
  have clean : lineFeed ∉ front.take worker.readBuffer :=
    fun member => awaits.clean (List.mem_of_mem_take member)
  have open_ended : (worker.line.pending ++ front.take worker.readBuffer).getLast? ≠ some lineFeed := by
    rw [List.getLast?_append_of_ne_nil _ filled]
    exact fun last => clean (List.mem_of_getLast? last)
  simp only [Worker.take, LineBuffer.feed_open awaits.going clean open_ended grows, report_nil] at takes
  exact takes

theorem reads_line (size : Nat) {world : World} {worker : Worker} {front : Bytes}
    (short : front.length ≤ size) (found : world.worker? key = some worker)
    (awaits : worker.Awaits world.memory front command) (positive : 1 ≤ worker.readBuffer)
    (incoming : worker.stream.incoming = [.bytes (front ++ lineFeed :: behind)]) :
    ∃ count last told, world.HasRead key worker command count last told := by
  induction size generalizing world worker front with
  | zero => exact ⟨1, reads_last found awaits (by omega) incoming⟩
  | succ size ih =>
      by_cases fits : front.length < worker.readBuffer
      · exact ⟨1, reads_last found awaits fits incoming⟩
      · have took : world.runWorker key worker = _ := reads_part awaits positive (by omega) incoming
        have whole : front.take worker.readBuffer ++ front.drop worker.readBuffer = front :=
          List.take_append_drop _ _
        rw [← whole] at awaits
        -- What is left of the line is shorter.
        obtain ⟨count, last, told, read⟩ := ih (by rw [List.length_drop]; omega)
          (worker?_putWorker world key (worker.hasTaken (front.take worker.readBuffer)
            [.bytes (front.drop worker.readBuffer ++ lineFeed :: behind)]))
          (awaits.hasTaken _) positive rfl
        exact ⟨count + 1, last, told, read.more found took⟩

theorem conclude_holding (worker : Worker) (command : Command) (answer : Except LogError Reply) :
    { worker with point := .holding command }.conclude command answer = worker.conclude command answer := by
  cases answer <;> rfl

def afterTurn (world : World) (key : Key) (worker : Worker) (command : Command) : World :=
  let served := world.log.exchange world.memory worker.cursor command
  let concluded := worker.conclude command served.answer
  ({ world with log := served.log }.putWorker key concluded.1).report
    (Event.ofDisplaced served.displaced ++ concluded.2)

theorem serves_asked (found : world.worker? key = some worker)
    (asks : worker.point = .requesting command) (free : world.lock = {}) :
    world.steps (List.replicate 2 (.run key)) = some (world.afterTurn key worker command) := by
  have first : world.step (.run key) = some ({ world with lock := ⟨some (.task key), []⟩ }.putWorker key
      { worker with point := .holding command }) := by
    rw [step, run_of_worker? found]
    simp [runWorker, asks, askLog, free, Lock.request, holdsLog, Lock.isHeldBy]
  rw [List.replicate_succ, List.replicate_one, steps, first, Option.bind_some, steps, step,
    run_of_worker? (worker?_putWorker _ key _)]
  have given : (⟨some (.task key), []⟩ : Lock).release = world.lock := by rw [free, Lock.release]
  simp only [runWorker, conclude_holding, returnLog, report, putWorker, putTask, given]
  simp only [Table.put_put, List.append_assoc, Option.bind_some, steps]
  rfl

/-- A command has been served as told, at the same moment, and nobody but its session and the log had a
part in it. -/
structure ServedAtOnce (world : World) (key : Key) (worker : Worker) (served : Served Answer)
    (next : World) (after : Worker) : Prop where
  log : next.log = served.log
  clock : next.clock = world.clock
  lock : next.lock = world.lock
  found : next.worker? key = some after
  cursor : after.cursor = Answer.cursorAfter worker.cursor served.answer
  reply : after.point = .sending (Answer.sent served.answer)
  inTime : ∃ told, next.journal = world.journal ++ told ∧
    ∀ waited, .commandFailed worker.identity (.log (.lockTimeout waited)) ∉ told
  others : ∀ other, other ≠ key → Table.find? other next.tasks = Table.find? other world.tasks

theorem answer_prepared {memory : Memory} {command : Command} {cursor : Nat}
    (prepared : (Request.exchange command cursor).prepare memory = .ok ()) (log : Log) :
    log.answer memory .granted (.exchange command cursor) =
      (log.exchange memory cursor command).map .reply := by
  simp only [Log.answer, prepared, Log.serve]

theorem exchange_inTime {memory : Memory} {log : Log} {cursor : Nat} {command : Command}
    {waited : Duration} : (log.exchange memory cursor command).answer ≠ .error (.lockTimeout waited) := by
  have copies (content : Log) (start cursor : Nat) :
      (content.snapshot memory start).map (Reply.mk · cursor) ≠ .error (.lockTimeout waited) := by
    simp only [Log.snapshot]
    split <;> simp [Except.map]
  cases command with
  | write bytes => exact copies _ _ _
  | seek index offset =>
      simp only [Log.exchange]
      split
      · simp
      · exact copies _ _ _

theorem conclude_answer (worker : Worker) (command : Command) (answer : Except LogError Reply) :
    (worker.conclude command answer).1.cursor =
        Answer.cursorAfter worker.cursor (answer.map Answer.reply) ∧
      (worker.conclude command answer).1.point = .sending (Answer.sent (answer.map Answer.reply)) := by
  cases answer <;> exact ⟨rfl, rfl⟩

theorem conclude_inTime {command : Command} {answer : Except LogError Reply} {identity : Identity}
    {waited : Duration} (inTime : answer ≠ .error (.lockTimeout waited)) :
    .commandFailed identity (.log (.lockTimeout waited)) ∉ (worker.conclude command answer).2 := by
  cases answer with
  | ok reply => cases command <;> simp [Worker.conclude]
  | error error =>
      simp only [Worker.conclude, Worker.refuse, List.mem_singleton, Event.commandFailed.injEq,
        CommandError.log.injEq, not_and]
      rintro - rfl
      exact inTime rfl

theorem find?_put (world : World) {key other : Key} (apart : other ≠ key) (worker : Worker) :
    Table.find? other (world.putWorker key worker).tasks = Table.find? other world.tasks :=
  Table.find?_put_other _ _ apart

theorem HasRead.refused {last : Worker} {count : Nat} {told : List Event} {error : LogError}
    (read : world.HasRead key worker command count last told)
    (failed : (Request.exchange command worker.cursor).prepare world.memory = .error error) :
    world.ServedAtOnce key worker
      (world.log.answer world.memory .granted (.exchange command worker.cursor))
      ((world.putWorker key last).report told) last := by
  have answered : world.log.answer world.memory .granted (.exchange command worker.cursor) =
      ⟨world.log, none, .error error⟩ := by
    simp only [Log.answer, failed]
  have sends : last.point = .sending [] := by
    rw [read.point, Worker.pointWith, failed]
  rw [answered]
  exact ⟨rfl, rfl, rfl, worker?_putWorker world key last, read.cursor, sends,
    ⟨told, rfl, read.inTime⟩, fun other apart => find?_put world apart last⟩

theorem HasRead.asks {last : Worker} {count : Nat} {told : List Event}
    (read : world.HasRead key worker command count last told) (free : world.lock = {})
    (prepared : (Request.exchange command worker.cursor).prepare world.memory = .ok ()) :
    world.steps (List.replicate (count + 2) (.run key)) =
      some (((world.putWorker key last).report told).afterTurn key last command) := by
  have asks : last.point = .requesting command := by
    rw [read.point, Worker.pointWith, prepared]
  rw [List.replicate_add, steps_append, read.steps, Option.bind_some]
  exact serves_asked (worker?_putWorker world key last) asks free

theorem HasRead.served {last : Worker} {count : Nat} {told : List Event}
    (read : world.HasRead key worker command count last told)
    (prepared : (Request.exchange command worker.cursor).prepare world.memory = .ok ()) :
    world.ServedAtOnce key worker
      (world.log.answer world.memory .granted (.exchange command worker.cursor))
      (((world.putWorker key last).report told).afterTurn key last command)
      (last.conclude command (world.log.exchange world.memory last.cursor command).answer).1 := by
  have identity : last.identity = worker.identity := congrArg Session.toIdentity read.session
  have answered :=
    conclude_answer last command (world.log.exchange world.memory last.cursor command).answer
  rw [answer_prepared prepared, ← read.cursor]
  refine ⟨rfl, rfl, rfl, worker?_putWorker _ key _, ?_, answered.2, ?_, ?_⟩
  · rw [← read.cursor]
    exact answered.1
  · refine ⟨_, List.append_assoc world.journal told _, fun waited => ?_⟩
    rw [← identity]
    simp only [List.mem_append, not_or]
    refine ⟨identity ▸ read.inTime waited, ?_, conclude_inTime exchange_inTime⟩
    cases (Log.exchange _ _ _ _).displaced <;> simp [Event.ofDisplaced]
  · intro other apart
    exact (find?_put _ apart _).trans (find?_put world apart last)

theorem serves_arrived (found : world.worker? key = some worker) (intact : worker.Intact)
    (free : world.lock = {}) (unread : worker.stream.incoming = [])
    (awaits : worker.Awaits world.memory front command) :
    ∃ count next after, world.steps (.arrive key (.bytes (front ++ lineFeed :: behind)) ::
        List.replicate count (.run key)) = some next ∧
      world.ServedAtOnce key worker
        (world.log.answer world.memory .granted (.exchange command worker.cursor)) next after := by
  have listening : worker.stream.isDropped = false :=
    intact.listens (by simp only [Worker.isEnded, awaits.reading])
  have arrives : world.step (.arrive key (.bytes (front ++ lineFeed :: behind))) =
      some (world.putWorker key (worker.toRead [.bytes (front ++ lineFeed :: behind)])) := by
    simp [step, changeStream, found, Stream.arrive, listening, unread, Worker.toRead]
  generalize heard : worker.toRead [.bytes (front ++ lineFeed :: behind)] = listener at arrives
  -- All that is served is the same before and after the arrival.
  have same {next : World} {after : Worker} {served : Served Answer}
      (atOnce : (world.putWorker key listener).ServedAtOnce key listener served next after) :
      world.ServedAtOnce key worker served next after := by
    subst heard
    exact { atOnce with
      others := fun other apart => (atOnce.others other apart).trans (find?_put world apart _) }
  obtain ⟨count, last, told, read⟩ : ∃ count last told,
      (world.putWorker key listener).HasRead key listener command count last told := by
    subst heard
    exact reads_line front.length (Nat.le_refl _) (worker?_putWorker world key _)
      (awaits.toRead _) intact.reads rfl
  have cursor : listener.cursor = worker.cursor := heard ▸ rfl
  rw [← cursor]
  cases prepared : (Request.exchange command listener.cursor).prepare world.memory with
  | error error =>
      exact ⟨count, _, last, by rw [steps, arrives, Option.bind_some, read.steps],
        same (read.refused prepared)⟩
  | ok done =>
      exact ⟨count + 2, _, _, by rw [steps, arrives, Option.bind_some, read.asks free prepared],
        same (read.served prepared)⟩

/-- Nobody who waits for the connection keeps others from the log; and in a world where all tasks wait
and the lock is not held elsewhere nobody waits for the log, so that a command that arrives is served at
once from the log as it is then. -/
theorem never_blocked (launches : ∀ action, action ∈ actions → action.LaunchesNew)
    (ran : (initial log lockTimeout readBuffer).steps actions = some final) :
    (∀ key worker, final.worker? key = some worker → worker.point.isOnStream = true →
      final.lock.holder ≠ some (.task key) ∧ ∀ waiter, waiter ∈ final.lock.queue → waiter.key ≠ key) ∧
    (final.isQuiet = true → final.lock.holder ≠ some .outsider →
      final.lock.holder = none ∧ final.lock.queue = [] ∧
      (∀ key worker command, final.worker? key = some worker → worker.point ≠ .waiting command) ∧
      (∀ key call, final.call? key = some call → call.point ≠ .waiting) ∧
      ∀ key worker front behind command, final.worker? key = some worker →
        worker.Awaits final.memory front command →
        ∃ count next after, final.steps (.arrive key (.bytes (front ++ lineFeed :: behind)) ::
            List.replicate count (.run key)) = some next ∧
          final.ServedAtOnce key worker
            (final.log.answer final.memory .granted (.exchange command worker.cursor)) next after) := by
  have held := (agrees_run (fun action member => (launches action member).startsAnew) ran).inLine
  refine ⟨fun key worker found onStream => ?_, fun quiet inside => ?_⟩
  · have stood : final.view.standing key = (Task.session worker).standing :=
      standing_of_find? (find?_of_worker? found)
    have idle : (final.view.standing key).engaged = false := by
      rw [stood]
      cases point : worker.point <;> simp_all [Point.isOnStream, Task.standing, Standing.engaged]
    obtain ⟨notHolder, notWaiting⟩ := held.free_of_not_engaged idle
    refine ⟨notHolder, fun waiter queued => ?_⟩
    obtain ⟨wait, member, _, rfl⟩ := held.line.mem_queue.mp queued
    exact notWaiting wait member
  · -- A holder that is a task could go on, so in a quiet world there is none, and nobody waits.
    obtain ⟨free, nobody⟩ := free_of_quiet held quiet inside
    refine ⟨by rw [free], by rw [free], ?_, ?_, ?_⟩
    · intro key worker command found waiting
      have stands := nobody key
      rw [standing_of_find? (find?_of_worker? found)] at stands
      simp [Task.standing, waiting] at stands
    · intro key call found waiting
      have stands := nobody key
      rw [standing_of_find? (find?_of_call? found)] at stands
      simp [Task.standing, waiting] at stands
    · intro key worker front behind command found awaits
      have unread : worker.stream.incoming = [] := by
        have stuck := run_of_quiet quiet key
        rw [run_of_worker? found, runWorker, awaits.reading] at stuck
        exact unread_of_receive? (by simpa [Worker.receive?] using stuck)
      exact serves_arrived found (intact_run launches ran found) free unread awaits

/-- One client's connection takes nothing of the reply to it. Commands may not wait for the log at all. -/
def oneStalls : List Action :=
  [.spawn 0 none, .spawn 1 none, .run 0, .run 1, .setWrite 0 .stalled, .arrive 0 (.bytes [97, 10]),
    .run 0, .run 0, .run 0, .arrive 1 (.bytes [98]), .run 1]

theorem never_blocked_oneStalls :
    let start := initial (Ring.empty 2) (.ofSeconds 0) 64
    ∃ final count next, ∃ after : Worker, (∀ action, action ∈ oneStalls → action.LaunchesNew) ∧
      start.steps oneStalls = some final ∧ final.isQuiet = true ∧
      (final.worker? 0).map Worker.point = some (.sending [97, 10]) ∧ final.lock.holder = none ∧
      final.steps (.arrive 1 (.bytes [99, 10]) :: List.replicate count (.run 1)) = some next ∧
      next.log.toList = [[97, 10], [98, 99, 10]] ∧ next.clock = final.clock ∧
      after.point = .sending [97, 10, 98, 99, 10] := by
  intro start
  have launches : ∀ action, action ∈ oneStalls → action.LaunchesNew := by
    simp [oneStalls, Action.LaunchesNew]
  have runs : (start.steps oneStalls).isSome := by decide +kernel
  obtain ⟨final, ran⟩ := Option.isSome_iff_exists.mp runs
  have seen : (start.steps oneStalls).map (fun world =>
      (world.isQuiet, world.lock.holder, (world.worker? 0).map Worker.point)) =
        some (true, none, some (.sending [97, 10])) := by decide +kernel
  have receiver : ((start.steps oneStalls).bind (·.worker? 1)).map (fun worker =>
      (worker.point, worker.line, worker.cursor)) = some (.receiving, ⟨[98], false⟩, 0) := by decide +kernel
  have served : (start.steps oneStalls).map (fun world =>
      let served := world.log.answer .unlimited .granted (.exchange (.write [98, 99, 10]) 0)
      (served.log.toList, Answer.sent served.answer)) =
        some ([[97, 10], [98, 99, 10]], [97, 10, 98, 99, 10]) := by decide +kernel
  have memory : final.memory = .unlimited :=
    memory_run (fun action member => (launches action member).startsAnew) (by simp [oneStalls]) ran
  rw [ran, Option.map_some, Option.some.injEq, Prod.mk.injEq, Prod.mk.injEq] at seen
  rw [ran, Option.bind_some] at receiver
  rw [ran, Option.map_some, Option.some.injEq, Prod.mk.injEq] at served
  obtain ⟨quiet, free, stalled⟩ := seen
  obtain ⟨worker, found, state⟩ := Option.map_eq_some_iff.mp receiver
  obtain ⟨reading, line, cursor⟩ : worker.point = .receiving ∧ worker.line = ⟨[98], false⟩ ∧
      worker.cursor = 0 := by simpa using state
  obtain ⟨_, _, _, _, _, serves⟩ :=
    (never_blocked launches ran).imp id fun responsive => responsive quiet (by simp [free])
  have awaits : worker.Awaits final.memory [99] (.write [98, 99, 10]) :=
    ⟨reading, by rw [line], by decide, by simp [memory, Memory.unlimited], by rw [line]; decide +kernel⟩
  obtain ⟨count, next, after, goes, atOnce⟩ := serves 1 worker [99] [] (.write [98, 99, 10]) found awaits
  rw [memory, cursor] at atOnce
  exact ⟨final, count, next, after, launches, ran, quiet, stalled, free, goes,
    by rw [atOnce.log, served.1], atOnce.clock, by rw [atOnce.reply, served.2]⟩

end World

end CommandLog
