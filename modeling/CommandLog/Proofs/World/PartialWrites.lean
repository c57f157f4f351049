import CommandLog.Proofs.World.Delivery
import CommandLog.Proofs.World.Run

/-!
Connections that take what they are sent in parts. As long as a connection takes some of it each time,
how much it takes makes no difference: two runs with the same reads and the same cycles of the lock end
with the same log, and their clients have received the same.
-/

namespace CommandLog

/-- The connection takes some bytes of each write, and every flush. -/
structure Stream.Takes (stream : Stream) : Prop where
  write : stream.onWrite = .all ∨ ∃ count, stream.onWrite = .atMost (count + 1)
  flush : stream.onFlush = .ready

def Action.Takes (key : Key) : Action → Prop
  | .setWrite other mode => other = key → mode = .all ∨ ∃ count, mode = .atMost (count + 1)
  | .setFlush other readiness => other = key → readiness = .ready
  | _ => True

namespace Stream

variable {stream next : Stream}

theorem Takes.congr (takes : stream.Takes) (write : next.onWrite = stream.onWrite)
    (flush : next.onFlush = stream.onFlush) : next.Takes :=
  ⟨write ▸ takes.write, flush ▸ takes.flush⟩

theorem Takes.write? {data : Bytes} (takes : stream.Takes) (filled : data ≠ []) :
    ∃ count, stream.write? data =
      some (.ok count, { stream with output := stream.output ++ data.take count }) := by
  have positive : data.length ≠ 0 := by simpa using filled
  rcases takes.write with all | ⟨count, atMost⟩
  · exact ⟨data.length, by simp [Stream.write?, all, positive]⟩
  · have some_taken : min (count + 1) data.length ≠ 0 := by omega
    exact ⟨min (count + 1) data.length, by simp only [Stream.write?, atMost, if_neg some_taken]⟩

theorem Takes.flush? (takes : stream.Takes) :
    stream.flush? = some (.ok (), { stream with flushes := stream.flushes + 1 }) := by
  simp only [Stream.flush?, takes.flush]

theorem Takes.receive? {size : Nat} {item : Incoming} (takes : stream.Takes)
    (received : stream.receive? size = some (item, next)) : next.Takes := by
  obtain ⟨incoming, rfl⟩ := receive?_eq received
  exact takes.congr rfl rfl

theorem Takes.shutDown? {outcome : Except StreamError Unit} (takes : stream.Takes)
    (shut : stream.shutDown? = some (outcome, next)) : next.Takes := by
  obtain ⟨isShutDown, rfl⟩ := shutDown?_eq shut
  exact takes.congr rfl rfl

end Stream

def Point.isSending : Point → Bool
  | .sending _ | .flushing => true
  | _ => false

structure Worker.Square (past : List Deed) (worker : Worker) : Prop where
  takes : worker.stream.Takes
  done : ∀ result, worker.point = .closing result ∨ worker.isEnded = true →
    Progress.reading.Delivers past

namespace Worker

variable {past : List Deed} {world : World} {worker before after : Worker} {told : List Event}

theorem square_create (identity : Identity) (origin : Origin) (readBuffer : Nat) :
    (create identity origin readBuffer).Square [] :=
  ⟨⟨Or.inl rfl, rfl⟩, fun _ _ => ⟨rfl, rfl⟩⟩

theorem Square.delivers (square : worker.Square past) (account : worker.Account past)
    (between : worker.point.isSending = false) : Progress.reading.Delivers past := by
  have stands := account.stands
  cases point : worker.point with
  | fresh =>
      rw [point] at stands
      rw [stands.1]
      exact ⟨rfl, rfl⟩
  | receiving =>
      rw [point] at stands
      exact Exchanges.delivers stands
  | requesting command | waiting command | holding command =>
      rw [point] at stands
      obtain ⟨text, asking, _⟩ := stands
      exact asking.delivers
  | sending rest | flushing => simp [point, Point.isSending] at between
  | closing result => exact square.done result (Or.inl point)
  | ended ending => exact square.done (.ok ()) (Or.inr (by simp [isEnded, point]))

theorem Square.finish (square : worker.Square past) (account : worker.Account past)
    (between : worker.point.isSending = false) (ending : Ending) :
    (worker.finish ending).Square past :=
  ⟨square.takes.congr rfl rfl, fun _ _ => square.delivers account between⟩

theorem delivers_read {memory : Memory} {item : Incoming} {point : Point}
    (delivers : Progress.reading.Delivers past) (silent : point.reply = []) :
    Progress.reading.Delivers (past ++ .reads memory item :: point.reply) := by
  rw [silent]
  simpa [Progress.Delivers] using delivers

theorem Step.square (step : Step world before after told) (account : before.Account past)
    (square : before.Square past) : after.Square (past ++ before.deeds world.memory after) := by
  have stands := account.stands
  cases step with
  | start point =>
      exact ⟨square.takes, by rintro result (closing | ended) <;> contradiction⟩
  | leave point arrived ends | «break» point arrived | crash point arrived =>
      rw [point] at stands
      rw [deeds_receiving point arrived]
      refine ⟨(square.takes.receive? arrived).congr rfl rfl, fun _ _ => ?_⟩
      exact delivers_read (Exchanges.delivers stands) rfl
  | read point arrived filled fed incomplete =>
      refine ⟨square.takes.receive? arrived, ?_⟩
      rintro result (closing | ended)
      · simp [point] at closing
      · simp [isEnded, point] at ended
  | refuse point arrived | ask point arrived =>
      exact ⟨square.takes.receive? arrived, by rintro result (closing | ended) <;> contradiction⟩
  | take point | wait point | wake point | expire point | conclude point | sent point =>
      exact ⟨square.takes, by rintro result (closing | ended) <;> contradiction⟩
  | send point filled written =>
      obtain ⟨count, taken⟩ := square.takes.write? filled
      rw [written] at taken
      cases taken
      exact ⟨square.takes.congr rfl rfl, by rintro result (closing | ended) <;> contradiction⟩
  | sendFails point filled written =>
      obtain ⟨count, taken⟩ := square.takes.write? filled
      rw [written] at taken
      cases taken
  | flush point flushed =>
      rw [square.takes.flush?] at flushed
      cases flushed
      exact ⟨square.takes.congr rfl rfl, by rintro result (closing | ended) <;> contradiction⟩
  | flushFails point flushed =>
      rw [square.takes.flush?] at flushed
      cases flushed
  | @shut result _ _ _ point shut =>
      rw [deeds_apart (by simp [point]) (by simp [performs, point])]
      refine ⟨(square.takes.shutDown? shut).congr rfl rfl, fun _ _ => ?_⟩
      rw [show Point.reply _ = [] from rfl, List.append_nil]
      exact square.done result (Or.inl point)

end Worker

theorem eq_of_map_eq {α β : Type} {first second : List α} {look : α → β} (back : β → α)
    (found : ∀ value, value ∈ first → back (look value) = value)
    (foundToo : ∀ value, value ∈ second → back (look value) = value)
    (same : first.map look = second.map look) : first = second := by
  have restored {values : List α} (found : ∀ value, value ∈ values → back (look value) = value) :
      (values.map look).map back = values := by
    rw [List.map_map]
    exact (List.map_congr_left found).trans values.map_id
  rw [← restored found, same, restored foundToo]

theorem memory_of_reads {key : Key} {past : List Passage} {read : Memory × Incoming}
    (granted : ∀ passage ∈ past, passage.before.memory = .unlimited)
    (member : read ∈ reads (deeds key past)) : read.1 = .unlimited := by
  obtain ⟨deed, done, same⟩ := List.mem_filterMap.mp member
  obtain ⟨passage, passed, mine⟩ := List.mem_flatMap.mp done
  cases deed with
  | reads memory item =>
      cases same
      rw [← granted passage passed]
      simp only [Passage.deeds] at mine
      split at mine
      · split at mine
        · exact Worker.memory_of_reads mine
        · cases mine
      · cases mine
  | _ => cases same

/-- A cycle without the memory that it meets: whose it is, and whether the log was had; or what is asked. -/
def Cycle.bare : Cycle → (Key × Bool) ⊕ Request
  | .serves key _ => .inl (key, true)
  | .expires key => .inl (key, false)
  | .answers _ request => .inr request

def Cycle.granted : (Key × Bool) ⊕ Request → Cycle
  | .inl (key, true) => .serves key .unlimited
  | .inl (key, false) => .expires key
  | .inr request => .answers .unlimited request

theorem Passage.granted_cycle {passage : Passage} {cycle : Cycle}
    (granted : passage.before.memory = .unlimited) (takes : passage.cycle? = some cycle) :
    Cycle.granted cycle.bare = cycle := by
  simp only [cycle?, granted] at takes
  split at takes
  · split at takes
    · simp only [Worker.cycle?] at takes
      split at takes <;> cases takes <;> rfl
    · simp only [Call.cycle?] at takes
      split at takes <;> cases takes
      rfl
    · cases takes
  · cases takes

section Granted

variable {past other : List Passage} {key : Key}

theorem reads_eq_of_items (granted : ∀ passage ∈ past, passage.before.memory = .unlimited)
    (grantedToo : ∀ passage ∈ other, passage.before.memory = .unlimited)
    (same : (reads (deeds key past)).map Prod.snd = (reads (deeds key other)).map Prod.snd) :
    reads (deeds key past) = reads (deeds key other) := by
  refine eq_of_map_eq (fun item => (.unlimited, item)) ?_ ?_ same
  · exact fun read member => Prod.ext (memory_of_reads granted member).symm rfl
  · exact fun read member => Prod.ext (memory_of_reads grantedToo member).symm rfl

theorem granted_of_mem_cycles {cycle : Cycle}
    (granted : ∀ passage ∈ past, passage.before.memory = .unlimited) (member : cycle ∈ cycles past) :
    Cycle.granted cycle.bare = cycle := by
  obtain ⟨passage, passed, takes⟩ := List.mem_filterMap.mp member
  exact passage.granted_cycle (granted passage passed) takes

theorem cycles_eq_of_bare (granted : ∀ passage ∈ past, passage.before.memory = .unlimited)
    (grantedToo : ∀ passage ∈ other, passage.before.memory = .unlimited)
    (same : (cycles past).map Cycle.bare = (cycles other).map Cycle.bare) : cycles past = cycles other :=
  eq_of_map_eq Cycle.granted (fun _ => granted_of_mem_cycles granted)
    (fun _ => granted_of_mem_cycles grantedToo) same

end Granted

namespace World

def IsBetween (world : World) (key : Key) : Prop :=
  ∀ worker, world.worker? key = some worker → worker.point.isSending = false

def Squares (past : List Passage) (world : World) (key : Key) : Prop :=
  match world.worker? key with
  | none => deeds key past = []
  | some worker => worker.Account (deeds key past) ∧ worker.Square (deeds key past)

variable {log : Log} {lockTimeout : Duration} {readBuffer : Nat} {action : Action}
variable {actions others : List Action} {world next final otherwise : World} {key : Key}
variable {past : List Passage} {worker : Worker}

theorem changes_take {change : Stream → Stream} (changes : action.change? key = some change)
    (takes : action.Takes key) {stream : Stream} (able : stream.Takes) : (change stream).Takes := by
  cases Action.changes_of_change? changes with
  | arrive =>
      simp only [Stream.arrive]
      split
      · exact able
      · exact able.congr rfl rfl
  | setWrite => exact ⟨takes rfl, able.flush⟩
  | setFlush => exact ⟨able.write, takes rfl⟩
  | setShutdown => exact able.congr rfl rfl

theorem Squares.of_some (squares : world.Squares past key) (found : world.worker? key = some worker) :
    worker.Account (deeds key past) ∧ worker.Square (deeds key past) := by
  simpa only [Squares, found] using squares

theorem Fates.squares (fates : world.Fates action key next) (takes : action.Takes key)
    (between : action = .look → world.IsBetween key) (squares : world.Squares past key) :
    next.Squares (past ++ [⟨world, action, next⟩]) key := by
  refine fates.deeds_induction (fun past found => match found with
    | none => past = []
    | some worker => worker.Account past ∧ worker.Square past) squares ?_ ?_ ?_ ?_ ?_
  · intro identity origin readBuffer nothing
    rw [show deeds key past = [] from nothing]
    exact ⟨Worker.account_create _ _ _, Worker.square_create _ _ _⟩
  · rintro worker change changes ⟨account, square⟩
    obtain ⟨output, flushed, _⟩ := changes_keep changes worker.stream
    exact ⟨account.change output flushed, changes_take changes takes square.takes, square.done⟩
  · rintro before after told _ _ _ step ⟨account, square⟩
    exact ⟨step.account account, step.square account square⟩
  · rintro worker looks found going ⟨account, square⟩
    exact ⟨account.aborted going, square.finish account (between looks worker found) .aborted⟩
  · rintro worker _ fresh ⟨account, square⟩
    exact ⟨account.discarded fresh, square.finish account (by simp [fresh, Point.isSending]) .discarded⟩

/-- The connection takes all that it is sent, and the session is neither stopped in the middle of a
reply nor in the middle of one now. -/
structure Undisturbed (key : Key) (actions : List Action) (past : List Passage) (final : World) :
    Prop where
  takes : ∀ action, action ∈ actions → action.Takes key
  stopped : ∀ passage, passage ∈ past → passage.action = .look → passage.before.IsBetween key
  rests : final.IsBetween key

theorem squares_run (launches : ∀ action, action ∈ actions → action.LaunchesNew)
    (takes : ∀ action, action ∈ actions → action.Takes key)
    (stopped : ∀ passage, passage ∈ (initial log lockTimeout readBuffer).passages actions →
      passage.action = .look → passage.before.IsBetween key)
    (ran : (initial log lockTimeout readBuffer).steps actions = some final) :
    final.Squares ((initial log lockTimeout readBuffer).passages actions) key := by
  refine passages_induction (fun past world => world.Squares past key) rfl ?_ ran
  intro early action late world next split reached squares stepped
  have member : action ∈ actions := split ▸ List.mem_append_right early List.mem_cons_self
  have fates := step_fate (launches action member) stepped key
  refine fates.squares (takes action member) (fun looks => ?_) squares
  refine stopped ⟨world, action, next⟩ ?_ looks
  rw [split, passages_append reached]
  simp [passages, stepped]

theorem Undisturbed.received (launches : ∀ action, action ∈ actions → action.LaunchesNew)
    (ran : (initial log lockTimeout readBuffer).steps actions = some final)
    (undisturbed : Undisturbed key actions ((initial log lockTimeout readBuffer).passages actions)
      final) (found : final.worker? key = some worker) :
    let past := deeds key ((initial log lockTimeout readBuffer).passages actions)
    worker.stream.output = (replies past).flatten ∧ worker.stream.flushes = (replies past).length := by
  obtain ⟨account, square⟩ :=
    (squares_run launches undisturbed.takes undisturbed.stopped ran).of_some found
  obtain ⟨sends, flushed⟩ := square.delivers account (undisturbed.rests worker found)
  exact ⟨account.output.trans sends, account.flushed.trans flushed⟩

theorem isBetween_of_stuck (squares : final.Squares past key) (stuck : final.canRun key = false) :
    final.IsBetween key := by
  intro worker found
  have takes := (squares.of_some found).2.takes
  rw [canRun, run_of_worker? found] at stuck
  simp only [runWorker] at stuck
  cases point : worker.point with
  | sending rest =>
      simp only [point, Worker.send?] at stuck
      split at stuck
      · cases stuck
      · rename_i filled
        have filled : rest ≠ [] := by simpa using filled
        obtain ⟨count, written⟩ := takes.write? filled
        simp [written] at stuck
  | flushing => simp [point, Worker.flush?, takes.flush?] at stuck
  | _ => rfl

theorem Retells.replies_eq {replay : Replay} (retells : world.Retells replay past key) :
    replies (deeds key past) = weave (hearing (deeds key past)).heard (replay.outcomes key) := by
  cases found : world.worker? key with
  | none =>
      simp only [Retells, found] at retells
      rw [retells.1]
      rfl
  | some worker => exact (retells.of_some found).replies

theorem same_of_reads (launches : ∀ action, action ∈ actions → action.LaunchesNew)
    (launchesOthers : ∀ action, action ∈ others → action.LaunchesNew)
    (ran : (initial log lockTimeout readBuffer).steps actions = some final)
    (ranOthers : (initial log lockTimeout readBuffer).steps others = some otherwise)
    (read : ∀ key, reads (deeds key ((initial log lockTimeout readBuffer).passages others)) =
      reads (deeds key ((initial log lockTimeout readBuffer).passages actions)))
    (order : cycles ((initial log lockTimeout readBuffer).passages others) =
      cycles ((initial log lockTimeout readBuffer).passages actions)) :
    otherwise.log = final.log ∧
      ∀ key, replies (deeds key ((initial log lockTimeout readBuffer).passages others)) =
        replies (deeds key ((initial log lockTimeout readBuffer).passages actions)) := by
  have heard (key : Key) :
      hearing (deeds key ((initial log lockTimeout readBuffer).passages others)) =
        hearing (deeds key ((initial log lockTimeout readBuffer).passages actions)) := by
    simp only [hearing, read key]
  have same : asks ((initial log lockTimeout readBuffer).passages others) =
      asks ((initial log lockTimeout readBuffer).passages actions) := by
    funext key
    simp only [asks, heard key]
  obtain ⟨logged, retells⟩ := replay_run launches ran
  obtain ⟨loggedOthers, retellsOthers⟩ := replay_run launchesOthers ranOthers
  rw [same, order] at loggedOthers retellsOthers
  refine ⟨loggedOthers.symm.trans logged, fun key => ?_⟩
  rw [(retellsOthers key).replies_eq, (retells key).replies_eq, heard key]

/-- Whatever a client's connection does, what has been sent to it is always a beginning of the replies
to its commands, one after the other; each reply that has been flushed has been sent in full. A read
that completes a command is followed by one reply, sent and flushed once, before the next read, and any
other read by nothing. A reply is the log's, or empty after a command that is reported to have failed;
a session that closes is reported with as many exchanges as there were flushes. It returns well after a
read of no bytes, and else with the failure of its last operation. Two runs with the same reads and the
same cycles of the lock end with the same log and the same replies, and with the same bytes and flushes
for every session whose connections take, in whatever parts, all that they are sent. -/
theorem clients_receive (launches : ∀ action, action ∈ actions → action.LaunchesNew)
    (ran : (initial log lockTimeout readBuffer).steps actions = some final) :
    let past := (initial log lockTimeout readBuffer).passages actions
    (∀ key worker, final.worker? key = some worker → worker.Delivers (deeds key past)) ∧
    (∀ key early passage late, past = early ++ passage :: late →
      passage.Tells key (deeds key early)) ∧
    (∀ others otherwise, (∀ action, action ∈ others → action.LaunchesNew) →
      (initial log lockTimeout readBuffer).steps others = some otherwise →
      let second := (initial log lockTimeout readBuffer).passages others
      (∀ key, reads (deeds key second) = reads (deeds key past)) → cycles second = cycles past →
      otherwise.log = final.log ∧
      ∀ key, replies (deeds key second) = replies (deeds key past) ∧
        (Undisturbed key actions past final → Undisturbed key others second otherwise →
          ∀ worker other, final.worker? key = some worker → otherwise.worker? key = some other →
            other.stream.output = worker.stream.output ∧
              other.stream.flushes = worker.stream.flushes)) ∧
    (∀ key, (∀ action, action ∈ actions → action.Takes key) →
      (∀ passage, passage ∈ past → passage.action = .look → passage.before.IsBetween key) →
      final.canRun key = false → final.IsBetween key) := by
  refine ⟨?_, ?_, ?_, ?_⟩
  · intro key worker found
    exact ((accounts_run launches ran key).of_some found).delivers
  · intro key early passage late split
    exact tells_run launches split key
  · intro others otherwise launchesOthers ranOthers second read order
    obtain ⟨logged, replied⟩ := same_of_reads launches launchesOthers ran ranOthers read order
    refine ⟨logged, fun key => ⟨replied key, ?_⟩⟩
    intro undisturbed undisturbedOther worker other found foundOther
    obtain ⟨output, flushed⟩ := undisturbed.received launches ran found
    obtain ⟨outputOther, flushedOther⟩ :=
      undisturbedOther.received launchesOthers ranOthers foundOther
    exact ⟨by rw [output, outputOther, replied key], by rw [flushed, flushedOther, replied key]⟩
  · intro key takes stopped stuck
    exact isBetween_of_stuck (squares_run launches takes stopped ran) stuck

/-- One session writes, and another seeks to an entry that there is not. -/
def atOnce : List Action :=
  [.spawn 0 none, .spawn 1 none, .arrive 0 (.bytes [97, 98, 10]),
    .arrive 1 (.bytes (Command.render [10] (.seek 3 0))), .run 0, .run 1, .run 0, .run 1, .run 0,
    .run 0, .run 1, .run 1, .run 1, .run 1, .run 0, .run 0, .run 0]

def inParts : List Action :=
  .spawn 0 none :: .setWrite 0 (.atMost 1) :: atOnce.tail ++ [.run 0, .run 0]

theorem clients_receive_inParts :
    let start := initial (Ring.empty 2) (.ofSeconds 5) 64
    ∃ final otherwise, (∀ action, action ∈ atOnce → action.LaunchesNew) ∧
      start.steps atOnce = some final ∧ (∀ action, action ∈ inParts → action.LaunchesNew) ∧
      start.steps inParts = some otherwise ∧
      (∀ key, reads (deeds key (start.passages inParts)) =
        reads (deeds key (start.passages atOnce))) ∧
      cycles (start.passages inParts) = cycles (start.passages atOnce) ∧
      Undisturbed 0 atOnce (start.passages atOnce) final ∧
      Undisturbed 0 inParts (start.passages inParts) otherwise ∧
      (final.worker? 0).map (·.stream.output) = some [97, 98, 10] ∧
      (final.worker? 1).map (fun worker => (worker.stream.output, worker.stream.flushes)) =
        some ([], 1) ∧
      otherwise.log = final.log ∧
      ∀ worker other, final.worker? 0 = some worker → otherwise.worker? 0 = some other →
        other.stream.output = worker.stream.output ∧
          other.stream.flushes = worker.stream.flushes := by
  intro start
  have runs : (start.steps atOnce).isSome ∧ (start.steps inParts).isSome := by decide +kernel
  obtain ⟨final, ran⟩ := Option.isSome_iff_exists.mp runs.1
  obtain ⟨otherwise, ranOthers⟩ := Option.isSome_iff_exists.mp runs.2
  have launches : ∀ action, action ∈ atOnce → action.LaunchesNew := by
    simp [atOnce, Action.LaunchesNew]
  have launchesOthers : ∀ action, action ∈ inParts → action.LaunchesNew := by
    simp [inParts, atOnce, Action.LaunchesNew]
  have granted : ∀ passage ∈ start.passages atOnce, passage.before.memory = .unlimited :=
    fun passage member => memory_of_mem_passages
      (fun action listed => (launches action listed).startsAnew) (by simp [atOnce]) member
  have grantedToo : ∀ passage ∈ start.passages inParts, passage.before.memory = .unlimited :=
    fun passage member => memory_of_mem_passages
      (fun action listed => (launchesOthers action listed).startsAnew) (by simp [inParts, atOnce]) member
  have read (key : Key) :
      reads (deeds key (start.passages inParts)) = reads (deeds key (start.passages atOnce)) := by
    match key with
    | 0 | 1 => exact reads_eq_of_items grantedToo granted (by decide +kernel)
    | key + 2 =>
        have idle : deeds (key + 2) (start.passages atOnce) = [] := deeds_eq_nil (by simp [atOnce])
        have idleToo : deeds (key + 2) (start.passages inParts) = [] :=
          deeds_eq_nil (by simp [inParts, atOnce])
        rw [idle, idleToo]
  have order : cycles (start.passages inParts) = cycles (start.passages atOnce) :=
    cycles_eq_of_bare grantedToo granted (by decide +kernel)
  have ends : ((start.steps atOnce).bind (·.worker? 0)).map (·.point.isSending) = some false ∧
      ((start.steps inParts).bind (·.worker? 0)).map (·.point.isSending) = some false := by
    decide +kernel
  rw [ran, ranOthers] at ends
  have undisturbed : Undisturbed 0 atOnce (start.passages atOnce) final := by
    refine ⟨by simp [atOnce, Action.Takes], ?_, ?_⟩
    · intro passage member looks
      have listed := action_of_mem_passages member
      rw [looks] at listed
      simp [atOnce] at listed
    · intro worker found
      simpa [found] using ends.1
  have undisturbedToo : Undisturbed 0 inParts (start.passages inParts) otherwise := by
    refine ⟨by simp [inParts, atOnce, Action.Takes], ?_, ?_⟩
    · intro passage member looks
      have listed := action_of_mem_passages member
      rw [looks] at listed
      simp [inParts, atOnce] at listed
    · intro worker found
      simpa [found] using ends.2
  have sent : ((start.steps atOnce).bind (·.worker? 0)).map (·.stream.output) = some [97, 98, 10] ∧
      ((start.steps atOnce).bind (·.worker? 1)).map
        (fun worker => (worker.stream.output, worker.stream.flushes)) = some ([], 1) := by
    decide +kernel
  rw [ran] at sent
  obtain ⟨_, _, two, _⟩ := clients_receive launches ran
  obtain ⟨logged, same⟩ := two inParts otherwise launchesOthers ranOthers read order
  exact ⟨final, otherwise, launches, ran, launchesOthers, ranOthers, read, order, undisturbed,
    undisturbedToo, sent.1, sent.2, logged, (same 0).2 undisturbed undisturbedToo⟩

end World

end CommandLog
