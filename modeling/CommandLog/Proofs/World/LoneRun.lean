import CommandLog.Proofs.World.Arrivals
import CommandLog.Proofs.World.Dialogue
import CommandLog.Proofs.World.Isolation

/-!
Runs in which one session has the log to itself and goes on for as long as it can. Such a session reads all
that its client sends before the end of the stream, whatever the parts in which it reads it, and returns.
-/

namespace CommandLog

/-- Nobody has stopped the worker, nor dropped it before it was started, and its connection lets itself be
shut down. -/
structure Worker.Unhindered (worker : Worker) : Prop where
  shuts : worker.stream.onShutdown ≠ .stalled
  unstopped : worker.point ≠ .ended .aborted
  started : worker.point = .ended .discarded → worker.origin = .nobody

namespace Worker

variable {world : World} {before after : Worker} {told : List Event}

theorem Step.unhindered (step : Step world before after told) (unhindered : before.Unhindered) :
    after.Unhindered := by
  have shuts := unhindered.shuts
  have stays (kept : after.stream.onShutdown = before.stream.onShutdown)
      (unstopped : after.point ≠ .ended .aborted) (used : after.point ≠ .ended .discarded) :
      after.Unhindered := ⟨kept ▸ shuts, unstopped, fun gone => absurd gone used⟩
  cases step with
  | start | take | wait | wake | expire | conclude | sent =>
      exact stays rfl (by simp [Worker.start, enter]) (by simp [Worker.start, enter])
  | leave point arrived | «break» point arrived | crash point arrived | refuse point arrived
  | ask point arrived =>
      obtain ⟨_, rfl⟩ := Stream.receive?_eq arrived
      exact stays rfl (by simp [close, finish, enter]) (by simp [close, finish, enter])
  | read point arrived =>
      obtain ⟨_, rfl⟩ := Stream.receive?_eq arrived
      exact stays rfl (by simp [point]) (by simp [point])
  | send point filled written =>
      obtain ⟨_, rfl⟩ := Stream.write?_ok filled written
      exact stays rfl (by simp) (by simp)
  | sendFails point filled written =>
      cases Stream.write?_error written
      exact stays rfl (by simp [close, enter]) (by simp [close, enter])
  | flush point flushed =>
      cases Stream.flush?_ok flushed
      exact stays rfl (by simp) (by simp)
  | flushFails point flushed =>
      cases Stream.flush?_error flushed
      exact stays rfl (by simp [close, enter]) (by simp [close, enter])
  | shut point shut =>
      obtain ⟨_, rfl⟩ := Stream.shutDown?_eq shut
      exact stays rfl (by simp [finish, enter]) (by simp [finish, enter])

end Worker

structure Action.Spares (key : Key) (action : Action) : Prop where
  launches : action.LaunchesNew
  takes : action.Takes key
  shuts : action ≠ .setShutdown key .stalled
  unstopped : action ≠ .look

/-- A run in which nobody else has the log when the session `key` wants it, or changes it, and which goes on
until the session cannot. -/
structure LoneRun (log : Log) where
  lockTimeout : Duration
  readBuffer : Nat
  key : Key
  actions : List Action
  final : World
  ran : (World.initial log lockTimeout readBuffer).steps actions = some final
  spares : ∀ action ∈ actions, action.Spares key
  lone : ∀ passage ∈ (World.initial log lockTimeout readBuffer).passages actions, passage.IsLone key
  started : ∀ worker, final.worker? key = some worker → worker.origin ≠ .nobody
  rests : final.canRun key = false

namespace World

variable {log : Log} {lockTimeout : Duration} {readBuffer : Nat} {action : Action}
variable {actions : List Action} {world next final : World} {key : Key} {worker : Worker}

theorem change_unhindered {change : Stream → Stream} (changes : action.change? key = some change)
    (spares : action.Spares key) (unhindered : worker.Unhindered) :
    ({ worker with stream := change worker.stream } : Worker).Unhindered := by
  refine ⟨?_, unhindered.unstopped, unhindered.started⟩
  cases Action.changes_of_change? changes with
  | arrive =>
      simp only [Stream.arrive]
      split <;> exact unhindered.shuts
  | setWrite | setFlush => exact unhindered.shuts
  | setShutdown => exact fun stalled => spares.shuts (congrArg (Action.setShutdown key) stalled)

theorem unhindered_run (spares : ∀ action ∈ actions, action.Spares key)
    (ran : (initial log lockTimeout readBuffer).steps actions = some final) :
    ∀ worker, final.worker? key = some worker → worker.Unhindered := by
  refine passages_induction (fun _ world => ∀ worker, world.worker? key = some worker →
    worker.Unhindered) (fun _ found => by cases found) ?_ ran
  intro early action late world next split reached held stepped worker found
  have spared := spares action (split ▸ List.mem_append_right early List.mem_cons_self)
  have fates := step_fate spared.launches stepped key
  rw [Fates, found] at fates
  generalize present : world.worker? key = before at fates
  cases fates with
  | same => exact held worker present
  | new => exact ⟨by simp [Worker.create], by simp [Worker.create], by simp [Worker.create]⟩
  | change changes => exact change_unhindered changes spared (held _ present)
  | run _ step => exact step.unhindered (held _ present)
  | abort looks => exact absurd looks spared.unstopped
  | discard _ nobody _ =>
      exact ⟨(held _ present).shuts, by simp [Worker.finish, Worker.enter], fun _ => nobody⟩

theorem converses_run (launches : ∀ action, action ∈ actions → action.LaunchesNew)
    (lone : ∀ passage ∈ (initial log lockTimeout readBuffer).passages actions, passage.IsLone key)
    (ran : (initial log lockTimeout readBuffer).steps actions = some final) :
    ∃ served, final.Converses log served ((initial log lockTimeout readBuffer).passages actions) key := by
  refine passages_induction (fun past world => (∀ passage ∈ past, passage.IsLone key) →
    ∃ served, world.Converses log served past key) ?_ ?_ ran lone
  · exact fun _ => ⟨[], rfl, ⟨rfl, rfl, rfl⟩, List.nil_prefix, fun _ _ found => by cases found⟩
  · intro early action late world next split reached held stepped lone
    rw [List.forall_mem_append, List.forall_mem_singleton] at lone
    obtain ⟨served, converses⟩ := held lone.1
    exact converses_step (launches action (split ▸ List.mem_append_right early List.mem_cons_self))
      stepped lone.2 converses

end World

theorem Closes.by_read {past : List Deed} {result : Except SessionFailure Unit}
    (closes : Closes past result) (delivers : Progress.reading.Delivers past) :
    ∃ early memory item, past = early ++ [.reads memory item] ∧
      ∀ chunk, chunk ≠ [] → item ≠ .bytes chunk := by
  cases closes with
  | left exchanges ends =>
      refine ⟨_, _, _, rfl, ?_⟩
      rintro chunk filled rfl
      rcases ends with other | empty
      · cases other
      · exact filled (Incoming.bytes.inj empty)
  | unread exchanges => exact ⟨_, _, _, rfl, by simp⟩
  | @unsent past line rest cause exchanges unsent =>
      obtain ⟨done, part, replied, sends, _⟩ := exchanges.delivers
      have all := delivers.1
      rw [sent_concat, replies_concat, replied, sends] at all
      simp [unsent] at all
  | unflushed exchanges =>
      obtain ⟨done, part, replied, _, flushed⟩ := exchanges.delivers
      have all := delivers.2
      rw [flushes_concat, replies_concat, replied, flushed] at all
      simp at all

theorem eq_end_of_split {pieces : List Bytes} {before after : List Incoming} {item : Incoming}
    (filled : ∀ piece ∈ pieces, piece ≠ []) (ends : ∀ chunk, chunk ≠ [] → item ≠ .bytes chunk)
    (split : pieces.map .bytes ++ [.endOfStream] = before ++ item :: after) :
    before = pieces.map .bytes ∧ item = .endOfStream ∧ after = [] := by
  rcases concat_eq_split split with ⟨rfl, same, rfl⟩ | ⟨rest, _, inside⟩
  · exact ⟨same.symm, rfl, rfl⟩
  · have member : item ∈ pieces.map .bytes := inside ▸ List.mem_append_right before List.mem_cons_self
    obtain ⟨piece, listed, rfl⟩ := List.mem_map.mp member
    exact absurd rfl (ends piece (filled piece listed))

theorem items_of_last {past early : List Deed} {memory : Memory} {item : Incoming}
    (same : past = early ++ [.reads memory item]) : items past = items early ++ [item] := by
  rw [same, items_append]
  rfl

namespace LoneRun

variable {log : Log} {run : LoneRun log} {worker : Worker} {sends pieces : List Bytes}

def past (run : LoneRun log) : List Passage :=
  (World.initial log run.lockTimeout run.readBuffer).passages run.actions

def deeds (run : LoneRun log) : List Deed := CommandLog.deeds run.key run.past

def IsSent (run : LoneRun log) (sends : List Bytes) : Prop :=
  arrivals run.key run.actions = sends.map .bytes ++ [.endOfStream]

def Reads (run : LoneRun log) (pieces : List Bytes) : Prop :=
  items run.deeds = pieces.map .bytes ++ [.endOfStream]

theorem launches (run : LoneRun log) : ∀ action, action ∈ run.actions → action.LaunchesNew :=
  fun action member => (run.spares action member).launches

theorem converses (run : LoneRun log) : ∃ served, run.final.Converses log served run.past run.key :=
  World.converses_run run.launches run.lone run.ran

theorem granted (run : LoneRun log) : ∀ read ∈ reads run.deeds, read.1 = .unlimited :=
  fun _ => memory_of_reads fun passage member => (run.lone passage member).granted

theorem squares (run : LoneRun log) : run.final.Squares run.past run.key := by
  refine World.squares_run run.launches (fun action member => (run.spares action member).takes) ?_ run.ran
  intro passage member looks
  exact absurd looks (run.spares _ (World.action_of_mem_passages member)).unstopped

theorem rests_at (found : run.final.worker? run.key = some worker) :
    worker.point = .receiving ∧ worker.stream.incoming = [] ∨
      (∃ result, worker.point = .ended (.returned result)) ∨ worker.point = .ended .panicked := by
  obtain ⟨served, converses⟩ := run.converses
  have between := World.isBetween_of_stuck run.squares run.rests worker found
  have unhindered := World.unhindered_run run.spares run.ran worker found
  have stuck := run.rests
  rw [World.canRun, World.run_of_worker? found, World.runWorker] at stuck
  cases point : worker.point with
  | fresh => simp [point, run.started worker found] at stuck
  | receiving =>
      have waits : worker.stream.receive? worker.readBuffer = none := by
        simpa [point, Worker.receive?] using stuck
      exact Or.inl ⟨rfl, World.unread_of_receive? waits⟩
  | requesting command | holding command => simp [point] at stuck
  | waiting command => exact absurd point (converses.awake worker command found)
  | sending rest | flushing => simp [point, Point.isSending] at between
  | closing result =>
      have stalled : worker.stream.shutDown? = none := by simpa [point, Worker.shutDown?] using stuck
      have shuts := unhindered.shuts
      simp only [Stream.shutDown?] at stalled
      split at stalled <;> simp_all
  | ended ending =>
      cases ending with
      | returned result => exact Or.inr (Or.inl ⟨result, rfl⟩)
      | panicked => exact Or.inr (Or.inr rfl)
      | aborted => exact absurd point unhindered.unstopped
      | discarded => exact absurd (unhindered.started point) (run.started worker found)

theorem worker?_of_deeds (busy : run.deeds ≠ []) : ∃ worker, run.final.worker? run.key = some worker := by
  have squares := run.squares
  cases found : run.final.worker? run.key with
  | none =>
      simp only [World.Squares, found] at squares
      exact absurd squares busy
  | some worker => exact ⟨worker, rfl⟩

theorem last_read (found : run.final.worker? run.key = some worker) (left : worker.point ≠ .receiving) :
    ∃ early memory item, run.deeds = early ++ [.reads memory item] ∧
      ∀ chunk, chunk ≠ [] → item ≠ .bytes chunk := by
  obtain ⟨account, square⟩ := run.squares.of_some found
  have stands := account.stands
  rcases rests_at found with ⟨point, _⟩ | ⟨result, point⟩ | point
  · exact absurd point left
  · rw [point] at stands
    have closes : Closes run.deeds result := stands
    exact closes.by_read (square.done result (Or.inr (by simp [Worker.isEnded, point])))
  · rw [point] at stands
    obtain ⟨early, line, memory, _, same⟩ := stands
    exact ⟨early, memory, .crash, same, by simp⟩

theorem Reads.returns (read : run.Reads pieces) (filled : ∀ piece ∈ pieces, piece ≠ []) :
    ∃ worker, run.final.worker? run.key = some worker ∧ worker.point = .ended (.returned (.ok ())) := by
  have ended : Incoming.endOfStream ∈ items run.deeds := by simp [show items run.deeds = _ from read]
  obtain ⟨deed, member, ends⟩ : ∃ deed, deed ∈ run.deeds ∧ deed.EndsInput := by
    obtain ⟨⟨memory, item⟩, member, rfl⟩ := List.mem_map.mp ended
    obtain ⟨deed, done, same⟩ := List.mem_filterMap.mp member
    cases deed with
    | reads =>
        cases same
        exact ⟨_, done, _, _, rfl, Or.inl rfl⟩
    | _ => cases same
  obtain ⟨worker, found⟩ := worker?_of_deeds (List.ne_nil_of_mem member)
  refine ⟨worker, found, ?_⟩
  have stands := (run.squares.of_some found).1.stands
  rcases rests_at found with ⟨point, _⟩ | ⟨result, point⟩ | point
  · -- A session that still reads has not read the end of the stream.
    rw [point] at stands
    exact absurd ends (Exchanges.goes_on stands member)
  · rw [point] at stands ⊢
    have closes : Closes run.deeds result := stands
    rw [closes.returns.1.mpr ⟨deed, member, ends⟩]
  · rw [point] at stands
    obtain ⟨early, line, memory, _, same⟩ := stands
    have ends : ∀ chunk, chunk ≠ [] → Incoming.crash ≠ .bytes chunk := by simp
    obtain ⟨_, crash, _⟩ := eq_end_of_split filled ends (read.symm.trans (items_of_last same))
    cases crash

theorem reads_of_split {lost : List Incoming} (found : run.final.worker? run.key = some worker)
    (whole : worker.stream.isDropped = false → lost = []) (filled : ∀ piece ∈ pieces, piece ≠ [])
    (same : items run.deeds ++ worker.stream.incoming ++ lost = pieces.map .bytes ++ [.endOfStream]) :
    run.Reads pieces := by
  by_cases reading : worker.point = .receiving
  · have going : worker.isEnded = false := by simp [Worker.isEnded, reading]
    have live := (World.intact_run run.launches run.ran found).listens going
    rcases rests_at found with ⟨_, nothing⟩ | ⟨_, point⟩ | point
    · rwa [nothing, whole live, List.append_nil, List.append_nil] at same
    · cases reading.symm.trans point
    · cases reading.symm.trans point
  · obtain ⟨early, memory, item, last, ends⟩ := last_read found reading
    have split := items_of_last last
    rw [split, List.append_assoc, List.append_assoc, List.singleton_append] at same
    obtain ⟨before, rfl, _⟩ := eq_end_of_split filled ends same.symm
    rw [Reads, split, before]

theorem IsSent.received (sent : run.IsSent sends) : ∃ worker lost,
    run.final.worker? run.key = some worker ∧ (worker.stream.isDropped = false → lost = []) ∧
      Parts worker.readBuffer (sends.map .bytes ++ [.endOfStream])
        (items run.deeds ++ worker.stream.incoming ++ lost) := by
  have receives : run.final.Receives run.past run.key := World.receives_run run.launches run.ran
  have arrived : arrivals run.key (run.past.map Passage.action) = sends.map .bytes ++ [.endOfStream] := by
    rw [past, World.passages_actions run.ran]
    exact sent
  cases found : run.final.worker? run.key with
  | none =>
      simp only [World.Receives, found, arrived] at receives
      simp at receives
  | some worker =>
      obtain ⟨lost, whole, parts⟩ := receives.of_some found
      rw [arrived] at parts
      exact ⟨worker, lost, rfl, whole, parts⟩

theorem IsSent.reads (sent : run.IsSent sends) (each : ∀ send ∈ sends, Bytes.IsPiece send) :
    ∃ pieces, run.Reads pieces ∧ (∀ piece ∈ pieces, Bytes.IsPiece piece) ∧
      pieces.flatten = sends.flatten := by
  obtain ⟨worker, lost, found, whole, parts⟩ := sent.received
  obtain ⟨pieces, same, arePieces, text⟩ := parts.arePieces each
  exact ⟨pieces, reads_of_split found whole (fun piece member => (arePieces piece member).filled) same,
    arePieces, text⟩

theorem IsSent.reads_whole (sent : run.IsSent sends) (found : run.final.worker? run.key = some worker)
    (fits : ∀ send ∈ sends, send ≠ [] ∧ send.length ≤ worker.readBuffer) : run.Reads sends := by
  obtain ⟨_, lost, present, whole, parts⟩ := sent.received
  cases found.symm.trans present
  refine reads_of_split found whole (fun send member => (fits send member).1) (parts.of_short ?_)
  intro data arrived
  obtain ⟨send, member, same⟩ : ∃ send ∈ sends, Incoming.bytes send = .bytes data := by simpa using arrived
  cases same
  exact (fits data member).2

end LoneRun

end CommandLog
