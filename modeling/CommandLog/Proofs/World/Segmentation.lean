import CommandLog.Proofs.World.Replay
import CommandLog.Proofs.World.Solo
import CommandLog.Proofs.Worker.Leftovers

/-!
How a client's bytes are cut makes no difference. As long as no read goes on behind a line feed, a session
that has the log to itself comes to the same, whatever the parts in which the bytes are sent and read.
-/

namespace CommandLog

open Bytes (IsPiece Cut)

def Passage.runner? (key : Key) (passage : Passage) : Option Worker :=
  match passage.action with
  | .run other => if other = key then passage.before.worker? key else none
  | _ => none

def dispatched (key : Key) (past : List Passage) : List (Bytes × Nat) :=
  past.filterMap fun passage => (passage.runner? key).bind (·.dispatches? passage.before.memory)

def told (key : Key) (past : List Passage) : List Event :=
  past.flatMap fun passage => if (passage.runner? key).isSome then passage.events else []

theorem dispatched_concat (key : Key) (past : List Passage) (passage : Passage) :
    dispatched key (past ++ [passage]) = dispatched key past ++
      ((passage.runner? key).bind (·.dispatches? passage.before.memory)).toList := by
  simp only [dispatched, List.filterMap_append, List.filterMap_cons, List.filterMap_nil]
  cases (passage.runner? key).bind (·.dispatches? passage.before.memory) <;> rfl

theorem told_concat (key : Key) (past : List Passage) (passage : Passage) :
    told key (past ++ [passage]) = told key past ++
      if (passage.runner? key).isSome then passage.events else [] := by
  simp [told]

namespace World

variable {log : Log} {lockTimeout : Duration} {readBuffer : Nat} {action : Action}
variable {actions : List Action} {world next final : World} {key : Key} {worker : Worker}
variable {past : List Passage}

structure Recounts (past : List Passage) (world : World) (key : Key) : Prop where
  commands : dispatched key past = LineBuffer.commands (({} : LineBuffer).feedAll (chunks (deeds key past))).1
  dropped : (told key past).filterMap Event.dropped? =
    ((dispatched key past).map Prod.snd).filter (· ≠ 0)
  unended : (told key past).filterMap Event.unended? = (world.worker? key).elim [] Worker.unended

theorem Recounts.turn (recounts : world.Recounts past key) (found : world.worker? key = some worker)
    (line : worker.line = (({} : LineBuffer).feedAll (chunks (deeds key past))).2)
    (stepped : world.step (.run key) = some next) :
    next.Recounts (past ++ [⟨world, .run key, next⟩]) key := by
  obtain ⟨after, events, left, step, journal, _⟩ := turn_of_run found stepped
  have runner : Passage.runner? key ⟨world, .run key, next⟩ = some worker := by
    simp only [Passage.runner?, if_pos, found]
  have dispatches := dispatched_concat key past ⟨world, .run key, next⟩
  have tells := told_concat key past ⟨world, .run key, next⟩
  rw [runner, Option.bind_some] at dispatches
  rw [runner, Passage.events_eq journal, Option.isSome_some, if_pos rfl] at tells
  refine ⟨?_, ?_, ?_⟩
  · have own := worker.commands_deeds world.memory after
    rw [line] at own
    rw [dispatches, recounts.commands, deeds_concat, Passage.deeds_of_run found left, chunks_append,
      LineBuffer.feedAll_append, LineBuffer.commands_append, own]
  · rw [tells, dispatches, List.filterMap_append, recounts.dropped, step.dropped, List.map_append,
      List.filter_append]
  · have own := recounts.unended
    rw [found, Option.elim_some] at own
    rw [tells, left, List.filterMap_append, own, step.unended, Option.elim_some]

theorem Recounts.apart (recounts : world.Recounts past key) (spares : action.Spares key)
    (idle : action = .run key → world.worker? key = none) (stepped : world.step action = some next) :
    next.Recounts (past ++ [⟨world, action, next⟩]) key := by
  have runner : Passage.runner? key ⟨world, action, next⟩ = none := by
    simp only [Passage.runner?]
    split
    · split
      · rename_i same
        exact idle (congrArg Action.run same)
      · rfl
    · rfl
  have undone : Passage.deeds key ⟨world, action, next⟩ = [] := by
    by_cases runs : action = .run key
    · subst runs
      simp only [Passage.deeds, idle rfl]
    · exact Passage.deeds_of_idle runs
  have dispatches := dispatched_concat key past ⟨world, action, next⟩
  have tells := told_concat key past ⟨world, action, next⟩
  simp only [runner, Option.bind_none, Option.toList_none, List.append_nil] at dispatches
  simp only [runner, Option.isSome_none, Bool.false_eq_true, if_false, List.append_nil] at tells
  refine ⟨?_, ?_, ?_⟩
  · rw [dispatches, deeds_concat, undone, List.append_nil, recounts.commands]
  · rw [dispatches, tells, recounts.dropped]
  · rw [tells, recounts.unended]
    have fates := step_fate spares.launches stepped key
    rw [Fates] at fates
    generalize next.worker? key = last at fates
    generalize found : world.worker? key = first at fates
    cases fates with
    | same | new | change => rfl
    | run runs =>
        rw [idle runs] at found
        cases found
    | abort looks => exact absurd looks spares.unstopped
    | discard _ _ fresh =>
        simp only [Option.elim_some, Worker.unended, fresh, Worker.finish, Worker.enter]

theorem recounts_run (spares : ∀ action ∈ actions, action.Spares key)
    (granted : ∀ passage ∈ (initial log lockTimeout readBuffer).passages actions,
      passage.before.memory = .unlimited)
    (ran : (initial log lockTimeout readBuffer).steps actions = some final) :
    final.Recounts ((initial log lockTimeout readBuffer).passages actions) key := by
  refine passages_induction (fun past world => (∀ passage ∈ past, passage.before.memory = .unlimited) →
    world.Recounts past key) (fun _ => ⟨rfl, rfl, rfl⟩) ?_ ran granted
  intro early action late world next split reached held stepped granted
  rw [List.forall_mem_append] at granted
  have recounts := held granted.1
  have launches (action : Action) (member : action ∈ early) : action.LaunchesNew :=
    (spares action (split ▸ List.mem_append_left _ member)).launches
  by_cases turn : action = .run key ∧ ∃ worker, world.worker? key = some worker
  · obtain ⟨rfl, worker, found⟩ := turn
    have follows := ((replay_run launches reached).2 key).of_some found
    refine recounts.turn found ?_ stepped
    rw [follows.line, hearing_eq fun _ => memory_of_reads granted.1]
  · refine recounts.apart (spares action (split ▸ List.mem_append_right early List.mem_cons_self))
      (fun runs => ?_) stepped
    rw [Option.eq_none_iff_forall_ne_some]
    exact fun worker found => turn ⟨runs, worker, found⟩

end World

/-- What a session that has returned has come to. -/
structure Upshot where
  dispatched : List (Bytes × Nat)
  output : Bytes
  flushes : Nat
  exchanges : Nat
  cursor : Nat
  log : Log
  pending : Nat
  dropped : List Nat
  unended : List Nat
  result : Except SessionFailure Unit

/-- What comes of these commands, when each is served in turn, and this is left behind them. -/
def Upshot.of (log : Log) (lines : List Bytes) (rest : Bytes) : Upshot :=
  let heard := lines.map (Command.ready? .unlimited)
  let dialogue := Dialogue.after log (commands heard)
  { dispatched := lines.map (·, 0)
    output := (weave heard dialogue.outcomes).flatten
    flushes := lines.length
    exchanges := lines.length
    cursor := dialogue.cursor
    log := dialogue.log
    pending := rest.length
    dropped := []
    unended := if rest.length = 0 then [] else [rest.length]
    result := .ok () }

theorem length_weave {heard : List (Option Command)} {outcomes : List Bytes}
    (settled : (commands heard).length = outcomes.length) : (weave heard outcomes).length = heard.length := by
  induction heard generalizing outcomes with
  | nil => rfl
  | cons first heard ih =>
      cases first with
      | none => exact congrArg (· + 1) (ih settled)
      | some command =>
          cases outcomes with
          | nil => cases settled
          | cons outcome outcomes => exact congrArg (· + 1) (ih (Nat.succ.inj settled))

namespace LoneRun

variable {log : Log} {run : LoneRun log} {pieces sends lines : List Bytes} {text rest : Bytes}

def upshot (run : LoneRun log) : Option Upshot :=
  (run.final.worker? run.key).bind fun worker =>
    match worker.point with
    | .ended (.returned result) => some
        { dispatched := dispatched run.key run.past
          output := worker.stream.output
          flushes := worker.stream.flushes
          exchanges := worker.exchanges
          cursor := worker.cursor
          log := run.final.log
          pending := worker.line.pending.length
          dropped := (told run.key run.past).filterMap Event.dropped?
          unended := (told run.key run.past).filterMap Event.unended?
          result }
    | _ => none

theorem Reads.hearing (read : run.Reads pieces) (each : ∀ piece ∈ pieces, IsPiece piece)
    (cut : Cut text lines rest) (whole : pieces.flatten = text) :
    LineBuffer.commands (({} : LineBuffer).feedAll (chunks run.deeds)).1 = lines.map (·, 0) ∧
      CommandLog.hearing run.deeds = ⟨⟨rest, false⟩, lines.map (Command.ready? .unlimited)⟩ := by
  obtain ⟨heard, left⟩ := LineBuffer.feedAll_pieces each List.not_mem_nil cut whole
  rw [hearing_eq run.granted, chunks_of_pieces run.granted each read]
  refine ⟨heard, ?_⟩
  rw [show (({} : LineBuffer).feedAll _).2 = _ from left, show LineBuffer.commands _ = _ from heard,
    List.map_map]
  rfl

theorem served_all {worker : Worker} {result : Except SessionFailure Unit}
    (found : run.final.worker? run.key = some worker) (returned : worker.point = .ended (.returned result)) :
    let heard := (hearing run.deeds).heard
    let dialogue := Dialogue.after log (commands heard)
    run.final.log = dialogue.log ∧ worker.cursor = dialogue.cursor ∧
      worker.stream.output = (weave heard dialogue.outcomes).flatten ∧
      worker.stream.flushes = heard.length ∧ worker.exchanges = heard.length := by
  obtain ⟨served, converses⟩ := run.converses
  obtain ⟨account, square⟩ := run.squares.of_some found
  let dialogue := Dialogue.after log served
  have follows : worker.Follows run.deeds dialogue.cursor dialogue.outcomes := converses.retells.of_some found
  have settled : (commands (hearing run.deeds).heard).length = dialogue.outcomes.length := by
    have stands := follows.stands
    rwa [returned] at stands
  have known : served <+: commands (hearing run.deeds).heard := converses.known
  obtain rfl := known.eq_of_length ((Dialogue.length_outcomes log served).symm.trans settled.symm)
  obtain ⟨sends, flushed⟩ := square.done result (Or.inr (by simp [Worker.isEnded, returned]))
  have count : flushes run.deeds = (hearing run.deeds).heard.length :=
    flushed.trans ((congrArg List.length follows.replies).trans (length_weave settled))
  exact ⟨converses.logged, follows.cursor, account.output.trans (sends.trans
    (congrArg List.flatten follows.replies)), account.flushed.trans count, account.exchanged.trans count⟩

theorem Reads.upshot (read : run.Reads pieces) (each : ∀ piece ∈ pieces, IsPiece piece)
    (cut : Cut text lines rest) (whole : pieces.flatten = text) :
    run.upshot = some (.of log lines rest) := by
  obtain ⟨worker, found, returned⟩ := read.returns fun piece member => (each piece member).filled
  obtain ⟨heardLines, heard⟩ := read.hearing each cut whole
  obtain ⟨logged, cursor, output, flushed, exchanged⟩ := served_all found returned
  simp only [heard, List.length_map] at logged cursor output flushed exchanged
  have recounts : run.final.Recounts run.past run.key := World.recounts_run run.spares
    (fun passage member => (run.lone passage member).granted) run.ran
  have commands : dispatched run.key run.past = lines.map (·, 0) := recounts.commands.trans heardLines
  have line : worker.line = ⟨rest, false⟩ := by
    obtain ⟨_, converses⟩ := run.converses
    exact (converses.retells.of_some found).line.trans (congrArg Hearing.line heard)
  have dropped : (told run.key run.past).filterMap Event.dropped? = [] := by
    rw [recounts.dropped, commands]
    simp
  have unended : (told run.key run.past).filterMap Event.unended? =
      if rest.length = 0 then [] else [rest.length] := by
    rw [recounts.unended, found, Option.elim_some]
    simp only [Worker.unended, returned, line]
  simp only [LoneRun.upshot, found, Option.bind_some, returned, Upshot.of, commands, output, flushed,
    exchanged, cursor, logged, line, dropped, unended]

end LoneRun

/-- A client sends a text and then the end of the stream to a session that has the log to itself; nothing
is refused for want of memory, and the connection takes what it is sent. As long as a line feed is only
ever the last byte of a read, the session returns, and what it has come to is settled by the text and the
log: it has dispatched the lines of the text and dropped nothing behind any of them, each has been served
in turn, and the rest of the text is left. So it is when a line feed is only ever the last byte of what is
sent at once, whatever the size of the reads. For every size there is such a run, and for every cut of a
text one that reads it so. -/
theorem segmentation_is_immaterial (log : Log) (text : Bytes) :
    ∃ lines rest, Cut text lines rest ∧
      (∀ (run : LoneRun log) (pieces : List Bytes), (∀ piece ∈ pieces, IsPiece piece) →
        pieces.flatten = text → run.Reads pieces → run.upshot = some (.of log lines rest)) ∧
      (∀ (run : LoneRun log) (sends : List Bytes), (∀ send ∈ sends, IsPiece send) →
        sends.flatten = text → run.IsSent sends → run.upshot = some (.of log lines rest)) ∧
      ∀ (lockTimeout : Duration) (readBuffer : Nat) (sends : List Bytes), ∃ run : LoneRun log,
        run.lockTimeout = lockTimeout ∧ run.readBuffer = readBuffer ∧ run.IsSent sends ∧
        ((∀ send ∈ sends, send ≠ [] ∧ send.length ≤ readBuffer) → run.Reads sends) := by
  obtain ⟨lines, rest, cut⟩ := Bytes.exists_cut text
  refine ⟨lines, rest, cut, ?_, ?_, ?_⟩
  · intro run pieces each whole read
    exact read.upshot each cut whole
  · intro run sends each whole sent
    obtain ⟨pieces, read, arePieces, same⟩ := sent.reads each
    exact read.upshot arePieces cut (same.trans whole)
  · intro lockTimeout readBuffer sends
    obtain ⟨run, timeout, size, sent, worker, found, large⟩ :=
      LoneRun.exists_isSent log lockTimeout readBuffer sends
    refine ⟨run, timeout, size, sent, fun fits => sent.reads_whole found fun send member => ?_⟩
    exact ⟨(fits send member).1, large ▸ (fits send member).2.trans (Nat.le_max_left readBuffer 1)⟩

theorem segmentation_is_immaterial_byteByByte :
    ∃ (first second : LoneRun (Ring.empty 2)) (upshot : Upshot), first.readBuffer = 64 ∧
      first.Reads [[97, 98, 10], [99, 100]] ∧ second.readBuffer = 1 ∧
      second.Reads [[97], [98], [10], [99], [100]] ∧ first.upshot = some upshot ∧
      second.upshot = some upshot ∧ upshot.dispatched = [([97, 98, 10], 0)] ∧
      upshot.output = [97, 98, 10] ∧ upshot.cursor = 0 ∧ upshot.log.toList = [[97, 98, 10]] ∧
      upshot.unended = [2] := by
  obtain ⟨lines, rest, cut, reads, _, runs⟩ :=
    segmentation_is_immaterial (Ring.empty 2) [97, 98, 10, 99, 100]
  have cut : Cut ([97, 98] ++ lineFeed :: [99, 100]) lines rest := cut
  obtain ⟨later, rfl, behind⟩ := cut.of_line (by decide)
  obtain ⟨rfl, rfl⟩ := behind.of_clean (by decide)
  obtain ⟨first, _, size, _, readFirst⟩ := runs (.ofSeconds 5) 64 [[97, 98, 10], [99, 100]]
  obtain ⟨second, _, sizeSecond, _, readSecond⟩ := runs (.ofSeconds 5) 1 [[97], [98], [10], [99], [100]]
  have firstReads := readFirst (by decide)
  have secondReads := readSecond (by decide)
  refine ⟨first, second, _, size, firstReads, sizeSecond, secondReads,
    reads first _ (by decide) rfl firstReads, reads second _ (by decide) rfl secondReads, rfl, ?_⟩
  decide +kernel

end CommandLog
