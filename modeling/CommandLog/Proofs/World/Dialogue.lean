import CommandLog.Proofs.World.PartialWrites
import CommandLog.Proofs.World.Turns

/-!
A session that has the log to itself. It is a dialogue: every command is served with the log and the cursor
that the one before it has left, and what comes of it is settled by the commands.
-/

namespace CommandLog

/-- The log, the cursor and the outcomes of a client's commands, when nobody else has the log. -/
structure Dialogue where
  log : Log
  cursor : Nat := 0
  outcomes : List Bytes := []

namespace Dialogue

def next (dialogue : Dialogue) (command : Command) : Dialogue where
  log := (dialogue.log.exchange .unlimited dialogue.cursor command).log
  cursor := (dialogue.log.shown .unlimited dialogue.cursor command).cursor
  outcomes := dialogue.outcomes ++ [(dialogue.log.shown .unlimited dialogue.cursor command).bytes]

def after (log : Log) (served : List Command) : Dialogue := served.foldl next { log }

def replay (dialogue : Dialogue) : Replay where
  log := dialogue.log
  cursor := fun _ => dialogue.cursor
  outcomes := fun _ => dialogue.outcomes

theorem after_concat (log : Log) (served : List Command) (command : Command) :
    after log (served ++ [command]) = (after log served).next command := by
  simp only [after, List.foldl_append, List.foldl_cons, List.foldl_nil]

theorem length_outcomes (log : Log) (served : List Command) :
    (after log served).outcomes.length = served.length := by
  induction served using List.reverseRecOn with
  | nil => rfl
  | append_singleton served command ih => simp [after_concat, next, ih]

end Dialogue

/-- A step in which nothing is refused for want of memory, the session finds the log free when it asks for
it, and nobody else changes the log. -/
structure Passage.IsLone (key : Key) (passage : Passage) : Prop where
  granted : passage.before.memory = .unlimited
  free : ∀ worker command, passage.action = .run key → passage.before.worker? key = some worker →
    worker.point = .requesting command → passage.before.lock.holder = none
  alone : (passage.action = .run key → passage.before.worker? key = none) →
    passage.after.log = passage.before.log

namespace World

variable {log : Log} {world next : World} {action : Action} {key : Key} {past : List Passage}
variable {worker : Worker} {served : List Command}

structure Converses (log : Log) (served : List Command) (past : List Passage) (world : World)
    (key : Key) : Prop where
  logged : world.log = (Dialogue.after log served).log
  retells : world.Retells (Dialogue.after log served).replay past key
  known : served <+: asks past key
  awake : ∀ worker command, world.worker? key = some worker → worker.point ≠ .waiting command

theorem worker?_of_free (found : world.worker? key = some worker) {command : Command}
    (requesting : worker.point = .requesting command) (free : world.lock.holder = none)
    (stepped : world.step (.run key) = some next) :
    next.worker? key = some { worker with point := .holding command } := by
  have mine : (world.askLog key).holdsLog key = true := by
    simp [askLog, holdsLog, Lock.request, Lock.isHeldBy, free]
  have ran : world.runWorker key worker = some next := (run_of_worker? found).symm.trans stepped
  simp only [runWorker, requesting, mine, ↓reduceIte, Option.some.injEq] at ran
  rw [← ran]
  exact worker?_putWorker _ key _

theorem awake_step (launches : action.LaunchesNew) (stepped : world.step action = some next)
    (lone : Passage.IsLone key ⟨world, action, next⟩)
    (awake : ∀ worker command, world.worker? key = some worker → worker.point ≠ .waiting command) :
    ∀ worker command, next.worker? key = some worker → worker.point ≠ .waiting command := by
  intro worker command found
  have fates := step_fate launches stepped key
  rw [Fates, found] at fates
  generalize present : world.worker? key = before at fates
  cases fates with
  | same => exact awake worker command present
  | new => simp [Worker.create]
  | @change worker => exact awake worker command present
  | abort | discard => simp [Worker.finish, Worker.enter]
  | run runs step =>
      subst runs
      cases step with
      | wait requesting =>
          rw [worker?_of_free present requesting (lone.free _ _ rfl present requesting) stepped] at found
          cases found
      | read point => simp [point]
      | _ => simp [Worker.start, Worker.close, Worker.finish, Worker.enter]

theorem converses_step (launches : action.LaunchesNew) (stepped : world.step action = some next)
    (lone : Passage.IsLone key ⟨world, action, next⟩) (converses : world.Converses log served past key) :
    ∃ served, next.Converses log served (past ++ [⟨world, action, next⟩]) key := by
  have awake := awake_step launches stepped lone converses.awake
  have known : asks past key <+: asks (past ++ [⟨world, action, next⟩]) key := by
    rw [asks, asks, deeds_concat]
    exact (heard_prefix_append _ _).filterMap id
  by_cases serves : ∃ worker command, action = .run key ∧ world.worker? key = some worker ∧
      worker.point = .holding command
  · obtain ⟨worker, command, rfl, found, holding⟩ := serves
    obtain ⟨after, told, left, step, _, logged⟩ := turn_of_run found stepped
    have follows := converses.retells.of_some found
    have granted : world.memory = .unlimited := lone.granted
    have stands := follows.stands
    rw [holding] at stands
    obtain ⟨earlier, heard, settled⟩ := stands
    have asked : asks past key = commands earlier ++ [command] := by simp [asks, heard, commands]
    have all : served = commands earlier := by
      have known := converses.known
      rw [asked] at known
      refine (List.prefix_of_prefix_length_le known (List.prefix_append _ _) ?_).eq_of_length ?_
      · exact (settled.trans (Dialogue.length_outcomes log served)).ge
      · exact (settled.trans (Dialogue.length_outcomes log served)).symm
    refine ⟨served ++ [command], ?_, ?_, ?_, awake⟩
    · simp only [logged, logAfter, holding, follows.cursor, granted, converses.logged,
        Dialogue.after_concat]
      rfl
    · have concluded := step.follows_concluded follows holding
      simp only [granted, converses.logged] at concluded
      simp only [Retells, left, deeds_concat, Passage.deeds_of_run found left, granted,
        Dialogue.after_concat]
      exact concluded
    · rw [all, ← asked]
      exact known
  · have unheld (worker : Worker) (command : Command) (runs : action = .run key)
        (found : world.worker? key = some worker) : worker.point ≠ .holding command :=
      fun holding => serves ⟨worker, command, runs, found, holding⟩
    refine ⟨served, ?_, ?_, converses.known.trans known, awake⟩
    · rw [← converses.logged]
      by_cases turn : ∃ worker, action = .run key ∧ world.worker? key = some worker
      · obtain ⟨worker, runs, found⟩ := turn
        subst runs
        obtain ⟨_, _, _, _, _, logged⟩ := turn_of_run found stepped
        rw [logged, logAfter]
        split
        · rename_i command holding
          exact absurd holding (unheld worker command rfl found)
        · rfl
      · refine lone.alone fun runs => ?_
        cases found : world.worker? key with
        | none => rfl
        | some worker => exact absurd ⟨worker, runs, found⟩ turn
    · refine (step_fate launches stepped key).retells converses.retells unheld ?_
      intro worker after command bytes _ found _ waiting
      exact absurd waiting (converses.awake worker command found)

end World

end CommandLog
