import CommandLog.Proofs.World.Conversation
import CommandLog.Proofs.Worker.Hearing

/-!
A run as the order of its lock cycles. The reads of the sessions and the order in which tasks have had
the log determine the log and every reply; how the connections take what is sent plays no part.
-/

namespace CommandLog

/-- One cycle of the lock, with the memory that it meets: a session's command is served, or the request
of a call, or a session has waited in vain. -/
inductive Cycle where
  | serves (key : Key) (memory : Memory)
  | answers (memory : Memory) (request : Request)
  | expires (key : Key)

def Worker.cycle? (key : Key) (memory : Memory) (before after : Worker) : Option Cycle :=
  match before.point, after.point with
  | .holding _, _ => some (.serves key memory)
  | .waiting _, .sending _ => some (.expires key)
  | _, _ => none

def Call.cycle? (memory : Memory) (call : Call) : Option Cycle :=
  match call.point with
  | .holding => some (.answers memory call.request)
  | _ => none

def Passage.cycle? (passage : Passage) : Option Cycle :=
  match passage.action with
  | .run key =>
      match Table.find? key passage.before.tasks, passage.after.worker? key with
      | some (.session worker), some after => worker.cycle? key passage.before.memory after
      | some (.call call), _ => call.cycle? passage.before.memory
      | _, _ => none
  | _ => none

def cycles (past : List Passage) : List Cycle := past.filterMap Passage.cycle?

/-- The log, and of each session its cursor and the outcomes of its commands. -/
structure Replay where
  log : Log
  cursor : Key → Nat := fun _ => 0
  outcomes : Key → List Bytes := fun _ => []

namespace Replay

def conclude (replay : Replay) (key : Key) (log : Log) (reply : Reply) : Replay where
  log := log
  cursor := Function.update replay.cursor key reply.cursor
  outcomes := Function.update replay.outcomes key (replay.outcomes key ++ [reply.bytes])

def next (asked : Key → List Command) (replay : Replay) : Cycle → Replay
  | .serves key memory =>
      match (asked key)[(replay.outcomes key).length]? with
      | none => replay
      | some command =>
          replay.conclude key (replay.log.exchange memory (replay.cursor key) command).log
            (replay.log.shown memory (replay.cursor key) command)
  | .answers memory request => { replay with log := (replay.log.serve memory request).log }
  | .expires key => replay.conclude key replay.log ⟨[], replay.cursor key⟩

def after (asked : Key → List Command) (replay : Replay) (passage : Passage) : Replay :=
  passage.cycle?.toList.foldl (next asked) replay

def run (asked : Key → List Command) (log : Log) (order : List Cycle) : Replay :=
  order.foldl (next asked) { log }

end Replay

namespace World

variable {world next final : World} {action : Action} {actions : List Action} {key other : Key}
variable {past : List Passage} {replay : Replay} {asked : Key → List Command}

theorem log_of_addTask {task : Task} (added : world.addTask key task = some next) :
    next.log = world.log := by
  simp only [addTask] at added
  split at added <;> cases added
  rfl

theorem log_of_changeStream {change : Stream → Stream}
    (changed : world.changeStream key change = some next) : next.log = world.log := by
  obtain ⟨worker, _, rfl⟩ := Option.map_eq_some_iff.mp changed
  rfl

theorem log_abort_all (records : List Record) (world : World) :
    (records.foldl (fun world record => world.abort record.key) world).log = world.log := by
  induction records generalizing world with
  | nil => rfl
  | cons record records ih =>
      rw [List.foldl_cons, ih]
      simp only [abort]
      split
      · split <;> rfl
      · rfl

theorem log_of_look {report : Option DrainReport} (looked : world.look = some (next, report)) :
    next.log = world.log := by
  simp only [look] at looked
  split at looked
  · cases looked
  · split at looked
    · cases looked
    · split at looked <;> cases looked
      · exact log_abort_all _ world
      · rfl

theorem log_of_idle (idle : ∀ key, action ≠ .run key) (stepped : world.step action = some next) :
    next.log = world.log := by
  cases action with
  | run key => exact absurd rfl (idle key)
  | launch key worker =>
      simp only [step] at stepped
      split at stepped
      · cases stepped
      · exact log_of_addTask stepped
      · cases stepped
  | spawn key peer =>
      simp only [step, spawn] at stepped
      split at stepped
      · cases stepped
      · have added := log_of_addTask stepped
        exact added
  | call key request => exact log_of_addTask stepped
  | arrive | setWrite | setFlush | setShutdown =>
      simp only [step] at stepped
      exact log_of_changeStream stepped
  | discard key =>
      obtain ⟨worker, _, finished⟩ := Option.bind_eq_some_iff.mp stepped
      split at finished <;> cases finished
      rfl
  | remember memory =>
      cases stepped
      rfl
  | collect | hold | release | reap =>
      simp only [step] at stepped
      split at stepped <;> cases stepped
      rfl
  | elapse span =>
      obtain ⟨_, _, rfl⟩ := elapse_eq_some stepped
      rfl
  | drain grace =>
      simp only [step] at stepped
      split at stepped <;> cases stepped
      simp only [beginDrain]
      split <;> rfl
  | look =>
      obtain ⟨⟨after, report⟩, looked, rfl⟩ := Option.map_eq_some_iff.mp stepped
      exact log_of_look looked

theorem log_of_runCall {call : Call} (ran : world.runCall key call = some next) :
    next.log = match call.point with
      | .holding => (world.log.serve world.memory call.request).log
      | _ => world.log := by
  simp only [runCall] at ran
  cases point : call.point with
  | fresh =>
      simp only [point] at ran
      split at ran <;> (cases ran; rfl)
  | requesting | holding =>
      simp only [point] at ran
      cases ran
      rfl
  | waiting =>
      simp only [point] at ran
      split at ran
      · cases ran
        rfl
      · split at ran <;> cases ran
        rfl
  | finished answer =>
      simp only [point] at ran
      cases ran

def Retells (replay : Replay) (past : List Passage) (world : World) (key : Key) : Prop :=
  match world.worker? key with
  | none => deeds key past = [] ∧ replay.cursor key = 0 ∧ replay.outcomes key = []
  | some worker => worker.Follows (deeds key past) (replay.cursor key) (replay.outcomes key)

theorem Retells.of_some {worker : Worker} (retells : world.Retells replay past key)
    (found : world.worker? key = some worker) :
    worker.Follows (deeds key past) (replay.cursor key) (replay.outcomes key) := by
  simpa only [Retells, found] using retells

theorem Retells.congr {other : Replay} (retells : world.Retells replay past key)
    (cursor : other.cursor key = replay.cursor key)
    (outcomes : other.outcomes key = replay.outcomes key) : world.Retells other past key := by
  simpa only [Retells, cursor, outcomes] using retells

theorem Retells.concluded {log : Log} {reply : Reply} (retells : world.Retells replay past key)
    (apart : key ≠ other) : world.Retells (replay.conclude other log reply) past key :=
  retells.congr (Function.update_of_ne apart _ _) (Function.update_of_ne apart _ _)

theorem Fates.retells (fates : world.Fates action key next) (retells : world.Retells replay past key)
    (unheld : ∀ worker command, action = .run key → world.worker? key = some worker →
      worker.point ≠ .holding command)
    (unexpired : ∀ worker after command bytes, action = .run key → world.worker? key = some worker →
      next.worker? key = some after → worker.point = .waiting command →
      after.point ≠ .sending bytes) :
    next.Retells replay (past ++ [⟨world, action, next⟩]) key := by
  refine fates.deeds_induction (fun past found => match found with
    | none => past = [] ∧ replay.cursor key = 0 ∧ replay.outcomes key = []
    | some worker => worker.Follows past (replay.cursor key) (replay.outcomes key))
    retells ?_ ?_ ?_ ?_ ?_
  · rintro identity origin readBuffer ⟨nothing, cursor, outcomes⟩
    rw [nothing, cursor, outcomes]
    exact Worker.follows_create identity origin readBuffer
  · rintro worker change _ ⟨cursor, line, replies, stands⟩
    exact ⟨cursor, line, replies, stands⟩
  · intro before after told runs found left step follows
    exact step.follows follows (fun command => unheld before command runs found)
      fun command bytes => unexpired before after command bytes runs found left
  · intro worker _ _ _ follows
    exact Worker.Follows.aborted follows
  · intro worker _ fresh follows
    exact Worker.Follows.discarded follows fresh

theorem fates_other (launches : action.LaunchesNew) (stepped : world.step action = some next)
    (retells : world.Retells replay past key) (apart : action ≠ .run key) :
    next.Retells replay (past ++ [⟨world, action, next⟩]) key :=
  (step_fate launches stepped key).retells retells (fun _ _ runs => absurd runs apart)
    fun _ _ _ _ runs => absurd runs apart

theorem next_serves {heard : List (Option Command)} {earlier : List (Option Command)}
    {command : Command} (same : heard = earlier ++ [some command])
    (settled : (commands earlier).length = (replay.outcomes key).length)
    (known : commands heard <+: asked key) (memory : Memory) :
    replay.next asked (.serves key memory) =
      replay.conclude key (replay.log.exchange memory (replay.cursor key) command).log
        (replay.log.shown memory (replay.cursor key) command) := by
  obtain ⟨later, whole⟩ := known
  have first : (asked key)[(replay.outcomes key).length]? = some command := by
    rw [← whole, same, ← settled]
    simp [commands]
  simp only [Replay.next, first]

theorem runWorker_retells {worker : Worker} (found : world.worker? other = some worker)
    (ran : world.runWorker other worker = some next)
    (heard : commands (hearing (deeds other past)).heard <+: asked other)
    (log : replay.log = world.log) (retells : ∀ key, world.Retells replay past key) :
    (replay.after asked ⟨world, .run other, next⟩).log = next.log ∧
      ∀ key, next.Retells (replay.after asked ⟨world, .run other, next⟩)
        (past ++ [⟨world, .run other, next⟩]) key := by
  have stepped : world.step (.run other) = some next := (run_of_worker? found).trans ran
  obtain ⟨after, told, left, step, _, logged⟩ := turn_of_run found stepped
  have follows := (retells other).of_some found
  have others (key : Key) (apart : key ≠ other) :
      next.Retells replay (past ++ [⟨world, .run other, next⟩]) key :=
    fates_other trivial stepped (retells key) fun same => apart (Action.run.inj same).symm
  have cycle : (Passage.mk world (.run other) next).cycle? =
      worker.cycle? other world.memory after := by
    simp only [Passage.cycle?, find?_of_worker? found, left]
  have after_eq : replay.after asked ⟨world, .run other, next⟩ =
      (worker.cycle? other world.memory after).toList.foldl (Replay.next asked) replay := by
    rw [Replay.after, cycle]
  rw [after_eq]
  clear after_eq cycle
  -- The session itself has the outcome, and no other session has one.
  have concluded {log : Log} {reply : Reply} (same : log = next.log)
      (mine : after.Follows (deeds other past ++ worker.deeds world.memory after) reply.cursor
        (replay.outcomes other ++ [reply.bytes])) :
      (replay.conclude other log reply).log = next.log ∧ ∀ key,
        next.Retells (replay.conclude other log reply) (past ++ [⟨world, .run other, next⟩]) key := by
    refine ⟨same, fun key => ?_⟩
    by_cases here : key = other
    · subst here
      simp only [Retells, left, deeds_concat, Passage.deeds_of_run found left, Replay.conclude,
        Function.update_self]
      exact mine
    · exact (others key here).concluded here
  have nothing (unheld : ∀ command, worker.point ≠ .holding command)
      (unexpired : ∀ command bytes, worker.point = .waiting command → after.point ≠ .sending bytes)
      (same : world.logAfter worker = world.log) :
      replay.log = next.log ∧
        ∀ key, next.Retells replay (past ++ [⟨world, .run other, next⟩]) key := by
    refine ⟨by rw [log, logged, same], fun key => ?_⟩
    by_cases here : key = other
    · subst here
      simp only [Retells, left, deeds_concat, Passage.deeds_of_run found left]
      exact step.follows follows unheld unexpired
    · exact others key here
  have stands := follows.stands
  cases point : worker.point with
  | holding command =>
      rw [point] at stands
      obtain ⟨earlier, same, settled⟩ := stands
      simp only [Worker.cycle?, point, Option.toList_some, List.foldl_cons, List.foldl_nil]
      rw [next_serves same settled heard, log]
      refine concluded ?_ (step.follows_concluded follows point)
      simp only [logged, logAfter, point, follows.cursor]
  | waiting command =>
      have same : world.logAfter worker = world.log := by simp only [logAfter, point]
      cases sends : after.point with
      | sending bytes =>
          simp only [Worker.cycle?, point, sends, Option.toList_some, List.foldl_cons, List.foldl_nil]
          exact concluded (by rw [log, logged, same]) (step.follows_expired follows point sends)
      | _ =>
          simp only [Worker.cycle?, point, sends, Option.toList_none, List.foldl_nil]
          exact nothing (by simp [point]) (by simp [sends]) same
  | _ =>
      simp only [Worker.cycle?, point, Option.toList_none, List.foldl_nil]
      exact nothing (by simp [point]) (by simp [point]) (by simp only [logAfter, point])

theorem runCall_retells {call : Call} (found : Table.find? other world.tasks = some (.call call))
    (ran : world.runCall other call = some next) (log : replay.log = world.log)
    (retells : ∀ key, world.Retells replay past key) :
    (replay.after asked ⟨world, .run other, next⟩).log = next.log ∧
      ∀ key, next.Retells (replay.after asked ⟨world, .run other, next⟩)
        (past ++ [⟨world, .run other, next⟩]) key := by
  have stepped : world.step (.run other) = some next := by simpa only [step, run, found] using ran
  have absent : world.worker? other = none := by simp [worker?, found]
  have cycle : (Passage.mk world (.run other) next).cycle? = call.cycle? world.memory := by
    simp only [Passage.cycle?, found]
  have served : (replay.after asked ⟨world, .run other, next⟩).log = next.log := by
    rw [log_of_runCall ran]
    simp only [Replay.after, cycle, Call.cycle?]
    cases call.point with
    | holding => simp [Replay.next, log]
    | _ => simpa using log
  have still : (replay.after asked ⟨world, .run other, next⟩).cursor = replay.cursor ∧
      (replay.after asked ⟨world, .run other, next⟩).outcomes = replay.outcomes := by
    simp only [Replay.after, cycle, Call.cycle?]
    cases call.point <;> exact ⟨rfl, rfl⟩
  refine ⟨served, fun key => ?_⟩
  have told : world.Retells (replay.after asked ⟨world, .run other, next⟩) past key :=
    (retells key).congr (congrFun still.1 key) (congrFun still.2 key)
  have launches : (Action.run other).LaunchesNew := trivial
  have fates := step_fate launches stepped key
  refine fates.retells told ?_ ?_
  · intro worker command runs here
    rw [← Action.run.inj runs, absent] at here
    cases here
  · intro worker after command bytes runs here
    rw [← Action.run.inj runs, absent] at here
    cases here

theorem step_retells (launches : action.LaunchesNew) (stepped : world.step action = some next)
    (heard : ∀ key, commands (hearing (deeds key past)).heard <+: asked key)
    (log : replay.log = world.log) (retells : ∀ key, world.Retells replay past key) :
    (replay.after asked ⟨world, action, next⟩).log = next.log ∧
      ∀ key, next.Retells (replay.after asked ⟨world, action, next⟩)
        (past ++ [⟨world, action, next⟩]) key := by
  by_cases runs : ∃ key, action = .run key
  · obtain ⟨key, rfl⟩ := runs
    simp only [step, run] at stepped
    split at stepped
    · rename_i worker found
      have present : world.worker? key = some worker := by simp [worker?, found]
      exact runWorker_retells present stepped (heard key) log retells
    · rename_i call found
      exact runCall_retells found stepped log retells
    · cases stepped
  · have idle (key : Key) : action ≠ .run key := fun same => runs ⟨key, same⟩
    have still : replay.after asked ⟨world, action, next⟩ = replay := by
      have none_here : (Passage.mk world action next).cycle? = none := by
        cases action with
        | run key => exact absurd rfl (idle key)
        | _ => rfl
      rw [Replay.after, none_here]
      rfl
    rw [still, log, log_of_idle idle stepped]
    exact ⟨rfl, fun key => fates_other launches stepped (retells key) (idle key)⟩

theorem cycles_concat (past : List Passage) (passage : Passage) :
    cycles (past ++ [passage]) = cycles past ++ passage.cycle?.toList := by
  simp only [cycles, List.filterMap_append, List.filterMap_cons, List.filterMap_nil]
  cases passage.cycle? <;> rfl

def asks (past : List Passage) (key : Key) : List Command :=
  commands (hearing (deeds key past)).heard

theorem replay_run {log : Log} {lockTimeout : Duration} {readBuffer : Nat}
    (launches : ∀ action, action ∈ actions → action.LaunchesNew)
    (ran : (initial log lockTimeout readBuffer).steps actions = some final) :
    let past := (initial log lockTimeout readBuffer).passages actions
    let replay := Replay.run (asks past) log (cycles past)
    replay.log = final.log ∧ ∀ key, final.Retells replay past key := by
  intro whole
  refine passages_induction (fun past world =>
    (Replay.run (asks whole) log (cycles past)).log = world.log ∧
      ∀ key, world.Retells (Replay.run (asks whole) log (cycles past)) past key) ?_ ?_ ran
  · exact ⟨rfl, fun key => ⟨rfl, rfl, rfl⟩⟩
  · intro early action late world next split reached ih stepped
    have member : action ∈ actions := split ▸ List.mem_append_right early List.mem_cons_self
    have heard (key : Key) : commands (hearing (deeds key
        ((initial log lockTimeout readBuffer).passages early))).heard <+: asks whole key := by
      have all : whole = (initial log lockTimeout readBuffer).passages early ++
          world.passages (action :: late) := by
        show (initial log lockTimeout readBuffer).passages actions = _
        rw [split, passages_append reached]
      rw [asks, all, deeds_append]
      exact (heard_prefix_append _ _).filterMap id
    have more := step_retells (launches action member) stepped heard ih.1 ih.2
    simpa only [Replay.run, Replay.after, cycles_concat, List.foldl_append] using more

end World

end CommandLog
