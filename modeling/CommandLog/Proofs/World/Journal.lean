import CommandLog.Proofs.World.Passage

/-!
What has been reported makes no difference to what happens: the world reports, and never reads it
again.
-/

namespace CommandLog

namespace World

variable {world next other : World} {action : Action}

/-- The world as it would be had nothing been reported. -/
def forget (world : World) : World := { world with journal := [] }

theorem memory_forget (world : World) : world.forget.memory = world.memory := rfl

theorem tasks_forget (world : World) : world.forget.tasks = world.tasks := rfl

theorem registry_forget (world : World) : world.forget.registry = world.registry := rfl

theorem drain_forget (world : World) : world.forget.drain = world.drain := rfl

theorem lock_forget (world : World) : world.forget.lock = world.lock := rfl

theorem call?_forget (world : World) (key : Key) : world.forget.call? key = world.call? key := rfl

theorem clock_forget (world : World) : world.forget.clock = world.clock := rfl

theorem worker?_forget (world : World) (key : Key) : world.forget.worker? key = world.worker? key := rfl

theorem holdsLog_forget (world : World) (key : Key) :
    world.forget.holdsLog key = world.holdsLog key := rfl

theorem hasExpired_forget (world : World) (key : Key) :
    world.forget.hasExpired key = world.hasExpired key := rfl

theorem hasEnded_forget (world : World) : world.forget.hasEnded = world.hasEnded := rfl

theorem alike_drain (alike : other.forget = world.forget) : other.drain = world.drain := by
  rw [← drain_forget other, alike, drain_forget]

theorem alike_registry (alike : other.forget = world.forget) : other.registry = world.registry := by
  rw [← registry_forget other, alike, registry_forget]

theorem alike_clock (alike : other.forget = world.forget) : other.clock = world.clock := by
  rw [← clock_forget other, alike, clock_forget]

theorem alike_worker? (alike : other.forget = world.forget) (key : Key) :
    other.worker? key = world.worker? key := by
  rw [← worker?_forget other, alike, worker?_forget]

theorem forget_runWorker (world : World) (key : Key) (worker : Worker) :
    (world.forget.runWorker key worker).map forget = (world.runWorker key worker).map forget := by
  simp only [runWorker, memory_forget, holdsLog_forget, hasExpired_forget]
  cases worker.point with
  | fresh =>
      simp only
      split <;> rfl
  | receiving =>
      simp only
      cases worker.receive? world.memory <;> rfl
  | requesting command | holding command | ended ending => rfl
  | waiting command =>
      by_cases holds : world.holdsLog key = true
      · simp only [holds, if_true]
        rfl
      · by_cases expired : world.hasExpired key = true
        · simp only [holds, expired, Bool.false_eq_true, if_false, if_true]
          rfl
        · simp only [holds, expired, Bool.false_eq_true, if_false]
  | sending rest =>
      simp only
      cases worker.send? rest <;> rfl
  | flushing =>
      simp only
      cases worker.flush? <;> rfl
  | closing result =>
      simp only
      cases worker.shutDown? result <;> rfl

theorem forget_runCall (world : World) (key : Key) (call : Call) :
    (world.forget.runCall key call).map forget = (world.runCall key call).map forget := by
  simp only [runCall, memory_forget, holdsLog_forget, hasExpired_forget]
  cases call.point with
  | fresh =>
      simp only
      cases call.request.prepare world.memory <;> rfl
  | requesting | holding | finished => rfl
  | waiting =>
      by_cases holds : world.holdsLog key = true
      · simp only [holds, if_true]
        rfl
      · by_cases expired : world.hasExpired key = true
        · simp only [holds, expired, Bool.false_eq_true, if_false, if_true]
          rfl
        · simp only [holds, expired, Bool.false_eq_true, if_false]

theorem forget_run (world : World) (key : Key) :
    (world.forget.run key).map forget = (world.run key).map forget := by
  simp only [run, tasks_forget]
  cases Table.find? key world.tasks with
  | none => rfl
  | some task =>
      cases task with
      | session worker => exact forget_runWorker world key worker
      | call call => exact forget_runCall world key call

theorem isQuiet_forget (world : World) : world.forget.isQuiet = world.isQuiet := by
  refine congrArg (List.all _) (funext fun key => ?_)
  have same := congrArg Option.isSome (forget_run world key)
  rw [Option.isSome_map, Option.isSome_map] at same
  rw [canRun, canRun, same]

theorem forget_abort (world : World) (key : Key) : world.forget.abort key = (world.abort key).forget := by
  simp only [abort, worker?_forget]
  cases world.worker? key with
  | none => rfl
  | some worker =>
      simp only
      split <;> rfl

theorem forget_abort_all (records : List Record) (world : World) :
    records.foldl (fun world record => world.abort record.key) world.forget =
      (records.foldl (fun world record => world.abort record.key) world).forget := by
  induction records generalizing world with
  | nil => rfl
  | cons record records ih =>
      rw [List.foldl_cons, List.foldl_cons, forget_abort, ih]

theorem forget_beginDrain (world : World) (grace : Duration) :
    (world.forget.beginDrain grace).forget = (world.beginDrain grace).forget := by
  show (if world.registry.records.isEmpty then _ else _ : World).forget =
    (if world.registry.records.isEmpty then _ else _ : World).forget
  cases world.registry.records.isEmpty <;> rfl

theorem forget_endDrain (world : World) (records : List Record) :
    (world.forget.endDrain records).1.forget = (world.endDrain records).1.forget := by
  simp only [endDrain, hasEnded_forget, forget_abort_all]
  rfl

theorem forget_look (world : World) :
    world.forget.look.map (Prod.map forget id) = world.look.map (Prod.map forget id) := by
  simp only [look, drain_forget, clock_forget, hasEnded_forget]
  cases world.drain with
  | none => rfl
  | some drain =>
      simp only
      by_cases due : world.clock = drain.nextLook
      · simp only [due, ne_eq, not_true, if_false]
        by_cases last : (drain.records.all world.hasEnded ||
            decide (drain.deadline ≤ drain.nextLook)) = true
        · simp only [last, if_true, Option.map_some, Prod.map, forget_endDrain]
          rfl
        · simp only [last, Bool.false_eq_true, if_false]
          rfl
      · simp only [due, ne_eq, not_false_iff, if_true]

theorem forget_addTask (world : World) (key : Key) (task : Task) :
    (world.forget.addTask key task).map forget = (world.addTask key task).map forget := by
  simp only [addTask, tasks_forget]
  cases Table.find? key world.tasks <;> rfl

theorem forget_changeStream (world : World) (key : Key) (change : Stream → Stream) :
    (world.forget.changeStream key change).map forget = (world.changeStream key change).map forget := by
  simp only [changeStream, worker?_forget]
  cases world.worker? key <;> rfl

theorem forget_unless_draining (call : World → Option World) (world : World)
    (same : (call world.forget).map forget = (call world).map forget) :
    (if world.forget.drain.isSome then none else call world.forget).map forget =
      (if world.drain.isSome then none else call world).map forget := by
  by_cases draining : world.drain.isSome = true
  · rw [if_pos draining, drain_forget, if_pos draining]
  · rw [if_neg draining, drain_forget, if_neg draining, same]

theorem forget_step (world : World) (action : Action) :
    (world.forget.step action).map forget = (world.step action).map forget := by
  cases action with
  | run key => exact forget_run world key
  | look =>
      have looked := congrArg (Option.map Prod.fst) (forget_look world)
      rw [Option.map_map, Option.map_map] at looked
      rw [step, step, Option.map_map, Option.map_map]
      exact looked
  | elapse span =>
      simp only [step, elapse]
      rw [isQuiet_forget, apply_ite (Option.map forget), apply_ite (Option.map forget)]
      rfl
  | drain grace =>
      refine forget_unless_draining (fun world => some (world.beginDrain grace)) world ?_
      exact congrArg some (forget_beginDrain world grace)
  | launch key worker =>
      simp only [step]
      split
      · rfl
      · exact forget_addTask world key _
      · rfl
  | spawn key peer =>
      exact forget_unless_draining (fun world => world.spawn key peer) world
        (forget_addTask { world with registry := world.registry.add key } key _)
  | call key request => exact forget_addTask world key _
  | arrive | setWrite | setFlush | setShutdown =>
      simp only [step]
      exact forget_changeStream world _ _
  | discard key =>
      simp only [step, discardWorker, worker?_forget]
      cases world.worker? key with
      | none => rfl
      | some worker =>
          simp only [Option.bind_some]
          split <;> rfl
  | collect key =>
      simp only [step, call?_forget]
      split <;> rfl
  | remember memory => rfl
  | hold | release =>
      simp only [step, lock_forget]
      split <;> rfl
  | reap => exact forget_unless_draining (fun world => some world.reap.1) world rfl

theorem alike_step (alike : other.forget = world.forget) (stepped : world.step action = some next) :
    ∃ others, other.step action = some others ∧ others.forget = next.forget := by
  have same := forget_step other action
  rw [alike, forget_step, stepped, Option.map_some] at same
  exact Option.map_eq_some_iff.mp same.symm

theorem alike_report (world : World) (events : List Event) :
    (world.report events).forget = world.forget := rfl

end World

def Passage.forget (passage : Passage) : Passage :=
  ⟨passage.before.forget, passage.action, passage.after.forget⟩

end CommandLog
