import CommandLog.Proofs.World.Sessions

/-!
The ids of sessions. A session keeps its id and its origin as long as it lives, and the registry gives
every id once, in the order in which it starts its sessions.
-/

namespace CommandLog

def Action.tendsRegistry : Action → Bool
  | .spawn .. | .reap | .drain _ | .look => true
  | _ => false

theorem Worker.Step.keeps {world : World} {before after : Worker} {told : List Event}
    (step : Step world before after told) :
    after.origin = before.origin ∧ after.identity = before.identity := by
  cases step <;> exact ⟨rfl, rfl⟩

namespace World

structure TurnOf (key : Key) (world next : World) : Prop where
  lockTimeout : next.lockTimeout = world.lockTimeout
  memory : next.memory = world.memory
  clock : next.clock = world.clock
  registry : next.registry = world.registry
  drain : next.drain = world.drain
  others : ∀ other, other ≠ key → Table.find? other next.tasks = Table.find? other world.tasks

variable {world next final : World} {action : Action} {actions : List Action} {key other : Key}
variable {before worker : Worker} {id : Nat} {grace : Duration}

theorem runWorker_turnOf (ran : world.runWorker key worker = some next) : world.TurnOf key next := by
  simp only [runWorker] at ran
  cases point : worker.point with
  | fresh =>
      simp only [point] at ran
      split at ran <;> cases ran
      exact ⟨rfl, rfl, rfl, rfl, rfl, fun _ apart => Table.find?_put_other _ _ apart⟩
  | waiting command =>
      simp only [point] at ran
      split at ran
      · cases ran
        exact ⟨rfl, rfl, rfl, rfl, rfl, fun _ apart => Table.find?_put_other _ _ apart⟩
      · split at ran <;> cases ran
        exact ⟨rfl, rfl, rfl, rfl, rfl, fun _ apart => Table.find?_put_other _ _ apart⟩
  | requesting command | holding command =>
      simp only [point] at ran
      cases ran
      exact ⟨rfl, rfl, rfl, rfl, rfl, fun _ apart => Table.find?_put_other _ _ apart⟩
  | receiving | sending rest | flushing | closing result =>
      simp only [point] at ran
      obtain ⟨turn, _, rfl⟩ := Option.map_eq_some_iff.mp ran
      exact ⟨rfl, rfl, rfl, rfl, rfl, fun _ apart => Table.find?_put_other _ _ apart⟩
  | ended ending =>
      simp only [point] at ran
      cases ran

theorem runCall_turnOf {call : Call} (ran : world.runCall key call = some next) :
    world.TurnOf key next := by
  simp only [runCall] at ran
  split at ran
  · split at ran <;> cases ran <;>
      exact ⟨rfl, rfl, rfl, rfl, rfl, fun _ apart => Table.find?_put_other _ _ apart⟩
  · cases ran
    exact ⟨rfl, rfl, rfl, rfl, rfl, fun _ apart => Table.find?_put_other _ _ apart⟩
  · split at ran
    · cases ran
      exact ⟨rfl, rfl, rfl, rfl, rfl, fun _ apart => Table.find?_put_other _ _ apart⟩
    · split at ran <;> cases ran
      exact ⟨rfl, rfl, rfl, rfl, rfl, fun _ apart => Table.find?_put_other _ _ apart⟩
  · cases ran
    exact ⟨rfl, rfl, rfl, rfl, rfl, fun _ apart => Table.find?_put_other _ _ apart⟩
  · cases ran

theorem run_turnOf (ran : world.run key = some next) : world.TurnOf key next := by
  simp only [run] at ran
  split at ran
  · exact runWorker_turnOf ran
  · exact runCall_turnOf ran
  · cases ran

theorem Fates.keeps (fates : world.Fates action key next) (found : world.worker? key = some before) :
    ∃ after, next.worker? key = some after ∧ after.origin = before.origin ∧
      after.identity = before.identity := by
  unfold Fates at fates
  rw [found] at fates
  generalize left : next.worker? key = last at fates
  cases fates with
  | same => exact ⟨before, rfl, rfl, rfl⟩
  | change => exact ⟨_, rfl, rfl, rfl⟩
  | run runs step => exact ⟨_, rfl, step.keeps⟩
  | abort | discard => exact ⟨_, rfl, rfl, rfl⟩

theorem steps_keep (launches : ∀ action, action ∈ actions → action.LaunchesNew)
    (ran : world.steps actions = some final) (found : world.worker? key = some before) :
    ∃ after, final.worker? key = some after ∧ after.origin = before.origin ∧
      after.identity = before.identity := by
  induction actions generalizing world before with
  | nil =>
      cases ran
      exact ⟨before, found, rfl, rfl⟩
  | cons action actions ih =>
      obtain ⟨next, stepped, ran⟩ := Option.bind_eq_some_iff.mp ran
      have fates := step_fate (launches action List.mem_cons_self) stepped key
      obtain ⟨middle, reached, origin, identity⟩ := fates.keeps found
      obtain ⟨after, left, lastOrigin, lastIdentity⟩ :=
        ih (fun later member => launches later (List.mem_cons_of_mem _ member)) ran reached
      exact ⟨after, left, lastOrigin.trans origin, lastIdentity.trans identity⟩

theorem addTask_eq_some {task : Task} : world.addTask key task = some next ↔
    Table.find? key world.tasks = none ∧ next = world.putTask key task := by
  simp only [addTask]
  cases Table.find? key world.tasks <;> simp [eq_comm]

theorem spawn_eq_some {peer : Option Net.SocketAddress} : world.spawn key peer = some next ↔
    Table.find? key world.tasks = none ∧
      next = { world with registry := world.registry.add key }.putWorker key
        (Worker.create ⟨world.registry.nextId, peer⟩ .registry world.registry.readBuffer) := by
  simp only [spawn]
  exact addTask_eq_some

structure Spawned (world : World) (key : Key) (peer : Option Net.SocketAddress) (next : World) :
    Prop where
  registry : next.registry = world.registry.add key
  drain : next.drain = world.drain
  journal : next.journal = world.journal
  worker : next.worker? key =
    some (Worker.create ⟨world.registry.nextId, peer⟩ .registry world.registry.readBuffer)

theorem spawn_spawned {peer : Option Net.SocketAddress} (started : world.spawn key peer = some next) :
    world.Spawned key peer next := by
  obtain ⟨_, rfl⟩ := spawn_eq_some.mp started
  exact ⟨rfl, rfl, rfl, worker?_putWorker _ key _⟩

theorem abort_all_keeps (records : List Record) (world : World) :
    let after := records.foldl (fun world record => world.abort record.key) world
    after.registry = world.registry ∧ after.drain = world.drain ∧ after.clock = world.clock ∧
      after.log = world.log ∧ after.journal = world.journal := by
  induction records generalizing world with
  | nil => exact ⟨rfl, rfl, rfl, rfl, rfl⟩
  | cons record records ih =>
      have first : (world.abort record.key).registry = world.registry ∧
          (world.abort record.key).drain = world.drain ∧
          (world.abort record.key).clock = world.clock ∧
          (world.abort record.key).log = world.log ∧
          (world.abort record.key).journal = world.journal := by
        simp only [abort]
        split
        · split <;> exact ⟨rfl, rfl, rfl, rfl, rfl⟩
        · exact ⟨rfl, rfl, rfl, rfl, rfl⟩
      obtain ⟨registry, drain, clock, log, journal⟩ := ih (world.abort record.key)
      rw [List.foldl_cons]
      exact ⟨registry.trans first.1, drain.trans first.2.1, clock.trans first.2.2.1,
        log.trans first.2.2.2.1, journal.trans first.2.2.2.2⟩

theorem endDrain_keeps (world : World) (records : List Record) :
    let after := (world.endDrain records).1
    after.registry = world.registry ∧ after.drain = none ∧ after.clock = world.clock ∧
      after.log = world.log ∧ after.journal = world.journal ++ after.joinEvents records := by
  obtain ⟨registry, _, clock, log, journal⟩ :=
    abort_all_keeps (records.filter fun record => !world.hasEnded record) world
  exact ⟨registry, rfl, clock, log, congrArg (· ++ _) journal⟩

inductive Looks (world : World) (drain : Drain) : World → Option DrainReport → Prop
  | last : (drain.records.all world.hasEnded = true ∨ drain.deadline ≤ world.clock) →
      Looks world drain (world.endDrain drain.records).1 (some (world.endDrain drain.records).2)
  | again : drain.records.all world.hasEnded = false → world.clock < drain.deadline →
      Looks world drain
        { world with drain := some { drain with
          nextLook := world.clock + Drain.interval.nanoseconds } } none

theorem look_looks {report : Option DrainReport} (looked : world.look = some (next, report)) :
    ∃ drain, world.drain = some drain ∧ world.clock = drain.nextLook ∧
      world.Looks drain next report := by
  simp only [look] at looked
  split at looked
  · cases looked
  · rename_i drain draining
    split at looked
    · cases looked
    · rename_i due
      refine ⟨drain, draining, by simpa using due, ?_⟩
      split at looked
      · rename_i finished
        cases looked
        exact .last (by simpa using finished)
      · rename_i goes
        cases looked
        simp only [Bool.or_eq_true, decide_eq_true_eq, not_or, Bool.not_eq_true, Nat.not_le] at goes
        exact .again goes.1 goes.2

theorem Looks.registry {drain : Drain} {report : Option DrainReport}
    (looks : world.Looks drain next report) : next.registry = world.registry := by
  cases looks with
  | last => exact (endDrain_keeps world _).1
  | again => rfl

theorem beginDrain_of_empty (empty : world.registry.isEmpty = true) : world.beginDrain grace = world :=
  if_pos empty

/-- What a drain leaves of a registry in which there was somebody, with or without a deadline. -/
def cleared (world : World) (drain : Option Drain) : World :=
  { world with
    registry := { world.registry with records := [] }
    drain
    journal := world.journal ++ [.draining world.registry.records.length] }

@[simp]
theorem drain_cleared (world : World) (drain : Option Drain) : (world.cleared drain).drain = drain := rfl

@[simp]
theorem clock_cleared (world : World) (drain : Option Drain) :
    (world.cleared drain).clock = world.clock := rfl

theorem beginDrain_of_tells (full : world.registry.isEmpty = false)
    (tells : world.clock + grace.nanoseconds < Clock.limit) : world.beginDrain grace =
      world.cleared (some ⟨world.registry.records, world.clock + grace.nanoseconds, world.clock⟩) := by
  rw [beginDrain, if_neg (Bool.eq_false_iff.mp full), Clock.later?_of_lt tells]
  rfl

theorem beginDrain_of_beyond (full : world.registry.isEmpty = false)
    (beyond : Clock.limit ≤ world.clock + grace.nanoseconds) :
    world.beginDrain grace = world.cleared none := by
  rw [beginDrain, if_neg (Bool.eq_false_iff.mp full), Clock.later?_of_le beyond]
  rfl

inductive BeginsDrain (world : World) (grace : Duration) : World → Prop
  | empty : world.registry.isEmpty = true → BeginsDrain world grace world
  | underway : world.registry.isEmpty = false → world.clock + grace.nanoseconds < Clock.limit →
      BeginsDrain world grace (world.cleared
        (some ⟨world.registry.records, world.clock + grace.nanoseconds, world.clock⟩))
  | failed : world.registry.isEmpty = false → Clock.limit ≤ world.clock + grace.nanoseconds →
      BeginsDrain world grace (world.cleared none)

theorem begins_beginDrain (world : World) (grace : Duration) :
    world.BeginsDrain grace (world.beginDrain grace) := by
  cases full : world.registry.isEmpty with
  | true =>
      rw [beginDrain_of_empty full]
      exact .empty full
  | false =>
      rcases Nat.lt_or_ge (world.clock + grace.nanoseconds) Clock.limit with tells | beyond
      · rw [beginDrain_of_tells full tells]
        exact .underway full tells
      · rw [beginDrain_of_beyond full beyond]
        exact .failed full beyond

theorem failsToDrain_iff : world.failsToDrain grace = true ↔
    world.registry.isEmpty = false ∧ Clock.limit ≤ world.clock + grace.nanoseconds := by
  simp [failsToDrain, Clock.later?]

/-- All that a step can do to the registry, to the drain that is under way, and to the clock. -/
inductive RegistryMove (world : World) : Action → World → Prop
  | spawn {key : Key} {peer : Option Net.SocketAddress} {next : World} : world.drain = none →
      world.Spawned key peer next → RegistryMove world (.spawn key peer) next
  | reap : world.drain = none → RegistryMove world .reap world.reap.1
  | drain {grace : Duration} {next : World} : world.drain = none → world.BeginsDrain grace next →
      RegistryMove world (.drain grace) next
  | look {drain : Drain} {next : World} {report : Option DrainReport} : world.drain = some drain →
      world.clock = drain.nextLook → world.Looks drain next report →
      world.look = some (next, report) → RegistryMove world .look next
  | pass {span : Nat} {next : World} : world.elapse span = some next →
      RegistryMove world (.elapse span) next
  | apart {action : Action} {next : World} : action.tendsRegistry = false →
      next.registry = world.registry → next.drain = world.drain → next.clock = world.clock →
      RegistryMove world action next

theorem step_registry (stepped : world.step action = some next) : world.RegistryMove action next := by
  cases action with
  | spawn key peer =>
      simp only [step] at stepped
      split at stepped
      · cases stepped
      · rename_i free
        exact .spawn (by simpa using free) (spawn_spawned stepped)
  | launch key worker =>
      simp only [step] at stepped
      split at stepped
      · cases stepped
      · obtain ⟨_, rfl⟩ := addTask_eq_some.mp stepped
        exact .apart rfl rfl rfl rfl
      · cases stepped
  | call key request =>
      obtain ⟨_, rfl⟩ := addTask_eq_some.mp stepped
      exact .apart rfl rfl rfl rfl
  | arrive | setWrite | setFlush | setShutdown =>
      obtain ⟨worker, _, rfl⟩ := Option.map_eq_some_iff.mp stepped
      exact .apart rfl rfl rfl rfl
  | discard key =>
      obtain ⟨worker, _, finished⟩ := Option.bind_eq_some_iff.mp stepped
      split at finished <;> cases finished
      exact .apart rfl rfl rfl rfl
  | collect key | hold | release =>
      simp only [step] at stepped
      split at stepped <;> cases stepped
      exact .apart rfl rfl rfl rfl
  | run key =>
      have turn := run_turnOf stepped
      exact .apart rfl turn.registry turn.drain turn.clock
  | remember memory =>
      cases stepped
      exact .apart rfl rfl rfl rfl
  | elapse span => exact .pass stepped
  | reap =>
      simp only [step] at stepped
      split at stepped
      · cases stepped
      · rename_i free
        cases stepped
        exact .reap (by simpa using free)
  | drain grace =>
      simp only [step] at stepped
      split at stepped
      · cases stepped
      · rename_i free
        cases stepped
        exact .drain (by simpa using free) (begins_beginDrain world grace)
  | look =>
      obtain ⟨⟨after, report⟩, looked, rfl⟩ := Option.map_eq_some_iff.mp stepped
      obtain ⟨drain, draining, due, looks⟩ := look_looks looked
      exact .look draining due looks looked

theorem step_spawn {peer : Option Net.SocketAddress} (stepped : world.step (.spawn key peer) = some next) :
    world.drain = none ∧ world.Spawned key peer next := by
  cases step_registry stepped with
  | spawn free started => exact ⟨free, started⟩
  | apart other => cases other

theorem step_reap (stepped : world.step .reap = some next) :
    world.drain = none ∧ next = world.reap.1 := by
  cases step_registry stepped with
  | reap free => exact ⟨free, rfl⟩
  | apart other => cases other

theorem step_beginDrain (stepped : world.step (.drain grace) = some next) :
    world.drain = none ∧ world.BeginsDrain grace next := by
  cases step_registry stepped with
  | drain free begins => exact ⟨free, begins⟩
  | apart other => cases other

theorem BeginsDrain.nextId (begins : world.BeginsDrain grace next) :
    next.registry.nextId = world.registry.nextId := by
  cases begins <;> rfl

theorem BeginsDrain.isEmpty (begins : world.BeginsDrain grace next) :
    next.registry.isEmpty = true := by
  cases begins with
  | empty empty => exact empty
  | underway | failed => rfl

theorem registry_elapse {span : Nat} (elapsed : world.elapse span = some next) :
    next.registry = world.registry ∧ next.drain = world.drain := by
  obtain ⟨_, _, rfl⟩ := elapse_eq_some elapsed
  exact ⟨rfl, rfl⟩

theorem nextId_spawn {peer : Option Net.SocketAddress} (stepped : world.step (.spawn key peer) = some next) :
    next.registry.nextId = world.registry.nextId + 1 := by
  exact congrArg Registry.nextId (step_spawn stepped).2.registry

theorem nextId_mono (stepped : world.step action = some next) :
    world.registry.nextId ≤ next.registry.nextId := by
  cases step_registry stepped with
  | spawn => exact Nat.le.intro (nextId_spawn stepped).symm
  | reap => exact Nat.le_refl _
  | drain _ begins => exact Nat.le_of_eq begins.nextId.symm
  | look _ _ looks _ => exact Nat.le_of_eq (congrArg Registry.nextId looks.registry.symm)
  | pass elapsed => exact Nat.le_of_eq (congrArg Registry.nextId (registry_elapse elapsed).1.symm)
  | apart _ registry => exact Nat.le_of_eq (congrArg Registry.nextId registry.symm)

def registeredId? (world : World) (key : Key) : Option Nat :=
  (world.worker? key).bind fun worker =>
    if worker.origin = .registry then some worker.identity.id else none

theorem registeredId?_eq_some : world.registeredId? key = some id ↔
    ∃ worker, world.worker? key = some worker ∧ worker.origin = .registry ∧
      worker.identity.id = id := by
  simp only [registeredId?, Option.bind_eq_some_iff, Option.ite_none_right_eq_some,
    Option.some.injEq]

theorem Fates.registered (fates : world.Fates action key next)
    (registered : next.registeredId? key = some id) : world.registeredId? key = some id ∨
      world.registeredId? key = none ∧ id = world.registry.nextId ∧
        ∃ peer, action = .spawn key peer := by
  obtain ⟨after, left, origin, rfl⟩ := registeredId?_eq_some.mp registered
  cases found : world.worker? key with
  | some before =>
      obtain ⟨same, reached, sameOrigin, identity⟩ := fates.keeps found
      cases left.symm.trans reached
      exact Or.inl (registeredId?_eq_some.mpr
        ⟨before, found, sameOrigin.symm.trans origin, by rw [identity]⟩)
  | none =>
      unfold Fates at fates
      rw [found, left] at fates
      cases fates with
      | new _ registers => exact Or.inr ⟨by simp [registeredId?, found], registers origin⟩

theorem registered_late (launches : ∀ action, action ∈ actions → action.LaunchesNew)
    (ran : world.steps actions = some final) (registered : final.registeredId? key = some id) :
    world.registeredId? key = some id ∨
      world.registeredId? key = none ∧ world.registry.nextId ≤ id := by
  induction actions generalizing world with
  | nil =>
      cases ran
      exact Or.inl registered
  | cons action actions ih =>
      obtain ⟨next, stepped, ran⟩ := Option.bind_eq_some_iff.mp ran
      have fates := step_fate (launches action List.mem_cons_self) stepped key
      rcases ih (fun later member => launches later (List.mem_cons_of_mem _ member)) ran with
        soon | ⟨unregistered, late⟩
      · rcases fates.registered soon with now | ⟨missing, rfl, _⟩
        · exact Or.inl now
        · exact Or.inr ⟨missing, Nat.le_refl _⟩
      · refine Or.inr ⟨?_, Nat.le_trans (nextId_mono stepped) late⟩
        cases before : world.registeredId? key with
        | none => rfl
        | some given =>
            obtain ⟨worker, found, origin, rfl⟩ := registeredId?_eq_some.mp before
            obtain ⟨after, left, sameOrigin, identity⟩ := fates.keeps found
            have still : next.registeredId? key = some after.identity.id :=
              registeredId?_eq_some.mpr ⟨after, left, sameOrigin.trans origin, rfl⟩
            rw [unregistered] at still
            cases still

theorem numbered_run {log : Log} {lockTimeout : Duration} {readBuffer : Nat}
    (launches : ∀ action, action ∈ actions → action.LaunchesNew)
    (ran : (initial log lockTimeout readBuffer).steps actions = some final)
    (registered : final.registeredId? key = some id) : id < final.registry.nextId := by
  refine passages_induction (fun _ world => ∀ id, world.registeredId? key = some id →
    id < world.registry.nextId) ?_ ?_ ran id registered
  · intro id given
    cases given
  · intro early action late world next split reached numbered stepped id given
    have member : action ∈ actions := split ▸ List.mem_append_right early List.mem_cons_self
    rcases (step_fate (launches action member) stepped key).registered given with
      before | ⟨_, rfl, peer, rfl⟩
    · exact Nat.lt_of_lt_of_le (numbered id before) (nextId_mono stepped)
    · rw [nextId_spawn stepped]
      exact Nat.lt_succ_self _

end World

end CommandLog
