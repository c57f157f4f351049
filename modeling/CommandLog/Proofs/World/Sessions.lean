import CommandLog.Proofs.World.Passage
import CommandLog.Proofs.World.Simulation
import CommandLog.Proofs.Worker.Step

/-!
What a step of the world is for one session: nothing, a turn of its own worker to run, something that
its client does to the connection, its beginning, or its end by somebody else.
-/

namespace CommandLog

def Action.change? (key : Key) : Action → Option (Stream → Stream)
  | .arrive other item => if other = key then some (·.arrive item) else none
  | .setWrite other mode => if other = key then some ({ · with onWrite := mode }) else none
  | .setFlush other readiness => if other = key then some ({ · with onFlush := readiness }) else none
  | .setShutdown other readiness =>
      if other = key then some ({ · with onShutdown := readiness }) else none
  | _ => none

inductive Action.Changes (key : Key) : Action → (Stream → Stream) → Prop
  | arrive {item} : Changes key (.arrive key item) (·.arrive item)
  | setWrite {mode} : Changes key (.setWrite key mode) ({ · with onWrite := mode })
  | setFlush {readiness} : Changes key (.setFlush key readiness) ({ · with onFlush := readiness })
  | setShutdown {readiness} :
      Changes key (.setShutdown key readiness) ({ · with onShutdown := readiness })

theorem Action.changes_of_change? {key : Key} {action : Action} {change : Stream → Stream}
    (changes : action.change? key = some change) : action.Changes key change := by
  cases action with
  | arrive | setWrite | setFlush | setShutdown =>
      simp only [change?, Option.ite_none_right_eq_some, Option.some.injEq] at changes
      obtain ⟨rfl, rfl⟩ := changes
      constructor
  | _ => cases changes

/-- A worker that is launched has done nothing yet. -/
def Action.LaunchesNew : Action → Prop
  | .launch _ worker =>
      ∃ identity origin readBuffer, worker = Worker.create identity origin readBuffer
  | _ => True

theorem Action.LaunchesNew.startsAnew {action : Action} (launches : action.LaunchesNew) :
    action.StartsAnew := by
  cases action with
  | launch key worker =>
      obtain ⟨identity, origin, readBuffer, rfl⟩ := launches
      rfl
  | _ => trivial

def Task.worker? : Task → Option Worker
  | .session worker => some worker
  | .call _ => none

/-- A worker after it has been stopped. It is left alone when it has ended before. -/
def Worker.stopped (worker : Worker) : Worker :=
  if worker.isEnded then worker else worker.finish .aborted

theorem Worker.isEnded_stopped (worker : Worker) : worker.stopped.isEnded = true := by
  simp only [stopped]
  split
  · assumption
  · rfl

theorem Worker.stopped_stopped (worker : Worker) : worker.stopped.stopped = worker.stopped := by
  rw [stopped, if_pos worker.isEnded_stopped]

namespace World

inductive Fate (world : World) (action : Action) (key : Key) :
    Option Worker → Option Worker → Prop
  | same {found} : (action = .run key → found = none) → Fate world action key found found
  | new {identity origin readBuffer} : action ≠ .run key →
      (origin = .registry → identity.id = world.registry.nextId ∧ ∃ peer, action = .spawn key peer) →
      Fate world action key none (some (Worker.create identity origin readBuffer))
  | change {worker change} : action.change? key = some change →
      Fate world action key (some worker) (some { worker with stream := change worker.stream })
  | run {worker after told} : action = .run key → Worker.Step world worker after told →
      Fate world action key (some worker) (some after)
  | abort {worker} : action = .look → worker.isEnded = false →
      Fate world action key (some worker) (some (worker.finish .aborted))
  | discard {worker} : action = .discard key → worker.origin = .nobody → worker.point = .fresh →
      Fate world action key (some worker) (some (worker.finish .discarded))

/-- What the step from `world` to `next` is for the session `key`. -/
abbrev Fates (world : World) (action : Action) (key : Key) (next : World) : Prop :=
  Fate world action key (world.worker? key) (next.worker? key)

variable {world next : World} {action : Action} {key other : Key} {worker : Worker} {task : Task}

theorem worker?_eq_bind (world : World) (key : Key) :
    world.worker? key = (Table.find? key world.tasks).bind Task.worker? := by
  simp only [worker?]
  cases Table.find? key world.tasks with
  | none => rfl
  | some task => cases task <;> rfl

theorem worker?_congr (same : next.tasks = world.tasks) (key : Key) :
    next.worker? key = world.worker? key := by
  simp only [worker?, same]

theorem worker?_put (put : next.tasks = Table.put other task world.tasks) (key : Key) :
    next.worker? key = if key = other then Task.worker? task else world.worker? key := by
  rw [worker?_eq_bind, worker?_eq_bind, put]
  split
  · rename_i same
    rw [same, Table.find?_put_same]
    rfl
  · rename_i apart
    rw [Table.find?_put_other task world.tasks apart]

theorem turn_of_run (found : world.worker? key = some worker)
    (stepped : world.step (.run key) = some next) :
    ∃ after told, next.worker? key = some after ∧ Worker.Step world worker after told ∧
      next.journal = world.journal ++ told ∧ next.log = world.logAfter worker := by
  obtain ⟨after, told, step, put, journal, logged⟩ :=
    runWorker_step ((run_of_worker? found).symm.trans stepped)
  exact ⟨after, told, by simpa [Task.worker?] using worker?_put put key, step, journal, logged⟩

theorem Fate.of_eq {after : Option Worker}
    (fate : Fate world action key (world.worker? key) after)
    (same : next.worker? key = after) : world.Fates action key next := by
  rw [Fates, same]
  exact fate

theorem fate_of_tasks (same : next.tasks = world.tasks) (idle : action ≠ .run key) :
    world.Fates action key next := by
  exact Fate.of_eq (.same fun runs => absurd runs idle) (worker?_congr same key)

theorem fate_of_put (other : Key) (put : next.tasks = Table.put other task world.tasks)
    (idle : key ≠ other → action ≠ .run key)
    (mine : key = other →
      Fate world action key (world.worker? key) (Task.worker? task)) :
    world.Fates action key next := by
  refine Fate.of_eq ?_ (worker?_put put key)
  split
  · rename_i same
    exact mine same
  · rename_i apart
    exact .same fun runs => absurd runs (idle apart)

theorem fate_addTask {earlier : World} (tasks : earlier.tasks = world.tasks)
    (added : earlier.addTask other task = some next) (idle : action ≠ .run key)
    (starts : ∀ worker, task = .session worker →
      ∃ identity origin readBuffer, worker = Worker.create identity origin readBuffer ∧
        (origin = .registry →
          identity.id = world.registry.nextId ∧ ∃ peer, action = .spawn other peer)) :
    world.Fates action key next := by
  simp only [addTask] at added
  split at added
  · rename_i missing
    cases added
    have put : (earlier.putTask other task).tasks = Table.put other task world.tasks := by
      rw [← tasks]
      rfl
    refine fate_of_put other put (fun _ => idle) ?_
    rintro rfl
    have nobody : world.worker? key = none := by simp [worker?, ← tasks, missing]
    rw [nobody]
    cases task with
    | session worker =>
        obtain ⟨identity, origin, readBuffer, rfl, registers⟩ := starts worker rfl
        exact .new idle registers
    | call call => exact .same fun runs => absurd runs idle
  · cases added

theorem fate_changeStream {change : Stream → Stream}
    (changed : world.changeStream other change = some next) (idle : action ≠ .run key)
    (changes : key = other → action.change? key = some change) :
    world.Fates action key next := by
  obtain ⟨worker, found, rfl⟩ := Option.map_eq_some_iff.mp changed
  refine fate_of_put other rfl (fun _ => idle) ?_
  rintro rfl
  rw [found]
  exact .change (changes rfl)

theorem runCall_tasks {call : Call} (ran : world.runCall other call = some next) :
    ∃ point, next.tasks = Table.put other (.call { call with point }) world.tasks := by
  simp only [runCall] at ran
  split at ran
  · split at ran <;> (cases ran; exact ⟨_, rfl⟩)
  · cases ran
    exact ⟨_, rfl⟩
  · split at ran
    · cases ran
      exact ⟨_, rfl⟩
    · split at ran
      · cases ran
        exact ⟨_, rfl⟩
      · cases ran
  · cases ran
    exact ⟨_, rfl⟩
  · cases ran

theorem fate_run (ran : world.run other = some next) :
    world.Fates (.run other) key next := by
  have idle (apart : key ≠ other) : Action.run other ≠ .run key := by
    intro same
    cases same
    exact apart rfl
  simp only [run] at ran
  split at ran
  · rename_i worker found
    obtain ⟨after, told, step, put, _, _⟩ := runWorker_step ran
    refine fate_of_put other put idle ?_
    rintro rfl
    have present : world.worker? key = some worker := by simp [worker?, found]
    rw [present]
    exact .run rfl step
  · rename_i call found
    obtain ⟨point, put⟩ := runCall_tasks ran
    refine fate_of_put other put idle ?_
    rintro rfl
    have absent : world.worker? key = none := by simp [worker?, found]
    rw [absent]
    exact .same fun _ => rfl
  · cases ran

theorem worker?_abort (world : World) (key other : Key) : (world.abort other).worker? key =
    if key = other then (world.worker? key).map Worker.stopped else world.worker? key := by
  simp only [abort]
  cases found : world.worker? other with
  | none =>
      by_cases same : key = other
      · simp [same, found]
      · simp [same]
  | some worker =>
      by_cases ended : worker.isEnded = true
      · by_cases same : key = other
        · simp [same, found, ended, Worker.stopped]
        · simp [same, ended]
      · have put : ((world.giveUpLog other).putWorker other (worker.finish .aborted)).worker? key =
            if key = other then Task.worker? (.session (worker.finish .aborted))
            else world.worker? key := worker?_put rfl key
        simp only [ended, Bool.false_eq_true, if_false, put]
        by_cases same : key = other
        · simp [same, found, ended, Worker.stopped, Task.worker?]
        · simp [same]

theorem worker?_abort_all (records : List Record) (world : World) (key : Key) :
    (records.foldl (fun world record => world.abort record.key) world).worker? key =
      if key ∈ records.map Record.key then (world.worker? key).map Worker.stopped
      else world.worker? key := by
  induction records generalizing world with
  | nil => rfl
  | cons record records ih =>
      rw [List.foldl_cons, ih, worker?_abort, List.map_cons]
      by_cases same : key = record.key <;> by_cases later : key ∈ records.map Record.key <;>
        simp [same, later, Worker.stopped_stopped, Function.comp_def]

theorem worker?_endDrain (world : World) (records : List Record) (key : Key) :
    (world.endDrain records).1.worker? key =
      if key ∈ records.map Record.key then (world.worker? key).map Worker.stopped
      else world.worker? key := by
  refine (worker?_abort_all (records.filter fun record => !world.hasEnded record) world key).trans ?_
  by_cases stopped : key ∈ (records.filter fun record => !world.hasEnded record).map Record.key
  · have drained : key ∈ records.map Record.key := (List.filter_sublist.map Record.key).subset stopped
    rw [if_pos stopped, if_pos drained]
  · rw [if_neg stopped]
    split
    · rename_i drained
      obtain ⟨record, member, rfl⟩ := List.mem_map.mp drained
      have ended : world.hasEnded record = true := by
        by_contra going
        exact stopped (List.mem_map_of_mem (List.mem_filter.mpr ⟨member, by simpa using going⟩))
      simp only [hasEnded] at ended
      cases found : world.worker? record.key with
      | none => rfl
      | some worker =>
          simp only [found] at ended
          rw [Option.map_some, Worker.stopped, if_pos ended]
    · rfl

theorem fate_look {report : Option DrainReport} (looked : world.look = some (next, report)) :
    world.Fates .look key next := by
  have idle : Action.look ≠ .run key := fun same => by cases same
  simp only [look] at looked
  split at looked
  · cases looked
  · rename_i drain _
    split at looked
    · cases looked
    · split at looked
      · cases looked
        refine Fate.of_eq ?_ (worker?_endDrain world drain.records key)
        split
        · cases found : world.worker? key with
          | none => exact .same fun _ => rfl
          | some worker =>
              simp only [Option.map_some, Worker.stopped]
              split
              · exact .same fun runs => absurd runs idle
              · rename_i going
                exact .abort rfl (by simpa using going)
        · exact .same fun runs => absurd runs idle
      · cases looked
        exact fate_of_tasks rfl idle

theorem fate_erase {call : Call} (found : world.call? other = some call)
    (idle : action ≠ .run key) :
    world.Fates action key { world with tasks := Table.erase other world.tasks } := by
  refine Fate.of_eq (.same fun runs => absurd runs idle) ?_
  by_cases same : key = other
  · subst same
    simp [worker?, Table.find?_erase_same, find?_of_call? found]
  · simp only [worker?, Table.find?_erase_other world.tasks same]

theorem fate_discard (discarded : world.discardWorker other = some next) :
    world.Fates (.discard other) key next := by
  have idle : Action.discard other ≠ .run key := fun same => by cases same
  obtain ⟨worker, found, finished⟩ := Option.bind_eq_some_iff.mp discarded
  split at finished
  · rename_i nobody fresh
    cases finished
    refine fate_of_put other rfl (fun _ => idle) ?_
    rintro rfl
    rw [found]
    exact .discard rfl nobody fresh
  · cases finished

theorem step_fate (launches : action.LaunchesNew) (stepped : world.step action = some next)
    (key : Key) : world.Fates action key next := by
  cases action with
  | launch other worker =>
      simp only [step] at stepped
      split at stepped
      · cases stepped
      · rename_i _ _ _ elsewhere
        refine fate_addTask rfl stepped (fun same => by cases same) ?_
        rintro _ ⟨⟩
        obtain ⟨identity, origin, readBuffer, rfl⟩ := launches
        exact ⟨identity, origin, readBuffer, rfl, fun registry => absurd registry elsewhere⟩
      · cases stepped
  | spawn other peer =>
      simp only [step] at stepped
      split at stepped
      · cases stepped
      · simp only [spawn] at stepped
        refine fate_addTask (by rfl) stepped (fun same => by cases same) ?_
        rintro _ ⟨⟩
        exact ⟨_, _, _, rfl, fun _ => ⟨rfl, peer, rfl⟩⟩
  | arrive other item =>
      simp only [step] at stepped
      exact fate_changeStream stepped (fun same => by cases same) fun same => if_pos same.symm
  | setWrite other mode =>
      simp only [step] at stepped
      exact fate_changeStream stepped (fun same => by cases same) fun same => if_pos same.symm
  | setFlush other readiness =>
      simp only [step] at stepped
      exact fate_changeStream stepped (fun same => by cases same) fun same => if_pos same.symm
  | setShutdown other readiness =>
      simp only [step] at stepped
      exact fate_changeStream stepped (fun same => by cases same) fun same => if_pos same.symm
  | discard other => exact fate_discard stepped
  | call other request =>
      exact fate_addTask rfl stepped (fun same => by cases same) (fun worker same => by cases same)
  | collect other =>
      simp only [step] at stepped
      split at stepped
      · rename_i found
        cases stepped
        exact fate_erase found fun same => by cases same
      · cases stepped
  | run other => exact fate_run stepped
  | look =>
      obtain ⟨⟨after, report⟩, looked, rfl⟩ := Option.map_eq_some_iff.mp stepped
      exact fate_look looked
  | remember memory =>
      cases stepped
      exact fate_of_tasks rfl fun same => by cases same
  | hold =>
      simp only [step] at stepped
      split at stepped
      · cases stepped
        exact fate_of_tasks rfl fun same => by cases same
      · cases stepped
  | release =>
      simp only [step] at stepped
      split at stepped
      · cases stepped
        exact fate_of_tasks rfl fun same => by cases same
      · cases stepped
  | elapse span =>
      obtain ⟨_, _, rfl⟩ := elapse_eq_some stepped
      exact fate_of_tasks rfl fun same => by cases same
  | reap =>
      simp only [step] at stepped
      split at stepped
      · cases stepped
      · cases stepped
        exact fate_of_tasks rfl fun same => by cases same
  | drain grace =>
      simp only [step] at stepped
      split at stepped
      · cases stepped
      · cases stepped
        refine fate_of_tasks ?_ fun same => by cases same
        simp only [beginDrain]
        split <;> rfl

theorem workers_run {log : Log} {lockTimeout : Duration} {readBuffer : Nat} {actions : List Action}
    {final : World} (motive : Worker → Prop)
    (new : ∀ identity origin readBuffer, motive (Worker.create identity origin readBuffer))
    (change : ∀ worker (action : Action) key change, action.change? key = some change →
      motive worker → motive { worker with stream := change worker.stream })
    (run : ∀ world before after told, Worker.Step world before after told → motive before →
      motive after)
    (finish : ∀ worker ending, motive worker → motive (worker.finish ending))
    (launches : ∀ action, action ∈ actions → action.LaunchesNew)
    (ran : (initial log lockTimeout readBuffer).steps actions = some final)
    (found : final.worker? key = some worker) : motive worker := by
  have all : ∀ worker, final.worker? key = some worker → motive worker := by
    refine passages_induction (fun _ world => ∀ worker, world.worker? key = some worker →
      motive worker) (fun worker found => by cases found) ?_ ran
    intro early action late world next split reached kept stepped last left
    have member : action ∈ actions := split ▸ List.mem_append_right early List.mem_cons_self
    have fates := step_fate (launches action member) stepped key
    unfold Fates at fates
    rw [left] at fates
    generalize found : world.worker? key = before at fates
    cases fates with
    | same => exact kept last found
    | new => exact new _ _ _
    | change changes => exact change _ action key _ changes (kept _ found)
    | run runs step => exact run world _ _ _ step (kept _ found)
    | abort | discard => exact finish _ _ (kept _ found)
  exact all worker found

end World

end CommandLog
