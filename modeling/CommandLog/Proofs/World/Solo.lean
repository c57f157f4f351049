import CommandLog.Proofs.World.LoneRun
import CommandLog.Proofs.World.Numbering
import CommandLog.Proofs.World.Settling

/-!
A world with one session and nobody else. Whatever its client sends before the end of the stream, and
whatever the size of its reads, there is a run in which the session goes on for as long as it can.
-/

namespace CommandLog

namespace World

structure Solo (size : Nat) (world : World) (worker : Worker) : Prop where
  tasks : world.tasks = [(0, .session worker)]
  memory : world.memory = .unlimited
  lock : world.lock = {} ∨ ∃ command, worker.point = .holding command ∧
    world.lock = { holder := some (.task 0) }
  origin : worker.origin = .registry
  size : worker.readBuffer = size

variable {log : Log} {lockTimeout : Duration} {readBuffer size : Nat} {action : Action}
variable {actions : List Action} {world next : World} {worker : Worker}

namespace Solo

theorem found (solo : world.Solo size worker) : world.worker? 0 = some worker := by
  simp [worker?, solo.tasks, Table.find?]

theorem free (solo : world.Solo size worker) (apart : ∀ command, worker.point ≠ .holding command) :
    world.lock = {} :=
  solo.lock.resolve_right fun ⟨command, holding, _⟩ => apart command holding

theorem released (solo : world.Solo size worker) : world.lock.release = {} := by
  rcases solo.lock with free | ⟨_, _, held⟩
  · rw [free]
    rfl
  · rw [held]
    rfl

theorem arrives (solo : world.Solo size worker) (item : Incoming) :
    ∃ next after, world.step (.arrive 0 item) = some next ∧ next.Solo size after := by
  refine ⟨world.putWorker 0 { worker with stream := worker.stream.arrive item },
    { worker with stream := worker.stream.arrive item }, ?_, ?_, solo.memory, solo.lock, solo.origin,
    solo.size⟩
  · simp only [step, changeStream, solo.found, Option.map_some]
  · simp [putWorker, putTask, Table.put, solo.tasks]

theorem lock_of_run (solo : world.Solo size worker) (apart : ∀ command, worker.point ≠ .requesting command)
    (ran : world.runWorker 0 worker = some next) : next.lock = {} := by
  simp only [runWorker] at ran
  cases point : worker.point with
  | requesting command => exact absurd point (apart command)
  | waiting command =>
      have free := solo.free (by simp [point])
      simp [point, holdsLog, hasExpired, Lock.isHeldBy, Lock.deadline?, free] at ran
  | holding command =>
      simp only [point] at ran
      cases ran
      exact solo.released
  | fresh =>
      simp only [point] at ran
      split at ran <;> cases ran
      exact solo.free (by simp [point])
  | receiving | sending rest | flushing | closing result =>
      simp only [point] at ran
      obtain ⟨turn, _, rfl⟩ := Option.map_eq_some_iff.mp ran
      exact solo.free (by simp [point])
  | ended ending =>
      simp only [point] at ran
      cases ran

theorem goes_on (solo : world.Solo size worker) (stepped : world.step (.run 0) = some next) :
    ∃ after, next.Solo size after := by
  have ran : world.runWorker 0 worker = some next := (run_of_worker? solo.found).symm.trans stepped
  obtain ⟨after, told, step, put, _⟩ := runWorker_step ran
  have tasks : next.tasks = [(0, .session after)] := by rw [put, solo.tasks, Table.put, if_pos rfl]
  refine ⟨after, tasks, (runWorker_turnOf ran).memory.trans solo.memory, ?_,
    step.keeps.1.trans solo.origin, step.readBuffer.trans solo.size⟩
  by_cases asks : ∃ command, worker.point = .requesting command
  · obtain ⟨command, requesting⟩ := asks
    have free := solo.free (by simp [requesting])
    have left : next.worker? 0 = some after := by simp [worker?, tasks, Table.find?]
    have holds := worker?_of_free solo.found requesting (by rw [free]) stepped
    rw [left, Option.some.injEq] at holds
    refine Or.inr ⟨command, by rw [holds], ?_⟩
    simp only [runWorker, requesting, Option.some.injEq] at ran
    rw [← ran]
    simp [putWorker, putTask, askLog, Lock.request, free]
  · exact Or.inl (solo.lock_of_run (fun command requesting => asks ⟨command, requesting⟩) ran)

theorem lone (solo : world.Solo size worker) (apart : action ≠ .run 0 → next.log = world.log) :
    Passage.IsLone 0 ⟨world, action, next⟩ := by
  refine ⟨solo.memory, ?_, fun absent => apart fun runs => ?_⟩
  · rintro other command _ found requesting
    cases solo.found.symm.trans found
    rw [solo.free (by simp [requesting])]
  · have nobody := absent runs
    rw [solo.found] at nobody
    cases nobody

end Solo

/-- What a lone run of the session `0` is before the session has come to rest. -/
structure Plays (log : Log) (lockTimeout : Duration) (readBuffer : Nat) (actions : List Action)
    (world : World) : Prop where
  ran : (initial log lockTimeout readBuffer).steps actions = some world
  spares : ∀ action ∈ actions, action.Spares 0
  lone : ∀ passage ∈ (initial log lockTimeout readBuffer).passages actions, passage.IsLone 0
  solo : ∃ worker, world.Solo (max readBuffer 1) worker

theorem Plays.step (plays : Plays log lockTimeout readBuffer actions world)
    (spares : action.Spares 0) (stepped : world.step action = some next)
    (apart : action ≠ .run 0 → next.log = world.log) (solo : ∃ worker, next.Solo (max readBuffer 1) worker) :
    Plays log lockTimeout readBuffer (actions ++ [action]) next := by
  obtain ⟨worker, before⟩ := plays.solo
  refine ⟨steps_concat_eq_some.mpr ⟨world, plays.ran, stepped⟩, ?_, ?_, solo⟩
  · rw [List.forall_mem_append, List.forall_mem_singleton]
    exact ⟨plays.spares, spares⟩
  · rw [passages_concat plays.ran stepped, List.forall_mem_append, List.forall_mem_singleton]
    exact ⟨plays.lone, before.lone apart⟩

theorem plays_spawn (log : Log) (lockTimeout : Duration) (readBuffer : Nat) :
    ∃ world, Plays log lockTimeout readBuffer [.spawn 0 none] world := by
  have spares : (Action.spawn 0 none).Spares 0 := ⟨trivial, trivial, by simp, by simp⟩
  obtain ⟨next, stepped, solo⟩ : ∃ next,
      (initial log lockTimeout readBuffer).step (.spawn 0 none) = some next ∧
        ∃ worker, next.Solo (max readBuffer 1) worker :=
    ⟨_, rfl, Worker.create ⟨1, none⟩ .registry readBuffer, rfl, rfl, Or.inl rfl, rfl, rfl⟩
  refine ⟨next, by simp [steps, stepped], List.forall_mem_singleton.mpr spares, ?_, solo⟩
  have idle : ∀ key, Action.spawn 0 none ≠ .run key := by simp
  simp only [passages, stepped, List.forall_mem_singleton]
  exact ⟨rfl, fun _ _ runs => absurd runs (idle 0), fun _ => log_of_idle idle stepped⟩

theorem Plays.arrives (plays : Plays log lockTimeout readBuffer actions world) (items : List Incoming) :
    ∃ next, Plays log lockTimeout readBuffer (actions ++ items.map (.arrive 0)) next := by
  induction items generalizing actions world with
  | nil => exact ⟨world, by simpa using plays⟩
  | cons item items ih =>
      obtain ⟨worker, solo⟩ := plays.solo
      obtain ⟨next, after, stepped, left⟩ := solo.arrives item
      have spares : (Action.arrive 0 item).Spares 0 := ⟨trivial, trivial, by simp, by simp⟩
      have idle : ∀ key, Action.arrive 0 item ≠ .run key := by simp
      simpa using ih (plays.step spares stepped (fun _ => log_of_idle idle stepped) ⟨after, left⟩)

theorem Plays.comes_to_rest (plays : Plays log lockTimeout readBuffer actions world) :
    ∃ run : LoneRun log, run.lockTimeout = lockTimeout ∧ run.readBuffer = readBuffer ∧ run.key = 0 ∧
      (∃ count, run.actions = actions ++ List.replicate count (.run 0)) ∧
      ∃ worker, run.final.worker? 0 = some worker ∧ worker.readBuffer = max readBuffer 1 := by
  generalize left : world.effort = effort
  induction effort using WellFoundedLT.induction generalizing actions world with
  | ind effort ih =>
      obtain ⟨worker, solo⟩ := plays.solo
      cases rests : world.canRun 0 with
      | false =>
          have started (other : Worker) (found : world.worker? 0 = some other) :
              other.origin ≠ .nobody := by
            cases solo.found.symm.trans found
            simp [solo.origin]
          exact ⟨⟨lockTimeout, readBuffer, 0, actions, world, plays.ran, plays.spares, plays.lone, started,
            rests⟩, rfl, rfl, rfl, ⟨0, by simp⟩, worker, solo.found, solo.size⟩
      | true =>
          obtain ⟨next, stepped⟩ := Option.isSome_iff_exists.mp rests
          -- Each turn leaves the session less to do.
          have less : next.effort < effort := by
            rw [← left]
            exact effort_run (fun key worker found => intact_run (fun action member =>
              (plays.spares action member).launches) plays.ran found) stepped
          have spares : (Action.run 0).Spares 0 := ⟨trivial, trivial, by simp, by simp⟩
          have more := plays.step spares stepped (fun other => absurd rfl other) (solo.goes_on stepped)
          obtain ⟨run, timeout, buffer, key, ⟨count, same⟩, last⟩ := ih _ less more rfl
          refine ⟨run, timeout, buffer, key, ⟨count + 1, ?_⟩, last⟩
          rw [same, List.append_assoc, List.replicate_succ, List.singleton_append]

end World

theorem arrivals_arrive (key : Key) (items : List Incoming) :
    arrivals key (items.map (.arrive key)) = items := by
  induction items with
  | nil => rfl
  | cons item items ih => simpa [arrivals, Action.arrival?] using ih

theorem LoneRun.exists_isSent (log : Log) (lockTimeout : Duration) (readBuffer : Nat) (sends : List Bytes) :
    ∃ run : LoneRun log, run.lockTimeout = lockTimeout ∧ run.readBuffer = readBuffer ∧ run.IsSent sends ∧
      ∃ worker, run.final.worker? run.key = some worker ∧ worker.readBuffer = max readBuffer 1 := by
  obtain ⟨world, spawned⟩ := World.plays_spawn log lockTimeout readBuffer
  obtain ⟨next, sent⟩ := spawned.arrives (sends.map .bytes ++ [.endOfStream])
  obtain ⟨run, timeout, buffer, key, ⟨count, actions⟩, last⟩ := sent.comes_to_rest
  refine ⟨run, timeout, buffer, ?_, key ▸ last⟩
  have idle : arrivals 0 (List.replicate count (.run 0)) = [] := by
    simp [arrivals, List.filterMap_replicate, Action.arrival?]
  have sent := arrivals_arrive 0 (sends.map .bytes ++ [.endOfStream])
  rw [arrivals] at idle sent
  rw [IsSent, key, actions, arrivals, List.filterMap_append, List.filterMap_append, idle, sent,
    List.append_nil]
  rfl

end CommandLog
