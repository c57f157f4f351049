import CommandLog.Proofs.World.Move

/-!
Every step of the world is a move of its view. One lemma for each way in which a task can go on, one
for each other action.
-/

namespace CommandLog

namespace Worker

variable {memory : Memory} {worker next : Worker} {events : List Event}

/-- What a worker can be up to after a read: it has asked for nothing yet, has ended, or has a command
for which all that comes before the log has been done. -/
def ReadsOn (memory : Memory) (worker next : Worker) : Prop :=
  next.cursor = worker.cursor ∧
    ((Task.session next).standing = .idle ∨ (Task.session next).standing = .gone ∨
      ∃ command, (Task.session next).standing = .requesting (.exchange command worker.cursor) ∧
        (Request.exchange command worker.cursor).prepare memory = .ok ())

theorem dispatch_readsOn (memory : Memory) (worker : Worker) (line : Bytes) :
    ReadsOn memory worker (worker.dispatch memory line).1 := by
  simp only [dispatch]
  cases Command.parse line with
  | error error => exact ⟨rfl, Or.inl rfl⟩
  | ok command =>
      simp only
      cases prepared : (Request.exchange command worker.cursor).prepare memory with
      | error error => exact ⟨rfl, Or.inl rfl⟩
      | ok _ => exact ⟨rfl, Or.inr (Or.inr ⟨command, rfl, prepared⟩)⟩

theorem take_readsOn {chunk : Bytes} (reading : worker.point = .receiving) :
    ReadsOn memory worker (worker.take memory chunk).1 := by
  have rests (line : LineBuffer) : (Task.session { worker with line }).standing = .idle := by
    simp [Task.standing, reading]
  simp only [take]
  obtain ⟨outcome, line⟩ := worker.line.feed memory chunk
  cases outcome with
  | error error => exact ⟨rfl, Or.inl (rests line)⟩
  | ok feed =>
      cases feed with
      | incomplete => exact ⟨rfl, Or.inl (rests line)⟩
      | complete text discarded => exact dispatch_readsOn memory { worker with line } text

theorem receive?_readsOn (reading : worker.point = .receiving)
    (received : worker.receive? memory = some (next, events)) : ReadsOn memory worker next := by
  simp only [receive?, Option.map_eq_some_iff] at received
  obtain ⟨⟨item, stream⟩, _, received⟩ := received
  simp only at received
  split at received
  · cases received
    exact ⟨rfl, Or.inl rfl⟩
  · cases received
    exact ⟨rfl, Or.inl rfl⟩
  · rename_i chunk _ _
    have taken : ReadsOn memory { worker with stream } (take memory { worker with stream } chunk).1 :=
      take_readsOn reading
    rwa [received] at taken
  · cases received
    exact ⟨rfl, Or.inl rfl⟩
  · cases received
    exact ⟨rfl, Or.inr (Or.inl rfl)⟩

theorem conclude_shown (worker : Worker) (command : Command) (answer : Except LogError Reply) :
    let shown : Reply := match answer with
      | .ok reply => reply
      | .error _ => ⟨[], worker.cursor⟩
    let after := (worker.conclude command answer).1
    (Task.session after).standing = .idle ∧
      (Task.session after).gain = .reply shown.bytes shown.cursor ∧ after.cursor = shown.cursor := by
  cases answer with
  | ok reply => exact ⟨rfl, rfl, rfl⟩
  | error error => exact ⟨rfl, rfl, rfl⟩

theorem send?_idle {rest : Bytes} (sent : worker.send? rest = some next) :
    next.cursor = worker.cursor ∧ (Task.session next).standing = .idle := by
  simp only [send?] at sent
  split at sent
  · cases sent
    exact ⟨rfl, rfl⟩
  · obtain ⟨⟨taken, stream⟩, _, written⟩ := Option.map_eq_some_iff.mp sent
    cases taken with
    | ok count =>
        cases written
        exact ⟨rfl, rfl⟩
    | error cause =>
        cases written
        exact ⟨rfl, rfl⟩

theorem flush?_idle (flushed : worker.flush? = some next) :
    next.cursor = worker.cursor ∧ (Task.session next).standing = .idle := by
  simp only [flush?] at flushed
  obtain ⟨⟨outcome, stream⟩, _, done⟩ := Option.map_eq_some_iff.mp flushed
  cases outcome with
  | ok _ =>
      cases done
      exact ⟨rfl, rfl⟩
  | error cause =>
      cases done
      exact ⟨rfl, rfl⟩

theorem shutDown?_gone {result : Except SessionFailure Unit}
    (shut : worker.shutDown? result = some (next, events)) :
    next.cursor = worker.cursor ∧ (Task.session next).standing = .gone := by
  simp only [shutDown?] at shut
  obtain ⟨⟨outcome, stream⟩, _, done⟩ := Option.map_eq_some_iff.mp shut
  cases done
  exact ⟨rfl, rfl⟩

end Worker

namespace World

variable {world next : World} {key : Key}

theorem holdsLog_iff : world.holdsLog key = true ↔ world.lock.holder = some (.task key) := by
  simp [holdsLog, Lock.isHeldBy]

theorem standing_put_report (world : World) (key : Key) (task : Task) (events : List Event) :
    ((world.putTask key task).report events).standing key = task.standing := by
  have changed := congrFun (standing_putTask world key task) key
  rwa [Function.update_self] at changed

variable {request : Request} {task : Task} (events : List Event)

theorem move_idle (stood : world.standing key = .idle) (keeps : task.cursor = world.cursor key)
    (stands : task.standing = .idle ∨ task.standing = .gone ∨
      ∃ request, task.standing = .requesting request ∧ request.prepare world.memory = .ok ()) :
    View.Move world.view (world.runFacts key ((world.putTask key task).report events))
      ((world.putTask key task).report events).view := by
  rw [view_report, view_putTask world keeps]
  simp only [runFacts, stood, standing_put_report]
  rcases stands with idle | gone | ⟨request, asks, prepared⟩
  · rw [idle, put_standing stood]
    exact .stay
  · rw [gone]
    exact .leave stood
  · rw [asks]
    exact .ask stood prepared

theorem move_request (stood : world.standing key = .requesting request)
    (apart : world.lock.holder ≠ some (.task key)) (keeps : task.cursor = world.cursor key)
    (stands : task.standing =
      if (world.askLog key).holdsLog key then .holding request else .waiting request) :
    View.Move world.view
      (world.runFacts key ((world.askLog key).putTask key task))
      ((world.askLog key).putTask key task).view := by
  have standing := standing_put_report (world.askLog key) key task []
  have seen : ((world.askLog key).putTask key task).view =
      (world.view.put key task.standing).withLock (world.askLog key).lock := by
    rw [view_putTask (world.askLog key) keeps]
    rfl
  simp only [runFacts, stood]
  rw [seen, show ((world.askLog key).putTask key task).standing key = task.standing from standing]
  cases holder : world.lock.holder with
  | none =>
      have asked : (world.askLog key).lock = { world.lock with holder := some (.task key) } := by
        simp [askLog, Lock.request, holder]
      have holds : (world.askLog key).holdsLog key = true := by
        simp [holdsLog, Lock.isHeldBy, asked]
      rw [stands, if_pos holds, asked]
      exact .take stood holder
  | some other =>
      have asked : (world.askLog key).lock = { world.lock with
          queue := world.lock.queue ++ [⟨key, world.clock + world.lockTimeout.nanoseconds⟩] } := by
        simp [askLog, Lock.request, holder]
      have waits : ¬ (world.askLog key).holdsLog key = true := by
        simpa [holdsLog, Lock.isHeldBy, asked] using apart
      rw [stands, if_neg waits, asked]
      exact .wait stood holder

theorem move_wake (stood : world.standing key = .waiting request)
    (holds : world.holdsLog key = true) (keeps : task.cursor = world.cursor key)
    (stands : task.standing = .holding request) :
    View.Move world.view (world.runFacts key (world.putTask key task))
      (world.putTask key task).view := by
  have standing := standing_put_report world key task []
  simp only [runFacts, stood]
  rw [view_putTask world keeps,
    show (world.putTask key task).standing key = .holding request from standing.trans stands, stands]
  exact .wake stood (holdsLog_iff.mp holds)

theorem move_expire (stood : world.standing key = .waiting request)
    (holds : ¬ world.holdsLog key = true) (expired : world.hasExpired key = true)
    (keeps : task.cursor = world.cursor key) (stands : task.standing = .idle) :
    View.Move world.view
      (world.runFacts key (((world.giveUpLog key).putTask key task).report events))
      (((world.giveUpLog key).putTask key task).report events).view := by
  have seen : ((world.giveUpLog key).putTask key task).view =
      (world.view.put key task.standing).withLock (world.lock.withdraw key) := by
    rw [view_putTask (world.giveUpLog key) keeps]
    rfl
  simp only [runFacts, stood]
  rw [view_report, seen, standing_put_report, stands]
  simp only [hasExpired, Lock.deadline?] at expired
  cases queued : world.lock.queue.find? fun waiter => waiter.key == key with
  | none => simp [queued] at expired
  | some waiter =>
      simp only [queued, Option.map_some, decide_eq_true_eq] at expired
      exact .expire stood (fun holder => holds (holdsLog_iff.mpr holder))
        (List.mem_of_find?_eq_some queued) (by simpa using List.find?_some queued) expired

theorem move_turn {α : Type} {served : Served α}
    (stood : world.standing key = .holding request) (stands : task.standing = .idle)
    (serves : world.view.Serves key request task.gain served.log
      (Function.update world.cursor key task.cursor)) :
    View.Move world.view
      (world.runFacts key (((world.returnLog served).putTask key task).report events))
      (((world.returnLog served).putTask key task).report events).view := by
  have gain : (((world.returnLog served).putTask key task).report events).gain key = task.gain :=
    gain_putTask task
  have seen : ((world.returnLog served).putTask key task).view =
      { (world.view.put key .idle).withLock world.lock.release with
        log := served.log
        cursor := Function.update world.cursor key task.cursor } := by
    simp only [view, standing_putTask, cursor_putTask, stands]
    rfl
  simp only [runFacts, stood]
  rw [view_report, seen, gain]
  exact .turn stood serves

theorem runWorker_move {worker : Worker}
    (found : Table.find? key world.tasks = some (.session worker))
    (apart : ∀ request, world.standing key = .requesting request →
      world.lock.holder ≠ some (.task key))
    (ran : world.runWorker key worker = some next) :
    View.Move world.view (world.runFacts key next) next.view := by
  have stood := standing_of_find? found
  have keeps := (cursor_of_find? found).symm
  simp only [Task.standing] at stood
  simp only [Task.cursor] at keeps
  simp only [runWorker] at ran
  cases point : worker.point with
  | fresh =>
      simp only [point] at ran stood
      split at ran
      · cases ran
      · cases ran
        exact move_idle [] stood keeps (Or.inl rfl)
  | receiving =>
      simp only [point] at ran stood
      obtain ⟨⟨after, events⟩, received, rfl⟩ := Option.map_eq_some_iff.mp ran
      obtain ⟨cursor, stands⟩ := Worker.receive?_readsOn point received
      refine move_idle _ stood (cursor.trans keeps) ?_
      rcases stands with idle | gone | ⟨command, asks, prepared⟩
      · exact Or.inl idle
      · exact Or.inr (Or.inl gone)
      · exact Or.inr (Or.inr ⟨_, asks, prepared⟩)
  | requesting command =>
      simp only [point] at ran stood
      cases ran
      refine move_request stood (apart _ stood) keeps ?_
      split <;> rfl
  | waiting command =>
      simp only [point] at ran stood
      split at ran
      · rename_i holds
        cases ran
        exact move_wake stood holds keeps rfl
      · rename_i waits
        split at ran
        · rename_i expired
          cases ran
          exact move_expire _ stood waits expired keeps rfl
        · cases ran
  | holding command =>
      simp only [point] at ran stood
      cases ran
      obtain ⟨idle, gain, cursor⟩ := Worker.conclude_shown worker command
        (Log.exchange world.memory world.log worker.cursor command).answer
      refine move_turn _ stood idle ?_
      rw [gain, Task.cursor, cursor, keeps]
      exact .session
  | sending rest =>
      simp only [point] at ran stood
      obtain ⟨after, sent, rfl⟩ := Option.map_eq_some_iff.mp ran
      obtain ⟨cursor, idle⟩ := Worker.send?_idle sent
      exact move_idle [] stood (cursor.trans keeps) (Or.inl idle)
  | flushing =>
      simp only [point] at ran stood
      obtain ⟨after, flushed, rfl⟩ := Option.map_eq_some_iff.mp ran
      obtain ⟨cursor, idle⟩ := Worker.flush?_idle flushed
      exact move_idle [] stood (cursor.trans keeps) (Or.inl idle)
  | closing result =>
      simp only [point] at ran stood
      obtain ⟨⟨after, events⟩, shut, rfl⟩ := Option.map_eq_some_iff.mp ran
      obtain ⟨cursor, gone⟩ := Worker.shutDown?_gone shut
      exact move_idle _ stood (cursor.trans keeps) (Or.inr (Or.inl gone))
  | ended ending =>
      simp only [point] at ran
      cases ran

theorem runCall_move {call : Call} (found : Table.find? key world.tasks = some (.call call))
    (apart : ∀ request, world.standing key = .requesting request →
      world.lock.holder ≠ some (.task key))
    (ran : world.runCall key call = some next) :
    View.Move world.view (world.runFacts key next) next.view := by
  have stood := standing_of_find? found
  have keeps := (cursor_of_find? found).symm
  simp only [Task.standing] at stood
  simp only [runCall] at ran
  cases point : call.point with
  | fresh =>
      simp only [point] at ran stood
      cases prepared : call.request.prepare world.memory with
      | error error =>
          simp only [prepared] at ran
          cases ran
          exact move_idle [] stood keeps (Or.inl rfl)
      | ok _ =>
          simp only [prepared] at ran
          cases ran
          exact move_idle [] stood keeps (Or.inr (Or.inr ⟨_, rfl, prepared⟩))
  | requesting =>
      simp only [point] at ran stood
      cases ran
      refine move_request stood (apart _ stood) keeps ?_
      split <;> rfl
  | waiting =>
      simp only [point] at ran stood
      split at ran
      · rename_i holds
        cases ran
        exact move_wake stood holds keeps rfl
      · rename_i waits
        split at ran
        · rename_i expired
          cases ran
          exact move_expire [] stood waits expired keeps rfl
        · cases ran
  | holding =>
      simp only [point] at ran stood
      cases ran
      refine move_turn [] stood rfl ?_
      rw [show (Task.call { call with point := .finished _ }).cursor = world.cursor key from keeps,
        Function.update_eq_self]
      exact .call
  | finished answer =>
      simp only [point] at ran
      cases ran

theorem find?_of_worker? {worker : Worker} (found : world.worker? key = some worker) :
    Table.find? key world.tasks = some (.session worker) := by
  simp only [worker?] at found
  split at found
  · rename_i task
    cases found
    exact task
  · cases found

theorem report_nil (world : World) : world.report [] = world := by
  simp only [report, List.append_nil]

@[simp] theorem worker?_putWorker (world : World) (key : Key) (worker : Worker) :
    (world.putWorker key worker).worker? key = some worker := by
  simp [worker?, putWorker, putTask]

theorem run_of_worker? {worker : Worker} (found : world.worker? key = some worker) :
    world.run key = world.runWorker key worker := by
  rw [run, find?_of_worker? found]

theorem view_addTask (added : world.addTask key task = some next) (fresh : task.cursor = 0)
    (stands : task.standing = .idle) : next.view = world.view := by
  simp only [addTask] at added
  split at added
  · rename_i missing
    cases added
    have stood : world.standing key = .idle := by simp [standing, missing]
    have unread : world.cursor key = 0 := by simp [cursor, missing]
    rw [view_putTask world (fresh.trans unread.symm), stands]
    exact put_standing stood
  · cases added

theorem view_spawn {peer : Option Net.SocketAddress} (spawned : world.spawn key peer = some next) :
    next.view = world.view := by
  simp only [spawn] at spawned
  have same := view_addTask spawned rfl rfl
  exact same

theorem view_changeStream {change : Stream → Stream}
    (changed : world.changeStream key change = some next) : next.view = world.view := by
  obtain ⟨worker, found, rfl⟩ := Option.map_eq_some_iff.mp changed
  have found := find?_of_worker? found
  have stood := standing_of_find? found
  exact Eq.trans (view_putTask world (cursor_of_find? found).symm) (put_standing stood)

theorem view_erase {call : Call} {answer : Except LogError Answer}
    (found : Table.find? key world.tasks = some (.call call))
    (finished : call.point = .finished answer) :
    { world with tasks := Table.erase key world.tasks }.view = world.view := by
  have stood : world.standing key = .idle := by
    rw [standing_of_find? found, Task.standing, finished]
  have standing : { world with tasks := Table.erase key world.tasks }.standing = world.standing := by
    funext other
    by_cases same : other = key
    · rw [same, stood]
      simp [World.standing, Table.find?_erase_same]
    · simp [World.standing, Table.find?_erase_other _ same]
  have cursor : { world with tasks := Table.erase key world.tasks }.cursor = world.cursor := by
    funext other
    by_cases same : other = key
    · rw [same, cursor_of_find? found]
      simp [World.cursor, Table.find?_erase_same, Task.cursor]
    · simp [World.cursor, Table.find?_erase_other _ same]
  simp only [view, standing, cursor]

theorem discardWorker_move (discarded : world.discardWorker key = some next) :
    View.Move world.view [] next.view := by
  obtain ⟨worker, found, finished⟩ := Option.bind_eq_some_iff.mp discarded
  have found := find?_of_worker? found
  split at finished
  · rename_i fresh
    cases finished
    have stood : world.standing key = .idle := by
      rw [standing_of_find? found, Task.standing, fresh]
    have seen : (world.putWorker key (worker.finish .discarded)).view = world.view.put key .gone :=
      view_putTask world (cursor_of_find? found).symm
    rw [seen]
    exact .leave stood
  · cases finished

theorem find?_of_call? {call : Call} (found : world.call? key = some call) :
    Table.find? key world.tasks = some (.call call) := by
  simp only [call?] at found
  split at found
  · rename_i task
    cases found
    exact task
  · cases found

theorem isEnded_iff {worker : Worker} :
    worker.isEnded = true ↔ (Task.session worker).standing = .gone := by
  simp only [Worker.isEnded, Task.standing]
  cases worker.point <;> simp

theorem view_abort {worker : Worker} (found : world.worker? key = some worker) :
    (world.abort key).view = world.view.stop key := by
  have stood := standing_of_find? (find?_of_worker? found)
  have keeps := cursor_of_find? (find?_of_worker? found)
  simp only [abort, found]
  by_cases ended : worker.isEnded = true
  · have gone : world.view.standing key = .gone := stood.trans (isEnded_iff.mp ended)
    rw [if_pos ended, View.stop, if_pos gone]
  · have going : ¬ world.view.standing key = .gone := fun gone =>
      ended (isEnded_iff.mpr (stood.symm.trans gone))
    rw [if_neg ended, View.stop, if_neg going]
    exact view_putTask (world.giveUpLog key) keeps.symm

theorem isSome_worker?_abort (other : Key) (found : (world.worker? other).isSome) :
    ((world.abort key).worker? other).isSome := by
  simp only [abort]
  split
  · split
    · exact found
    · by_cases same : other = key
      · simp [same, putWorker, worker?, putTask]
      · simpa [putWorker, worker?, putTask, giveUpLog, Table.find?_put_other _ _ same] using found
  · exact found

theorem view_abort_all (records : List Record) (world : World)
    (found : ∀ record, record ∈ records → (world.worker? record.key).isSome) :
    (records.foldl (fun world record => world.abort record.key) world).view =
      (records.map Record.key).foldl View.stop world.view := by
  induction records generalizing world with
  | nil => rfl
  | cons record records ih =>
      obtain ⟨worker, present⟩ := Option.isSome_iff_exists.mp (found record List.mem_cons_self)
      have later (other : Record) (member : other ∈ records) :
          ((world.abort record.key).worker? other.key).isSome :=
        isSome_worker?_abort _ (found other (List.mem_cons_of_mem _ member))
      rw [List.foldl_cons, ih _ later, view_abort present]
      rfl

theorem worker?_of_hasEnded {record : Record} (going : world.hasEnded record = false) :
    (world.worker? record.key).isSome ∧ world.view.standing record.key ≠ .gone := by
  simp only [hasEnded] at going
  split at going
  · rename_i worker found
    refine ⟨by simp [found], ?_⟩
    intro gone
    have ended := isEnded_iff.mpr ((standing_of_find? (find?_of_worker? found)).symm.trans gone)
    rw [ended] at going
    cases going
  · cases going

theorem look_move {report : Option DrainReport} (looked : world.look = some (next, report)) :
    View.Move world.view (world.lookFacts next) next.view := by
  simp only [look] at looked
  cases draining : world.drain with
  | none => simp [draining] at looked
  | some drain =>
      simp only [draining] at looked
      split at looked
      · cases looked
      · split at looked
        · cases looked
          have going (record : Record)
              (member : record ∈ drain.records.filter fun record => !world.hasEnded record) :
              world.hasEnded record = false := by
            simpa using (List.mem_filter.mp member).2
          have seen := view_abort_all (drain.records.filter fun record => !world.hasEnded record)
            world fun record member => (worker?_of_hasEnded (going record member)).1
          simp only [lookFacts, draining, endDrain]
          rw [view_report]
          refine Eq.subst (motive := fun view => View.Move world.view _ view) seen.symm ?_
          apply View.Move.stop
          intro key member
          obtain ⟨record, inRecords, rfl⟩ := List.mem_map.mp member
          exact (worker?_of_hasEnded (going record inRecords)).2
        · cases looked
          simp only [lookFacts, draining]
          exact .stay

theorem find?_of_standing (acts : world.standing key ≠ .idle) :
    ∃ task, Table.find? key world.tasks = some task := by
  cases found : Table.find? key world.tasks with
  | none => simp [standing, found] at acts
  | some task => exact ⟨task, rfl⟩

theorem run_of_quiet (quiet : world.isQuiet = true) (key : Key) : world.run key = none := by
  cases found : Table.find? key world.tasks with
  | none => simp [run, found]
  | some task =>
      have member : key ∈ Table.keys world.tasks := Table.mem_keys_of_find? found
      have stuck := List.all_eq_true.mp quiet key member
      simpa [canRun] using stuck

theorem run_ready
    (stood : world.standing key = .requesting request ∨ world.standing key = .holding request) :
    (world.run key).isSome := by
  have acts : world.standing key ≠ .idle := by
    rcases stood with requests | holds
    · simp [requests]
    · simp [holds]
  obtain ⟨task, found⟩ := find?_of_standing acts
  rw [standing_of_find? found] at stood
  cases task with
  | session worker =>
      cases point : worker.point <;> simp [Task.standing, point] at stood
      all_goals simp [run, found, runWorker, point]
  | call call =>
      cases point : call.point <;> simp [Task.standing, point] at stood
      all_goals simp [run, found, runCall, point]

theorem run_waiting (stood : world.standing key = .waiting request) :
    (world.run key).isSome ↔ world.holdsLog key = true ∨ world.hasExpired key = true := by
  obtain ⟨task, found⟩ := find?_of_standing (by simp [stood] : world.standing key ≠ .idle)
  rw [standing_of_find? found] at stood
  cases task with
  | session worker =>
      cases point : worker.point <;> simp [Task.standing, point] at stood
      by_cases holds : world.holdsLog key = true <;> by_cases expired : world.hasExpired key = true <;>
        simp [run, found, runWorker, point, holds, expired]
  | call call =>
      cases point : call.point <;> simp [Task.standing, point] at stood
      by_cases holds : world.holdsLog key = true <;> by_cases expired : world.hasExpired key = true <;>
        simp [run, found, runCall, point, holds, expired]

theorem min?_le (values : List Nat) {value : Nat} (member : value ∈ values) :
    ∃ least, values.min? = some least ∧ least ≤ value := by
  obtain ⟨least, found⟩ := Option.isSome_iff_exists.mp (List.isSome_min?_of_mem member)
  exact ⟨least, found, (List.min?_eq_some_iff.mp found).2 value member⟩

theorem nextDue?_le {waiter : Waiter} (queued : waiter ∈ world.lock.queue) :
    ∃ due, world.nextDue? = some due ∧ due ≤ waiter.deadline := by
  obtain ⟨first, next, early⟩ :=
    min?_le (world.lock.queue.map Waiter.deadline) (List.mem_map_of_mem queued)
  have listed : first ∈
      world.lock.nextDeadline?.toList ++ (world.drain.map Drain.nextLook).toList := by
    simp [Lock.nextDeadline?, next]
  obtain ⟨due, found, earlier⟩ := min?_le _ listed
  exact ⟨due, found, Nat.le_trans earlier early⟩

theorem elapse_eq_some {span : Nat} (elapsed : world.elapse span = some next) :
    world.isQuiet = true ∧ (∀ due, world.nextDue? = some due → world.clock + span ≤ due) ∧
      next = { world with clock := world.clock + span } := by
  simp only [elapse, Option.ite_none_right_eq_some, Bool.and_eq_true] at elapsed
  obtain ⟨⟨quiet, inTime⟩, rest⟩ := elapsed
  cases rest
  refine ⟨quiet, fun due found => ?_, rfl⟩
  simpa only [found, decide_eq_true_eq] using inTime

theorem elapse_move {span : Nat} (elapsed : world.elapse span = some next) :
    View.Move world.view [] next.view := by
  obtain ⟨quiet, inTime, rfl⟩ := elapse_eq_some elapsed
  have stuck (key : Key) : ¬ (world.run key).isSome := by simp [run_of_quiet quiet key]
  refine .pass span ?_ ?_ ?_ ?_
  · intro key request stood
    exact stuck key (run_ready (Or.inl stood))
  · intro key request stood
    exact stuck key (run_ready (Or.inr stood))
  · intro key request stood holder
    exact stuck key ((run_waiting stood).mpr (Or.inl (holdsLog_iff.mpr holder)))
  · intro waiter queued
    obtain ⟨due, found, early⟩ := nextDue?_le queued
    exact Nat.le_trans (inTime due found) early

theorem step_move {action : Action} (starts : action.StartsAnew)
    (apart : ∀ key request, world.standing key = .requesting request →
      world.lock.holder ≠ some (.task key))
    (remembers : ∀ memory, action ≠ .remember memory) (stepped : world.step action = some next) :
    View.Move world.view (world.facts action next) next.view := by
  have stays (same : next.view = world.view) :
      View.Move world.view [] next.view := by
    rw [same]
    exact .stay
  cases action with
  | launch key worker =>
      simp only [step] at stepped
      split at stepped
      · cases stepped
      · rename_i fresh _
        have stands : (Task.session worker).standing = .idle := by rw [Task.standing, fresh]
        exact stays (view_addTask stepped starts stands)
      · cases stepped
  | spawn key peer =>
      simp only [step] at stepped
      split at stepped
      · cases stepped
      · exact stays (view_spawn stepped)
  | arrive key item =>
      simp only [step] at stepped
      exact stays (view_changeStream stepped)
  | setWrite key mode =>
      simp only [step] at stepped
      exact stays (view_changeStream stepped)
  | setFlush key readiness =>
      simp only [step] at stepped
      exact stays (view_changeStream stepped)
  | setShutdown key readiness =>
      simp only [step] at stepped
      exact stays (view_changeStream stepped)
  | discard key => exact discardWorker_move stepped
  | call key request =>
      simp only [step] at stepped
      exact stays (view_addTask stepped rfl rfl)
  | collect key =>
      simp only [step] at stepped
      split at stepped
      · rename_i request answer found
        cases stepped
        exact stays (view_erase (find?_of_call? found) rfl)
      · cases stepped
  | run key =>
      simp only [step, run] at stepped
      split at stepped
      · rename_i worker found
        exact runWorker_move found (apart key) stepped
      · rename_i call found
        exact runCall_move found (apart key) stepped
      · cases stepped
  | remember memory => exact absurd rfl (remembers memory)
  | hold =>
      simp only [step] at stepped
      split at stepped
      · rename_i free
        cases stepped
        exact .hold free
      · cases stepped
  | release =>
      simp only [step] at stepped
      split at stepped
      · rename_i held
        cases stepped
        exact .release held
      · cases stepped
  | elapse span => exact elapse_move stepped
  | reap =>
      simp only [step] at stepped
      split at stepped
      · cases stepped
      · cases stepped
        exact stays rfl
  | drain grace =>
      simp only [step] at stepped
      split at stepped
      · cases stepped
      · cases stepped
        apply stays
        simp only [beginDrain]
        split <;> rfl
  | look =>
      obtain ⟨⟨after, report⟩, looked, rfl⟩ := Option.map_eq_some_iff.mp stepped
      exact look_move looked

theorem chronicle_induction {start final : World} {actions : List Action}
    (motive : List Moment → View → Prop)
    (starts : ∀ action, action ∈ actions → action.StartsAnew)
    (apart : ∀ past view, motive past view → ∀ key request,
      view.standing key = .requesting request → view.lock.holder ≠ some (.task key))
    (first : motive [] start.view)
    (remember : ∀ past view memory, .remember memory ∈ actions → motive past view →
      motive past { view with memory })
    (move : ∀ past view facts next, motive past view → View.Move view facts next →
      motive (past ++ view.moments facts next) next)
    (ran : start.steps actions = some final) : motive (start.chronicle actions) final.view := by
  refine steps_induction (fun past world => motive past world.view) first ?_ ran
  intro past world action next member held stepped
  by_cases remembers : ∃ memory, action = .remember memory
  · obtain ⟨memory, rfl⟩ := remembers
    cases stepped
    have silent : world.moments (.remember memory) { world with memory } = [] := by
      simp [moments, facts, View.moments, view, Lock.facts_of_same rfl]
    rw [silent, List.append_nil]
    exact remember past world.view memory member held
  · have other (memory : Memory) : action ≠ .remember memory := fun same => remembers ⟨memory, same⟩
    exact move past world.view _ _ held
      (step_move (starts action member) (apart past world.view held) other stepped)

end World

end CommandLog
