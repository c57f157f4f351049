import CommandLog.Proofs.World.Linearizable
import CommandLog.Proofs.World.Waiting

/-!
First come, first served: what a run makes of all who have to wait for the log.
-/

namespace CommandLog

namespace World

variable {world now next : World} {action : Action} {actions : List Action} {key : Key}
variable {request : Request} {worker : Worker}

theorem resume (found : world.worker? key = some worker) (point : worker.point = .sending [])
    (ready : worker.stream.onFlush = .ready) :
    ∃ resumed after, world.steps [.run key, .run key] = some resumed ∧ resumed.log = world.log ∧
      resumed.worker? key = some after ∧ after.point = .receiving ∧ after.cursor = worker.cursor ∧
      after.stream.output = worker.stream.output := by
  let flushing : Worker := { worker with point := .flushing }
  let reading : Worker := { worker with
    stream := { worker.stream with flushes := worker.stream.flushes + 1 }
    exchanges := worker.exchanges + 1
    point := .receiving }
  have sent : world.step (.run key) = some (world.putWorker key flushing) := by
    simp [step, run_of_worker? found, runWorker, point, Worker.send?, flushing]
  have flushed : (world.putWorker key flushing).step (.run key) =
      some ((world.putWorker key flushing).putWorker key reading) := by
    simp [step, run_of_worker? (worker?_putWorker world key _), runWorker, Worker.flush?,
      Stream.flush?, ready, flushing, reading]
  refine ⟨(world.putWorker key flushing).putWorker key reading, reading, ?_, rfl,
    worker?_putWorker _ key reading, rfl, rfl, rfl⟩
  simp only [steps, sent, Option.bind_some, flushed]

/-- All that comes of a request whose wait for the log was in vain. -/
structure GivesUp (lockTimeout : Duration) (now : World) (key : Key) (next : World) : Prop where
  log : next.log = now.log
  cursor : next.cursor = now.cursor
  session : ∀ worker, now.worker? key = some worker →
    next.worker? key = some { worker with point := .sending [] } ∧
      next.journal =
        now.journal ++ [.commandFailed worker.identity (.log (.lockTimeout lockTimeout))]
  goesOn : ∀ worker, now.worker? key = some worker → worker.stream.onFlush = .ready →
    ∃ resumed after, next.steps [.run key, .run key] = some resumed ∧ resumed.log = now.log ∧
      resumed.worker? key = some after ∧ after.point = .receiving ∧ after.cursor = worker.cursor ∧
      after.stream.output = worker.stream.output
  call : ∀ call, now.call? key = some call →
    next.call? key = some { call with point := .finished (.error (.lockTimeout lockTimeout)) }

theorem cursor_putTask_same (world : World) {task : Task} (keeps : task.cursor = world.cursor key) :
    (world.putTask key task).cursor = world.cursor := by
  rw [cursor_putTask, keeps, Function.update_eq_self]

theorem givesUp_of_expires (stepped : now.step action = some next)
    (expires : .expires key request ∈ now.facts action next) :
    now.GivesUp now.lockTimeout key next := by
  obtain ⟨rfl, waits, idle⟩ := expires_of_facts expires
  have acts : now.standing key ≠ .idle := by simp [waits]
  obtain ⟨task, found⟩ := find?_of_standing acts
  have keeps := (cursor_of_find? found).symm
  rw [standing_of_find? found] at waits
  simp only [step, run, found] at stepped
  cases task with
  | session worker =>
      cases point : worker.point <;> simp [Task.standing, point] at waits
      simp only [runWorker, point] at stepped
      split at stepped
      · cases stepped
        simp [putWorker, standing_putTask, Task.standing] at idle
      · split at stepped
        · cases stepped
          have present : now.worker? key = some worker := by simp [worker?, found]
          let refused : Worker := { worker with point := .sending [] }
          have stays := worker?_putWorker (now.giveUpLog key) key refused
          refine ⟨rfl, cursor_putTask_same (now.giveUpLog key) keeps, ?_, ?_, ?_⟩
          · intro other same
            cases present.symm.trans same
            exact ⟨stays, rfl⟩
          · intro other same ready
            cases present.symm.trans same
            exact @resume _ key refused stays rfl ready
          · intro call same
            simp [call?, found] at same
        · cases stepped
  | call call =>
      cases point : call.point <;> simp [Task.standing, point] at waits
      simp only [runCall, point] at stepped
      split at stepped
      · cases stepped
        simp [putCall, standing_putTask, Task.standing] at idle
      · split at stepped
        · cases stepped
          have absent : now.worker? key = none := by simp [worker?, found]
          refine ⟨rfl, cursor_putTask_same (now.giveUpLog key) keeps, ?_, ?_, ?_⟩
          · intro worker same
            cases absent.symm.trans same
          · intro worker same
            cases absent.symm.trans same
          · intro other same
            simp only [call?, found, Option.some.injEq] at same
            simp [call?, putCall, putTask, same]
        · cases stepped

variable {capacity : Nat} {log : Log} {lockTimeout : Duration} {readBuffer : Nat} {final : World}

theorem kept_run (built : Log.ofCapacity capacity = .ok log)
    (starts : ∀ action, action ∈ actions → action.StartsAnew)
    (ran : (initial log lockTimeout readBuffer).steps actions = some final) :
    final.view.Kept capacity (turns ((initial log lockTimeout readBuffer).chronicle actions)) := by
  refine (run_induction (fun past view => view.Kept capacity (turns past)) starts
    (kept_initial built) ?_ ?_ ran).2
  · intro past view memory member kept
    exact ⟨kept.reached, kept.bounded, kept.kept⟩
  · intro past view facts next agrees kept move
    exact move.kept kept

theorem inOrder_run (starts : ∀ action, action ∈ actions → action.StartsAnew)
    (ran : (initial log lockTimeout readBuffer).steps actions = some final) :
    InOrder ((initial log lockTimeout readBuffer).chronicle actions) := by
  refine (run_induction (fun past _ => InOrder past) starts ?_ ?_ ?_ ran).2
  · intro before clock turn after split
    cases before <;> cases split
  · intro past view memory member inOrder
    exact inOrder
  · intro past view facts next agrees inOrder move
    exact move.inOrder agrees inOrder

theorem followed_run (starts : ∀ action, action ∈ actions → action.StartsAnew)
    (inTime : InTime lockTimeout.nanoseconds
      ((initial log lockTimeout readBuffer).chronicle actions))
    (ran : (initial log lockTimeout readBuffer).steps actions = some final) :
    Followed lockTimeout.nanoseconds ((initial log lockTimeout readBuffer).chronicle actions)
      final.view := by
  refine ((run_induction (fun past view => view.lockTimeout = lockTimeout ∧
    (InTime lockTimeout.nanoseconds past → Followed lockTimeout.nanoseconds past view)) starts
    ?_ ?_ ?_ ran).2).2 inTime
  · refine ⟨rfl, ?_⟩
    intro _ before after wait split
    cases before <;> cases split
  · intro past view memory member held
    exact ⟨held.1, fun inTime => (held.2 inTime).remember memory⟩
  · intro past view facts next agrees held move
    refine ⟨move.lockTimeout.trans held.1, ?_⟩
    intro inTime
    exact move.followed agrees (by rw [held.1]) inTime (held.2 inTime.of_append)

/-- A lock that is held elsewhere, for whatever time, neither loses nor doubles nor reorders what waits
for it. A task waits with one request at most. A wait ends with a turn, before time goes on, if the
lock is given back before its deadline; else it ends at its deadline with nothing but a report; or its
worker is stopped, and nothing comes of it. Turns are granted in the order in which the waits began, to
the first in line. All that a task asks for is over once, one after the other, and the log keeps the
last of what the turns append. In every state those who wait are in the lock's queue in that order, but
for the one it has been handed to, who can go on; one task holds it at most, and a free lock leaves
nobody waiting. -/
theorem first_come_first_served (built : Log.ofCapacity capacity = .ok log)
    (starts : ∀ action, action ∈ actions → action.StartsAnew)
    (inTime : InTime lockTimeout.nanoseconds
      ((initial log lockTimeout readBuffer).chronicle actions))
    (ran : (initial log lockTimeout readBuffer).steps actions = some final) :
    let past := (initial log lockTimeout readBuffer).chronicle actions
    let line := ledger past
    ((line.waiting.map Wait.key).Nodup ∧
      (∀ wait, wait ∈ line.waiting → final.clock ≤ wait.since + lockTimeout.nanoseconds ∧
        (final.standing wait.key = .waiting wait.request ∨
          final.standing wait.key = .holding wait.request)) ∧
      (∀ key request, final.standing key = .waiting request →
        ∃ wait, wait ∈ line.waiting ∧ wait.key = key ∧ wait.request = request)) ∧
    (∀ before after (wait : Wait),
      past = before ++ ⟨wait.since, .waits wait.key wait.request⟩ :: after →
      wait ∈ line.waiting ∧ wait.Pending lockTimeout.nanoseconds after final.view ∨
        wait.Ended lockTimeout.nanoseconds after final.view) ∧
    (∀ early late action now next key request, actions = early ++ action :: late →
      (initial log lockTimeout readBuffer).steps early = some now → now.step action = some next →
      .expires key request ∈ now.facts action next → now.GivesUp lockTimeout key next) ∧
    (line.granted ++ line.waiting).Sublist line.begun ∧
    (∀ before clock turn after, past = before ++ ⟨clock, .turn turn⟩ :: after →
      ∀ wait, wait ∈ (ledger before).waiting → wait.key = turn.key →
        (ledger before).waiting.head? = some wait ∧ wait.request = turn.request) ∧
    (∀ key, asked key past = ended key past ++ (final.standing key).begun ∨
      final.standing key = .gone ∧ ∃ request, asked key past = ended key past ++ [request]) ∧
    final.log.toList = (appended (turns past)).rtake capacity ∧
    final.lock.queue =
      (line.waiting.filter fun wait => final.lock.holder != some (.task wait.key)).map
        (Wait.waiter lockTimeout.nanoseconds) ∧
    (final.lock.holder = none → line.waiting = []) ∧
    (∀ key request, final.standing key = .holding request →
      final.lock.holder = some (.task key)) ∧
    (∀ key, final.lock.holder = some (.task key) → (final.run key).isSome) := by
  have agrees := agrees_run starts ran
  have limit := lockTimeout_run starts ran
  have inLine := agrees.inLine
  refine ⟨⟨inLine.distinct, ?_, ?_⟩, followed_run starts inTime ran, ?_, agrees.order,
    inOrder_run starts ran, course_run starts ran, (kept_run built starts ran).kept,
    limit ▸ inLine.line.queue, inLine.line.free, inLine.holding, ?_⟩
  · intro wait member
    rw [← limit]
    exact ⟨inLine.due wait member, inLine.waiter wait member⟩
  · intro key request waits
    obtain ⟨wait, member, rfl⟩ := inLine.waiting key request waits
    refine ⟨wait, member, rfl, ?_⟩
    rcases inLine.waiter wait member with stands | holds
    · cases stands.symm.trans waits
      rfl
    · cases holds.symm.trans waits
  · intro early late action now next key request split reached stepped expires
    have startsEarly (action : Action) (member : action ∈ early) : action.StartsAnew :=
      starts action (split ▸ List.mem_append_left _ member)
    have same : now.lockTimeout = lockTimeout := lockTimeout_run startsEarly reached
    rw [← same]
    exact givesUp_of_expires stepped expires
  · intro key mine
    obtain ⟨request, waits | holds⟩ := Standing.engaged_iff.mp (inLine.holder key mine)
    · exact (run_waiting waits).mpr (Or.inl (holdsLog_iff.mpr mine))
    · exact run_ready (Or.inr holds)

/-- The lock is held for five seconds. One session waits all that time and gives up; another begins to
wait after three and has its turn. -/
def oneTooLong : List Action :=
  [.spawn 0 none, .spawn 1 none, .run 0, .run 1, .arrive 0 (.bytes [97, 10]), .run 0, .hold, .run 0,
    .elapse 3000000000, .arrive 1 (.bytes [98, 10]), .run 1, .run 1, .elapse 2000000000,
    .run 0, .run 0, .run 0, .release, .run 1, .run 1]

theorem first_come_first_served_oneTooLong :
    let start := initial (Ring.empty 2) (.ofSeconds 5) 64
    let past := start.chronicle oneTooLong
    ∃ final, Log.ofCapacity 2 = .ok (Ring.empty 2) ∧
      (∀ action, action ∈ oneTooLong → action.StartsAnew) ∧
      InTime (Duration.ofSeconds 5).nanoseconds past ∧ start.steps oneTooLong = some final ∧
      (ledger past).begun.map Wait.key = [0, 1] ∧ (ledger past).granted.map Wait.key = [1] ∧
      ((ledger past).granted ++ (ledger past).waiting).Sublist (ledger past).begun ∧
      appended (turns past) = [[98, 10]] ∧ final.log.toList = (appended (turns past)).rtake 2 := by
  intro start past
  have runs : (start.steps oneTooLong).isSome := by decide +kernel
  obtain ⟨final, ran⟩ := Option.isSome_iff_exists.mp runs
  have starts : ∀ action, action ∈ oneTooLong → action.StartsAnew := by
    simp [oneTooLong, Action.StartsAnew]
  have inTime : InTime (Duration.ofSeconds 5).nanoseconds past := by decide +kernel
  have built : Log.ofCapacity 2 = .ok (Ring.empty 2) := rfl
  obtain ⟨_, _, _, order, _, _, kept, _⟩ := first_come_first_served built starts inTime ran
  exact ⟨final, built, starts, inTime, ran, by decide +kernel, by decide +kernel, order,
    by decide +kernel, kept⟩

end World

end CommandLog
