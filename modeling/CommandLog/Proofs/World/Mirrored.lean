import CommandLog.Proofs.World.Apart

/-!
The turns of the tasks other than the session that is left out. Each of them is the same turn without
the session, with the same reports, or a waking for which only the session is the cause.
-/

namespace CommandLog

namespace World.Apart

variable {world other next : World} {x key : Key} {lost : Option Nat} {kept : Option Key}
variable {waits : List Wait}

/-- What a turn of another task is without the session: a turn that reports the same, or nothing when it
is a waking for which only the session is the cause. -/
inductive Mirrored (x : Key) (lost : Option Nat) (kept : Option Key) (key : Key) (rename : Nat → Nat)
    (world other next : World) : Prop
  | both {others : World} {told : List Event} : kept ≠ some key → other.run key = some others →
      Apart x lost (Passage.kept x kept ⟨world, .run key, next⟩) next others →
      next.journal = world.journal ++ told →
      others.journal = other.journal ++ told.map (Event.renumber rename) →
      Mirrored x lost kept key rename world other next
  | wake : kept = some key → Apart x lost none next other → next.journal = world.journal →
      Mirrored x lost kept key rename world other next

variable {worker : Worker} {call : Call} {command : Command}

theorem run_session (apart : Apart x lost kept world other) (away : key ≠ x) (unkept : kept ≠ some key)
    (found : Table.find? key world.tasks = some (.session worker)) :
    other.run key = other.runWorker key (worker.renumber (worker.origin.rename lost)) := by
  have behind : (kept == some key) = false := by simpa using unkept
  rw [run, apart.find away found, behind]
  rfl

theorem run_call (apart : Apart x lost kept world other) (away : key ≠ x) (unkept : kept ≠ some key)
    (found : Table.find? key world.tasks = some (.call call)) :
    other.run key = other.runCall key call := by
  have behind : (kept == some key) = false := by simpa using unkept
  rw [run, apart.find away found, behind]
  rfl

theorem runWorker_of_turn? (stands : (Task.session worker).standing = .idle) :
    world.runWorker key worker = (worker.turn? world.memory).map fun turn =>
      (world.putWorker key turn.1).report turn.2 := by
  have silent (after : Worker) :
      (world.putWorker key after).report [] = world.putWorker key after := report_nil _
  cases point : worker.point with
  | fresh =>
      simp only [runWorker, Worker.turn?, point]
      split <;> simp [silent]
  | receiving | closing result => simp only [runWorker, Worker.turn?, point]
  | sending rest | flushing =>
      simp only [runWorker, Worker.turn?, point, Option.map_map]
      congr 1
      funext after
      exact (silent after).symm
  | requesting command | waiting command | holding command | ended ending =>
      simp [Task.standing, point] at stands

theorem turn?_step {after : Worker} {told : List Event}
    (turned : worker.turn? world.memory = some (after, told)) : Worker.Step world worker after told := by
  cases point : worker.point with
  | fresh =>
      simp only [Worker.turn?, point] at turned
      split at turned <;> cases turned
      exact .start point
  | receiving =>
      simp only [Worker.turn?, point] at turned
      exact Worker.receive?_step point turned
  | sending rest =>
      simp only [Worker.turn?, point] at turned
      obtain ⟨_, sent, same⟩ := Option.map_eq_some_iff.mp turned
      cases same
      exact Worker.send?_step point sent
  | flushing =>
      simp only [Worker.turn?, point] at turned
      obtain ⟨_, flushed, same⟩ := Option.map_eq_some_iff.mp turned
      cases same
      exact Worker.flush?_step point flushed
  | closing result =>
      simp only [Worker.turn?, point] at turned
      exact Worker.shutDown?_step point turned
  | requesting command | waiting command | holding command | ended ending =>
      simp [Worker.turn?, point] at turned

theorem turns (apart : Apart x lost kept world other) (away : key ≠ x)
    (found : Table.find? key world.tasks = some (.session worker))
    (stands : (Task.session worker).standing = .idle) (ran : world.runWorker key worker = some next) :
    Mirrored x lost kept key (worker.origin.rename lost) world other next := by
  have stood : world.standing key = .idle := (standing_of_find? found).trans stands
  have unkept : kept ≠ some key := apart.not_kept (by rw [stood]; rfl)
  rw [runWorker_of_turn? stands] at ran
  obtain ⟨⟨after, told⟩, turned, rfl⟩ := Option.map_eq_some_iff.mp ran
  have origin : after.origin = worker.origin := (turn?_step turned).keeps.1
  have standsAlone :
      (Task.session (worker.renumber (worker.origin.rename lost))).standing = .idle := stands
  have ranAlone : other.run key = some ((other.putWorker key
      (after.renumber (worker.origin.rename lost))).report
        (told.map (Event.renumber (worker.origin.rename lost)))) := by
    rw [apart.run_session away unkept found, runWorker_of_turn? standsAlone, Worker.turn?_renumber,
      apart.memory, turned]
    rfl
  have same : (Task.session after).alone lost false =
      .session (after.renumber (worker.origin.rename lost)) := by
    rw [← origin]
    rfl
  have put := apart.put_unkept away unkept (.session after)
  rw [same] at put
  refine .both unkept ranAlone ?_ rfl rfl
  rw [kept_run away unkept, stood]
  exact put.report _ _

theorem waitsOn (apart : Apart x lost kept world other) (away : key ≠ x) {task : Task}
    (holding refused : Task) (told : List Event) {rename : Nat → Nat} {request : Request}
    (found : Table.find? key world.tasks = some task)
    (stands : task.standing = .waiting request) (holds : holding.standing = .holding request)
    (gone : refused.standing = .idle) (alike : task.alone lost true = holding.alone lost false)
    (ran : (if world.holdsLog key then some (world.putTask key holding)
      else if world.hasExpired key then some (((world.giveUpLog key).putTask key refused).report told)
      else none) = some next)
    (alone : kept ≠ some key → other.run key =
      if other.holdsLog key then some (other.putTask key (holding.alone lost false))
      else if other.hasExpired key then
        some (((other.giveUpLog key).putTask key (refused.alone lost false)).report
          (told.map (Event.renumber rename)))
      else none)
    (patient : ∀ request, .expires key request ∈ world.runFacts key next →
      (world.lock.withdraw x).holder ≠ some (.task key)) :
    Mirrored x lost kept key rename world other next := by
  have stood : world.standing key = .waiting request := (standing_of_find? found).trans stands
  by_cases mine : world.holdsLog key = true
  · rw [if_pos mine] at ran
    cases ran
    by_cases waitsAlone : kept = some key
    · subst waitsAlone
      exact .wake rfl (apart.wakesAhead found alike) rfl
    · obtain ⟨mineAlone, wakes⟩ := apart.wakes away stood mine waitsAlone holds
      have ranAlone := alone waitsAlone
      rw [if_pos mineAlone] at ranAlone
      exact .both waitsAlone ranAlone wakes (List.append_nil _).symm (List.append_nil _).symm
  · rw [if_neg mine] at ran
    by_cases late : world.hasExpired key = true
    · rw [if_pos late] at ran
      cases ran
      have blocked : (world.lock.withdraw x).holder ≠ some (.task key) := by
        refine patient request ?_
        simp only [runFacts, stood, standing_put_report, gone]
        exact List.mem_cons_self
      have unkept : kept ≠ some key := fun same => blocked (apart.ahead key same).2.2
      obtain ⟨notMine, lateAlone, after⟩ := apart.givesUp away stood late blocked
        (Bool.not_eq_true _ ▸ mine) told (told.map (Event.renumber rename)) refused
      have ranAlone := alone unkept
      rw [if_neg (Bool.not_eq_true _ ▸ notMine), if_pos lateAlone] at ranAlone
      exact .both unkept ranAlone after rfl rfl
    · rw [if_neg late] at ran
      cases ran

theorem putWorker_asked (world : World) (key : Key) (worker : Worker) (before after : Point) :
    world.putWorker key { worker with point := if world.holdsLog key then after else before } =
      world.putTask key (if world.holdsLog key then .session { worker with point := after }
        else .session { worker with point := before }) := by
  split <;> rfl

theorem workerAsks (apart : Apart x lost kept world other) (held : world.view.InLine waits)
    (away : key ≠ x) (found : Table.find? key world.tasks = some (.session worker))
    (point : worker.point = .requesting command) (ran : world.runWorker key worker = some next)
    (rename : Nat → Nat) : Mirrored x lost kept key rename world other next := by
  have stood := standing_of_find? found
  rw [Task.standing, point] at stood
  have unkept : kept ≠ some key := apart.not_kept (by rw [stood]; rfl)
  simp only [World.runWorker, point, putWorker_asked] at ran
  cases ran
  have ranAlone : other.run key = some ((other.askLog key).putTask key
      (if (other.askLog key).holdsLog key then
        (Task.session { worker with point := .holding command }).alone lost false
      else (Task.session { worker with point := .waiting command }).alone lost false)) := by
    simp only [apart.run_session away unkept found, World.runWorker, Worker.renumber_point, point,
      putWorker_asked]
    rfl
  exact .both unkept ranAlone (apart.requests held away stood rfl rfl rfl)
    (List.append_nil _).symm (List.append_nil _).symm

theorem workerWaits (apart : Apart x lost kept world other) (away : key ≠ x)
    (found : Table.find? key world.tasks = some (.session worker))
    (point : worker.point = .waiting command) (ran : world.runWorker key worker = some next)
    (patient : ∀ request, .expires key request ∈ world.runFacts key next →
      (world.lock.withdraw x).holder ≠ some (.task key)) :
    Mirrored x lost kept key (worker.origin.rename lost) world other next := by
  let holding : Task := .session { worker with point := .holding command }
  let refused : Task := .session { worker with point := .sending [] }
  have stands : (Task.session worker).standing = .waiting (.exchange command worker.cursor) := by
    rw [Task.standing, point]
  have alike : (Task.session worker).alone lost true = holding.alone lost false := by
    simp only [holding, Task.alone, Worker.alone, point]
    rfl
  simp only [World.runWorker, point] at ran
  refine apart.waitsOn away holding refused
    [.commandFailed worker.identity (.log (.lockTimeout world.lockTimeout))] found stands rfl rfl alike
    ran ?_ patient
  intro unkept
  simp only [apart.run_session away unkept found, World.runWorker, Worker.renumber_point, point,
    apart.lockTimeout]
  rfl

theorem workerHolds (apart : Apart x lost kept world other) (held : world.view.InLine waits)
    (away : key ≠ x) (found : Table.find? key world.tasks = some (.session worker))
    (point : worker.point = .holding command) (ran : world.runWorker key worker = some next) :
    Mirrored x lost kept key (worker.origin.rename lost) world other next := by
  have stood := standing_of_find? found
  rw [Task.standing, point] at stood
  have unkept : kept ≠ some key := apart.not_kept (by rw [stood]; rfl)
  simp only [World.runWorker, point] at ran
  generalize served : Log.exchange world.memory world.log worker.cursor command = turn at ran
  cases ran
  have ranAlone : other.run key = some (((other.returnLog turn).putTask key
        ((Task.session (worker.conclude command turn.answer).1).alone lost false)).report
          ((worker.conclude command turn.answer).2.map (Event.renumber (worker.origin.rename lost)))) := by
    simp only [apart.run_session away unkept found, World.runWorker, Worker.renumber_point,
      Worker.renumber_cursor, point, apart.memory, apart.log, served, Worker.conclude_renumber]
    cases turn.answer <;> rfl
  refine .both unkept ranAlone (apart.returns held away stood _ _ _ _) (List.append_assoc _ _ _) ?_
  rw [List.map_append, Event.map_renumber_ofDisplaced]
  exact List.append_assoc _ _ _

theorem runWorker (apart : Apart x lost kept world other) (held : world.view.InLine waits)
    (away : key ≠ x) (found : Table.find? key world.tasks = some (.session worker))
    (ran : world.runWorker key worker = some next)
    (patient : ∀ request, .expires key request ∈ world.runFacts key next →
      (world.lock.withdraw x).holder ≠ some (.task key)) :
    Mirrored x lost kept key (worker.origin.rename lost) world other next := by
  cases point : worker.point with
  | fresh | receiving | sending rest | flushing | closing result =>
      exact apart.turns away found (by simp [Task.standing, point]) ran
  | ended ending => simp [World.runWorker, point] at ran
  | requesting command => exact apart.workerAsks held away found point ran _
  | waiting command => exact apart.workerWaits away found point ran patient
  | holding command => exact apart.workerHolds held away found point ran

variable {rename : Nat → Nat}

theorem putCall_asked (world : World) (key : Key) (call : Call) (before after : CallPoint) :
    world.putCall key { call with point := if world.holdsLog key then after else before } =
      world.putTask key (if world.holdsLog key then .call { call with point := after }
        else .call { call with point := before }) := by
  split <;> rfl

theorem quiet (world : World) : world.journal = world.journal ++ [] := (List.append_nil _).symm

theorem callBegins (apart : Apart x lost kept world other) (away : key ≠ x)
    (found : Table.find? key world.tasks = some (.call call)) (point : call.point = .fresh)
    (ran : world.runCall key call = some next) : Mirrored x lost kept key rename world other next := by
  have stood := standing_of_find? found
  rw [Task.standing, point] at stood
  have unkept : kept ≠ some key := apart.not_kept (by rw [stood]; rfl)
  have put (after : CallPoint) : Apart x lost kept (world.putCall key { call with point := after })
      (other.putCall key { call with point := after }) :=
    apart.put_unkept away unkept (.call { call with point := after })
  have idle (next : World) : Passage.kept x kept ⟨world, .run key, next⟩ = kept := by
    rw [kept_run away unkept, stood]
  have ranAlone := apart.run_call away unkept found
  simp only [World.runCall, point] at ran
  simp only [World.runCall, point, apart.memory] at ranAlone
  cases prepared : call.request.prepare world.memory with
  | error error =>
      simp only [prepared] at ran ranAlone
      cases ran
      exact .both unkept ranAlone (by rw [idle]; exact put _) (quiet world) (quiet other)
  | ok done =>
      simp only [prepared] at ran ranAlone
      cases ran
      exact .both unkept ranAlone (by rw [idle]; exact put _) (quiet world) (quiet other)

theorem callAsks (apart : Apart x lost kept world other) (held : world.view.InLine waits)
    (away : key ≠ x) (found : Table.find? key world.tasks = some (.call call))
    (point : call.point = .requesting) (ran : world.runCall key call = some next) :
    Mirrored x lost kept key rename world other next := by
  have stood := standing_of_find? found
  rw [Task.standing, point] at stood
  have unkept : kept ≠ some key := apart.not_kept (by rw [stood]; rfl)
  simp only [World.runCall, point, putCall_asked] at ran
  cases ran
  have ranAlone : other.run key = some ((other.askLog key).putTask key
      (if (other.askLog key).holdsLog key then
        (Task.call { call with point := .holding }).alone lost false
      else (Task.call { call with point := .waiting }).alone lost false)) := by
    simp only [apart.run_call away unkept found, World.runCall, point, putCall_asked]
    rfl
  exact .both unkept ranAlone (apart.requests held away stood rfl rfl rfl) (quiet world) (quiet other)

theorem callWaits (apart : Apart x lost kept world other) (away : key ≠ x)
    (found : Table.find? key world.tasks = some (.call call)) (point : call.point = .waiting)
    (ran : world.runCall key call = some next)
    (patient : ∀ request, .expires key request ∈ world.runFacts key next →
      (world.lock.withdraw x).holder ≠ some (.task key)) :
    Mirrored x lost kept key rename world other next := by
  let holding : Task := .call { call with point := .holding }
  let refused : Task :=
    .call { call with point := .finished (.error (.lockTimeout world.lockTimeout)) }
  have stands : (Task.call call).standing = .waiting call.request := by
    rw [Task.standing, point]
  have alike : (Task.call call).alone lost true = holding.alone lost false := by
    simp only [holding, Task.alone, Call.alone, point]
    rfl
  simp only [World.runCall, point] at ran
  refine apart.waitsOn away holding refused [] found stands rfl rfl alike ?_ ?_ patient
  · rw [report_nil]
    exact ran
  · intro unkept
    simp only [apart.run_call away unkept found, World.runCall, point, apart.lockTimeout, List.map_nil,
      report_nil]
    rfl

theorem callHolds (apart : Apart x lost kept world other) (held : world.view.InLine waits)
    (away : key ≠ x) (found : Table.find? key world.tasks = some (.call call))
    (point : call.point = .holding) (ran : world.runCall key call = some next) :
    Mirrored x lost kept key rename world other next := by
  have stood := standing_of_find? found
  rw [Task.standing, point] at stood
  have unkept : kept ≠ some key := apart.not_kept (by rw [stood]; rfl)
  simp only [World.runCall, point] at ran
  generalize served : Log.serve world.memory world.log call.request = turn at ran
  cases ran
  have ranAlone : other.run key = some ((other.returnLog turn).putTask key
      ((Task.call { call with point := .finished turn.answer }).alone lost false)) := by
    simp only [apart.run_call away unkept found, World.runCall, point, apart.memory, apart.log, served]
    rfl
  have returns := apart.returns held away stood turn [] []
    (.call { call with point := .finished turn.answer })
  rw [report_nil, report_nil] at returns
  refine .both unkept ranAlone returns rfl ?_
  rw [Event.map_renumber_ofDisplaced]
  rfl

theorem runCall (apart : Apart x lost kept world other) (held : world.view.InLine waits)
    (away : key ≠ x) (found : Table.find? key world.tasks = some (.call call))
    (ran : world.runCall key call = some next) (rename : Nat → Nat)
    (patient : ∀ request, .expires key request ∈ world.runFacts key next →
      (world.lock.withdraw x).holder ≠ some (.task key)) :
    Mirrored x lost kept key rename world other next := by
  cases point : call.point with
  | finished answer => simp [World.runCall, point] at ran
  | fresh => exact apart.callBegins away found point ran
  | requesting => exact apart.callAsks held away found point ran
  | waiting => exact apart.callWaits away found point ran patient
  | holding => exact apart.callHolds held away found point ran

end World.Apart

end CommandLog
