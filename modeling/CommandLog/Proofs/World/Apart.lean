import CommandLog.Proofs.Lock.Absence
import CommandLog.Proofs.Worker.Renumbering
import CommandLog.Proofs.World.Ledger
import CommandLog.Proofs.World.Numbering

/-!
A world beside the world that it would be without one of its sessions. A task that waits for that session
alone has the lock there at once; all else that the other tasks have and do is the same in both worlds,
but for the ids that the registry has counted.
-/

namespace CommandLog

/-- The id of a session when the registry has never given the id `lost`. -/
def Origin.rename (lost : Option Nat) : Origin → Nat → Nat
  | .registry, id =>
      match lost with
      | some gone => if gone < id then id - 1 else id
      | none => id
  | .caller, id | .nobody, id => id

def Point.granted : Point → Point
  | .waiting command => .holding command
  | point => point

def CallPoint.granted : CallPoint → CallPoint
  | .waiting => .holding
  | point => point

def Worker.alone (lost : Option Nat) (ahead : Bool) (worker : Worker) : Worker :=
  { worker.renumber (worker.origin.rename lost) with
    point := if ahead then worker.point.granted else worker.point }

def Call.alone (ahead : Bool) (call : Call) : Call :=
  { call with point := if ahead then call.point.granted else call.point }

def Task.alone (lost : Option Nat) (ahead : Bool) : Task → Task
  | .session worker => .session (worker.alone lost ahead)
  | .call direct => .call (direct.alone ahead)

def Record.alone (lost : Option Nat) (record : Record) : Record :=
  { record with id := Origin.registry.rename lost record.id }

def Standing.isWaiting : Standing → Bool
  | .waiting _ => true
  | .idle | .requesting _ | .holding _ | .gone => false

/-- Whether an action is about the task `key`, and about nothing else. -/
def Action.isOf (key : Key) : Action → Bool
  | .launch other _ | .spawn other _ | .arrive other _ | .setWrite other _ | .setFlush other _
  | .setShutdown other _ | .discard other | .call other _ | .collect other | .run other => other == key
  | .remember _ | .hold | .release | .elapse _ | .reap | .drain _ | .look => false

namespace Passage

/-- The task that waits for the session `key` alone, after this step; it was `kept` before. -/
def kept (key : Key) (kept : Option Key) (passage : Passage) : Option Key :=
  match passage.action with
  | .run other =>
      if other = key then kept
      else if kept = some other then none
      else
        match passage.before.standing other, passage.after.standing other with
        | .requesting _, .waiting _ =>
            if (passage.before.lock.withdraw key).holder = none then some other else kept
        | _, _ => kept
  | _ => kept

/-- What is left of a step when the steps of the session `key` are erased. The waking of a task that
waits for this session alone is one of them: without the session it does not wait. -/
def rest (key : Key) (kept : Option Key) (passage : Passage) : List Action :=
  match passage.action with
  | .run other => if other = key ∨ kept = some other then [] else [.run other]
  | action => if action.isOf key then [] else [action]

end Passage

def erase (key : Key) (kept : Option Key) : List Passage → List Action
  | [] => []
  | passage :: later => passage.rest key kept ++ erase key (passage.kept key kept) later

namespace World

/-- The world `other` is `world` without the session `x`, where `kept` waits for `x` alone. -/
structure Apart (x : Key) (lost : Option Nat) (kept : Option Key) (world other : World) : Prop where
  log : other.log = world.log
  lockTimeout : other.lockTimeout = world.lockTimeout
  memory : other.memory = world.memory
  lock : other.lock = world.lock.withdraw x
  clock : other.clock = world.clock
  tasks : ∀ key, key ≠ x → Table.find? key other.tasks =
    (Table.find? key world.tasks).map (Task.alone lost (kept == some key))
  absent : Table.find? x other.tasks = none
  records : other.registry.records =
    (world.registry.records.filter fun record => record.key != x).map (Record.alone lost)
  nextId : other.registry.nextId = Origin.registry.rename lost world.registry.nextId
  readBuffer : other.registry.readBuffer = world.registry.readBuffer
  undrained : world.drain = none ∧ other.drain = none
  ahead : ∀ key, kept = some key → key ≠ x ∧ (world.standing key).isWaiting = true ∧
    (world.lock.withdraw x).holder = some (.task key)

namespace Apart

variable {world other next : World} {x key : Key} {lost : Option Nat} {kept last : Option Key}
variable {task : Task} {waits : List Wait} {request : Request}

theorem find (apart : Apart x lost kept world other) (away : key ≠ x)
    (found : Table.find? key world.tasks = some task) :
    Table.find? key other.tasks = some (task.alone lost (kept == some key)) := by
  rw [apart.tasks key away, found, Option.map_some]

theorem not_kept (apart : Apart x lost kept world other)
    (stands : (world.standing key).isWaiting = false) : kept ≠ some key := by
  intro same
  rw [(apart.ahead key same).2.1] at stands
  cases stands

theorem find_unkept (apart : Apart x lost kept world other) (away : key ≠ x)
    (found : Table.find? key world.tasks = some task) (stands : task.standing.isWaiting = false) :
    kept ≠ some key ∧ Table.find? key other.tasks = some (task.alone lost false) := by
  have unkept : kept ≠ some key := apart.not_kept (by rw [standing_of_find? found, stands])
  have behind : (kept == some key) = false := by simpa using unkept
  exact ⟨unkept, by rw [apart.find away found, behind]⟩

theorem report (apart : Apart x lost kept world other) (told more : List Event) :
    Apart x lost kept (world.report told) (other.report more) :=
  ⟨apart.log, apart.lockTimeout, apart.memory, apart.lock, apart.clock, apart.tasks, apart.absent,
    apart.records, apart.nextId, apart.readBuffer, apart.undrained, apart.ahead⟩

theorem put (apart : Apart x lost kept world other) (away : key ≠ x) (task : Task)
    (elsewhere : ∀ other, other ≠ key → (last = some other ↔ kept = some other))
    (ahead : last = some key → task.standing.isWaiting = true ∧
      (world.lock.withdraw x).holder = some (.task key)) :
    Apart x lost last (world.putTask key task)
      (other.putTask key (task.alone lost (last == some key))) := by
  refine { apart with tasks := ?_, absent := ?_, ahead := ?_ }
  · intro found here
    by_cases same : found = key
    · subst same
      simp [putTask]
    · have keeps : (last == some found) = (kept == some found) := by
        rw [Bool.eq_iff_iff, beq_iff_eq, beq_iff_eq]
        exact elsewhere found same
      simp only [putTask, Table.find?_put_other _ _ same, apart.tasks found here, keeps]
  · simp only [putTask, Table.find?_put_other _ _ away.symm, apart.absent]
  · intro waiter waits
    rw [standing_putTask]
    by_cases same : waiter = key
    · subst same
      rw [Function.update_self]
      exact ⟨away, ahead waits⟩
    · rw [Function.update_of_ne same]
      exact apart.ahead waiter ((elsewhere waiter same).mp waits)

theorem put_unkept (apart : Apart x lost kept world other) (away : key ≠ x) (unkept : kept ≠ some key)
    (task : Task) :
    Apart x lost kept (world.putTask key task) (other.putTask key (task.alone lost false)) := by
  have behind : (kept == some key) = false := by simpa using unkept
  have put := apart.put away task (fun _ _ => Iff.rfl) (fun same => absurd same unkept)
  rwa [behind] at put

theorem kept_run (away : key ≠ x) (unkept : kept ≠ some key) :
    Passage.kept x kept ⟨world, .run key, next⟩ =
      match world.standing key, next.standing key with
      | .requesting _, .waiting _ => if (world.lock.withdraw x).holder = none then some key else kept
      | _, _ => kept := by
  simp only [Passage.kept, if_neg away, if_neg unkept]

theorem ask (apart : Apart x lost kept world other) (held : world.view.InLine waits) (away : key ≠ x) :
    Apart x lost kept (world.askLog key) (other.askLog key) := by
  have same (deadline : Nat) : (world.lock.request key deadline).withdraw x =
      (world.lock.withdraw x).request key deadline :=
    Lock.withdraw_request_other away held.line.queue_nil
  refine { apart with lock := ?_, ahead := ?_ }
  · simp only [askLog, same, apart.lock, apart.clock, apart.lockTimeout]
  · intro waiter waits
    obtain ⟨elsewhere, stands, holder⟩ := apart.ahead waiter waits
    refine ⟨elsewhere, stands, ?_⟩
    simp only [askLog, same]
    exact Lock.holder_request_of_some holder

theorem standing_put_same (world : World) (key : Key) (task : Task) :
    (world.putTask key task).standing key = task.standing := by
  rw [standing_putTask, Function.update_self]

theorem requests (apart : Apart x lost kept world other) (held : world.view.InLine waits)
    (away : key ≠ x) (stood : world.standing key = .requesting request) {holding waiting : Task}
    (alike : waiting.alone lost true = holding.alone lost false)
    (waits : waiting.standing = .waiting request) (holds : holding.standing = .holding request) :
    let next := (world.askLog key).putTask key
      (if (world.askLog key).holdsLog key then holding else waiting)
    let others := (other.askLog key).putTask key
      (if (other.askLog key).holdsLog key then holding.alone lost false else waiting.alone lost false)
    Apart x lost (Passage.kept x kept ⟨world, .run key, next⟩) next others := by
  intro next others
  have unkept : kept ≠ some key := apart.not_kept (by rw [stood]; rfl)
  obtain ⟨notHolder, notWaiting⟩ := held.free_of_not_engaged
    (show (world.standing key).engaged = false by rw [stood]; rfl)
  have asked := apart.ask held away
  have gets : (world.askLog key).holdsLog key = world.lock.holder.isNone :=
    Lock.isHeldBy_request notHolder
  have getsAlone : (other.askLog key).holdsLog key = (world.lock.withdraw x).holder.isNone := by
    have outside : other.lock.holder ≠ some (.task key) := by
      rw [apart.lock]
      intro handed
      rcases Lock.mem_of_holder_withdraw handed with mine | ⟨waiter, queued, mine⟩
      · exact notHolder mine
      · obtain ⟨wait, member, _, rfl⟩ := held.line.mem_queue.mp queued
        exact notWaiting wait member mine
    rw [← apart.lock]
    exact Lock.isHeldBy_request outside
  cases holder : world.lock.holder with
  | none =>
      have free : world.lock.withdraw x = world.lock :=
        Lock.withdraw_free holder (held.line.queue_nil holder)
      rw [holder] at gets
      rw [free, holder] at getsAlone
      simp only [next, others, gets, getsAlone, Option.isNone_none, if_true]
      rw [kept_run away unkept, standing_put_same, stood, holds]
      exact asked.put_unkept away unkept holding
  | some someone =>
      rw [holder] at gets
      have waitsHere : next = (world.askLog key).putTask key waiting := by
        simp only [next, gets, Option.isNone_some, Bool.false_eq_true, if_false]
      rw [waitsHere, kept_run away unkept, standing_put_same, stood, waits]
      cases alone : (world.lock.withdraw x).holder with
      | none =>
          -- Only the session is in the way.
          rw [alone] at getsAlone
          have nobody (other : Key) : kept ≠ some other := fun same => by
            have ahead := (apart.ahead other same).2.2
            rw [alone] at ahead
            cases ahead
          have first : ((world.askLog key).lock.withdraw x).holder = some (.task key) := by
            rw [← asked.lock]
            exact holdsLog_iff.mp (by rw [getsAlone, Option.isNone_none])
          have put : Apart x lost (some key) ((world.askLog key).putTask key waiting)
              ((other.askLog key).putTask key (waiting.alone lost (some key == some key))) :=
            asked.put away waiting (fun other apart => by simpa [nobody other] using apart.symm)
              (fun _ => ⟨by rw [waits]; rfl, first⟩)
          simpa [others, getsAlone, alike] using put
      | some first =>
          rw [alone] at getsAlone
          simpa [others, getsAlone] using asked.put_unkept away unkept waiting

theorem wakes (apart : Apart x lost kept world other) (away : key ≠ x)
    (stood : world.standing key = .waiting request) (mine : world.holdsLog key = true)
    {holding : Task} (unkept : kept ≠ some key) (holds : holding.standing = .holding request) :
    other.holdsLog key = true ∧
      Apart x lost (Passage.kept x kept ⟨world, .run key, world.putTask key holding⟩)
        (world.putTask key holding) (other.putTask key (holding.alone lost false)) := by
  constructor
  · rw [holdsLog_iff, apart.lock]
    exact Lock.holder_withdraw_other away (holdsLog_iff.mp mine)
  · rw [kept_run away unkept, standing_put_same, stood, holds]
    exact apart.put_unkept away unkept holding

theorem wakesAhead (apart : Apart x lost (some key) world other)
    (found : Table.find? key world.tasks = some task) {holding : Task}
    (alike : task.alone lost true = holding.alone lost false) :
    Apart x lost none (world.putTask key holding) other := by
  obtain ⟨away, _, _⟩ := apart.ahead key rfl
  refine { apart with tasks := ?_, ahead := nofun }
  intro here apartHere
  by_cases same : here = key
  · subst same
    rw [apart.find away found]
    simpa [putTask] using alike
  · have behind : (some key == some here) = false := by simpa using Ne.symm same
    simp only [putTask, Table.find?_put_other _ _ same, apart.tasks here apartHere, behind]
    rfl

theorem givesUp (apart : Apart x lost kept world other) (away : key ≠ x)
    (stood : world.standing key = .waiting request) (late : world.hasExpired key = true)
    (blocked : (world.lock.withdraw x).holder ≠ some (.task key)) (mine : world.holdsLog key = false)
    (told more : List Event) (after : Task) :
    let next := ((world.giveUpLog key).putTask key after).report told
    other.holdsLog key = false ∧ other.hasExpired key = true ∧
      Apart x lost (Passage.kept x kept ⟨world, .run key, next⟩) next
        (((other.giveUpLog key).putTask key (after.alone lost false)).report more) := by
  intro next
  have unkept : kept ≠ some key := fun same => blocked (apart.ahead key same).2.2
  have behind : world.lock.holder ≠ some (.task key) := fun held => by
    rw [holdsLog_iff.mpr held] at mine
    cases mine
  refine ⟨?_, ?_, ?_⟩
  · rw [← Bool.not_eq_true, holdsLog_iff, apart.lock]
    exact blocked
  · rw [hasExpired, apart.lock, apart.clock, Lock.deadline?_withdraw away blocked]
    exact late
  · have left : Apart x lost kept (world.giveUpLog key) (other.giveUpLog key) := by
      have same : (world.lock.withdraw key).withdraw x = (world.lock.withdraw x).withdraw key :=
        Lock.withdraw_comm behind
      refine { apart with lock := ?_, ahead := ?_ }
      · simp only [giveUpLog, apart.lock, same]
      · intro waiter waits
        obtain ⟨elsewhere, stands, first⟩ := apart.ahead waiter waits
        have others : waiter ≠ key := fun same => unkept (same ▸ waits)
        refine ⟨elsewhere, stands, ?_⟩
        simp only [giveUpLog, same]
        exact Lock.holder_withdraw_other others first
    rw [kept_run away unkept, stood]
    exact (left.put_unkept away unkept after).report told more

theorem returns {α : Type} (apart : Apart x lost kept world other) (held : world.view.InLine waits)
    (away : key ≠ x) (stood : world.standing key = .holding request) (served : Served α)
    (told more : List Event) (after : Task) :
    let next := ((world.returnLog served).putTask key after).report told
    Apart x lost (Passage.kept x kept ⟨world, .run key, next⟩) next
      (((other.returnLog served).putTask key (after.alone lost false)).report more) := by
  intro next
  have mine : world.lock.holder = some (.task key) := held.holding key request stood
  have unkept : kept ≠ some key := apart.not_kept (by rw [stood]; rfl)
  -- Whoever waits for the session alone would have the lock without it, but this task has it.
  have nobody : kept = none := by
    cases waiter : kept with
    | none => rfl
    | some other =>
        have ahead := (apart.ahead other waiter).2.2
        rw [Lock.holder_withdraw_other away mine] at ahead
        cases ahead
        exact absurd waiter unkept
  have given : Apart x lost none (world.returnLog served) (other.returnLog served) := by
    subst nobody
    refine { apart with log := rfl, lock := ?_, ahead := fun waiter waits => by cases waits }
    simp only [returnLog, World.report, apart.lock]
    exact (Lock.withdraw_release_other away mine).symm
  rw [kept_run away unkept, stood]
  subst nobody
  exact (given.put away after (fun _ _ => Iff.rfl) fun waits => by cases waits).report told more

end Apart

end World

end CommandLog
