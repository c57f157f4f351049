import CommandLog.Proofs.World.Conversation
import CommandLog.Proofs.World.Mirrored
import CommandLog.Proofs.World.Turns

/-!
The steps of a run without one session that only reads from the log. Its own steps do not show there;
every other step is the same step, and reports the same of every other session.
-/

namespace CommandLog

/-- What a step reports of the session `key`. How a session of the registry has been broken or stopped is
reported when it is reaped. -/
def Passage.reports (key : Key) (passage : Passage) : List Event :=
  match passage.action with
  | .run other =>
      if other = key then passage.events.filter fun event => event.session?.isSome else []
  | .reap => passage.before.joinEvents
      (passage.before.registry.records.filter fun record =>
        record.key == key && passage.before.hasDone record)
  | _ => []

def reports (key : Key) (past : List Passage) : List Event := past.flatMap (Passage.reports key)

/-- A step of a run in which the lock is not held elsewhere, nobody is drained, nobody gives up a wait
that only `x` is the cause of, and `x` is a session that writes nothing; the registry has given it the id
`lost`, if any. -/
structure Passage.Calm (x : Key) (lost : Option Nat) (passage : Passage) : Prop where
  inLine : ∃ waits, passage.before.view.InLine waits
  inside : passage.before.lock.holder ≠ some .outsider
  unheld : passage.action ≠ .hold
  undrained : ∀ grace, passage.action ≠ .drain grace
  uncalled : ∀ request, passage.action ≠ .call x request
  session : passage.before.call? x = none
  seeks : ∀ worker bytes, passage.before.worker? x = some worker → worker.point ≠ .holding (.write bytes)
  patient : ∀ key request, key ≠ x →
    .expires key request ∈ passage.before.facts passage.action passage.after →
    (passage.before.lock.withdraw x).holder ≠ some (.task key)
  numbered : ∀ key peer, passage.action = .spawn key peer →
    (lost = some passage.before.registry.nextId ↔ key = x)

namespace Passage

variable {x key : Key} {kept : Option Key} {passage : Passage}

theorem rest_own (mine : passage.action.isOf x = true) : passage.rest x kept = [] := by
  unfold rest
  split
  · rename_i other runs
    rw [runs] at mine
    exact if_pos (Or.inl (by simpa [Action.isOf] using mine))
  · exact if_pos mine

theorem rest_follows (elsewhere : passage.action.isOf x = false) (idle : ∀ key, passage.action ≠ .run key) :
    passage.rest x kept = [passage.action] := by
  unfold rest
  split
  · rename_i other runs
    exact absurd runs (idle other)
  · simp [elsewhere]

theorem kept_idle (idle : ∀ key, key ≠ x → passage.action ≠ .run key) :
    passage.kept x kept = kept := by
  unfold Passage.kept
  split
  · rename_i other runs
    by_cases own : other = x
    · rw [if_pos own]
    · exact absurd runs (idle other own)
  · rfl

theorem reports_idle (idle : passage.action ≠ .run key) (unreaped : passage.action ≠ .reap) :
    passage.reports key = [] := by
  unfold reports
  split
  · rename_i other runs
    refine if_neg fun same => idle ?_
    rw [runs, same]
  · rename_i reaps
    exact absurd reaps unreaped
  · rfl

theorem reports_run {world next : World} {told : List Event}
    (reported : next.journal = world.journal ++ told) :
    reports key ⟨world, .run key, next⟩ = told.filter fun event => event.session?.isSome := by
  simp only [reports, events_eq reported, if_pos]

theorem reports_own (mine : passage.action.isOf x = true) (away : key ≠ x) :
    passage.reports key = [] := by
  refine reports_idle ?_ ?_
  · intro runs
    rw [runs] at mine
    exact away (by simpa [Action.isOf] using mine)
  · intro reaps
    rw [reaps] at mine
    cases mine

end Passage

namespace World.Apart

variable {world other next : World} {x key : Key} {lost : Option Nat} {kept : Option Key}
variable {action : Action} {waits : List Wait} {worker : Worker}

theorem turnOf (apart : Apart x lost kept world other) (turn : TurnOf x world next)
    (log : next.log = world.log) (lock : next.lock.withdraw x = world.lock.withdraw x) :
    Apart x lost kept next other := by
  have stands (key : Key) (away : key ≠ x) : next.standing key = world.standing key := by
    simp only [standing, turn.others key away]
  constructor
  · rw [log, apart.log]
  · rw [turn.lockTimeout, apart.lockTimeout]
  · rw [turn.memory, apart.memory]
  · rw [lock, apart.lock]
  · rw [turn.clock, apart.clock]
  · intro key away
    rw [turn.others key away, apart.tasks key away]
  · exact apart.absent
  · rw [turn.registry, apart.records]
  · rw [turn.registry, apart.nextId]
  · rw [turn.registry, apart.readBuffer]
  · rw [turn.drain]
    exact apart.undrained
  · intro key waits
    obtain ⟨away, waiting, first⟩ := apart.ahead key waits
    rw [stands key away, lock]
    exact ⟨away, waiting, first⟩

theorem turnOf_put (world : World) (key : Key) (task : Task) : world.TurnOf key (world.putTask key task) :=
  ⟨rfl, rfl, rfl, rfl, rfl, fun _ apart => Table.find?_put_other _ _ apart⟩

theorem putOwn (apart : Apart x lost kept world other) (task : Task) :
    Apart x lost kept (world.putTask x task) other :=
  apart.turnOf (turnOf_put world x task) rfl rfl

theorem runOwn (apart : Apart x lost kept world other) (held : world.view.InLine waits)
    (found : world.worker? x = some worker) (ran : world.runWorker x worker = some next)
    (seeks : ∀ bytes, worker.point ≠ .holding (.write bytes)) : Apart x lost kept next other := by
  have turn := runWorker_turnOf ran
  have stood := standing_of_find? (find?_of_worker? found)
  cases point : worker.point with
  | fresh | receiving | sending rest | flushing | closing result =>
      rw [runWorker_of_turn? (by simp [Task.standing, point])] at ran
      obtain ⟨_, _, rfl⟩ := Option.map_eq_some_iff.mp ran
      exact apart.turnOf turn rfl rfl
  | ended ending => simp [World.runWorker, point] at ran
  | requesting command =>
      simp only [World.runWorker, point] at ran
      cases ran
      exact apart.turnOf turn rfl (Lock.withdraw_request_same held.line.queue_nil)
  | waiting command =>
      simp only [World.runWorker, point] at ran
      split at ran
      · cases ran
        exact apart.turnOf turn rfl rfl
      · split at ran <;> cases ran
        exact apart.turnOf turn rfl (Lock.withdraw_withdraw world.lock x)
  | holding command =>
      rw [Task.standing, point] at stood
      have given : world.lock.release = world.lock.withdraw x :=
        held.line.release_eq (held.holding x _ stood)
      simp only [World.runWorker, point] at ran
      cases ran
      refine apart.turnOf turn ?_ ?_
      · cases command with
        | write bytes => exact absurd point (seeks bytes)
        | seek index offset => exact Log.exchange_log world.memory world.log worker.cursor _
      · show world.lock.release.withdraw x = _
        rw [given, Lock.withdraw_withdraw]

theorem addOwn (apart : Apart x lost kept world other) {task : Task}
    (added : world.addTask x task = some next) : Apart x lost kept next other := by
  simp only [addTask] at added
  split at added <;> cases added
  exact apart.putOwn task

theorem changeOwn (apart : Apart x lost kept world other) {change : Stream → Stream}
    (changed : world.changeStream x change = some next) : Apart x lost kept next other := by
  obtain ⟨worker, _, rfl⟩ := Option.map_eq_some_iff.mp changed
  exact apart.putOwn _

theorem registerOwn (apart : Apart x lost kept world other) (counted : lost = some world.registry.nextId) :
    Apart x lost kept { world with registry := world.registry.add x } other := by
  refine { apart with records := ?_, nextId := ?_ }
  · rw [apart.records]
    simp [Registry.add]
  · rw [apart.nextId, counted]
    simp [Registry.add, Origin.rename]

theorem own (apart : Apart x lost kept world other) (calm : Passage.Calm x lost ⟨world, action, next⟩)
    (mine : action.isOf x = true) (stepped : world.step action = some next) :
    Apart x lost kept next other := by
  cases action with
  | remember | hold | release | elapse | reap | drain | look => cases mine
  | launch key worker =>
      obtain rfl : key = x := by simpa [Action.isOf] using mine
      simp only [step] at stepped
      split at stepped
      · cases stepped
      · exact apart.addOwn stepped
      · cases stepped
  | spawn key peer =>
      obtain rfl : key = x := by simpa [Action.isOf] using mine
      have counted := (calm.numbered key peer rfl).mpr rfl
      simp only [step] at stepped
      split at stepped
      · cases stepped
      · exact (apart.registerOwn counted).addOwn stepped
  | arrive key | setWrite key | setFlush key | setShutdown key =>
      obtain rfl : key = x := by simpa [Action.isOf] using mine
      simp only [step] at stepped
      exact apart.changeOwn stepped
  | discard key =>
      obtain rfl : key = x := by simpa [Action.isOf] using mine
      obtain ⟨worker, _, finished⟩ := Option.bind_eq_some_iff.mp stepped
      split at finished <;> cases finished
      exact apart.putOwn _
  | call key request =>
      obtain rfl : key = x := by simpa [Action.isOf] using mine
      exact absurd rfl (calm.uncalled request)
  | collect key =>
      obtain rfl : key = x := by simpa [Action.isOf] using mine
      have none_here : world.call? key = none := calm.session
      simp [step, none_here] at stepped
  | run key =>
      obtain rfl : key = x := by simpa [Action.isOf] using mine
      obtain ⟨waits, held⟩ := calm.inLine
      simp only [step, run] at stepped
      split at stepped
      · rename_i worker found
        have present : world.worker? key = some worker := by simp [worker?, found]
        exact apart.runOwn held present stepped fun bytes => calm.seeks worker bytes present
      · rename_i call found
        have called : world.call? key = some call := by simp [call?, found]
        rw [show world.call? key = none from calm.session] at called
        cases called
      · cases stepped

theorem missing (apart : Apart x lost kept world other) {key : Key} (away : key ≠ x)
    (absent : Table.find? key world.tasks = none) :
    kept ≠ some key ∧ Table.find? key other.tasks = none := by
  refine ⟨apart.not_kept (by simp [standing, absent, Standing.isWaiting]), ?_⟩
  rw [apart.tasks key away, absent, Option.map_none]

theorem addOther (apart : Apart x lost kept world other) {key : Key} (away : key ≠ x) {task : Task}
    (added : world.addTask key task = some next) :
    ∃ others, other.addTask key (task.alone lost false) = some others ∧
      Apart x lost kept next others := by
  simp only [addTask] at added
  split at added <;> cases added
  rename_i absent
  obtain ⟨unkept, missing⟩ := apart.missing away absent
  exact ⟨_, by simp only [addTask, missing], apart.put_unkept away unkept task⟩

theorem worker?_eq (apart : Apart x lost kept world other) {key : Key} (away : key ≠ x) :
    other.worker? key = (world.worker? key).map (Worker.alone lost (kept == some key)) := by
  rw [worker?_eq_bind, worker?_eq_bind, apart.tasks key away]
  cases Table.find? key world.tasks with
  | none => rfl
  | some task => cases task <;> rfl

theorem changeOther (apart : Apart x lost kept world other) {key : Key} (away : key ≠ x)
    {change : Stream → Stream} (changed : world.changeStream key change = some next) :
    ∃ others, other.changeStream key change = some others ∧ Apart x lost kept next others := by
  obtain ⟨worker, found, rfl⟩ := Option.map_eq_some_iff.mp changed
  refine ⟨_, by rw [changeStream, apart.worker?_eq away, found, Option.map_some, Option.map_some], ?_⟩
  refine apart.put away (.session { worker with stream := change worker.stream }) (fun _ _ => Iff.rfl) ?_
  intro waits
  obtain ⟨_, stands, first⟩ := apart.ahead key waits
  rw [standing_of_find? (find?_of_worker? found)] at stands
  exact ⟨stands, first⟩

theorem discardOther (apart : Apart x lost kept world other) {key : Key} (away : key ≠ x)
    (discarded : world.discardWorker key = some next) :
    ∃ others, other.discardWorker key = some others ∧ Apart x lost kept next others := by
  obtain ⟨worker, found, finished⟩ := Option.bind_eq_some_iff.mp discarded
  split at finished <;> cases finished
  rename_i origin point
  obtain ⟨unkept, present⟩ := apart.find_unkept away (find?_of_worker? found)
    (by simp [Task.standing, point, Standing.isWaiting])
  have alone : other.worker? key = some (worker.alone lost false) := by
    simp only [worker?, present, Task.alone]
  have sameOrigin : (worker.alone lost false).origin = .nobody := origin
  have samePoint : (worker.alone lost false).point = .fresh := point
  refine ⟨_, ?_, apart.put_unkept away unkept (.session (worker.finish .discarded))⟩
  simp only [discardWorker, alone, Option.bind_some, sameOrigin, samePoint]
  rfl

theorem rename_succ {gone : Option Nat} {id : Nat} (apart : gone ≠ some id) :
    Origin.registry.rename gone (id + 1) = Origin.registry.rename gone id + 1 := by
  cases gone with
  | none => rfl
  | some gone =>
      have other : gone ≠ id := fun same => apart (congrArg some same)
      simp only [Origin.rename]
      split <;> split <;> omega

theorem registerOther (apart : Apart x lost kept world other) {key : Key} (away : key ≠ x)
    (uncounted : lost ≠ some world.registry.nextId) :
    Apart x lost kept { world with registry := world.registry.add key }
      { other with registry := other.registry.add key } := by
  refine { apart with records := ?_, nextId := ?_ }
  · simp [Registry.add, apart.records, apart.nextId, away, Record.alone]
  · simp only [Registry.add, apart.nextId, rename_succ uncounted]

theorem collectOther (apart : Apart x lost kept world other) {key : Key} (away : key ≠ x)
    (collected : world.step (.collect key) = some next) :
    ∃ others, other.step (.collect key) = some others ∧ Apart x lost kept next others := by
  simp only [step] at collected
  split at collected <;> cases collected
  rename_i request answer found
  obtain ⟨unkept, present⟩ := apart.find_unkept away (find?_of_call? found) rfl
  have alone : other.call? key = some ⟨request, .finished answer⟩ := by
    simp only [call?, present]
    rfl
  refine ⟨{ other with tasks := Table.erase key other.tasks }, by simp only [step, alone], ?_⟩
  refine { apart with tasks := ?_, absent := ?_, ahead := ?_ }
  · intro here apartHere
    by_cases same : here = key
    · subst same
      rw [Table.find?_erase_same, Table.find?_erase_same]
      rfl
    · rw [Table.find?_erase_other _ same, Table.find?_erase_other _ same, apart.tasks here apartHere]
  · rw [Table.find?_erase_other _ away.symm, apart.absent]
  · intro waiter waits
    have same : waiter ≠ key := fun same => unkept (same ▸ waits)
    have stands := apart.ahead waiter waits
    simpa only [standing, Table.find?_erase_other _ same] using stands

theorem hasDone (apart : Apart x lost kept world other) {record : Record} (away : record.key ≠ x) :
    other.hasDone (record.alone lost) = world.hasDone record := by
  have same : (record.alone lost).key = record.key := rfl
  simp only [World.hasDone, same, apart.worker?_eq away]
  cases world.worker? record.key <;> rfl

theorem reapOther (apart : Apart x lost kept world other) :
    Apart x lost kept world.reap.1 other.reap.1 := by
  refine { apart with records := ?_ }
  show other.registry.records.filter (fun record => !other.hasDone record) =
    ((world.registry.records.filter fun record => !world.hasDone record).filter
      fun record => record.key != x).map (Record.alone lost)
  rw [apart.records, List.filter_map, List.filter_filter, List.filter_filter]
  congr 1
  refine List.filter_congr fun record _ => ?_
  by_cases own : record.key = x
  · simp [own]
  · simp [apart.hasDone own, Bool.and_comm]

theorem stuck (apart : Apart x lost none world other) (quiet : world.isQuiet = true) (key : Key)
    (stands : world.standing key = .idle ∨ world.standing key = .gone) : other.run key = none := by
  have still := run_of_quiet quiet key
  by_cases own : key = x
  · rw [own, run, apart.absent]
  · have same := apart.tasks key own
    cases found : Table.find? key world.tasks with
    | none =>
        rw [found] at same
        rw [run, same]
        rfl
    | some task =>
        have stood := standing_of_find? found
        rw [found] at same
        rw [run, found] at still
        rw [run, same]
        rw [stood] at stands
        cases task with
        | session worker =>
            rcases stands with idle | gone
            · have idleAlone : (Task.session (worker.renumber (worker.origin.rename lost))).standing =
                  .idle := idle
              simp only [runWorker_of_turn? idle, Option.map_eq_none_iff] at still
              show other.runWorker key (worker.renumber (worker.origin.rename lost)) = none
              rw [runWorker_of_turn? idleAlone, Worker.turn?_renumber, apart.memory, still]
              rfl
            · show other.runWorker key (worker.renumber (worker.origin.rename lost)) = none
              cases point : worker.point <;> simp [Task.standing, point] at gone
              simp [World.runWorker, Worker.renumber, point]
        | call call =>
            show other.runCall key call = none
            cases point : call.point with
            | finished answer => simp [World.runCall, point]
            | fresh =>
                simp only [World.runCall, point] at still
                split at still <;> cases still
            | requesting | waiting | holding => simp [Task.standing, point] at stands

theorem elapseOther (apart : Apart x lost kept world other) (held : world.view.InLine waits)
    (inside : world.lock.holder ≠ some .outsider) {span : Nat}
    (elapsed : world.elapse span = some next) :
    ∃ others, other.elapse span = some others ∧ Apart x lost kept next others := by
  obtain ⟨quiet, _, rfl⟩ := elapse_eq_some elapsed
  -- Time goes on only when nobody wants the log, so nobody waits for the session alone either.
  obtain ⟨free, nobody⟩ := free_of_quiet held quiet inside
  have alone : kept = none := by
    cases waiter : kept with
    | none => rfl
    | some key =>
        have waits := (apart.ahead key waiter).2.1
        rcases nobody key with stands | stands <;> simp [stands, Standing.isWaiting] at waits
  subst alone
  have quietAlone : other.isQuiet = true := by
    refine List.all_eq_true.mpr fun key _ => ?_
    simp [canRun, apart.stuck quiet key (nobody key)]
  have freeAlone : other.lock = {} := by
    rw [apart.lock, free]
    rfl
  have undue : other.nextDue? = none := by
    simp [nextDue?, freeAlone, Lock.nextDeadline?, apart.undrained.2]
  refine ⟨{ other with clock := other.clock + span }, by simp [elapse, quietAlone, undue], ?_⟩
  exact { apart with clock := by rw [apart.clock] }

theorem launchOther (apart : Apart x lost kept world other) {key : Key} (away : key ≠ x)
    (launched : world.step (.launch key worker) = some next) :
    ∃ others, other.step (.launch key worker) = some others ∧ Apart x lost kept next others := by
  simp only [step] at launched ⊢
  cases origin : worker.origin with
  | registry => simp [origin] at launched
  | caller | nobody =>
      have same : (Task.session worker).alone lost false = .session worker := by
        simp only [Task.alone, Worker.alone, origin]
        rfl
      cases point : worker.point with
      | fresh =>
          simp only [origin, point] at launched ⊢
          obtain ⟨others, added, after⟩ := apart.addOther away launched
          exact ⟨others, same ▸ added, after⟩
      | _ => simp [origin, point] at launched

theorem spawnOther (apart : Apart x lost kept world other) {key : Key} (away : key ≠ x)
    (uncounted : lost ≠ some world.registry.nextId) {peer : Option Net.SocketAddress}
    (spawned : world.step (.spawn key peer) = some next) :
    ∃ others, other.step (.spawn key peer) = some others ∧ Apart x lost kept next others := by
  simp only [step, apart.undrained.1, apart.undrained.2, Option.isSome_none, Bool.false_eq_true,
    if_false] at spawned ⊢
  obtain ⟨others, added, after⟩ := (apart.registerOther away uncounted).addOther away spawned
  refine ⟨others, ?_, after⟩
  rw [← added, spawn, apart.nextId, apart.readBuffer]
  rfl

theorem follows (apart : Apart x lost kept world other) (calm : Passage.Calm x lost ⟨world, action, next⟩)
    (elsewhere : action.isOf x = false) (idle : ∀ key, action ≠ .run key)
    (stepped : world.step action = some next) :
    ∃ others, other.step action = some others ∧ Apart x lost kept next others := by
  obtain ⟨waits, held⟩ := calm.inLine
  cases action with
  | run key => exact absurd rfl (idle key)
  | hold => exact absurd rfl calm.unheld
  | drain grace => exact absurd rfl (calm.undrained grace)
  | look => simp [step, look, apart.undrained.1] at stepped
  | release =>
      simp only [step] at stepped
      split at stepped
      · rename_i outside
        exact absurd outside calm.inside
      · cases stepped
  | remember memory =>
      cases stepped
      exact ⟨{ other with memory }, rfl, { apart with memory := rfl }⟩
  | launch key worker =>
      have away : key ≠ x := by simpa [Action.isOf] using elsewhere
      exact apart.launchOther away stepped
  | spawn key peer =>
      have away : key ≠ x := by simpa [Action.isOf] using elsewhere
      exact apart.spawnOther away (fun counted => away ((calm.numbered key peer rfl).mp counted)) stepped
  | arrive key | setWrite key | setFlush key | setShutdown key =>
      have away : key ≠ x := by simpa [Action.isOf] using elsewhere
      simp only [step] at stepped ⊢
      exact apart.changeOther away stepped
  | discard key =>
      have away : key ≠ x := by simpa [Action.isOf] using elsewhere
      exact apart.discardOther away stepped
  | call key request =>
      have away : key ≠ x := by simpa [Action.isOf] using elsewhere
      exact apart.addOther away stepped
  | collect key =>
      have away : key ≠ x := by simpa [Action.isOf] using elsewhere
      exact apart.collectOther away stepped
  | elapse span => exact apart.elapseOther held calm.inside stepped
  | reap =>
      simp only [step, apart.undrained.1, Option.isSome_none, Bool.false_eq_true, if_false] at stepped
      cases stepped
      exact ⟨other.reap.1, by simp [step, apart.undrained.2], apart.reapOther⟩

def Echoes (x : Key) (lost : Option Nat) (world other : World) (passage : Passage) (rest : List Action) :
    Prop :=
  ∀ key worker, key ≠ x → world.worker? key = some worker →
    reports key (other.passages rest) =
      (passage.reports key).map (Event.renumber (worker.origin.rename lost))

theorem joinEvents_alone (lost : Option Nat) (ahead : Bool) (worker : Worker) :
    (worker.alone lost ahead).joinEvents =
      worker.joinEvents.map (Event.renumber (worker.origin.rename lost)) := by
  rw [← Worker.joinEvents_renumber]
  cases ahead with
  | false => rfl
  | true =>
      cases point : worker.point <;>
        simp [Worker.alone, Worker.joinEvents, Worker.renumber, Point.granted, point]

theorem joinEvents_eq (apart : Apart x lost kept world other) {key : Key} (away : key ≠ x)
    (found : world.worker? key = some worker) :
    other.joinEvents (other.registry.records.filter fun record =>
        record.key == key && other.hasDone record) =
      (world.joinEvents (world.registry.records.filter fun record =>
        record.key == key && world.hasDone record)).map
          (Event.renumber (worker.origin.rename lost)) := by
  have same : (fun record : Record => ((record.alone lost).key == key &&
      other.hasDone (record.alone lost)) && record.key != x) =
      fun record => record.key == key && world.hasDone record := by
    funext record
    by_cases own : record.key = x
    · simp [own, Record.alone, Ne.symm away]
    · have renamed : (record.alone lost).key = record.key := rfl
      simp [own, renamed, apart.hasDone own]
  rw [joinEvents, joinEvents, apart.records, List.filter_map, List.filter_filter, List.flatMap_map,
    List.map_flatMap]
  simp only [Function.comp_def, same]
  refine List.flatMap_congr fun record member => ?_
  have mine : record.key = key := by
    have checked := (List.mem_filter.mp member).2
    simp only [Bool.and_eq_true, beq_iff_eq] at checked
    exact checked.1
  have renamed : (record.alone lost).key = key := mine
  simp only [renamed, mine, apart.worker?_eq away, found, Option.map_some]
  exact joinEvents_alone lost _ worker

theorem filter_renumber (rename : Nat → Nat) (told : List Event) :
    (told.map (Event.renumber rename)).filter (fun event => event.session?.isSome) =
      (told.filter fun event => event.session?.isSome).map (Event.renumber rename) := by
  simp only [List.filter_map, Function.comp_def, Event.session?_renumber, Option.isSome_map]

theorem passages_singleton {others : World} (stepped : other.step action = some others) :
    other.passages [action] = [⟨other, action, others⟩] := by
  simp only [passages, stepped]

theorem Mirrored.step {key : Key} {rename : Nat → Nat}
    (mirrored : Mirrored x lost kept key rename world other next) (away : key ≠ x)
    (named : ∀ worker, world.worker? key = some worker → rename = worker.origin.rename lost) :
    ∃ others, other.steps (Passage.rest x kept ⟨world, .run key, next⟩) = some others ∧
      Apart x lost (Passage.kept x kept ⟨world, .run key, next⟩) next others ∧
      Echoes x lost world other ⟨world, .run key, next⟩
        (Passage.rest x kept ⟨world, .run key, next⟩) := by
  have elsewhere {mine : Key} (apart : mine ≠ key) (world next : World) :
      Passage.reports mine ⟨world, .run key, next⟩ = [] :=
    Passage.reports_idle (fun same => apart (Action.run.inj same).symm) nofun
  cases mirrored with
  | @both others told unkept ran after here there =>
      have rest : Passage.rest x kept ⟨world, .run key, next⟩ = [.run key] :=
        if_neg (not_or.mpr ⟨away, unkept⟩)
      have went : other.step (.run key) = some others := ran
      rw [rest]
      refine ⟨others, by rw [steps, went]; rfl, after, ?_⟩
      intro mine worker _ found
      rw [passages_singleton went, reports, List.flatMap_singleton]
      by_cases same : mine = key
      · subst same
        rw [Passage.reports_run here, Passage.reports_run there, ← named worker found]
        exact filter_renumber rename told
      · rw [elsewhere same, elsewhere same]
        rfl
  | wake waits after silent =>
      have rest : Passage.rest x kept ⟨world, .run key, next⟩ = [] := if_pos (Or.inr waits)
      have woken : Passage.kept x kept ⟨world, .run key, next⟩ = none := by
        simp only [Passage.kept, if_neg away, if_pos waits]
      rw [rest, woken]
      refine ⟨other, rfl, after, ?_⟩
      intro mine worker _ found
      by_cases same : mine = key
      · subst same
        rw [Passage.reports_run (silent.trans (List.append_nil _).symm)]
        rfl
      · rw [elsewhere same]
        rfl

theorem step (apart : Apart x lost kept world other) (calm : Passage.Calm x lost ⟨world, action, next⟩)
    (stepped : world.step action = some next) :
    ∃ others, other.steps (Passage.rest x kept ⟨world, action, next⟩) = some others ∧
      Apart x lost (Passage.kept x kept ⟨world, action, next⟩) next others ∧
      Echoes x lost world other ⟨world, action, next⟩ (Passage.rest x kept ⟨world, action, next⟩) := by
  by_cases mine : action.isOf x = true
  · have after := apart.own calm mine stepped
    rw [Passage.rest_own mine, Passage.kept_idle fun key away runs => ?_]
    · refine ⟨other, rfl, after, fun key worker away _ => ?_⟩
      rw [Passage.reports_own mine away]
      rfl
    · obtain rfl : action = .run key := runs
      exact away (by simpa [Action.isOf] using mine)
  · have elsewhere : action.isOf x = false := by simpa using mine
    by_cases runs : ∃ key, action = .run key
    · obtain ⟨key, rfl⟩ := runs
      have away : key ≠ x := by simpa [Action.isOf] using elsewhere
      obtain ⟨waits, held⟩ := calm.inLine
      have patient (request : Request) : .expires key request ∈ world.runFacts key next →
          (world.lock.withdraw x).holder ≠ some (.task key) := calm.patient key request away
      have ran : world.run key = some next := stepped
      simp only [run] at ran
      split at ran
      · rename_i worker found
        refine (apart.runWorker held away found ran patient).step away fun same present => ?_
        rw [worker?, found] at present
        cases present
        rfl
      · rename_i call found
        refine (apart.runCall held away found ran id patient).step away fun same present => ?_
        rw [worker?, found] at present
        cases present
      · cases ran
    · have idle (key : Key) : action ≠ .run key := fun same => runs ⟨key, same⟩
      obtain ⟨others, went, after⟩ := apart.follows calm elsewhere idle stepped
      rw [Passage.rest_follows elsewhere idle, Passage.kept_idle fun key _ => idle key]
      refine ⟨others, by rw [steps, went]; rfl, after, fun key worker away found => ?_⟩
      rw [passages_singleton went, reports, List.flatMap_singleton]
      by_cases reaps : action = .reap
      · subst reaps
        exact apart.joinEvents_eq away found
      · rw [Passage.reports_idle (idle key) reaps, Passage.reports_idle (idle key) reaps]
        rfl

end World.Apart

end CommandLog
