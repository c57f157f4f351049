import CommandLog.Proofs.World.Replay
import CommandLog.Proofs.World.Turns
import CommandLog.Proofs.Worker.Framing

/-!
The entries of a log that is written by sessions only. In every state that a run can reach each of them
is a line of its own, so the content of the log can be cut into its entries again.
-/

namespace CommandLog

namespace World

variable {log : Log} {lockTimeout : Duration} {readBuffer capacity : Nat} {actions : List Action}
variable {world next final : World} {action : Action} {key other : Key} {call : Call}

def KeepsCall (world : World) (key : Key) (call : Call) : Prop :=
  ∃ earlier, world.call? key = some earlier ∧ earlier.request = call.request

theorem keepsCall_of_tasks (same : next.tasks = world.tasks) (found : next.call? key = some call) :
    world.KeepsCall key call := by
  refine ⟨call, ?_, rfl⟩
  simpa only [call?, same] using found

theorem keepsCall_of_put {task : Task} (put : next.tasks = Table.put other task world.tasks)
    (found : next.call? key = some call) (mine : key = other → task = .call call →
      world.KeepsCall key call) : world.KeepsCall key call := by
  by_cases same : key = other
  · refine mine same ?_
    have present := find?_of_call? found
    rw [put, same, Table.find?_put_same] at present
    exact Option.some.inj present
  · refine ⟨call, ?_, rfl⟩
    simpa only [call?, put, Table.find?_put_other _ _ same] using found

theorem keepsCall_of_session {worker : Worker}
    (put : next.tasks = Table.put other (.session worker) world.tasks)
    (found : next.call? key = some call) : world.KeepsCall key call :=
  keepsCall_of_put put found nofun

theorem keepsCall_of_addTask {earlier : World} {worker : Worker} (tasks : earlier.tasks = world.tasks)
    (added : earlier.addTask other (.session worker) = some next)
    (found : next.call? key = some call) : world.KeepsCall key call := by
  simp only [addTask] at added
  split at added <;> cases added
  have put : (earlier.putTask other (.session worker)).tasks =
      Table.put other (.session worker) world.tasks := by
    rw [← tasks]
    rfl
  exact keepsCall_of_session put found

theorem call?_abort (found : (world.abort other).call? key = some call) :
    world.call? key = some call := by
  simp only [abort] at found
  split at found
  · split at found
    · exact found
    · simp only [call?, putWorker, putTask, giveUpLog] at found
      by_cases same : key = other
      · simp [same] at found
      · simpa only [call?, Table.find?_put_other _ _ same] using found
  · exact found

theorem call?_abort_all {records : List Record}
    (found : (records.foldl (fun world record => world.abort record.key) world).call? key = some call) :
    world.call? key = some call := by
  induction records generalizing world with
  | nil => exact found
  | cons record records ih => exact call?_abort (ih found)

theorem call_of_step (stepped : world.step action = some next) (found : next.call? key = some call) :
    action = .call key call.request ∨ world.KeepsCall key call := by
  cases action with
  | launch other worker =>
      simp only [step] at stepped
      split at stepped
      · cases stepped
      · exact Or.inr (keepsCall_of_addTask rfl stepped found)
      · cases stepped
  | spawn other peer =>
      simp only [step, spawn] at stepped
      split at stepped
      · cases stepped
      · exact Or.inr (keepsCall_of_addTask (by rfl) stepped found)
  | arrive | setWrite | setFlush | setShutdown =>
      obtain ⟨worker, _, rfl⟩ := Option.map_eq_some_iff.mp stepped
      exact Or.inr (keepsCall_of_session rfl found)
  | discard other =>
      obtain ⟨worker, _, finished⟩ := Option.bind_eq_some_iff.mp stepped
      split at finished <;> cases finished
      exact Or.inr (keepsCall_of_session rfl found)
  | call other request =>
      simp only [step, addTask] at stepped
      split at stepped <;> cases stepped
      by_cases same : key = other
      · have present := find?_of_call? found
        rw [same, putTask, Table.find?_put_same] at present
        cases present
        exact Or.inl (by rw [same])
      · exact Or.inr (keepsCall_of_put rfl found fun here => absurd here same)
  | collect other =>
      simp only [step] at stepped
      split at stepped <;> cases stepped
      by_cases same : key = other
      · simp [call?, same, Table.find?_erase_same] at found
      · refine Or.inr ⟨call, ?_, rfl⟩
        simpa only [call?, Table.find?_erase_other _ same] using found
  | run other =>
      simp only [step, run] at stepped
      split at stepped
      · obtain ⟨after, told, _, put, _⟩ := runWorker_step stepped
        exact Or.inr (keepsCall_of_session put found)
      · rename_i earlier present
        obtain ⟨point, put⟩ := runCall_tasks stepped
        refine Or.inr (keepsCall_of_put put found fun same here => ⟨earlier, ?_, ?_⟩)
        · simp [call?, same, present]
        · cases here
          rfl
      · cases stepped
  | look =>
      obtain ⟨⟨after, report⟩, looked, rfl⟩ := Option.map_eq_some_iff.mp stepped
      simp only [look] at looked
      split at looked
      · cases looked
      · split at looked
        · cases looked
        · split at looked <;> cases looked
          · exact Or.inr ⟨call, call?_abort_all found, rfl⟩
          · exact Or.inr (keepsCall_of_tasks rfl found)
  | remember memory =>
      cases stepped
      exact Or.inr (keepsCall_of_tasks rfl found)
  | hold | release | reap =>
      simp only [step] at stepped
      split at stepped <;> cases stepped
      exact Or.inr (keepsCall_of_tasks rfl found)
  | elapse span =>
      obtain ⟨_, _, rfl⟩ := elapse_eq_some stepped
      exact Or.inr (keepsCall_of_tasks rfl found)
  | drain grace =>
      simp only [step] at stepped
      split at stepped <;> cases stepped
      refine Or.inr (keepsCall_of_tasks ?_ found)
      simp only [beginDrain]
      split <;> rfl

theorem log_of_step (stepped : world.step action = some next) :
    next.log = world.log ∨ ∃ bytes, next.log = (world.log.append bytes).1 ∧
      ((∃ key worker, world.worker? key = some worker ∧ worker.point = .holding (.write bytes)) ∨
        ∃ key call, world.call? key = some call ∧ call.request.bytes? = some bytes) := by
  by_cases runs : ∃ key, action = .run key
  · obtain ⟨key, rfl⟩ := runs
    simp only [step, run] at stepped
    split at stepped
    · rename_i worker present
      obtain ⟨after, told, _, _, _, logged⟩ := runWorker_step stepped
      rw [logged]
      cases point : worker.point with
      | holding command =>
          simp only [logAfter, point]
          rw [Log.exchange_log]
          cases command with
          | write bytes =>
              exact Or.inr ⟨bytes, rfl, Or.inl ⟨key, worker, by simp [worker?, present], point⟩⟩
          | seek index offset => exact Or.inl rfl
      | _ => simp only [logAfter, point, true_or]
    · rename_i call present
      rw [log_of_runCall stepped]
      cases point : call.point with
      | holding =>
          have served := (View.Serves.call : world.view.Serves key call.request _ _ _).log_eq
          simp only [view] at served
          rw [served]
          cases entry : call.request.bytes? with
          | none => exact Or.inl rfl
          | some bytes =>
              exact Or.inr ⟨bytes, rfl, Or.inr ⟨key, call, by simp [call?, present], entry⟩⟩
      | _ => exact Or.inl rfl
    · cases stepped
  · exact Or.inl (log_of_idle (fun key same => runs ⟨key, same⟩) stepped)

structure Lined (world : World) : Prop where
  reached : world.log.Reachable
  entries : ∀ entry, entry ∈ world.log.toList → Entry entry
  calls : ∀ key call, world.call? key = some call → call.request.bytes? = none

theorem Lined.step {past : List Passage} (lined : world.Lined)
    (accounts : ∀ key, world.Accounts past key)
    (silent : ∀ key request, action = .call key request → request.bytes? = none)
    (stepped : world.step action = some next) : next.Lined := by
  have calls (key : Key) (call : Call) (found : next.call? key = some call) :
      call.request.bytes? = none := by
    rcases call_of_step stepped found with made | ⟨earlier, present, same⟩
    · exact silent key call.request made
    · rw [← same]
      exact lined.calls key earlier present
  rcases log_of_step stepped with same | ⟨bytes, appended, holder⟩
  · exact ⟨same ▸ lined.reached, same ▸ lined.entries, calls⟩
  · have line : Entry bytes := by
      rcases holder with ⟨key, worker, found, holding⟩ | ⟨key, call, found, writes⟩
      · exact ((accounts key).of_some found).entry holding
      · rw [lined.calls key call found] at writes
        cases writes
    refine ⟨appended ▸ lined.reached.append bytes, ?_, calls⟩
    intro entry member
    rw [appended, lined.reached.toList_append] at member
    rcases List.mem_append.mp (List.mem_of_mem_drop member) with older | last
    · exact lined.entries entry older
    · exact List.mem_singleton.mp last ▸ line

theorem lined_run (built : Log.ofCapacity capacity = .ok log)
    (launches : ∀ action, action ∈ actions → action.LaunchesNew)
    (throughSessions : ∀ key request, .call key request ∈ actions → request.bytes? = none)
    (ran : (initial log lockTimeout readBuffer).steps actions = some final) : final.Lined := by
  refine passages_induction (fun _ world => world.Lined)
    ⟨.fresh built, ?_, fun key call found => by cases found⟩ ?_ ran
  · intro entry member
    obtain ⟨positive, rfl⟩ := Log.eq_empty_of_ofCapacity built
    rw [show (initial (Ring.empty capacity) lockTimeout readBuffer).log.toList = [] from
      (Ring.holds_empty positive).toList_eq] at member
    cases member
  · intro early action late world next split reached lined stepped
    have member : action ∈ actions := split ▸ List.mem_append_right early List.mem_cons_self
    have accounts := accounts_run (fun action member => launches action (split ▸
      List.mem_append_left _ member)) reached
    refine lined.step accounts (fun key request made => throughSessions key request ?_) stepped
    rwa [← made]

/-- A log that is written by sessions only keeps nothing but lines, each with its only line feed at its
end and none with the tag of a seek, in whatever pieces, with whatever failures and after whatever
waits they have come. So a copy of all of it, cut behind each line feed, is the list of its entries
again, and the reply to a write that is served, to a client that reads from the beginning, ends with
what was written. -/
theorem entries_are_lines (built : Log.ofCapacity capacity = .ok log)
    (launches : ∀ action, action ∈ actions → action.LaunchesNew)
    (throughSessions : ∀ key request, .call key request ∈ actions → request.bytes? = none)
    (ran : (initial log lockTimeout readBuffer).steps actions = some final) :
    (∀ entry, entry ∈ final.log.toList → Entry entry) ∧
    (∀ memory bytes, final.log.snapshot memory 0 = .ok bytes →
      Bytes.splitLines bytes = final.log.toList) ∧
    (∀ early passage late key worker bytes reply,
      (initial log lockTimeout readBuffer).passages actions = early ++ passage :: late →
      passage.action = .run key → passage.before.worker? key = some worker →
      worker.point = .holding (.write bytes) → worker.cursor = 0 →
      (passage.before.log.exchange passage.before.memory 0 (.write bytes)).answer = .ok reply →
      reply.bytes ≠ [] ∧ bytes <:+ reply.bytes ∧ ∃ after, passage.after.worker? key = some after ∧
        after.point = .sending reply.bytes) := by
  have lined := lined_run built launches throughSessions ran
  refine ⟨lined.entries, fun memory bytes => Log.splitLines_snapshot lined.entries, ?_⟩
  intro early passage late key worker bytes reply split runs found holding fromStart answered
  obtain ⟨sooner, later, rfl, reached, rfl, stepped⟩ := passages_split split
  have launchesSooner (action : Action) (member : action ∈ sooner) : action.LaunchesNew :=
    launches action (List.mem_append_left _ member)
  have before := lined_run built launchesSooner (fun key request member =>
    throughSessions key request (List.mem_append_left _ member)) reached
  have entry := ((accounts_run launchesSooner reached key).of_some found).entry holding
  have ends := Log.reply_ends before.reached answered
  refine ⟨fun empty => entry.filled ?_, ends, ?_⟩
  · rw [empty] at ends
    exact List.suffix_nil.mp ends
  · rw [runs] at stepped
    obtain ⟨after, told, step, put, _⟩ :=
      runWorker_step ((run_of_worker? found).symm.trans stepped)
    refine ⟨after, by simpa [Task.worker?] using worker?_put put key, ?_⟩
    rw [step.concluded holding, Log.shown, fromStart, answered]

/-- A line comes in two reads, the second of which brings more; another line is too long to be held, and
what comes behind it starts a line of its own. The first of them is about to be served. -/
def cutLines : List Action :=
  [.spawn 0 none, .spawn 1 none, .run 0, .run 1, .remember (.below 4), .arrive 0 (.bytes [97]),
    .arrive 0 (.bytes [98, 10, 99, 10]), .arrive 1 (.bytes [100, 101, 102, 103]),
    .arrive 1 (.bytes [104, 10]), .arrive 1 (.bytes [105, 10]), .run 0, .run 1, .run 0, .run 1, .run 1,
    .run 0, .run 1]

theorem entries_are_lines_cutLines :
    let start := initial (Ring.empty 2) (.ofSeconds 5) 64
    ∃ final, ∃ reply : Reply, Log.ofCapacity 2 = .ok (Ring.empty 2) ∧
      (∀ action, action ∈ cutLines ++ [.run 0] → action.LaunchesNew) ∧
      (∀ key request, .call key request ∈ cutLines ++ [.run 0] → request.bytes? = none) ∧
      start.steps (cutLines ++ [.run 0]) = some final ∧ final.log.toList = [[97, 98, 10]] ∧
      (∀ entry, entry ∈ final.log.toList → Entry entry) ∧
      (∀ memory bytes, final.log.snapshot memory 0 = .ok bytes →
        Bytes.splitLines bytes = final.log.toList) ∧
      [97, 98, 10] <:+ reply.bytes ∧
      ∃ after, final.worker? 0 = some after ∧ after.point = .sending reply.bytes := by
  intro start
  have built : Log.ofCapacity 2 = .ok (Ring.empty 2) := rfl
  have launches : ∀ action, action ∈ cutLines ++ [.run 0] → action.LaunchesNew := by
    simp [cutLines, Action.LaunchesNew]
  have throughSessions :
      ∀ key request, .call key request ∈ cutLines ++ [.run 0] → request.bytes? = none := by
    simp [cutLines]
  have runs : (start.steps (cutLines ++ [.run 0])).isSome := by decide +kernel
  obtain ⟨final, ran⟩ := Option.isSome_iff_exists.mp runs
  have kept : (start.steps (cutLines ++ [.run 0])).map (·.log.toList) = some [[97, 98, 10]] := by
    decide +kernel
  rw [ran, Option.map_some, Option.some.injEq] at kept
  obtain ⟨middle, reached, stepped⟩ := steps_concat_eq_some.mp ran
  have held : ((start.steps cutLines).bind (·.worker? 0)).map (fun worker =>
      (worker.point, worker.cursor)) = some (.holding (.write [97, 98, 10]), 0) := by decide +kernel
  have served : (start.steps cutLines).map (fun world =>
      (world.log.exchange world.memory 0 (.write [97, 98, 10])).answer) =
        some (.ok ⟨[97, 98, 10], 0⟩) := by decide +kernel
  rw [reached, Option.bind_some] at held
  rw [reached, Option.map_some, Option.some.injEq] at served
  obtain ⟨worker, found, state⟩ := Option.map_eq_some_iff.mp held
  obtain ⟨holding, cursor⟩ := Prod.mk.inj state
  obtain ⟨entries, lines, replies⟩ := entries_are_lines built launches throughSessions ran
  obtain ⟨_, ends, sends⟩ := replies _ _ [] 0 worker [97, 98, 10] ⟨[97, 98, 10], 0⟩
    (passages_concat reached stepped) rfl found holding cursor served
  exact ⟨final, _, built, launches, throughSessions, ran, kept, entries, lines, ends, sends⟩

end World

end CommandLog
