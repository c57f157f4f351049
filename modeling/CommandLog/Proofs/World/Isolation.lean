import CommandLog.Proofs.World.Entries
import CommandLog.Proofs.World.Erasure
import CommandLog.Proofs.World.Uninterrupted

/-!
A session that only reads from the log leaves no trace. Whatever its client and its connection do, the
run without it is a run, and there the log and all other sessions come to the same.
-/

namespace CommandLog

namespace World

variable {log : Log} {lockTimeout : Duration} {readBuffer : Nat} {action : Action}
variable {actions : List Action} {world other next final : World} {x key : Key}
variable {lost : Option Nat} {kept : Option Key}

theorem uncalled_run (session : ∀ request, .call x request ∉ actions)
    (ran : (initial log lockTimeout readBuffer).steps actions = some final) :
    final.call? x = none := by
  refine passages_induction (fun _ world => world.call? x = none) rfl ?_ ran
  intro early action late world next split reached uncalled stepped
  cases found : next.call? x with
  | none => rfl
  | some call =>
      rcases call_of_step stepped found with rfl | ⟨earlier, before, _⟩
      · exact absurd (split ▸ List.mem_append_right early List.mem_cons_self) (session call.request)
      · rw [uncalled] at before
        cases before

theorem asked_of_holding {worker : Worker} {command : Command}
    (launches : ∀ action, action ∈ actions → action.LaunchesNew)
    (ran : (initial log lockTimeout readBuffer).steps actions = some final)
    (found : final.worker? key = some worker) (holding : worker.point = .holding command) :
    command ∈ asks ((initial log lockTimeout readBuffer).passages actions) key := by
  have stands := (((replay_run launches ran).2 key).of_some found).stands
  rw [holding] at stands
  obtain ⟨earlier, heard, _⟩ := stands
  rw [asks, heard]
  simp [commands]

theorem asks_grow (early late : List Passage) (key : Key) :
    asks early key <+: asks (early ++ late) key := by
  rw [asks, asks, deeds_append]
  exact (heard_prefix_append _ _).filterMap id

theorem numbered_of_spawn {later : List Action} {peer : Option Net.SocketAddress}
    (launches : ∀ action, action ∈ later → action.LaunchesNew)
    (numbered : ∀ id, world.registeredId? x = some id → id < world.registry.nextId)
    (stepped : world.step (.spawn key peer) = some next) (ran : next.steps later = some final) :
    final.registeredId? x = some world.registry.nextId ↔ key = x := by
  constructor
  · intro registered
    rcases registered_late launches ran registered with soon | ⟨_, late⟩
    · have fates := step_fate (show (Action.spawn key peer).LaunchesNew from trivial) stepped x
      rcases fates.registered soon with before | ⟨_, _, _, same⟩
      · exact absurd (numbered _ before) (Nat.lt_irrefl _)
      · exact (Action.spawn.inj same).1
    · rw [nextId_spawn stepped] at late
      exact absurd late (Nat.not_succ_le_self _)
  · rintro rfl
    obtain ⟨after, left, origin, identity⟩ :=
      steps_keep launches ran (step_spawn stepped).2.worker
    exact registeredId?_eq_some.mpr ⟨after, left, origin, by rw [identity]; rfl⟩

/-- Nobody gives up a wait for the log that only `x` is the cause of. -/
def Patient (start : World) (actions : List Action) (x : Key) : Prop :=
  ∀ passage, passage ∈ start.passages actions → ∀ key request, key ≠ x →
    .expires key request ∈ passage.before.facts passage.action passage.after →
    (passage.before.lock.withdraw x).holder ≠ some (.task key)

/-- A run in which the lock is not held elsewhere, nobody is drained, and `x` is a session that asks the
log for no write. -/
structure Reads (start : World) (actions : List Action) (x : Key) : Prop where
  launches : ∀ action, action ∈ actions → action.LaunchesNew
  unheld : .hold ∉ actions
  undrained : ∀ grace, .drain grace ∉ actions
  session : ∀ request, .call x request ∉ actions
  seeks : ∀ bytes, .write bytes ∉ asks (start.passages actions) x

theorem Reads.calm (reads : (initial log lockTimeout readBuffer).Reads actions x)
    (patient : (initial log lockTimeout readBuffer).Patient actions x)
    (ran : (initial log lockTimeout readBuffer).steps actions = some final) {passage : Passage}
    (member : passage ∈ (initial log lockTimeout readBuffer).passages actions) :
    passage.Calm x (final.registeredId? x) := by
  obtain ⟨early, late, split⟩ := List.append_of_mem member
  obtain ⟨sooner, later, rfl, reached, same, stepped⟩ := passages_split split
  have launchesSooner (action : Action) (member : action ∈ sooner) : action.LaunchesNew :=
    reads.launches action (List.mem_append_left _ member)
  have startsSooner := fun action member => (launchesSooner action member).startsAnew
  have here : passage.action ∈ sooner ++ passage.action :: later :=
    List.mem_append_right sooner List.mem_cons_self
  have rest : passage.after.steps later = some final := by
    rw [steps_append, reached, Option.bind_some, steps, stepped, Option.bind_some] at ran
    exact ran
  constructor
  · exact ⟨_, (agrees_run startsSooner reached).inLine⟩
  · exact (unheld_run startsSooner (fun held => reads.unheld (List.mem_append_left _ held)) reached).nobody
  · exact fun holds => reads.unheld (holds ▸ here)
  · exact fun grace drains => reads.undrained grace (drains ▸ here)
  · exact fun request calls => reads.session request (calls ▸ here)
  · exact uncalled_run (fun request called => reads.session request (List.mem_append_left _ called)) reached
  · intro worker bytes found holding
    refine reads.seeks bytes ?_
    rw [split, ← same]
    exact (asks_grow _ _ x).subset (asked_of_holding launchesSooner reached found holding)
  · exact patient passage member
  · intro key peer spawns
    rw [spawns] at stepped
    refine numbered_of_spawn (fun action member => reads.launches action
      (List.mem_append_right _ (List.mem_cons_of_mem _ member))) ?_ stepped rest
    intro id registered
    exact numbered_run launchesSooner reached registered

theorem runCall_told {call : Call} (ran : world.runCall key call = some next) :
    ∃ displaced, next.journal = world.journal ++ Event.ofDisplaced displaced := by
  have silent : world.journal = world.journal ++ Event.ofDisplaced none := (List.append_nil _).symm
  simp only [runCall] at ran
  split at ran
  · split at ran <;> cases ran <;> exact ⟨none, silent⟩
  · cases ran
    exact ⟨none, silent⟩
  · split at ran
    · cases ran
      exact ⟨none, silent⟩
    · split at ran <;> cases ran
      exact ⟨none, silent⟩
  · cases ran
    exact ⟨_, rfl⟩
  · cases ran

theorem reports_missing (stepped : world.step action = some next)
    (missing : world.worker? key = none) : Passage.reports key ⟨world, action, next⟩ = [] := by
  by_cases runs : action = .run key
  · subst runs
    simp only [step, run] at stepped
    split at stepped
    · rename_i worker found
      simp [worker?, found] at missing
    · obtain ⟨displaced, told⟩ := runCall_told stepped
      rw [Passage.reports_run told]
      cases displaced <;> rfl
    · cases stepped
  · by_cases reaps : action = .reap
    · subst reaps
      refine List.flatMap_eq_nil_iff.mpr fun record member => ?_
      have mine : record.key = key := by
        have checked := (List.mem_filter.mp member).2
        simp only [Bool.and_eq_true, beq_iff_eq] at checked
        exact checked.1
      simp only [mine, missing]
    · exact Passage.reports_idle runs reaps

theorem reports_append (key : Key) (past later : List Passage) :
    reports key (past ++ later) = reports key past ++ reports key later :=
  List.flatMap_append

theorem rest_cases (x : Key) (kept : Option Key) (passage : Passage) :
    passage.rest x kept = [] ∨ passage.rest x kept = [passage.action] := by
  unfold Passage.rest
  split
  · rename_i other runs
    rw [runs]
    split
    · exact Or.inl rfl
    · exact Or.inr rfl
  · split
    · exact Or.inl rfl
    · exact Or.inr rfl

theorem Apart.run (apart : Apart x lost kept world other)
    (calm : ∀ passage, passage ∈ world.passages actions → passage.Calm x lost)
    (launches : ∀ action, action ∈ actions → action.LaunchesNew)
    (ran : world.steps actions = some final) :
    ∃ alone last, other.steps (erase x kept (world.passages actions)) = some alone ∧
      Apart x lost last final alone ∧
      ∀ key worker, key ≠ x → final.worker? key = some worker →
        reports key (other.passages (erase x kept (world.passages actions))) =
          (reports key (world.passages actions)).map
            (Event.renumber (worker.origin.rename lost)) := by
  -- Along the run `Apart` is kept, while the task that waits for `x` alone comes and goes.
  induction actions generalizing world other kept with
  | nil =>
      cases ran
      exact ⟨other, kept, rfl, apart, fun _ _ _ _ => rfl⟩
  | cons action actions ih =>
      have whole := ran
      obtain ⟨next, stepped, ran⟩ := Option.bind_eq_some_iff.mp ran
      have past : world.passages (action :: actions) =
          ⟨world, action, next⟩ :: next.passages actions := by
        simp only [passages, stepped]
      rw [past] at calm
      obtain ⟨middle, went, apartNext, echoes⟩ := apart.step (calm _ List.mem_cons_self) stepped
      obtain ⟨alone, last, goes, apartLast, reported⟩ := ih apartNext
        (fun passage member => calm passage (List.mem_cons_of_mem _ member))
        (fun later member => launches later (List.mem_cons_of_mem _ member)) ran
      rw [past, erase]
      refine ⟨alone, last, by rw [steps_append, went, Option.bind_some, goes], apartLast, ?_⟩
      intro key worker away found
      rw [passages_append went, reports_append, reported key worker away found]
      have first : reports key (⟨world, action, next⟩ :: next.passages actions) =
          Passage.reports key ⟨world, action, next⟩ ++ reports key (next.passages actions) :=
        List.flatMap_cons
      rw [first, List.map_append]
      congr 1
      cases before : world.worker? key with
      | some earlier =>
          obtain ⟨after, left, origin, _⟩ := steps_keep launches whole before
          cases found.symm.trans left
          rw [origin]
          exact echoes key earlier away before
      | none =>
          -- The session only begins in this step, which reports nothing of it in either world.
          have missing : other.worker? key = none := by
            rw [apart.worker?_eq away, before, Option.map_none]
          rw [reports_missing stepped before, List.map_nil]
          rcases rest_cases x kept ⟨world, action, next⟩ with none_left | one_left
          · rw [none_left]
            rfl
          · rw [one_left] at went ⊢
            obtain ⟨others, went, _⟩ := Option.bind_eq_some_iff.mp went
            rw [Apart.passages_singleton went, reports, List.flatMap_singleton,
              reports_missing went missing]

theorem apart_initial (launches : ∀ action, action ∈ actions → action.LaunchesNew)
    (ran : (initial log lockTimeout readBuffer).steps actions = some final) :
    Apart x (final.registeredId? x) none (initial log lockTimeout readBuffer)
      (initial log lockTimeout readBuffer) := by
  refine ⟨rfl, rfl, rfl, rfl, rfl, fun _ _ => rfl, rfl, rfl, ?_, rfl, ⟨rfl, rfl⟩, nofun⟩
  cases registered : final.registeredId? x with
  | none => rfl
  | some id =>
      -- At the start no id has been given, so the one of `x` is still to come.
      rcases registered_late launches ran registered with soon | ⟨_, late⟩
      · cases soon
      · exact (if_neg (Nat.not_lt.mpr late)).symm

theorem passages_actions (ran : world.steps actions = some final) :
    (world.passages actions).map Passage.action = actions := by
  induction actions generalizing world with
  | nil => rfl
  | cons action actions ih =>
      obtain ⟨next, stepped, ran⟩ := Option.bind_eq_some_iff.mp ran
      simp only [passages, stepped, List.map_cons, ih ran]

end World

/-- The other worker is the same, under another id; perhaps it has already got the lock. -/
structure Worker.Like (rename : Nat → Nat) (worker same : Worker) : Prop where
  session : same.session =
    { worker.session with toIdentity := worker.session.toIdentity.renumber rename }
  origin : same.origin = worker.origin
  stream : same.stream = worker.stream
  line : same.line = worker.line
  cursor : same.cursor = worker.cursor
  exchanges : same.exchanges = worker.exchanges
  point : same.point = worker.point ∨
    ∃ command, worker.point = .waiting command ∧ same.point = .holding command

theorem Worker.alone_like (lost : Option Nat) (ahead : Bool) (worker : Worker) :
    worker.Like (worker.origin.rename lost) (worker.alone lost ahead) := by
  refine ⟨rfl, rfl, rfl, rfl, rfl, rfl, ?_⟩
  cases ahead with
  | false => exact Or.inl rfl
  | true =>
      cases point : worker.point with
      | waiting command => exact Or.inr ⟨command, rfl, by simp [alone, point, Point.granted]⟩
      | _ => exact Or.inl (by simp [alone, point, Point.granted])

namespace World

variable {log : Log} {lockTimeout : Duration} {readBuffer : Nat} {actions : List Action}
variable {final : World} {x : Key}

/-- The run `left` of this start ends as the run of `actions` does, for everybody but `x`. The ids that
the registry has given behind that of `x` are one less. -/
structure SameBut (start : World) (x : Key) (actions left : List Action) (final alone : World) : Prop where
  ran : start.steps left = some alone
  log : alone.log = final.log
  gone : alone.worker? x = none
  absent : ∀ key, key ≠ x → final.worker? key = none → alone.worker? key = none
  sessions : ∀ key worker, key ≠ x → final.worker? key = some worker →
    ∃ same, alone.worker? key = some same ∧
      worker.Like (worker.origin.rename (final.registeredId? x)) same
  reports : ∀ key worker, key ≠ x → final.worker? key = some worker →
    reports key (start.passages left) = (reports key (start.passages actions)).map
      (Event.renumber (worker.origin.rename (final.registeredId? x)))

theorem Reads.without (reads : (initial log lockTimeout readBuffer).Reads actions x)
    (patient : (initial log lockTimeout readBuffer).Patient actions x)
    (ran : (initial log lockTimeout readBuffer).steps actions = some final) :
    ∃ alone, (initial log lockTimeout readBuffer).SameBut x actions
      (erase x none ((initial log lockTimeout readBuffer).passages actions)) final alone := by
  obtain ⟨alone, last, goes, apart, reported⟩ := (apart_initial reads.launches ran).run
    (fun passage member => reads.calm patient ran member) reads.launches ran
  refine ⟨alone, goes, apart.log, ?_, ?_, ?_, reported⟩
  · rw [worker?, apart.absent]
  · intro key away missing
    rw [apart.worker?_eq away, missing, Option.map_none]
  · intro key worker away found
    refine ⟨_, ?_, worker.alone_like _ (last == some key)⟩
    rw [apart.worker?_eq away, found, Option.map_some]

end World

end CommandLog
