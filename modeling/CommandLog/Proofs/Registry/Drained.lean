import CommandLog.Proofs.Registry.Books
import CommandLog.Proofs.Registry.Draining

/-!
A drain leaves nothing running, if it can tell its deadline. Its last look counts its workers, stops
those that have not ended, and none of its sessions does anything from then on. If there is no such
moment the drain fails, and lets go of its sessions.
-/

namespace CommandLog

namespace World

variable {log : Log} {lockTimeout : Duration} {readBuffer : Nat} {early during later : List Action}
variable {world next before begun now final : World} {key : Key} {worker : Worker}
variable {grace : Duration} {count : Nat} {action : Action} {record : Record}

/-- The last look of a drain: it tells how many workers there were and how many of them had not ended,
and stops just these. -/
structure LastLook (records : List Record) (now next : World) (report : DrainReport) : Prop where
  joined : report.joined = records.length
  aborted : report.aborted = records.countP fun record => !now.hasEnded record
  atMost : report.aborted ≤ report.joined
  unneeded : records.all now.hasEnded = true → report.aborted = 0
  workers : ∀ key, next.worker? key =
    if key ∈ records.map Record.key then (now.worker? key).map Worker.stopped else now.worker? key
  log : next.log = now.log
  clock : next.clock = now.clock
  drained : next.drain = none ∧ next.registry.isEmpty = true

theorem lastLook_endDrain (world : World) (records : List Record)
    (empty : world.registry.records = []) :
    LastLook records world (world.endDrain records).1 (world.endDrain records).2 := by
  obtain ⟨registry, free, clock, log, _⟩ := endDrain_keeps world records
  have count : (world.endDrain records).2.aborted =
      records.countP fun record => !world.hasEnded record := List.countP_eq_length_filter.symm
  refine ⟨rfl, count, ?_, ?_, worker?_endDrain world records, log, clock, free, ?_⟩
  · rw [count]
    exact List.countP_le_length
  · intro all
    rw [count, List.countP_eq_zero]
    intro record member
    simp [List.all_eq_true.mp all record member]
  · rw [registry, Registry.isEmpty, empty]
    rfl

theorem Underway.look_reports {report : Option DrainReport}
    (underway : Underway before grace count now) (looked : now.look = some (next, report)) :
    now.clock = before.clock + count * Drain.interval.nanoseconds ∧
      (report.isSome = true ↔ before.registry.records.all now.hasEnded = true ∨
        grace.nanoseconds ≤ count * Drain.interval.nanoseconds) := by
  obtain ⟨drain, draining, due, looks⟩ := look_looks looked
  cases draining.symm.trans underway.drain
  replace due : now.clock = before.clock + count * Drain.interval.nanoseconds := due
  refine ⟨due, ?_⟩
  cases looks with
  | last done =>
      refine iff_of_true rfl (done.imp_right fun late => ?_)
      simp only [due] at late
      omega
  | again going soon =>
      simp only [due] at soon
      refine iff_of_false Bool.false_ne_true ?_
      rintro (all | late)
      · rw [going] at all
        cases all
      · omega

theorem Underway.look_ends {report : DrainReport} (underway : Underway before grace count now)
    (looked : now.look = some (next, some report)) :
    now.endDrain before.registry.records = (next, report) := by
  obtain ⟨drain, draining, _, looks⟩ := look_looks looked
  cases draining.symm.trans underway.drain
  cases looks
  rfl

/-- What has become in `later` of a session that a drain has ended. -/
structure Gone (key : Key) (world : World) (later : List Action) (final : World) : Prop where
  done : ∃ earlier last, world.worker? key = some earlier ∧ final.worker? key = some last ∧
    last.session.isComplete = true ∧ last.stream.isDropped = true ∧
    last.stream.output = earlier.stream.output
  deeds : deeds key (world.passages later) = []
  turns : ∀ turn, turn ∈ turns (world.chronicle later) → turn.key ≠ key
  lock : final.lock.holder ≠ some (.task key) ∧
    ∀ waiter, waiter ∈ final.lock.queue → waiter.key ≠ key

theorem gone_of_ended (launches : ∀ action, action ∈ early ++ later → action.LaunchesNew)
    (reached : (initial log lockTimeout readBuffer).steps early = some world)
    (ran : world.steps later = some final) (found : world.worker? key = some worker)
    (ended : worker.isEnded = true) : Gone key world later final := by
  have phase : worker.point.phase = .done := by simpa [Worker.isEnded_eq_phase] using ended
  have closed := staysClosed_run (fun action member => launches action (List.mem_append_right _ member))
    ran found (by simp [phase, Phase.rank])
  obtain ⟨last, left, output, _, stays⟩ := closed.later
  have all : (initial log lockTimeout readBuffer).steps (early ++ later) = some final :=
    steps_append_eq_some.mpr ⟨world, reached, ran⟩
  have published := published_run launches all left
  have stopped : last.isEnded = true := by
    rw [Worker.isEnded_eq_phase, stays phase, phase]
    rfl
  have agrees := agrees_run (fun action member => (launches action member).startsAnew) all
  have gone : (final.view.standing key).engaged = false := by
    obtain ⟨ending, point⟩ := Worker.isEnded_iff_ending.mp stopped
    have stands : final.standing key = .gone := by
      rw [standing_of_find? (find?_of_worker? left), Task.standing, point]
    exact congrArg Standing.engaged stands
  obtain ⟨apart, unqueued⟩ := agrees.inLine.free_of_not_engaged gone
  refine ⟨⟨worker, last, found, left, by rw [published.isComplete, stopped],
    by rw [published.dropped, stopped], output⟩, closed.silent.deeds, ?_, apart, ?_⟩
  · rw [chronicle_eq]
    exact closed.silent.turns
  · intro waiter queued
    obtain ⟨wait, inLine, _, rfl⟩ := agrees.inLine.line.mem_queue.mp queued
    exact unqueued wait inLine

theorem LastLook.gone {records : List Record} {report : DrainReport}
    (last : LastLook records now next report)
    (launches : ∀ action, action ∈ early → action.LaunchesNew)
    (launchesLater : ∀ action, action ∈ later → action.LaunchesNew)
    (reached : (initial log lockTimeout readBuffer).steps early = some now)
    (looked : now.look = some (next, some report)) (ran : next.steps later = some final)
    (member : record ∈ records) (found : now.worker? record.key = some worker) :
    Gone record.key next later final := by
  have ended := last.workers record.key
  rw [if_pos (List.mem_map_of_mem member), found, Option.map_some] at ended
  have reachedNext := steps_concat_eq_some.mpr
    ⟨now, reached, show now.step .look = some next by rw [step, looked, Option.map_some]⟩
  refine gone_of_ended ?_ reachedNext ran ended worker.isEnded_stopped
  intro action member
  simp only [List.mem_append, List.mem_singleton] at member
  rcases member with (sooner | rfl) | after
  · exact launches action sooner
  · trivial
  · exact launchesLater action after

theorem reported_of_over (begins : begun.drain ≠ none)
    (ran : begun.steps during = some now) : now.drain = none →
      ∃ passage, passage ∈ begun.passages during ∧ passage.action = .look ∧
        passage.report?.isSome = true := by
  refine passages_induction (fun past world => world.drain = none → ∃ passage, passage ∈ past ∧
    passage.action = .look ∧ passage.report?.isSome = true) (fun free => absurd free begins) ?_ ran
  intro sooner action rest world next split _ told stepped free
  cases was : world.drain with
  | none =>
      obtain ⟨passage, member, reports⟩ := told was
      exact ⟨passage, List.mem_append_left _ member, reports⟩
  | some drain =>
      refine ⟨⟨world, action, next⟩, List.mem_append_right _ List.mem_cons_self, ?_⟩
      cases step_drain stepped with
      | free nothing | begins _ nothing =>
          rw [was] at nothing
          cases nothing
      | waits _ _ same | passes _ _ same =>
          rw [free] at same
          cases same
      | looks _ _ _ _ _ again =>
          subst again
          cases free
      | ends looks _ due done =>
          subst looks
          obtain ⟨⟨after, report⟩, looked, rfl⟩ := Option.map_eq_some_iff.mp stepped
          obtain ⟨_, _, _, seen⟩ := look_looks looked
          refine ⟨rfl, ?_⟩
          simp only [Passage.report?, looked, Option.bind_some]
          cases seen with
          | last => rfl
          | again => cases free

/-- A drain without a deadline takes its records out and stops there: nothing is reported, and nobody
joins their workers, which stand where they stood. -/
structure LetsGo (before : World) (grace : Duration) (begun : World) : Prop where
  cleared : begun = before.cleared none
  silent : Passage.report? ⟨before, .drain grace, begun⟩ = none
  unjoined : ∀ later final, (∀ action, action ∈ later → action.LaunchesNew) →
    begun.steps later = some final →
    ∀ record, record ∈ before.registry.records → record ∉ joined (begun.passages later)

theorem unjoined_of_lost (launches : ∀ other, other ∈ early ++ action :: later → other.LaunchesNew)
    (reached : (initial log lockTimeout readBuffer).steps early = some before)
    (stepped : before.step action = some begun) (ran : begun.steps later = some final)
    (gone : record ∈ Passage.lost ⟨before, action, begun⟩) :
    record ∉ joined (begun.passages later) := by
  have since : before.steps (action :: later) = some final := by
    rw [steps, stepped, Option.bind_some, ran]
  have books := books_run launches (steps_append_eq_some.mpr ⟨before, reached, since⟩)
  rw [passages_append reached, passages, stepped] at books
  intro joins
  obtain ⟨passage, member, joins⟩ := List.mem_flatMap.mp joins
  refine books.not_joined (List.mem_flatMap.mpr ⟨_, ?_, gone⟩) (List.mem_flatMap.mpr ⟨passage, ?_, joins⟩)
  · exact List.mem_append_right _ List.mem_cons_self
  · exact List.mem_append_right _ (List.mem_cons_of_mem _ member)

theorem letsGo_of_failed (launches : ∀ action, action ∈ early → action.LaunchesNew)
    (reached : (initial log lockTimeout readBuffer).steps early = some before)
    (drains : before.step (.drain grace) = some begun) (full : before.registry.isEmpty = false)
    (beyond : Clock.limit ≤ before.clock + grace.nanoseconds) : LetsGo before grace begun := by
  cases (step_beginDrain drains).2 with
  | empty empty =>
      rw [full] at empty
      cases empty
  | underway _ tells => exact absurd tells (Nat.not_lt.mpr beyond)
  | failed =>
      refine ⟨rfl, by simp [Passage.report?, full], ?_⟩
      intro later final launchesLater ran record member
      refine unjoined_of_lost ?_ reached drains ran member
      exact List.forall_mem_append.mpr ⟨launches, List.forall_mem_cons.mpr ⟨trivial, launchesLater⟩⟩

/-- A drain that can tell its deadline looks at its workers every ten milliseconds until all have ended
or its grace is over, and so comes to an end, whatever they do. Its last look tells how many workers it
has joined and how many of them had not ended, and stops only these. The registry is empty then, the log
is as it was, and the sessions neither do anything nor have a part in the lock from then on. A drain
that cannot tell its deadline lets go of them. -/
theorem drain_leaves_nothing (launches : ∀ action, action ∈ early → action.LaunchesNew)
    (reached : (initial log lockTimeout readBuffer).steps early = some before)
    (drains : before.step (.drain grace) = some begun) :
    (before.registry.isEmpty = true → begun = before) ∧
    (before.clock + grace.nanoseconds < Clock.limit →
      ∀ during now, (∀ action, action ∈ during → action.LaunchesNew) →
        (∀ other, .drain other ∉ during) → begun.steps during = some now →
        let count := looks (begun.passages during)
        let records := before.registry.records
        Inevitable step Action.isOwn (fun world => world.drain = none) now ∧
        (now.drain = none ∨ Underway before grace count now ∧
          now.clock ≤ before.clock + grace.looks * Drain.interval.nanoseconds) ∧
        (now.drain = none → before.registry.isEmpty = true ∨
          ∃ passage, passage ∈ begun.passages during ∧ passage.action = .look ∧
            passage.report?.isSome = true) ∧
        ∀ next report, now.look = some (next, report) →
          now.clock = before.clock + count * Drain.interval.nanoseconds ∧
          (report.isSome = true ↔ records.all now.hasEnded = true ∨
            grace.nanoseconds ≤ count * Drain.interval.nanoseconds) ∧
          ∀ told, report = some told → LastLook records now next told ∧
            ∀ later final, (∀ action, action ∈ later → action.LaunchesNew) →
              next.steps later = some final →
              ∀ record, record ∈ records → Gone record.key next later final) ∧
    (before.registry.isEmpty = false → Clock.limit ≤ before.clock + grace.nanoseconds →
      LetsGo before grace begun) := by
  obtain ⟨_, begins⟩ := step_beginDrain drains
  refine ⟨?_, ?_, letsGo_of_failed launches reached drains⟩
  · intro empty
    cases begins with
    | empty => rfl
    | underway full | failed full =>
        rw [empty] at full
        cases full
  intro tells during now launchesDuring once ran count records
  have launchesNow : ∀ action, action ∈ early ++ .drain grace :: during → action.LaunchesNew :=
    List.forall_mem_append.mpr ⟨launches, List.forall_mem_cons.mpr ⟨trivial, launchesDuring⟩⟩
  have since : before.steps (.drain grace :: during) = some now := by
    rw [steps, drains, Option.bind_some, ran]
  have reachedNow : (initial log lockTimeout readBuffer).steps (early ++ .drain grace :: during) =
      some now := steps_append_eq_some.mpr ⟨before, reached, since⟩
  have course := underway_run drains once ran
  refine ⟨drain_inevitable launchesNow reachedNow, course.imp_right fun underway =>
    ⟨underway, underway.clock_le⟩, ?_, ?_⟩
  · intro free
    cases begins with
    | empty empty => exact Or.inl empty
    | underway => exact Or.inr (reported_of_over (by simp) ran free)
    | failed _ beyond => exact absurd tells (Nat.not_lt.mpr beyond)
  · intro next report looked
    obtain ⟨drain, draining, _⟩ := look_looks looked
    have underway := course.resolve_left (by simp [draining])
    obtain ⟨due, reports⟩ := underway.look_reports looked
    refine ⟨due, reports, ?_⟩
    rintro told rfl
    have empty := (books_run launchesNow reachedNow).closed (by simp [draining])
    have last := lastLook_endDrain now records empty
    rw [underway.look_ends looked] at last
    refine ⟨last, ?_⟩
    intro later final launchesLater rest record member
    obtain ⟨first, known, _⟩ :=
      (books_run launches reached).known record (List.mem_append_right _ member)
    obtain ⟨worker, found, _⟩ := steps_keep
      (fun action member => launchesNow action (List.mem_append_right _ member)) since known
    exact last.gone launchesNow launchesLater reachedNow looked rest member found

/-- One session reads, one cannot send its reply, one waits for the log, which somebody else holds, one
has been left by its client, and one is broken. -/
def everyCondition : List Action :=
  [.spawn 0 none, .spawn 1 none, .spawn 2 none, .spawn 3 none, .spawn 4 none, .run 0, .run 1, .run 2,
    .run 3, .run 4, .setWrite 1 .stalled, .arrive 1 (.bytes [97, 10]), .run 1, .run 1, .run 1, .hold,
    .arrive 2 (.bytes [98, 10]), .run 2, .run 2, .arrive 3 .endOfStream, .run 3, .run 3,
    .arrive 4 .crash, .run 4]

def twoLooks : List Action := [.look, .elapse 10000000, .look, .elapse 10000000]

theorem drain_leaves_nothing_everyCondition :
    ∃ before begun now next final,
      (initial (Ring.empty 2) (.ofSeconds 5) 64).steps everyCondition = some before ∧
      before.step (.drain (.ofMilliseconds 15)) = some begun ∧ begun.steps twoLooks = some now ∧
      now.look = some (next, some ⟨5, 3⟩) ∧ next.steps [.release] = some final ∧
      now.clock = before.clock + 20000000 ∧ LastLook before.registry.records now next ⟨5, 3⟩ ∧
      ∀ record, record ∈ before.registry.records → Gone record.key next [.release] final := by
  have launches : ∀ action, action ∈ everyCondition → action.LaunchesNew := by
    simp [everyCondition, Action.LaunchesNew]
  have course : (((initial (Ring.empty 2) (.ofSeconds 5) 64).steps everyCondition).bind fun before =>
      (before.step (.drain (.ofMilliseconds 15))).bind fun begun => (begun.steps twoLooks).bind fun now =>
        now.look.bind fun looked => (looked.1.steps [.release]).map fun _ =>
          (looks (begun.passages twoLooks), looked.2)) = some (2, some ⟨5, 3⟩) := by decide +kernel
  obtain ⟨before, reached, course⟩ := Option.bind_eq_some_iff.mp course
  obtain ⟨begun, drains, course⟩ := Option.bind_eq_some_iff.mp course
  obtain ⟨now, ran, course⟩ := Option.bind_eq_some_iff.mp course
  obtain ⟨⟨next, report⟩, looked, course⟩ := Option.bind_eq_some_iff.mp course
  obtain ⟨final, rest, reported⟩ := Option.map_eq_some_iff.mp course
  obtain ⟨count, rfl⟩ := Prod.mk.inj reported
  have clockBefore : ((initial (Ring.empty 2) (.ofSeconds 5) 64).steps everyCondition).map World.clock =
      some 0 := by decide +kernel
  rw [reached, Option.map_some, Option.some.injEq] at clockBefore
  obtain ⟨_, ends, _⟩ := drain_leaves_nothing launches reached drains
  obtain ⟨_, _, _, ends⟩ := ends (by rw [clockBefore]; decide) twoLooks now
    (by simp [twoLooks, Action.LaunchesNew]) (by simp [twoLooks]) ran
  obtain ⟨clock, _, last⟩ := ends next _ looked
  obtain ⟨lastLook, gone⟩ := last _ rfl
  rw [count] at clock
  exact ⟨before, begun, now, next, final, reached, drains, ran, looked, rest, clock, lastLook,
    gone [.release] final (by simp [Action.LaunchesNew]) rest⟩

/-- With the longest grace there is no deadline: the session goes on, appends its entry and replies. -/
theorem session_outlives_drain :
    ∃ before begun final worker,
      (initial (Ring.empty 2) (.ofSeconds 5) 64).steps [.spawn 0 none, .run 0] = some before ∧
      before.step (.drain .longest) = some begun ∧ before.registry.records = [⟨1, 0⟩] ∧
      LetsGo before .longest begun ∧
      begun.steps [.arrive 0 (.bytes [97, 10]), .run 0, .run 0, .run 0, .run 0] = some final ∧
      final.worker? 0 = some worker ∧ worker.isEnded = false ∧ worker.stream.output = [97, 10] ∧
      begun.log.toList = [] ∧ final.log.toList = [[97, 10]] := by
  have course : (((initial (Ring.empty 2) (.ofSeconds 5) 64).steps [.spawn 0 none, .run 0]).bind
      fun before => (before.step (.drain .longest)).bind fun begun =>
        (begun.steps [.arrive 0 (.bytes [97, 10]), .run 0, .run 0, .run 0, .run 0]).bind fun final =>
          (final.worker? 0).map fun worker =>
            ((before.registry.records, before.clock, begun.log.toList), final.log.toList,
              worker.isEnded, worker.stream.output)) =
      some (([⟨1, 0⟩], 0, []), [[97, 10]], false, [97, 10]) := by decide +kernel
  obtain ⟨before, reached, course⟩ := Option.bind_eq_some_iff.mp course
  obtain ⟨begun, drains, course⟩ := Option.bind_eq_some_iff.mp course
  obtain ⟨final, ran, course⟩ := Option.bind_eq_some_iff.mp course
  obtain ⟨worker, found, shown⟩ := Option.map_eq_some_iff.mp course
  simp only [Prod.mk.injEq] at shown
  obtain ⟨⟨records, clock, bare⟩, entries, going, output⟩ := shown
  have letsGo : LetsGo before .longest begun := by
    refine letsGo_of_failed (by simp [Action.LaunchesNew]) reached drains ?_ ?_
    · rw [Registry.isEmpty, records]
      rfl
    · rw [clock]
      decide
  exact ⟨before, begun, final, worker, reached, drains, records, letsGo, ran, found, going, output,
    bare, entries⟩

end World

end CommandLog
