import CommandLog.Proofs.Registry.Books
import CommandLog.Proofs.World.Isolation

/-!
The registry counts no session twice, and loses none but with a drain that fails. Each that it has
started can be looked up until it is reaped or drained, and is joined once, whatever its worker has met
with.
-/

namespace CommandLog

/-- What is reported by who joins a worker that did not return. -/
def Event.isJoin : Event → Bool
  | .workerAborted _ | .workerPanicked _ => true
  | _ => false

namespace World

variable {log : Log} {lockTimeout : Duration} {readBuffer : Nat} {action : Action}
variable {actions early late : List Action} {world next middle final : World} {past : List Passage}
variable {record : Record} {id : Nat} {session : Session}

theorem Books.nodup_records (books : Books past world) :
    (world.registry.records.map Record.id).Nodup := by
  have nodup := books.nodup
  rw [List.map_append] at nodup
  exact (List.nodup_append.mp nodup).2.1

theorem Books.find? (books : Books past world) (member : record ∈ world.registry.records) :
    world.registry.find? record.id = some record := by
  cases found : world.registry.find? record.id with
  | none =>
      have missing := List.find?_eq_none.mp found record member
      simp at missing
  | some other =>
      have same : other.id = record.id := by simpa using List.find?_some found
      rw [List.inj_on_of_nodup_map books.nodup_records (List.mem_of_find?_eq_some found) member same]

theorem Books.sessionOf?_eq_some (books : Books past world) : world.sessionOf? id = some session ↔
    ∃ record worker, record ∈ world.registry.records ∧ record.id = id ∧
      world.worker? record.key = some worker ∧ worker.session = session := by
  constructor
  · intro found
    obtain ⟨record, kept, found⟩ := Option.bind_eq_some_iff.mp found
    obtain ⟨worker, found, same⟩ := Option.map_eq_some_iff.mp found
    exact ⟨record, worker, List.mem_of_find?_eq_some kept, by simpa using List.find?_some kept,
      found, same⟩
  · rintro ⟨record, worker, kept, rfl, found, rfl⟩
    simp [sessionOf?, books.find? kept, found]

theorem Books.sessionOf?_isSome (books : Books past world) : (world.sessionOf? id).isSome = true ↔
    id ∈ (spawned past).map Identity.id ∧ id ∉ (removed past).map Record.id := by
  have nodup := books.nodup
  have member := books.kept.mem_iff (a := id)
  rw [List.map_append] at nodup
  rw [List.map_append, List.mem_append] at member
  constructor
  · intro found
    obtain ⟨session, found⟩ := Option.isSome_iff_exists.mp found
    obtain ⟨record, worker, kept, rfl, _⟩ := books.sessionOf?_eq_some.mp found
    have here : record.id ∈ world.registry.records.map Record.id := List.mem_map_of_mem kept
    exact ⟨member.mp (Or.inr here), fun gone => (List.nodup_append.mp nodup).2.2 _ gone _ here rfl⟩
  · rintro ⟨started, stays⟩
    obtain ⟨record, kept, rfl⟩ := List.mem_map.mp ((member.mpr started).resolve_left stays)
    obtain ⟨worker, found, _⟩ := books.known record (List.mem_append_right _ kept)
    have there := books.sessionOf?_eq_some.mpr ⟨record, worker, kept, rfl, found, rfl⟩
    rw [there]
    rfl

theorem Books.identity (books : Books past world) (found : world.sessionOf? id = some session) :
    session.id = id ∧ session.toIdentity ∈ spawned past := by
  obtain ⟨record, worker, kept, rfl, present, rfl⟩ := books.sessionOf?_eq_some.mp found
  obtain ⟨known, there, _, same, started⟩ := books.known record (List.mem_append_right _ kept)
  cases present.symm.trans there
  exact ⟨same, started⟩

/-- A reap takes out the sessions that are done, says how many they were, and touches nothing else. -/
structure Reaps (before after : World) (removed : List Record) (answer : Nat) : Prop where
  apart : ∃ told, after = { before with
    registry := { before.registry with records := after.registry.records }
    journal := before.journal ++ told }
  stays : ∀ id session, before.sessionOf? id = some session →
    after.sessionOf? id = if session.isComplete then none else some session
  takes : ∀ id, id ∈ removed.map Record.id ↔
    ∃ session, before.sessionOf? id = some session ∧ session.isComplete = true
  counts : answer = removed.length ∧ answer + after.registry.size = before.registry.size

theorem Books.reaps (books : Books past world)
    (after : Books (past ++ [⟨world, .reap, world.reap.1⟩]) world.reap.1) :
    Reaps world world.reap.1 (Passage.removed ⟨world, .reap, world.reap.1⟩) world.reap.2 := by
  refine ⟨⟨_, rfl⟩, ?_, ?_, rfl, ?_⟩
  · intro id session found
    obtain ⟨record, worker, kept, rfl, present, rfl⟩ := books.sessionOf?_eq_some.mp found
    have done : world.hasDone record = worker.session.isComplete := by simp only [hasDone, present]
    split
    · rename_i complete
      by_contra stays
      obtain ⟨session, found⟩ := Option.ne_none_iff_exists'.mp stays
      obtain ⟨other, _, left, same, _⟩ := after.sessionOf?_eq_some.mp found
      obtain ⟨member, going⟩ := List.mem_filter.mp left
      rw [List.inj_on_of_nodup_map books.nodup_records member kept same, done, complete] at going
      cases going
    · rename_i going
      refine after.sessionOf?_eq_some.mpr ⟨record, worker, ?_, rfl, present, rfl⟩
      exact List.mem_filter.mpr ⟨kept, by simpa [done] using going⟩
  · intro id
    constructor
    · intro taken
      obtain ⟨record, member, rfl⟩ := List.mem_map.mp taken
      obtain ⟨kept, done⟩ := List.mem_filter.mp member
      obtain ⟨worker, found, complete⟩ := hasDone_eq_true.mp done
      exact ⟨worker.session, books.sessionOf?_eq_some.mpr ⟨record, worker, kept, rfl, found, rfl⟩,
        complete⟩
    · rintro ⟨session, found, complete⟩
      obtain ⟨record, worker, kept, rfl, present, rfl⟩ := books.sessionOf?_eq_some.mp found
      exact List.mem_map_of_mem
        (List.mem_filter.mpr ⟨kept, hasDone_eq_true.mpr ⟨worker, present, complete⟩⟩)
  · have parts := (List.filter_append_perm world.hasDone world.registry.records).length_eq
    rw [List.length_append] at parts
    exact parts

def NoneDone (world : World) : Prop :=
  ∀ record, record ∈ world.registry.records → world.hasDone record = false

theorem noneDone_reap (world : World) : world.reap.1.NoneDone := by
  intro record member
  obtain ⟨_, going⟩ := List.mem_filter.mp member
  have still : world.hasDone record = false := by simpa using going
  exact still

theorem reaped_of_noneDone (going : world.NoneDone) : world.reap.2 = 0 := by
  refine List.length_eq_zero_iff.mpr (List.filter_eq_nil_iff.mpr fun record member => ?_)
  simp [going record member]

theorem NoneDone.step (going : world.NoneDone) (books : Books past world)
    (launches : action.LaunchesNew) (idle : ∀ key, action ≠ .run key)
    (stepped : world.step action = some next) : next.NoneDone := by
  intro record kept
  rcases record_before stepped kept with before | ⟨peer, _, _, started⟩
  · obtain ⟨worker, found, origin, _⟩ := books.known record (List.mem_append_right _ before)
    have fates := step_fate launches stepped record.key
    have unfinished := going record before
    unfold Fates at fates
    simp only [hasDone, found] at fates unfinished ⊢
    generalize left : next.worker? record.key = last at fates
    cases fates with
    | same | change => exact unfinished
    | run runs => exact absurd runs (idle record.key)
    | abort looks =>
        -- While a drain looks the registry is empty.
        subst looks
        cases step_registry stepped with
        | look draining =>
            rw [books.closed (by simp [draining])] at before
            cases before
        | apart other => cases other
    | discard _ nobody =>
        rw [origin] at nobody
        cases nobody
  · simp only [hasDone, started.worker]
    rfl

theorem noneDone_run (launches : ∀ action, action ∈ early ++ late → action.LaunchesNew)
    (reached : (initial log lockTimeout readBuffer).steps early = some middle)
    (going : middle.NoneDone) (idle : ∀ key, .run key ∉ late)
    (ran : middle.steps late = some final) : final.NoneDone := by
  refine onward_induction NoneDone reached going ?_ ran
  intro sooner action world next through member went going stepped
  have books := books_run (fun action member =>
    launches action (through.subset (List.mem_append_left _ member))) went
  refine going.step books (launches action (List.mem_append_right _ member)) ?_ stepped
  rintro key rfl
  exact idle key member

theorem length_joined_step (stepped : world.step action = some next) :
    let passage : Passage := ⟨world, action, next⟩
    passage.joined.length = passage.reaped + passage.report?.elim 0 DrainReport.joined := by
  intro passage
  cases step_registry stepped with
  | spawn | reap | pass => rfl
  | drain =>
      show 0 = 0 + (if world.registry.isEmpty then some (⟨0, 0⟩ : DrainReport) else none).elim 0
        DrainReport.joined
      split <;> rfl
  | look draining due looks looked =>
      have reported : passage.report? = _ := congrArg (Option.bind · Prod.snd) looked
      rw [reported]
      cases looks with
      | last =>
          rw [joined_endDrain draining]
          exact (Nat.zero_add _).symm
      | again =>
          rw [joined_again draining]
          rfl
  | apart other =>
      have apart : passage.Apart := Passage.apart other
      rw [apart.joined, apart.reaped, apart.report?]
      rfl

theorem length_joined_run (ran : world.steps actions = some final) :
    let past := world.passages actions
    (joined past).length = (past.map Passage.reaped).sum +
      ((past.filterMap Passage.report?).map DrainReport.joined).sum := by
  refine passages_induction (fun past _ => (joined past).length = (past.map Passage.reaped).sum +
    ((past.filterMap Passage.report?).map DrainReport.joined).sum) rfl ?_ ran
  intro early action late before after split reached counted stepped
  rw [joined_concat, List.length_append, counted, length_joined_step stepped]
  rw [List.map_append, List.filterMap_append, List.map_append, List.sum_append, List.sum_append]
  generalize Passage.mk before action after = passage
  cases report : passage.report? <;> simp [report] <;> omega

theorem turn_reports_no_join {before after : Worker} {told : List Event}
    (step : Worker.Step world before after told) : told.filter Event.isJoin = [] := by
  have displaced (entry : Option Bytes) : (Event.ofDisplaced entry).filter Event.isJoin = [] := by
    cases entry <;> rfl
  have fed (outcome : Except LogError Feed) : (before.fedEvents outcome).filter Event.isJoin = [] := by
    simp only [Worker.fedEvents]
    split <;> [rfl; rfl; split <;> rfl]
  cases step with
  | leave => split <;> rfl
  | read | ask => exact fed _
  | refuse => rw [List.filter_append, fed]; rfl
  | conclude =>
      rw [List.filter_append, displaced, List.nil_append]
      simp only [Worker.conclude]
      split
      · rfl
      · cases ‹Command› <;> rfl
  | @shut result _ _ failed _ _ failures =>
      have failing : failed.filter Event.isJoin = [] := by
        refine List.filter_eq_nil_iff.mpr fun event member => ?_
        obtain ⟨cause, rfl⟩ := failures event member
        simp [Event.isJoin]
      have returned : (before.returnEvents result).filter Event.isJoin = [] := by
        simp only [Worker.returnEvents]
        split <;> rfl
      rw [List.filter_append, List.filter_append, failing, returned]
      rfl
  | _ => rfl

theorem told_apart (stepped : world.step action = some next) (apart : action.tendsRegistry = false) :
    ∃ told, next.journal = world.journal ++ told ∧ told.filter Event.isJoin = [] := by
  have silent : world.journal = world.journal ++ [] := (List.append_nil _).symm
  cases action with
  | launch key worker =>
      simp only [step] at stepped
      split at stepped
      · cases stepped
      · obtain ⟨_, rfl⟩ := addTask_eq_some.mp stepped
        exact ⟨[], silent, rfl⟩
      · cases stepped
  | call key request =>
      obtain ⟨_, rfl⟩ := addTask_eq_some.mp stepped
      exact ⟨[], silent, rfl⟩
  | arrive | setWrite | setFlush | setShutdown =>
      obtain ⟨worker, _, rfl⟩ := Option.map_eq_some_iff.mp stepped
      exact ⟨[], silent, rfl⟩
  | discard key =>
      obtain ⟨worker, _, finished⟩ := Option.bind_eq_some_iff.mp stepped
      split at finished <;> cases finished
      exact ⟨[], silent, rfl⟩
  | collect key | hold | release =>
      simp only [step] at stepped
      split at stepped <;> cases stepped
      exact ⟨[], silent, rfl⟩
  | remember memory =>
      cases stepped
      exact ⟨[], silent, rfl⟩
  | elapse span =>
      obtain ⟨_, _, rfl⟩ := elapse_eq_some stepped
      exact ⟨[], silent, rfl⟩
  | run key =>
      simp only [step, run] at stepped
      split at stepped
      · obtain ⟨after, told, step, _, reported, _⟩ := runWorker_step stepped
        exact ⟨told, reported, turn_reports_no_join step⟩
      · obtain ⟨displaced, reported⟩ := runCall_told stepped
        exact ⟨_, reported, by cases displaced <;> rfl⟩
      · cases stepped
  | spawn | reap | drain | look => cases apart

theorem filter_joinEvents (world : World) (records : List Record) :
    (world.joinEvents records).filter Event.isJoin = world.joinEvents records := by
  refine List.filter_eq_self.mpr fun event member => ?_
  obtain ⟨record, _, told⟩ := List.mem_flatMap.mp member
  split at told
  · simp only [Worker.joinEvents] at told
    split at told <;> simp at told <;> rw [told] <;> rfl
  · cases told

theorem Books.joinEvents (books : Books past world) (launches : action.LaunchesNew)
    (stepped : world.step action = some next) :
    next.joinEvents (joined past) = world.joinEvents (joined past) := by
  refine List.flatMap_congr fun record member => ?_
  obtain ⟨worker, found, ended⟩ := books.ended record member
  have fates := step_fate launches stepped record.key
  obtain ⟨after, left, point⟩ := fates.ended found ended
  obtain ⟨same, present, _, identity⟩ := fates.keeps found
  cases left.symm.trans present
  simp only [found, left, Worker.joinEvents, point, identity]

theorem joinEvents_append (world : World) (early late : List Record) :
    world.joinEvents (early ++ late) = world.joinEvents early ++ world.joinEvents late :=
  List.flatMap_append

theorem joins_told (stepped : world.step action = some next) :
    let passage : Passage := ⟨world, action, next⟩
    passage.events.filter Event.isJoin = next.joinEvents passage.joined := by
  intro passage
  have silent (same : next.journal = world.journal) : passage.events = [] :=
    Passage.events_eq (same.trans (List.append_nil _).symm)
  cases step_registry stepped with
  | spawn _ started =>
      rw [silent started.journal]
      rfl
  | reap =>
      rw [Passage.events_eq (by rfl), List.filter_append, filter_joinEvents]
      refine (congrArg (_ ++ ·) ?_).trans (List.append_nil _)
      split <;> rfl
  | drain _ begins =>
      cases begins with
      | empty =>
          rw [silent rfl]
          rfl
      | underway | failed =>
          rw [Passage.events_eq rfl]
          rfl
  | look draining _ looks =>
      cases looks with
      | last =>
          obtain ⟨_, _, _, _, reported⟩ := endDrain_keeps world _
          rw [Passage.events_eq reported, filter_joinEvents, joined_endDrain draining]
      | again =>
          rw [silent rfl, joined_again draining]
          rfl
  | pass elapsed =>
      obtain ⟨_, _, rfl⟩ := elapse_eq_some elapsed
      rw [silent rfl]
      rfl
  | apart other =>
      obtain ⟨told, reported, nobody⟩ := told_apart stepped other
      rw [Passage.events_eq reported, nobody, (Passage.apart other).joined]
      rfl

theorem joins_told_run (launches : ∀ action, action ∈ actions → action.LaunchesNew)
    (ran : (initial log lockTimeout readBuffer).steps actions = some final) :
    let past := (initial log lockTimeout readBuffer).passages actions
    (past.flatMap fun passage => passage.events.filter Event.isJoin) =
      final.joinEvents (joined past) := by
  refine passages_induction (fun past world =>
    (past.flatMap fun passage => passage.events.filter Event.isJoin) =
      world.joinEvents (joined past)) rfl ?_ ran
  rintro sooner action rest world next rfl reached told stepped
  have books := books_run (fun action member => launches action (List.mem_append_left _ member)) reached
  rw [List.flatMap_append, List.flatMap_singleton, told, joins_told stepped, joined_concat,
    joinEvents_append, books.joinEvents (launches action (by simp)) stepped]

theorem beyond_of_lost (stepped : world.step action = some next)
    (loses : Passage.lost ⟨world, action, next⟩ ≠ []) :
    ∃ grace, action = .drain grace ∧ Clock.limit ≤ world.clock + grace.nanoseconds := by
  cases step_registry stepped with
  | drain free begins =>
      cases begins with
      | empty empty =>
          have none_left : world.registry.records = [] := List.isEmpty_iff.mp empty
          simp [Passage.lost, free, none_left] at loses
      | underway => exact absurd rfl loses
      | failed _ beyond => exact ⟨_, rfl, beyond⟩
  | spawn | reap | look | pass => exact absurd rfl loses
  | apart other => exact absurd (Passage.apart other).lost loses

/-- The registry numbers its sessions from one. A session can be looked up until it is removed, a reap
removes those that are done and no other, and each session is in the registry, or being drained, or
has been joined, or was lost by a drain that could not tell its deadline, and only one of these. So what
is in the registry, what has been joined and what was lost add up to what has been started. -/
theorem registry_conserves (launches : ∀ action, action ∈ actions → action.LaunchesNew)
    (ran : (initial log lockTimeout readBuffer).steps actions = some final) :
    let start := initial log lockTimeout readBuffer
    let past := start.passages actions
    ((spawned past).map Identity.id = List.range' 1 (spawned past).length ∧
      ∀ early passage late key peer, past = early ++ passage :: late →
        passage.action = .spawn key peer →
        passage.spawned = [⟨(spawned early).length + 1, peer⟩] ∧
        passage.after.sessionOf? ((spawned early).length + 1) =
          some ⟨⟨(spawned early).length + 1, peer⟩, .accepted⟩) ∧
    (∀ id, ((final.sessionOf? id).isSome = true ↔
        id ∈ (spawned past).map Identity.id ∧ id ∉ (removed past).map Record.id) ∧
      ∀ session, final.sessionOf? id = some session →
        session.id = id ∧ session.toIdentity ∈ spawned past) ∧
    (∀ passage, passage ∈ past → passage.action = .reap →
      Reaps passage.before passage.after passage.removed passage.reaped) ∧
    (∀ early between late world, actions = early ++ .reap :: between ++ late →
      start.steps (early ++ .reap :: between) = some world → (∀ key, .run key ∉ between) →
      world.reap.2 = 0) ∧
    ((joined past ++ lost past ++ final.underway ++ final.registry.records).map Record.id).Perm
      ((spawned past).map Identity.id) ∧
    (∀ passage, passage ∈ past → passage.lost ≠ [] → ∃ grace, passage.action = .drain grace ∧
      Clock.limit ≤ passage.before.clock + grace.nanoseconds) ∧
    (∀ record, record ∈ joined past → ∃ worker, final.worker? record.key = some worker ∧
      worker.identity.id = record.id ∧ worker.isEnded = true) ∧
    (past.flatMap fun passage => passage.events.filter Event.isJoin) =
      final.joinEvents (joined past) ∧
    final.registry.size + final.underway.length + (lost past).length + (past.map Passage.reaped).sum +
      ((past.filterMap Passage.report?).map DrainReport.joined).sum = (spawned past).length ∧
    (final.drain = none → final.underway = []) ∧
    (final.registry.isEmpty = true ↔ final.registry.size = 0) := by
  intro start past
  have books : Books past final := books_run launches ran
  have all := (books.joins.append_right final.registry.records).map Record.id |>.trans books.kept
  refine ⟨⟨books.ids, ?_⟩, ?_, ?_, ?_, all, ?_, ?_, joins_told_run launches ran, ?_, underway_of_none, ?_⟩
  · rintro early ⟨before, action, after⟩ late key peer split spawns
    obtain ⟨before, after, stepped⟩ := books_split launches split
    cases spawns
    have started := (step_spawn stepped).2
    rw [← before.nextId]
    refine ⟨started.spawned, after.sessionOf?_eq_some.mpr ⟨⟨_, key⟩, _, ?_, rfl, started.worker, rfl⟩⟩
    rw [started.registry]
    exact List.mem_append_right _ List.mem_cons_self
  · exact fun id => ⟨books.sessionOf?_isSome, fun session found => books.identity found⟩
  · rintro ⟨world, action, next⟩ member reaps
    obtain ⟨early, late, split⟩ := List.append_of_mem member
    obtain ⟨before, after, stepped⟩ := books_split launches split
    cases reaps
    replace stepped : world.step .reap = some next := stepped
    obtain ⟨_, rfl⟩ := step_reap stepped
    exact before.reaps after
  · rintro early between late world rfl reached idle
    rw [List.append_cons] at reached
    obtain ⟨middle, reached, ran⟩ := steps_append_eq_some.mp reached
    obtain ⟨before, _, stepped⟩ := steps_concat_eq_some.mp reached
    obtain ⟨_, rfl⟩ := step_reap stepped
    have going := noneDone_reap before
    -- After the first reap no session is done, and without a turn none gets done.
    refine reaped_of_noneDone (noneDone_run (fun action member => launches action ?_) reached going
      idle ran)
    simp only [List.mem_append, List.mem_cons] at member ⊢
    tauto
  · rintro ⟨world, action, next⟩ member loses
    obtain ⟨early, late, split⟩ := List.append_of_mem member
    exact beyond_of_lost (books_split launches split).2.2 loses
  · intro record member
    obtain ⟨worker, found, ended⟩ := books.ended record member
    have gone : record ∈ removed past :=
      books.joins.subset (List.mem_append_left _ (List.mem_append_left _ member))
    obtain ⟨same, present, _, id, _⟩ := books.known record (List.mem_append_left _ gone)
    cases found.symm.trans present
    exact ⟨worker, found, id, ended⟩
  · have counted : (joined past).length = (past.map Passage.reaped).sum +
        ((past.filterMap Passage.report?).map DrainReport.joined).sum := length_joined_run ran
    have parts := all.length_eq
    simp only [List.length_map, List.length_append] at parts
    simp only [Registry.size]
    omega
  · simp [Registry.isEmpty, Registry.size]

/-- Of three sessions one is left by its client and one is broken; both are reaped. The third and a
later one are drained. -/
def everyRemoval : List Action :=
  [.spawn 0 none, .spawn 1 none, .spawn 2 none, .run 0, .run 1, .arrive 0 .endOfStream, .run 0, .run 0,
    .arrive 1 .crash, .run 1, .reap, .reap, .spawn 3 none, .drain (.ofSeconds 0), .look]

theorem registry_conserves_everyRemoval :
    let start := initial (Ring.empty 2) (.ofSeconds 5) 64
    let past := start.passages everyRemoval
    ∃ final, (∀ action, action ∈ everyRemoval → action.LaunchesNew) ∧
      start.steps everyRemoval = some final ∧
      (spawned past).map Identity.id = [1, 2, 3, 4] ∧ past.map Passage.reaped =
        [0, 0, 0, 0, 0, 0, 0, 0, 0, 0, 2, 0, 0, 0, 0] ∧
      (past.filterMap Passage.report?).map DrainReport.joined = [2] ∧
      final.registry.isEmpty = true ∧ ((joined past).map Record.id).Perm [1, 2, 3, 4] := by
  intro start past
  have launches : ∀ action, action ∈ everyRemoval → action.LaunchesNew := by
    simp [everyRemoval, Action.LaunchesNew]
  have runs : (start.steps everyRemoval).isSome := by decide +kernel
  obtain ⟨final, ran⟩ := Option.isSome_iff_exists.mp runs
  have reaped : past.map Passage.reaped = [0, 0, 0, 0, 0, 0, 0, 0, 0, 0, 2, 0, 0, 0, 0] := by
    decide +kernel
  have drained : (past.filterMap Passage.report?).map DrainReport.joined = [2] := by decide +kernel
  have count : (spawned past).length = 4 := by decide +kernel
  have kept : lost past = [] := by decide +kernel
  have free : (start.steps everyRemoval).map World.drain = some none := by decide +kernel
  rw [ran, Option.map_some, Option.some.injEq] at free
  obtain ⟨⟨ids, _⟩, _, _, _, parts, _, _, _, sum, underway, _⟩ := registry_conserves launches ran
  have nobody : final.underway = [] := underway free
  rw [show (start.passages everyRemoval) = past from rfl] at ids parts sum
  rw [count] at ids sum
  rw [reaped, drained, nobody, kept] at sum
  have none_left : final.registry.records = [] := by
    refine List.length_eq_zero_iff.mp ?_
    simpa [Registry.size] using sum
  rw [nobody, none_left, kept, List.append_nil, List.append_nil, List.append_nil, ids] at parts
  exact ⟨final, launches, ran, ids, reaped, drained, by rw [Registry.isEmpty, none_left]; rfl, parts⟩

end World

end CommandLog
