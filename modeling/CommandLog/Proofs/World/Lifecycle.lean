import CommandLog.Proofs.Worker.Phases
import CommandLog.Proofs.World.Conversation
import CommandLog.Proofs.World.Numbering
import CommandLog.Proofs.World.Turns

/-!
The life of a session as others see it, whatever becomes of its connection and whenever its worker is
stopped. The phase goes forward only, and every change of it has its own cause.
-/

namespace CommandLog

namespace World

variable {log : Log} {lockTimeout : Duration} {readBuffer : Nat} {action : Action}
variable {actions early late : List Action} {world next middle final : World} {key : Key}
variable {worker before after earlier : Worker} {past : List Passage}

theorem published_run (launches : ∀ action, action ∈ actions → action.LaunchesNew)
    (ran : (initial log lockTimeout readBuffer).steps actions = some final)
    (found : final.worker? key = some worker) : worker.Published := by
  refine workers_run Worker.Published Worker.published_create ?_ ?_ ?_ launches ran found
  · intro worker action key change changes published
    obtain ⟨_, _, dropped⟩ := changes_keep changes worker.stream
    exact ⟨published.phase, dropped.trans published.dropped⟩
  · intro world before after told step published
    exact step.published published
  · intro worker ending _
    exact worker.published_finish ending

theorem Fates.shift (fates : world.Fates action key next) (found : world.worker? key = some before)
    (left : next.worker? key = some after) (published : before.Published)
    (accounts : world.Accounts past key) :
    Shift action key (deeds key (past ++ [⟨world, action, next⟩])) before after := by
  unfold Fates at fates
  rw [found, left] at fates
  cases fates with
  | same | change => exact .stays rfl
  | run runs step =>
      subst runs
      rw [deeds_concat, Passage.deeds_of_run found left]
      exact step.shift published (accounts.of_some found)
  | abort looks going =>
      refine .aborted looks ?_ rfl rfl
      rw [published.phase]
      intro done
      rw [Worker.isEnded_eq_phase, done] at going
      cases going
  | discard discards _ fresh =>
      exact .discarded discards (by rw [published.phase, fresh, Point.phase]) rfl rfl

theorem Fates.begins (fates : world.Fates action key next) (missing : world.worker? key = none)
    (left : next.worker? key = some after) : after.session.phase = .accepted := by
  unfold Fates at fates
  rw [missing, left] at fates
  cases fates with
  | new => rfl

theorem turn_of_facts {turn : Turn} (taken : .turn turn ∈ world.facts action next) :
    world.standing turn.key = .holding turn.request := by
  cases action with
  | run key =>
      simp only [facts, runFacts] at taken
      split at taken
      · simp at taken
      · simp at taken
      · rename_i holds
        cases List.mem_singleton.mp taken
        exact holds
      · simp at taken
      · simp at taken
  | look =>
      simp only [facts, lookFacts] at taken
      split at taken <;> simp at taken
  | hold => simp [facts] at taken
  | _ => cases taken

structure Silent (past : List Passage) (key : Key) : Prop where
  deeds : deeds key past = []
  turns : ∀ turn, turn ∈ turns (past.flatMap fun passage =>
    passage.before.moments passage.action passage.after) → turn.key ≠ key

theorem Silent.concat (silent : Silent past key) (found : world.worker? key = some worker)
    (closing : Phase.closing.rank ≤ worker.point.phase.rank)
    (idle : Passage.deeds key ⟨world, action, next⟩ = []) :
    Silent (past ++ [⟨world, action, next⟩]) key := by
  refine ⟨by rw [deeds_concat, silent.deeds, idle, List.append_nil], ?_⟩
  intro turn member
  rw [List.flatMap_append, List.flatMap_singleton, moments, turns_append] at member
  rcases List.mem_append.mp member with older | newest
  · exact silent.turns turn older
  · rintro rfl
    obtain ⟨fact, taken, same⟩ := List.mem_filterMap.mp newest
    cases fact <;> cases same
    -- Who has a turn holds the log, and a worker that closes does not.
    have holds := (standing_of_find? (find?_of_worker? found)).symm.trans (turn_of_facts taken)
    cases point : worker.point <;> simp [Task.standing, point] at holds
    simp [point, Point.phase, Phase.rank] at closing

theorem Fates.closing (fates : world.Fates action key next) (found : world.worker? key = some before)
    (closing : Phase.closing.rank ≤ before.point.phase.rank) :
    Passage.deeds key ⟨world, action, next⟩ = [] ∧ ∃ after, next.worker? key = some after ∧
      after.stream.output = before.stream.output ∧
      (after.point = before.point ∨ before.point.phase = .closing ∧ after.point.phase = .done) := by
  have idle (apart : action ≠ .run key) : Passage.deeds key ⟨world, action, next⟩ = [] :=
    Passage.deeds_of_idle apart
  unfold Fates at fates
  rw [found] at fates
  generalize left : next.worker? key = last at fates
  cases fates with
  | same absent =>
      refine ⟨idle fun runs => ?_, before, rfl, rfl, Or.inl rfl⟩
      cases absent runs
  | change changes =>
      refine ⟨idle ?_, _, rfl, (changes_keep changes before.stream).1, Or.inl rfl⟩
      rintro rfl
      cases changes
  | run runs step =>
      subst runs
      obtain ⟨nothing, output, done⟩ := step.closing closing
      rw [Passage.deeds_of_run found left]
      refine ⟨nothing, _, rfl, output, Or.inr ⟨?_, done⟩⟩
      cases step with
      | shut point => rw [point, Point.phase]
      | start point | leave point | «break» point | crash point | read point | refuse point | ask point
      | take point | wait point | wake point | expire point | conclude point | send point
      | sendFails point | sent point | flush point | flushFails point =>
          simp [point, Point.phase, Phase.rank] at closing
  | abort looks going =>
      refine ⟨idle fun same => ?_, _, rfl, rfl, Or.inr ⟨?_, rfl⟩⟩
      · cases looks.symm.trans same
      · rw [Worker.isEnded_eq_phase] at going
        cases phase : before.point.phase <;> simp [phase, Phase.rank] at closing going ⊢
  | discard discards _ fresh =>
      simp [fresh, Point.phase, Phase.rank] at closing

/-- What has become, at the end of a run, of a session that closed before it. -/
structure StaysClosed (past : List Passage) (key : Key) (earlier : Worker) (world : World) : Prop where
  silent : Silent past key
  later : ∃ later, world.worker? key = some later ∧ later.stream.output = earlier.stream.output ∧
    Phase.closing.rank ≤ later.point.phase.rank ∧
    (earlier.point.phase = .done → later.point = earlier.point)

theorem staysClosed_run (launches : ∀ action, action ∈ late → action.LaunchesNew)
    (ran : middle.steps late = some final) (found : middle.worker? key = some earlier)
    (closing : Phase.closing.rank ≤ earlier.point.phase.rank) :
    StaysClosed (middle.passages late) key earlier final := by
  refine passages_induction (fun past world => StaysClosed past key earlier world) ?_ ?_ ran
  · exact ⟨⟨rfl, nofun⟩, earlier, found, rfl, closing, fun _ => rfl⟩
  · intro sooner action rest world next split _ closed stepped
    have member : action ∈ late := split ▸ List.mem_append_right sooner List.mem_cons_self
    obtain ⟨later, present, output, closes, stays⟩ := closed.later
    obtain ⟨idle, last, left, sameOutput, goes⟩ :=
      (step_fate (launches action member) stepped key).closing present closes
    refine ⟨closed.silent.concat present closes idle, last, left, sameOutput.trans output, ?_, ?_⟩
    · rcases goes with same | ⟨_, done⟩
      · rwa [same]
      · simp [done, Phase.rank]
    · intro done
      rcases goes with same | ⟨first, _⟩
      · exact same.trans (stays done)
      · rw [stays done, done] at first
        cases first

theorem rank_run (launches : ∀ action, action ∈ early ++ late → action.LaunchesNew)
    (reached : (initial log lockTimeout readBuffer).steps early = some middle)
    (ran : middle.steps late = some final) (found : middle.worker? key = some earlier) :
    ∃ later, final.worker? key = some later ∧ later.identity = earlier.identity ∧
      earlier.session.phase.rank ≤ later.session.phase.rank := by
  refine onward_induction (fun world => ∃ later, world.worker? key = some later ∧
    later.identity = earlier.identity ∧ earlier.session.phase.rank ≤ later.session.phase.rank)
    reached ⟨earlier, found, rfl, Nat.le_refl _⟩ ?_ ran
  rintro sooner action world next through member went ⟨later, present, identity, rank⟩ stepped
  have launchesSooner : ∀ action, action ∈ sooner → action.LaunchesNew := fun action member =>
    launches action (through.subset (List.mem_append_left _ member))
  have fates := step_fate (launches action (List.mem_append_right _ member)) stepped key
  obtain ⟨last, left, _, sameIdentity⟩ := fates.keeps present
  have shift := fates.shift present left (published_run launchesSooner went present)
    (accounts_run launchesSooner went key)
  exact ⟨last, left, sameIdentity.trans identity, Nat.le_trans rank shift.rank_le⟩

theorem untouched_of_accepted (launches : ∀ action, action ∈ actions → action.LaunchesNew)
    (ran : (initial log lockTimeout readBuffer).steps actions = some final)
    (found : final.worker? key = some worker) (accepted : worker.session.phase = .accepted) :
    deeds key ((initial log lockTimeout readBuffer).passages actions) = [] ∧
      worker.stream.output = [] ∧ worker.stream.flushes = 0 := by
  have account := (accounts_run launches ran key).of_some found
  have stands := account.stands
  rw [(published_run launches ran found).phase] at accepted
  cases point : worker.point with
  | fresh =>
      rw [point] at stands
      have nothing := stands.1
      refine ⟨nothing, account.output.trans ?_, account.flushed.trans ?_⟩
      · exact congrArg sent nothing
      · exact congrArg flushes nothing
  | _ => simp [point, Point.phase] at accepted

theorem forward_run (launches : ∀ action, action ∈ early ++ late → action.LaunchesNew)
    (reached : (initial log lockTimeout readBuffer).steps early = some middle)
    (ran : middle.steps late = some final) (found : middle.worker? key = some earlier) :
    ∃ later, final.worker? key = some later ∧ later.identity = earlier.identity ∧
      earlier.session.phase.rank ≤ later.session.phase.rank ∧
      (Phase.closing.rank ≤ earlier.session.phase.rank →
        deeds key (middle.passages late) = [] ∧ later.stream.output = earlier.stream.output ∧
        ∀ turn, turn ∈ turns (middle.chronicle late) → turn.key ≠ key) ∧
      (earlier.session.phase = .done →
        later.session.phase = .done ∧ later.point = earlier.point) := by
  have launchesEarly : ∀ action, action ∈ early → action.LaunchesNew :=
    fun action member => launches action (List.mem_append_left _ member)
  have launchesLate : ∀ action, action ∈ late → action.LaunchesNew :=
    fun action member => launches action (List.mem_append_right _ member)
  have published := published_run launchesEarly reached found
  obtain ⟨later, left, identity, rank⟩ := rank_run launches reached ran found
  refine ⟨later, left, identity, rank, ?_, ?_⟩
  · intro closing
    rw [published.phase] at closing
    have closed := staysClosed_run launchesLate ran found closing
    obtain ⟨same, present, output, _⟩ := closed.later
    cases left.symm.trans present
    refine ⟨closed.silent.deeds, output, ?_⟩
    rw [chronicle_eq]
    exact closed.silent.turns
  · intro done
    rw [published.phase] at done
    obtain ⟨same, present, _, closing, stays⟩ :=
      (staysClosed_run launchesLate ran found (by simp [done, Phase.rank])).later
    cases left.symm.trans present
    have last := published_run launches (steps_append_eq_some.mpr ⟨_, reached, ran⟩) left
    exact ⟨by rw [last.phase, stays done, done], stays done⟩

/-- The phase of a session never goes back, and every change of it has its cause: it closes only when its
exchanges are over, and it skips a phase only when its worker is stopped, is broken by a read, or is
dropped before it has started. A session is done when its worker has ended, in whichever way. Before it
processes it has done nothing to its connection, and from when it closes it does nothing to it any more
and nothing to the log. -/
theorem phases_go_forward (launches : ∀ action, action ∈ actions → action.LaunchesNew)
    (ran : (initial log lockTimeout readBuffer).steps actions = some final) :
    let start := initial log lockTimeout readBuffer
    let past := start.passages actions
    (∀ early passage late key before after, past = early ++ passage :: late →
      passage.before.worker? key = some before → passage.after.worker? key = some after →
      Shift passage.action key (deeds key (early ++ [passage])) before after) ∧
    (∀ passage key after, passage ∈ past → passage.before.worker? key = none →
      passage.after.worker? key = some after → after.session.phase = .accepted) ∧
    (∀ key worker, final.worker? key = some worker →
      (worker.session.isComplete = true ↔ ∃ ending, worker.point = .ended ending) ∧
      (worker.session.phase = .accepted →
        deeds key past = [] ∧ worker.stream.output = [] ∧ worker.stream.flushes = 0)) ∧
    (∀ early late middle key earlier, actions = early ++ late → start.steps early = some middle →
      middle.worker? key = some earlier →
      ∃ later, final.worker? key = some later ∧ later.identity = earlier.identity ∧
        earlier.session.phase.rank ≤ later.session.phase.rank ∧
        (Phase.closing.rank ≤ earlier.session.phase.rank →
          deeds key (middle.passages late) = [] ∧ later.stream.output = earlier.stream.output ∧
          ∀ turn, turn ∈ turns (middle.chronicle late) → turn.key ≠ key) ∧
        (earlier.session.phase = .done →
          later.session.phase = .done ∧ later.point = earlier.point)) := by
  intro start past
  refine ⟨?_, ?_, ?_, ?_⟩
  · intro early passage late key before after split found left
    obtain ⟨sooner, later, rfl, reached, rfl, stepped⟩ := passages_split split
    have launchesSooner : ∀ action, action ∈ sooner → action.LaunchesNew :=
      fun action member => launches action (List.mem_append_left _ member)
    have fates := step_fate (launches passage.action (by simp)) stepped key
    exact fates.shift found left (published_run launchesSooner reached found)
      (accounts_run launchesSooner reached key)
  · intro passage key after member missing left
    obtain ⟨early, late, split⟩ := List.append_of_mem member
    obtain ⟨sooner, later, rfl, _, _, stepped⟩ := passages_split split
    exact (step_fate (launches passage.action (by simp)) stepped key).begins missing left
  · intro key worker found
    refine ⟨?_, untouched_of_accepted launches ran found⟩
    rw [(published_run launches ran found).isComplete, Worker.isEnded_iff_ending]
  · rintro early late middle key earlier rfl reached found
    obtain ⟨_, same, ran⟩ := steps_append_eq_some.mp ran
    cases reached.symm.trans same
    exact forward_run launches reached ran found

/-- A session is left by its client after one command, another is broken by its connection, a third is
stopped before its worker has had a turn, and a fourth is dropped. -/
def allEndings : List Action :=
  [.spawn 0 none, .spawn 1 none, .spawn 2 none, .launch 3 (.create ⟨0, none⟩ .nobody 64), .run 0, .run 1,
    .arrive 0 (.bytes [97, 10]), .run 0, .run 0, .run 0, .run 0, .run 0, .run 0, .arrive 0 .endOfStream,
    .run 0, .setWrite 0 .stalled, .run 0, .arrive 1 .crash, .run 1, .discard 3, .drain (.ofSeconds 0),
    .look]

theorem phases_go_forward_allEndings :
    let start := initial (Ring.empty 2) (.ofSeconds 5) 64
    ∃ final, (∀ action, action ∈ allEndings → action.LaunchesNew) ∧
      start.steps allEndings = some final ∧
      ([0, 1, 2, 3].filterMap final.worker?).map Worker.point =
        [.ended (.returned (.ok ())), .ended .panicked, .ended .aborted, .ended .discarded] ∧
      ∀ worker, worker ∈ [0, 1, 2, 3].filterMap final.worker? →
        worker.session.isComplete = true := by
  intro start
  have launches : ∀ action, action ∈ allEndings → action.LaunchesNew := by
    simp [allEndings, Action.LaunchesNew]
  have runs : (start.steps allEndings).isSome := by decide +kernel
  obtain ⟨final, ran⟩ := Option.isSome_iff_exists.mp runs
  have points : (start.steps allEndings).map (fun world =>
      ([0, 1, 2, 3].filterMap world.worker?).map Worker.point) =
        some [.ended (.returned (.ok ())), .ended .panicked, .ended .aborted, .ended .discarded] := by
    decide +kernel
  rw [ran, Option.map_some, Option.some.injEq] at points
  refine ⟨final, launches, ran, points, fun worker member => ?_⟩
  obtain ⟨key, _, found⟩ := List.mem_filterMap.mp member
  have stands := List.mem_map_of_mem (f := Worker.point) member
  obtain ⟨_, _, ends, _⟩ := phases_go_forward launches ran
  rw [points] at stands
  refine (ends key worker found).1.mpr ?_
  simp only [List.mem_cons, List.not_mem_nil, or_false] at stands
  rcases stands with ended | ended | ended | ended <;> exact ⟨_, ended⟩

end World

end CommandLog
