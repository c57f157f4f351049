import CommandLog.Proofs.World.Lifecycle
import CommandLog.Proofs.World.Settling

/-!
A drain under way. It looks at its workers every ten milliseconds, until all have ended or its grace is
over, and whatever the tasks do meanwhile it comes to an end.
-/

namespace CommandLog

/-- How many looks may have to come after the first until the grace is over. -/
def Duration.looks (grace : Duration) : Nat :=
  (grace.nanoseconds + (Drain.interval.nanoseconds - 1)) / Drain.interval.nanoseconds

theorem Drain.interval_pos : 0 < Drain.interval.nanoseconds := by decide

theorem Duration.le_looks {grace : Duration} {count : Nat} :
    count ≤ grace.looks ↔
      count * Drain.interval.nanoseconds < grace.nanoseconds + Drain.interval.nanoseconds := by
  have positive := Drain.interval_pos
  rw [looks, Nat.le_div_iff_mul_le positive]
  omega

def Action.isLook : Action → Bool
  | .look => true
  | _ => false

namespace World

variable {log : Log} {lockTimeout : Duration} {readBuffer : Nat} {action : Action}
variable {actions during : List Action} {world next before begun now final : World}
variable {grace : Duration} {count : Nat}

/-- What a step is for the drain that is under way, if any. -/
inductive DrainStep (world : World) (action : Action) (next : World) : Prop
  | free : world.drain = none → next.drain = none → DrainStep world action next
  | begins {grace : Duration} : action = .drain grace → world.drain = none →
      next.drain = some ⟨world.registry.records, world.clock + grace.nanoseconds, world.clock⟩ →
      next.clock = world.clock → DrainStep world action next
  | waits {drain : Drain} : action.isLook = false → world.drain = some drain → next.drain = some drain →
      next.clock = world.clock → DrainStep world action next
  | passes {drain : Drain} {span : Nat} : action = .elapse span → world.drain = some drain →
      next.drain = some drain → next.clock = world.clock + span → next.clock ≤ drain.nextLook →
      DrainStep world action next
  | looks {drain : Drain} : action = .look → world.drain = some drain → world.clock = drain.nextLook →
      drain.records.all world.hasEnded = false → world.clock < drain.deadline →
      next = { world with drain := some { drain with
        nextLook := world.clock + Drain.interval.nanoseconds } } → DrainStep world action next
  | ends {drain : Drain} : action = .look → world.drain = some drain → world.clock = drain.nextLook →
      (drain.records.all world.hasEnded = true ∨ drain.deadline ≤ world.clock) →
      next = (world.endDrain drain.records).1 → DrainStep world action next

theorem nextDue?_le_nextLook {drain : Drain} (draining : world.drain = some drain) :
    ∃ due, world.nextDue? = some due ∧ due ≤ drain.nextLook := by
  apply min?_le
  simp [draining]

theorem step_drain (stepped : world.step action = some next) : world.DrainStep action next := by
  cases step_registry stepped with
  | spawn free started => exact .free free (started.drain.trans free)
  | reap free => exact .free free free
  | drain free begins =>
      cases begins with
      | empty => exact .free free free
      | underway => exact .begins rfl free rfl rfl
      | failed => exact .free free rfl
  | look draining due looks =>
      cases looks with
      | last done => exact .ends rfl draining due done rfl
      | again going early => exact .looks rfl draining due going early rfl
  | @pass span _ elapsed =>
      obtain ⟨_, inTime, same⟩ := elapse_eq_some elapsed
      have keeps : next.drain = world.drain := by rw [same]
      have clock : next.clock = world.clock + span := by rw [same]
      cases draining : world.drain with
      | none => exact .free draining (keeps.trans draining)
      | some drain =>
          obtain ⟨due, found, soon⟩ := nextDue?_le_nextLook draining
          exact .passes rfl draining (keeps.trans draining) clock
            (clock ▸ Nat.le_trans (inTime due found) soon)
  | apart other _ same clock =>
      cases draining : world.drain with
      | none => exact .free draining (same.trans draining)
      | some drain =>
          refine .waits ?_ draining (same.trans draining) clock
          cases action <;> first | rfl | cases other

structure Timely (world : World) (drain : Drain) : Prop where
  inTime : world.clock ≤ drain.nextLook
  bounded : drain.nextLook < drain.deadline + Drain.interval.nanoseconds

theorem timely_run (ran : (initial log lockTimeout readBuffer).steps actions = some final)
    {drain : Drain} (draining : final.drain = some drain) : final.Timely drain := by
  have positive := Drain.interval_pos
  refine passages_induction (fun _ world => ∀ drain, world.drain = some drain → world.Timely drain)
    (fun drain draining => by cases draining) ?_ ran drain draining
  intro early action late world next _ _ timely stepped drain draining
  cases step_drain stepped with
  | free _ free => rw [free] at draining; cases draining
  | begins _ _ begun clock =>
      cases begun.symm.trans draining
      exact ⟨Nat.le_of_eq clock, by simp only; omega⟩
  | waits _ was same clock =>
      cases same.symm.trans draining
      exact ⟨clock ▸ (timely drain was).inTime, (timely drain was).bounded⟩
  | passes _ was same _ inTime =>
      cases same.symm.trans draining
      exact ⟨inTime, (timely drain was).bounded⟩
  | looks _ was due _ soon again =>
      subst again
      cases draining
      exact ⟨Nat.le_add_right _ _, Nat.add_lt_add_right soon _⟩
  | ends _ _ _ _ done =>
      subst done
      cases draining

def timeLeft (world : World) : Nat :=
  match world.drain with
  | none => 0
  | some drain => (drain.deadline + Drain.interval.nanoseconds - world.clock) +
      (drain.deadline + Drain.interval.nanoseconds - drain.nextLook)

theorem draining_goes_down {drain : Drain} (draining : world.drain = some drain)
    (timely : world.Timely drain)
    (intact : ∀ key worker, world.worker? key = some worker → worker.Intact)
    (own : action.isOwn) (stepped : world.step action = some next) (goes : next.drain ≠ none) :
    (toLex (next.timeLeft, next.effort) : ℕ ×ₗ Effort) < toLex (world.timeLeft, world.effort) := by
  have inTime := timely.inTime
  have bounded := timely.bounded
  cases step_drain stepped with
  | free free => rw [free] at draining; cases draining
  | begins _ free => rw [free] at draining; cases draining
  | waits apart was same clock =>
      have stays : next.timeLeft = world.timeLeft := by
        simp only [timeLeft, same, was, clock]
      rw [stays]
      refine Prod.Lex.toLex_lt_toLex.mpr (Or.inr ⟨rfl, ?_⟩)
      cases action with
      | run key => exact effort_run intact stepped
      | look => cases apart
      | elapse span =>
          obtain ⟨_, _, rfl⟩ := elapse_eq_some stepped
          have positive : 0 < span := own
          simp only at clock
          omega
      | _ => cases own
  | passes elapses was same clock soon =>
      subst elapses
      cases draining.symm.trans was
      refine Prod.Lex.toLex_lt_toLex.mpr (Or.inl ?_)
      have positive : 0 < _ := own
      simp only [timeLeft, same, was]
      omega
  | looks _ was due _ soon again =>
      cases draining.symm.trans was
      subst again
      have positive := Drain.interval_pos
      refine Prod.Lex.toLex_lt_toLex.mpr (Or.inl ?_)
      simp only [timeLeft, was]
      omega
  | ends _ _ _ _ done => exact absurd (by rw [done]; rfl) goes

theorem launchesNew_of_isOwn (own : action.isOwn) : action.LaunchesNew := by
  cases action <;> trivial

theorem drain_inevitable (launches : ∀ action, action ∈ actions → action.LaunchesNew)
    (ran : (initial log lockTimeout readBuffer).steps actions = some world) :
    Inevitable step Action.isOwn (fun world => world.drain = none) world := by
  -- By induction on the time that is left, and within one moment on what the tasks have left to do.
  generalize left : (toLex (world.timeLeft, world.effort) : ℕ ×ₗ Effort) = measure
  induction measure using WellFoundedLT.induction generalizing world actions with
  | ind measure ih =>
      subst left
      cases draining : world.drain with
      | none => exact .now draining
      | some drain =>
          have timely := timely_run ran draining
          have agrees := agrees_run (fun action member => (launches action member).startsAnew) ran
          refine .later (goes_on agrees.inLine draining timely.inTime) ?_
          intro action next own stepped
          by_cases goes : next.drain = none
          · exact .now goes
          · have less := draining_goes_down draining timely
              (fun key worker found => intact_run launches ran found) own stepped goes
            have ranOn := steps_concat_eq_some.mpr ⟨world, ran, stepped⟩
            refine ih _ less ?_ ranOn rfl
            intro other member
            rcases List.mem_append.mp member with before | newest
            · exact launches other before
            · cases List.mem_singleton.mp newest
              exact launchesNew_of_isOwn own

def looks (past : List Passage) : Nat := past.countP fun passage => passage.action.isLook

/-- A drain that has begun `before` and has looked so often. -/
structure Underway (before : World) (grace : Duration) (count : Nat) (now : World) : Prop where
  drain : now.drain = some ⟨before.registry.records, before.clock + grace.nanoseconds,
    before.clock + count * Drain.interval.nanoseconds⟩
  notBefore : before.clock + (count - 1) * Drain.interval.nanoseconds ≤ now.clock
  inTime : now.clock ≤ before.clock + count * Drain.interval.nanoseconds
  atMost : count ≤ grace.looks

theorem Underway.clock_le (underway : Underway before grace count now) :
    now.clock ≤ before.clock + grace.looks * Drain.interval.nanoseconds :=
  Nat.le_trans underway.inTime
    (Nat.add_le_add_left (Nat.mul_le_mul_right _ underway.atMost) _)

theorem underway_begun (drains : before.step (.drain grace) = some begun) :
    begun.drain = none ∨ Underway before grace 0 begun := by
  obtain ⟨free, begins⟩ := step_beginDrain drains
  cases begins with
  | empty => exact Or.inl free
  | failed => exact Or.inl rfl
  | underway =>
      exact Or.inr ⟨by simp, by simp, by simp, Nat.zero_le _⟩

theorem Underway.step (underway : Underway before grace count now)
    (stepped : now.step action = some next) : next.drain = none ∨
      Underway before grace (count + if action.isLook then 1 else 0) next := by
  have drain := underway.drain
  cases step_drain stepped with
  | free free => rw [free] at drain; cases drain
  | begins _ free => rw [free] at drain; cases drain
  | waits apart was same clock =>
      cases was.symm.trans drain
      rw [apart]
      exact Or.inr ⟨same, clock ▸ underway.notBefore, clock ▸ underway.inTime, underway.atMost⟩
  | passes elapses was same clock soon =>
      cases was.symm.trans drain
      subst elapses
      refine Or.inr ⟨same, ?_, soon, underway.atMost⟩
      rw [clock]
      exact Nat.le_trans underway.notBefore (Nat.le_add_right _ _)
  | looks looks was due _ soon again =>
      cases was.symm.trans drain
      subst looks again
      simp only at due soon
      refine Or.inr ⟨?_, ?_, ?_, ?_⟩
      · simp [due, Action.isLook, Nat.succ_mul, Nat.add_assoc]
      · simp [due, Action.isLook]
      · simp [due, Action.isLook, Nat.succ_mul]
      · simp only [Action.isLook, if_pos]
        rw [Duration.le_looks, Nat.succ_mul]
        omega
  | ends _ _ _ _ done => exact Or.inl (by rw [done]; rfl)

theorem underway_run (drains : before.step (.drain grace) = some begun)
    (once : ∀ other, .drain other ∉ during) (ran : begun.steps during = some now) :
    now.drain = none ∨ Underway before grace (looks (begun.passages during)) now := by
  refine passages_induction (fun past world => world.drain = none ∨
    Underway before grace (looks past) world) (underway_begun drains) ?_ ran
  rintro sooner action rest world next rfl _ (free | underway) stepped
  · cases step_drain stepped with
    | free _ free => exact Or.inl free
    | @begins other same =>
        subst same
        exact absurd (by simp) (once other)
    | waits _ was | passes _ was | looks _ was | ends _ was =>
        rw [was] at free
        cases free
  · have goes := underway.step stepped
    simpa only [looks, List.countP_append, List.countP_singleton] using goes

end World

end CommandLog
