import CommandLog.Proofs.Worker.Phases
import CommandLog.Proofs.World.Responsive
import Mathlib.Algebra.Order.Group.Nat
import Mathlib.Algebra.Order.Monoid.Prod
import Mathlib.Data.List.Nodup
import Mathlib.Data.Prod.Lex

/-!
Tasks that are left to themselves come to rest: each turn leaves less to do. What is left counts what a
task has still to read before where it stands in its exchange, and that before what it has to send.
-/

namespace CommandLog

/-- A system comes to `goal` whichever of its own steps it takes, and is never without one. -/
inductive Inevitable {σ α : Type} (step : σ → α → Option σ) (own : α → Prop) (goal : σ → Prop) : σ → Prop
  | now {state} : goal state → Inevitable step own goal state
  | later {state} : (∃ action, own action ∧ (step state action).isSome = true) →
      (∀ action next, own action → step state action = some next → Inevitable step own goal next) →
      Inevitable step own goal state

abbrev Effort := ℕ ×ₗ ℕ ×ₗ ℕ

namespace Effort

variable {first second third fourth rest other : Nat}

theorem lt_of_first (less : first < second) :
    (toLex (first, toLex (third, rest)) : Effort) < toLex (second, toLex (fourth, other)) :=
  Prod.Lex.toLex_lt_toLex.mpr (Or.inl less)

theorem lt_of_second (less : third < fourth) :
    (toLex (first, toLex (third, rest)) : Effort) < toLex (first, toLex (fourth, other)) :=
  Prod.Lex.toLex_lt_toLex.mpr (Or.inr ⟨rfl, Prod.Lex.toLex_lt_toLex.mpr (Or.inl less)⟩)

theorem lt_of_rest (less : rest < other) :
    (toLex (first, toLex (third, rest)) : Effort) < toLex (first, toLex (third, other)) :=
  Prod.Lex.toLex_lt_toLex.mpr
    (Or.inr ⟨rfl, Prod.Lex.toLex_lt_toLex.mpr (Or.inr ⟨rfl, less⟩)⟩)

end Effort

def Incoming.weight : Incoming → Nat
  | .bytes data => data.length + 1
  | .endOfStream | .failure _ | .crash => 1

namespace Stream

def unread (stream : Stream) : Nat := (stream.incoming.map Incoming.weight).sum

theorem unread_receive? {stream next : Stream} {size : Nat} {item : Incoming} (reads : 1 ≤ size)
    (received : stream.receive? size = some (item, next)) : next.unread < stream.unread := by
  simp only [receive?] at received
  split at received
  · cases received
  · rename_i data later arrived
    split at received
    · cases received
      simp [unread, arrived, Incoming.weight]
    · rename_i rest
      cases received
      have shorter : (data.drop size).length < data.length := by
        rw [List.length_drop]
        have filled : data.drop size ≠ [] := by assumption
        have long := List.length_pos_iff.mpr filled
        rw [List.length_drop] at long
        omega
      simpa [unread, arrived, Incoming.weight] using shorter
  · rename_i arrived
    cases received
    rw [unread, unread, arrived, List.map_cons, List.sum_cons]
    cases item <;> simp [Incoming.weight]

end Stream

def Point.rank : Point → Nat
  | .requesting _ => 5
  | .waiting _ => 4
  | .holding _ => 3
  | .sending _ => 2
  | .flushing => 1
  | .fresh | .receiving | .closing _ | .ended _ => 0

def Point.unsent : Point → Nat
  | .sending rest => rest.length
  | _ => 0

def Worker.effort (worker : Worker) : Effort :=
  toLex (worker.stream.unread + (Phase.done.rank - worker.point.phase.rank),
    toLex (worker.point.rank, worker.point.unsent))

def CallPoint.rank : CallPoint → Nat
  | .fresh => 4
  | .requesting => 3
  | .waiting => 2
  | .holding => 1
  | .finished _ => 0

def Task.effort : Task → Effort
  | .session worker => worker.effort
  | .call direct => toLex (0, toLex (direct.point.rank, 0))

theorem Worker.Step.effort {world : World} {before after : Worker} {told : List Event}
    (step : Worker.Step world before after told) (intact : before.Intact) :
    after.effort < before.effort := by
  cases step with
  | start point =>
      refine Effort.lt_of_first ?_
      simp [point, Worker.start, Worker.enter, Point.phase, Phase.rank]
  | leave point arrived | «break» point arrived | crash point arrived | read point arrived
  | refuse point arrived | ask point arrived =>
      have read := Stream.unread_receive? intact.reads arrived
      refine Effort.lt_of_first ?_
      simp [point, Worker.close, Worker.finish, Worker.enter, Point.phase, Phase.rank, Stream.drop,
        Stream.unread] at read ⊢ <;> omega
  | take point | wait point | wake point | expire point | conclude point | sent point =>
      simp only [Worker.effort, point]
      exact Effort.lt_of_second (by simp [Point.rank])
  | flush point flushed =>
      cases Stream.flush?_ok flushed
      simp only [Worker.effort, point]
      exact Effort.lt_of_second (by simp [Point.rank])
  | @send _ count _ point filled written =>
      obtain ⟨taken, rfl⟩ := Stream.write?_ok filled written
      simp only [Worker.effort, point]
      refine Effort.lt_of_rest ?_
      have some_taken : count ≠ 0 := fun nothing => taken (by rw [nothing, List.take_zero])
      have some_left := List.length_pos_iff.mpr filled
      simp only [Point.unsent, List.length_drop]
      omega
  | sendFails point filled written =>
      cases Stream.write?_error written
      refine Effort.lt_of_first ?_
      simp [point, Worker.close, Worker.enter, Point.phase, Phase.rank]
  | flushFails point flushed =>
      cases Stream.flush?_error flushed
      refine Effort.lt_of_first ?_
      simp [point, Worker.close, Worker.enter, Point.phase, Phase.rank]
  | shut point =>
      refine Effort.lt_of_first ?_
      simp [point, Worker.finish, Worker.enter, Point.phase, Phase.rank, Stream.drop, Stream.unread]

theorem Table.sum_put_lt {κ α μ : Type} [DecidableEq κ] [AddCommMonoid μ] [PartialOrder μ]
    [IsOrderedCancelAddMonoid μ] {effort : α → μ} {key : κ} {value old : α} {table : Table κ α}
    (found : find? key table = some old) (less : effort value < effort old) :
    ((put key value table).map fun entry => effort entry.2).sum <
      (table.map fun entry => effort entry.2).sum := by
  induction table with
  | nil => cases found
  | cons entry table ih =>
      obtain ⟨other, last⟩ := entry
      by_cases same : other = key
      · simp only [find?, same, if_pos, Option.some.injEq] at found
        subst found
        simp only [put, same, if_pos, List.map_cons, List.sum_cons]
        exact add_lt_add_left less _
      · simp only [find?, if_neg same] at found
        simp only [put, if_neg same, List.map_cons, List.sum_cons]
        exact add_lt_add_right (ih found) _

namespace World

variable {world next : World} {key : Key}

def effort (world : World) : Effort := (world.tasks.map fun entry => entry.2.effort).sum

theorem runCall_rank {call : Call} (ran : world.runCall key call = some next) :
    ∃ point, next.tasks = Table.put key (.call { call with point }) world.tasks ∧
      point.rank < call.point.rank := by
  simp only [runCall] at ran
  cases point : call.point with
  | fresh =>
      simp only [point] at ran
      split at ran <;> (cases ran; exact ⟨_, rfl, by simp [CallPoint.rank]⟩)
  | requesting =>
      simp only [point] at ran
      cases ran
      refine ⟨_, rfl, ?_⟩
      split <;> simp [CallPoint.rank]
  | waiting =>
      simp only [point] at ran
      split at ran
      · cases ran
        exact ⟨_, rfl, by simp [CallPoint.rank]⟩
      · split at ran
        · cases ran
          exact ⟨_, rfl, by simp [CallPoint.rank]⟩
        · cases ran
  | holding =>
      simp only [point] at ran
      cases ran
      exact ⟨_, rfl, by simp [CallPoint.rank]⟩
  | finished answer =>
      simp only [point] at ran
      cases ran

theorem effort_run (intact : ∀ key worker, world.worker? key = some worker → worker.Intact)
    (ran : world.run key = some next) : next.effort < world.effort := by
  simp only [run] at ran
  split at ran
  · rename_i worker found
    obtain ⟨after, told, step, put, _⟩ := runWorker_step ran
    have present : world.worker? key = some worker := by simp [worker?, found]
    rw [effort, put]
    exact Table.sum_put_lt found (step.effort (intact key worker present))
  · rename_i call found
    obtain ⟨point, put, less⟩ := runCall_rank ran
    rw [effort, put]
    exact Table.sum_put_lt found (Effort.lt_of_second less)
  · cases ran

theorem canRun_of_not_quiet (busy : world.isQuiet = false) :
    ∃ key, (world.step (.run key)).isSome = true := by
  simp only [isQuiet, List.all_eq_false, Bool.not_eq_true, Bool.not_eq_false'] at busy
  obtain ⟨key, _, goes⟩ := busy
  exact ⟨key, goes⟩

theorem late_of_quiet {waits : List Wait} (held : world.view.InLine waits)
    (quiet : world.isQuiet = true) {waiter : Waiter} (queued : waiter ∈ world.lock.queue) :
    world.clock < waiter.deadline := by
  obtain ⟨wait, inLine, _, rfl⟩ := held.line.mem_queue.mp queued
  have stuck := run_of_quiet quiet wait.key
  rcases held.waiter wait inLine with waiting | holding
  · by_contra passed
    -- The keys in the queue are distinct, so it is this wait that has expired.
    have expired : world.hasExpired wait.key = true := by
      obtain ⟨other, found⟩ : ∃ other, world.lock.queue.find? (·.key == wait.key) = some other := by
        refine Option.isSome_iff_exists.mp (List.find?_isSome.mpr ⟨_, queued, ?_⟩)
        simp [Wait.waiter]
      have same : other.key = wait.key := by simpa using List.find?_some found
      obtain ⟨twin, member, _, rfl⟩ := held.line.mem_queue.mp (List.mem_of_find?_eq_some found)
      cases List.inj_on_of_nodup_map held.distinct member inLine same
      simp only [hasExpired, Lock.deadline?, found, Option.map_some, decide_eq_true_eq]
      exact Nat.not_lt.mp passed
    have goes := (run_waiting waiting).mpr (Or.inr expired)
    simp [stuck] at goes
  · have goes := run_ready (Or.inr holding)
    simp [stuck] at goes

theorem elapse_of_quiet {waits : List Wait} (held : world.view.InLine waits)
    (quiet : world.isQuiet = true)
    (early : ∀ drain, world.drain = some drain → world.clock < drain.nextLook) :
    (world.step (.elapse 1)).isSome = true := by
  have inTime : ∀ due, world.nextDue? = some due → world.clock + 1 ≤ due := by
    intro due next
    obtain ⟨listed, _⟩ := List.min?_eq_some_iff.mp next
    rcases List.mem_append.mp listed with waits | looks
    · obtain ⟨waiter, queued, rfl⟩ :=
        List.mem_map.mp (List.min?_eq_some_iff.mp (Option.mem_toList.mp waits)).1
      exact late_of_quiet held quiet queued
    · obtain ⟨drain, draining, rfl⟩ := Option.map_eq_some_iff.mp (Option.mem_toList.mp looks)
      exact early drain draining
  simp only [step, elapse, quiet, Bool.true_and]
  cases next : world.nextDue? with
  | none => rfl
  | some due => simp [inTime due next]

end World

/-- What happens by itself: tasks have turns, time passes, and a drain looks at its workers. -/
def Action.isOwn : Action → Prop
  | .run _ | .look => True
  | .elapse span => 0 < span
  | _ => False

namespace World

variable {world : World}

theorem goes_on {waits : List Wait} {drain : Drain} (held : world.view.InLine waits)
    (draining : world.drain = some drain) (inTime : world.clock ≤ drain.nextLook) :
    ∃ action, action.isOwn ∧ (world.step action).isSome = true := by
  cases quiet : world.isQuiet with
  | false =>
      obtain ⟨key, goes⟩ := canRun_of_not_quiet quiet
      exact ⟨.run key, trivial, goes⟩
  | true =>
      rcases Nat.lt_or_eq_of_le inTime with early | due
      · refine ⟨.elapse 1, Nat.one_pos, elapse_of_quiet held quiet ?_⟩
        rintro _ same
        cases draining.symm.trans same
        exact early
      · refine ⟨.look, trivial, ?_⟩
        simp only [step, look, draining, due]
        split
        · contradiction
        · split <;> rfl

end World

end CommandLog
