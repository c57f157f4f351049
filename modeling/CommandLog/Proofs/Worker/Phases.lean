import CommandLog.Proofs.Worker.Account

/-!
The phase of a session tells where its worker stands. It only goes forward: a worker that is not
stopped goes through all the phases, and one that is stopped goes to the last of them at once.
-/

namespace CommandLog

def Point.phase : Point → Phase
  | .fresh => .accepted
  | .receiving | .requesting _ | .waiting _ | .holding _ | .sending _ | .flushing => .processing
  | .closing _ => .closing
  | .ended _ => .done

namespace Worker

structure Published (worker : Worker) : Prop where
  phase : worker.session.phase = worker.point.phase
  dropped : worker.stream.isDropped = worker.isEnded

variable {world : World} {worker before after : Worker} {told : List Event} {past : List Deed}

theorem isEnded_eq_phase (worker : Worker) : worker.isEnded = (worker.point.phase == .done) := by
  simp only [isEnded]
  cases worker.point <;> rfl

theorem Published.isComplete (published : worker.Published) :
    worker.session.isComplete = worker.isEnded := by
  rw [Session.isComplete, published.phase, isEnded_eq_phase]

theorem isEnded_iff_ending : worker.isEnded = true ↔ ∃ ending, worker.point = .ended ending := by
  simp only [isEnded]
  cases worker.point <;> simp

theorem published_create (identity : Identity) (origin : Origin) (readBuffer : Nat) :
    (create identity origin readBuffer).Published := ⟨rfl, rfl⟩

theorem published_finish (worker : Worker) (ending : Ending) : (worker.finish ending).Published :=
  ⟨rfl, rfl⟩

theorem Published.goesOn (published : before.Published)
    (processing : before.point.phase = .processing) (session : after.session = before.session)
    (dropped : after.stream.isDropped = before.stream.isDropped)
    (stays : after.point.phase = .processing) : after.Published := by
  refine ⟨?_, ?_⟩
  · rw [session, published.phase, processing, stays]
  · rw [dropped, published.dropped, isEnded_eq_phase, isEnded_eq_phase, processing, stays]

theorem Published.closes (published : before.Published)
    (processing : before.point.phase = .processing) (stream : Stream)
    (dropped : stream.isDropped = before.stream.isDropped) (result : Except SessionFailure Unit) :
    (({ before with stream } : Worker).close result).Published := by
  refine ⟨rfl, ?_⟩
  show stream.isDropped = _
  rw [dropped, published.dropped, isEnded_eq_phase, processing]
  rfl

theorem Step.published (step : Step world before after told) (published : before.Published) :
    after.Published := by
  cases step with
  | start point =>
      refine ⟨rfl, ?_⟩
      show before.stream.isDropped = _
      rw [published.dropped, isEnded_eq_phase, point]
      rfl
  | leave point arrived | «break» point arrived =>
      obtain ⟨incoming, rfl⟩ := Stream.receive?_eq arrived
      exact published.closes (by rw [point, Point.phase]) { before.stream with incoming } rfl _
  | crash point arrived | shut point shut => exact published_finish _ _
  | read point arrived =>
      obtain ⟨incoming, rfl⟩ := Stream.receive?_eq arrived
      exact published.goesOn (by rw [point, Point.phase]) rfl rfl (by rw [point, Point.phase])
  | refuse point arrived | ask point arrived =>
      obtain ⟨incoming, rfl⟩ := Stream.receive?_eq arrived
      exact published.goesOn (by rw [point, Point.phase]) rfl rfl rfl
  | take point | wait point | wake point | expire point | conclude point | sent point =>
      exact published.goesOn (by rw [point, Point.phase]) rfl rfl rfl
  | send point filled written =>
      obtain ⟨_, rfl⟩ := Stream.write?_ok filled written
      exact published.goesOn (by rw [point, Point.phase]) rfl rfl rfl
  | sendFails point filled written =>
      cases Stream.write?_error written
      exact published.closes (by rw [point, Point.phase]) _ rfl _
  | flush point flushed =>
      cases Stream.flush?_ok flushed
      exact published.goesOn (by rw [point, Point.phase]) rfl rfl rfl
  | flushFails point flushed =>
      cases Stream.flush?_error flushed
      exact published.closes (by rw [point, Point.phase]) _ rfl _

end Worker

/-- How a step can change the phase of the session `key`, which has done `past` after it. -/
inductive Shift (action : Action) (key : Key) (past : List Deed) (before after : Worker) : Prop
  | stays : after.session.phase = before.session.phase → Shift action key past before after
  | begins : action = .run key → before.session.phase = .accepted →
      after.session.phase = .processing → Shift action key past before after
  | closes {result} : action = .run key → before.session.phase = .processing →
      after.session.phase = .closing → after.point = .closing result → Closes past result →
      Shift action key past before after
  | returns {result} : action = .run key → before.session.phase = .closing →
      after.session.phase = .done → before.point = .closing result →
      after.point = .ended (.returned result) → Shift action key past before after
  | panics {early memory} : action = .run key → before.session.phase = .processing →
      after.session.phase = .done → after.point = .ended .panicked →
      past = early ++ [.reads memory .crash] → Shift action key past before after
  | aborted : action = .look → before.session.phase ≠ .done → after.session.phase = .done →
      after.point = .ended .aborted → Shift action key past before after
  | discarded : action = .discard key → before.session.phase = .accepted →
      after.session.phase = .done → after.point = .ended .discarded →
      Shift action key past before after

theorem Shift.rank_le {action : Action} {key : Key} {past : List Deed} {before after : Worker}
    (shift : Shift action key past before after) :
    before.session.phase.rank ≤ after.session.phase.rank := by
  cases shift with
  | stays same => exact Nat.le_of_eq (congrArg Phase.rank same.symm)
  | begins _ first next | closes _ first next | returns _ first next | panics _ first next
  | discarded _ first next => simp [first, next, Phase.rank]
  | aborted _ going last =>
      rw [last]
      cases before.session.phase <;> simp [Phase.rank]

namespace Worker

variable {world : World} {before after : Worker} {told : List Event} {past : List Deed} {key : Key}

theorem Step.shift (step : Step world before after told) (published : before.Published)
    (account : before.Account past) :
    Shift (.run key) key (past ++ before.deeds world.memory after) before after := by
  have stands := (step.account account).stands
  have phase := published.phase
  cases step with
  | start point => exact .begins rfl (by rw [phase, point, Point.phase]) rfl
  | leave point | «break» point | sendFails point | flushFails point =>
      exact .closes rfl (by rw [phase, point, Point.phase]) rfl rfl stands
  | crash point arrived =>
      have processing : before.session.phase = .processing := by rw [phase, point, Point.phase]
      obtain ⟨early, line, memory, _, done⟩ := stands
      exact .panics rfl processing rfl rfl done
  | shut point => exact .returns rfl (by rw [phase, point, Point.phase]) rfl point rfl
  | _ => exact .stays rfl

theorem Step.closing (step : Step world before after told)
    (closing : Phase.closing.rank ≤ before.point.phase.rank) :
    before.deeds world.memory after = [] ∧ after.stream.output = before.stream.output ∧
      after.point.phase = .done := by
  cases step with
  | shut point shut =>
      obtain ⟨isShutDown, rfl⟩ := Stream.shutDown?_eq shut
      exact ⟨deeds_apart (by simp [point]) (by simp [performs, point]), rfl, rfl⟩
  | start point | leave point | «break» point | crash point | read point | refuse point | ask point
  | take point | wait point | wake point | expire point | conclude point | send point
  | sendFails point | sent point | flush point | flushFails point =>
      simp [point, Point.phase, Phase.rank] at closing

end Worker

end CommandLog
