import CommandLog.Proofs.Worker.Account
import CommandLog.Proofs.World.Sessions

/-!
What each session has done to its connection in a run, and what has been reported of it. The account of
every session is kept by every step, whoever takes it.
-/

namespace CommandLog

namespace Passage

def deeds (key : Key) (passage : Passage) : List Deed :=
  match passage.action, passage.before.worker? key, passage.after.worker? key with
  | .run other, some before, some after =>
      if other = key then before.deeds passage.before.memory after else []
  | _, _, _ => []

def events (passage : Passage) : List Event :=
  passage.after.journal.drop passage.before.journal.length

variable {world next : World} {action : Action} {key : Key} {before after : Worker}

theorem deeds_of_idle (idle : action ≠ .run key) : deeds key ⟨world, action, next⟩ = [] := by
  simp only [deeds]
  split
  · rename_i other _ _
    split
    · rename_i same
      exact absurd (congrArg Action.run same) idle
    · rfl
  · rfl

theorem deeds_of_run (found : world.worker? key = some before) (left : next.worker? key = some after) :
    deeds key ⟨world, .run key, next⟩ = before.deeds world.memory after := by
  simp only [deeds, found, left, if_pos]

theorem events_eq {told : List Event} (reported : next.journal = world.journal ++ told) :
    events ⟨world, action, next⟩ = told := by
  simp only [events, reported, List.drop_left]

end Passage

def deeds (key : Key) (past : List Passage) : List Deed := past.flatMap (Passage.deeds key)

theorem deeds_concat (key : Key) (past : List Passage) (passage : Passage) :
    deeds key (past ++ [passage]) = deeds key past ++ passage.deeds key := by
  simp [deeds]

theorem deeds_append (key : Key) (past later : List Passage) :
    deeds key (past ++ later) = deeds key past ++ deeds key later :=
  List.flatMap_append

theorem deeds_eq_nil {start : World} {key : Key} {actions : List Action}
    (idle : .run key ∉ actions) : deeds key (start.passages actions) = [] := by
  refine List.flatMap_eq_nil_iff.mpr fun passage member => Passage.deeds_of_idle fun runs => idle ?_
  rw [← runs]
  exact World.action_of_mem_passages member

def World.Accounts (past : List Passage) (world : World) (key : Key) : Prop :=
  match world.worker? key with
  | none => deeds key past = []
  | some worker => worker.Account (deeds key past)

namespace World

variable {world next final : World} {action : Action} {actions : List Action} {key : Key}
variable {past : List Passage} {worker : Worker}

theorem Accounts.of_some (accounts : world.Accounts past key)
    (found : world.worker? key = some worker) : worker.Account (deeds key past) := by
  simpa only [Accounts, found] using accounts

theorem changes_keep {change : Stream → Stream} (changes : action.change? key = some change)
    (stream : Stream) :
    (change stream).output = stream.output ∧ (change stream).flushes = stream.flushes ∧
      (change stream).isDropped = stream.isDropped := by
  cases Action.changes_of_change? changes with
  | arrive =>
      simp only [Stream.arrive]
      split <;> exact ⟨rfl, rfl, rfl⟩
  | setWrite | setFlush | setShutdown => exact ⟨rfl, rfl, rfl⟩

theorem Fates.deeds_induction (motive : List Deed → Option Worker → Prop)
    (fates : world.Fates action key next) (held : motive (deeds key past) (world.worker? key))
    (new : ∀ identity origin readBuffer, motive (deeds key past) none →
      motive (deeds key past) (some (Worker.create identity origin readBuffer)))
    (change : ∀ worker change, action.change? key = some change →
      motive (deeds key past) (some worker) →
      motive (deeds key past) (some { worker with stream := change worker.stream }))
    (run : ∀ before after told, action = .run key → world.worker? key = some before →
      next.worker? key = some after → Worker.Step world before after told →
      motive (deeds key past) (some before) →
      motive (deeds key past ++ before.deeds world.memory after) (some after))
    (abort : ∀ worker, action = .look → world.worker? key = some worker → worker.isEnded = false →
      motive (deeds key past) (some worker) →
      motive (deeds key past) (some (worker.finish .aborted)))
    (discard : ∀ worker, world.worker? key = some worker → worker.point = .fresh →
      motive (deeds key past) (some worker) →
      motive (deeds key past) (some (worker.finish .discarded))) :
    motive (deeds key (past ++ [⟨world, action, next⟩])) (next.worker? key) := by
  unfold Fates at fates
  rw [deeds_concat]
  generalize left : next.worker? key = last at fates
  generalize found : world.worker? key = first at fates
  rw [found] at held
  have idle (other : action ≠ .run key) :
      deeds key past ++ Passage.deeds key ⟨world, action, next⟩ = deeds key past := by
    rw [Passage.deeds_of_idle other, List.append_nil]
  cases fates with
  | same absent =>
      by_cases runs : action = .run key
      · cases absent runs
        subst runs
        simpa [Passage.deeds, found] using held
      · rwa [idle runs]
  | new other _ =>
      rw [idle other]
      exact new _ _ _ held
  | change changes =>
      have other : action ≠ .run key := by
        rintro rfl
        cases changes
      rw [idle other]
      exact change _ _ changes held
  | run runs step =>
      subst runs
      rw [Passage.deeds_of_run found left]
      exact run _ _ _ rfl found left step held
  | abort looks going =>
      subst looks
      rw [idle fun same => by cases same]
      exact abort _ rfl found going held
  | discard discards _ fresh =>
      subst discards
      rw [idle fun same => by cases same]
      exact discard _ found fresh held

theorem Fates.accounts (fates : world.Fates action key next) (accounts : world.Accounts past key) :
    next.Accounts (past ++ [⟨world, action, next⟩]) key := by
  refine fates.deeds_induction (fun past found => match found with
    | none => past = []
    | some worker => worker.Account past) accounts ?_ ?_ ?_ ?_ ?_
  · intro identity origin readBuffer nothing
    rw [show deeds key past = [] from nothing]
    exact Worker.account_create identity origin readBuffer
  · intro worker change changes account
    obtain ⟨output, flushed, _⟩ := changes_keep changes worker.stream
    exact Worker.Account.change account output flushed
  · intro before after told _ _ _ step account
    exact step.account account
  · intro worker _ _ going account
    exact Worker.Account.aborted account going
  · intro worker _ fresh account
    exact Worker.Account.discarded account fresh

theorem accounts_run {log : Log} {lockTimeout : Duration} {readBuffer : Nat}
    (launches : ∀ action, action ∈ actions → action.LaunchesNew)
    (ran : (initial log lockTimeout readBuffer).steps actions = some final) (key : Key) :
    final.Accounts ((initial log lockTimeout readBuffer).passages actions) key := by
  refine passages_induction (fun past world => world.Accounts past key) rfl ?_ ran
  intro early action late world next split _ accounts stepped
  have member : action ∈ actions := split ▸ List.mem_append_right early List.mem_cons_self
  exact (step_fate (launches action member) stepped key).accounts accounts

end World

/-- A session has begun to send `bytes`: the log's reply to its command, or nothing for a command that
is reported to have failed. -/
inductive Replies (world : World) (worker : Worker) (told : List Event) (bytes : Bytes) : Prop
  | answered {command cursor} : worker.point = .holding command →
      (world.log.exchange world.memory worker.cursor command).answer = .ok ⟨bytes, cursor⟩ →
      Replies world worker told bytes
  | failed {error} : bytes = [] → .commandFailed worker.identity error ∈ told →
      Replies world worker told bytes

namespace Worker

variable {world : World} {before after : Worker} {told : List Event}

theorem Step.replies {bytes : Bytes} (step : Step world before after told)
    (apart : ∀ rest, before.point ≠ .sending rest) (begun : after.point = .sending bytes) :
    Replies world before told bytes := by
  cases step with
  | refuse point arrived filled fed complete unready =>
      cases begun
      exact .failed rfl List.mem_concat_self
  | expire point =>
      cases begun
      exact .failed rfl List.mem_cons_self
  | @conclude command point =>
      cases begun
      simp only [Log.shown]
      cases answered : (world.log.exchange world.memory before.cursor command).answer with
      | error error => exact .failed rfl (List.mem_append_right _ List.mem_cons_self)
      | ok reply => exact .answered point answered
  | read point | send point | sendFails point | sent point =>
      exact absurd (by first | exact begun | exact point) (apart _)
  | _ => cases begun

theorem not_closed_of_fed {outcome : Except LogError Feed} {identity : Identity} {count : Nat}
    (worker : Worker) : .closed identity count ∉ worker.fedEvents outcome := by
  cases outcome with
  | error error => simp [fedEvents]
  | ok feed =>
      cases feed with
      | incomplete => simp [fedEvents]
      | complete text dropped =>
          simp only [fedEvents]
          split <;> simp

theorem Step.closed {identity : Identity} {count : Nat} (step : Step world before after told)
    (reported : .closed identity count ∈ told) :
    identity = before.identity ∧ count = before.exchanges := by
  cases step with
  | leave =>
      split at reported <;> simp at reported
  | read => exact absurd reported (not_closed_of_fed before)
  | refuse =>
      rcases List.mem_append.mp reported with fed | refused
      · exact absurd fed (not_closed_of_fed before)
      · simp at refused
  | ask => exact absurd reported (not_closed_of_fed before)
  | conclude =>
      rcases List.mem_append.mp reported with left | concluded
      · simp [Event.ofDisplaced] at left
      · simp only [Worker.conclude] at concluded
        split at concluded
        · simp [Worker.refuse] at concluded
        · split at concluded <;> simp at concluded
  | shut point shut failed =>
      rcases List.mem_append.mp reported with ends | returned
      · rcases List.mem_append.mp ends with other | here
        · obtain ⟨cause, same⟩ := failed _ other
          cases same
        · simpa using here
      · simp only [returnEvents] at returned
        split at returned <;> simp at returned
  | _ => simp at reported

theorem Step.closes {result : Except SessionFailure Unit} (step : Step world before after told)
    (closing : before.point = .closing result) :
    .closed before.identity before.exchanges ∈ told ∧ after.point = .ended (.returned result) := by
  cases step with
  | shut point =>
      rw [closing] at point
      cases point
      exact ⟨by simp, rfl⟩
  | start point | leave point | «break» point | crash point | read point | refuse point | ask point
  | take point | wait point | wake point | expire point | conclude point | send point
  | sendFails point | sent point | flush point | flushFails point =>
      rw [closing] at point
      cases point

end Worker

end CommandLog
