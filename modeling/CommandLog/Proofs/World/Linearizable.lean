import CommandLog.Proofs.World.Turns

/-!
The log is linearizable. The turns that a run makes are one order of all that is done to the log; each
task's requests stand in it as the task made them, and each answer is that of a list of entries.
-/

namespace CommandLog

variable {view next : View} {facts : List Fact} {past : List Moment}

structure View.Unheld (past : List Moment) (view : View) : Prop where
  nobody : view.lock.holder ≠ some .outsider
  recent : ∀ wait, wait ∈ (ledger past).waiting → wait.since = view.clock
  served : 0 < view.lockTimeout.nanoseconds → ∀ clock key request, ⟨clock, .expires key request⟩ ∉ past

theorem View.Move.unheld (move : Move view facts next) (agrees : view.Agrees (ledger past))
    (unheld : view.Unheld past) (unseized : .seized ∉ facts) :
    next.Unheld (past ++ view.moments facts next) := by
  constructor
  · intro outside
    rcases move.outsider outside with before | ⟨rfl, _⟩
    · exact unheld.nobody before
    · exact unseized List.mem_cons_self
  · intro wait member
    rw [ledger_append] at member
    rcases Ledger.mem_waiting_foldl member with older | newest
    · rcases move.clock agrees.inLine with same | ⟨_, _, free⟩
      · rw [same]
        exact unheld.recent wait older
      · -- Time has gone on, so no task has the lock and no outsider has it: nobody waits.
        cases holder : view.lock.holder with
        | none =>
            rw [agrees.inLine.line.free holder] at older
            cases older
        | some holding =>
            cases holding with
            | outsider => exact absurd holder unheld.nobody
            | task key => exact absurd holder (free key)
    · obtain ⟨now, begins | released⟩ := View.mem_moments.mp newest
      · rcases move.clock agrees.inLine with same | ⟨rfl, _⟩
        · rw [same]
          exact now
        · cases begins
      · cases (Lock.mem_facts.mp released).1
  · intro positive clock key request member
    rw [move.lockTimeout] at positive
    rcases List.mem_append.mp member with older | newest
    · exact unheld.served positive clock key request older
    · obtain ⟨_, expires | released⟩ := View.mem_moments.mp newest
      · obtain ⟨_, wait, inLine, _, due⟩ := move.expire_due agrees.inLine expires
        have recent := unheld.recent wait inLine
        omega
      · cases (Lock.mem_facts.mp released).1

def served (key : Key) (taken : List Turn) : List Request :=
  (taken.filter fun turn => turn.key == key).map Turn.request

theorem ended_eq_served (key : Key)
    (lasting : ∀ clock other request, ⟨clock, .expires other request⟩ ∉ past) :
    ended key past = served key (turns past) := by
  induction past with
  | nil => rfl
  | cons moment past ih =>
      have rest := ih fun clock other request member =>
        lasting clock other request (List.mem_cons_of_mem _ member)
      obtain ⟨clock, fact⟩ := moment
      cases fact with
      | turn taken =>
          have turn : turns (⟨clock, .turn taken⟩ :: past) = taken :: turns past := rfl
          rw [turn, served, List.filter_cons]
          by_cases same : key = taken.key
          · have head : Fact.ended? key (.turn taken) = some taken.request := if_pos same
            rw [if_pos (by simp [same]), List.map_cons, ← served, ← rest, ended, picked_cons, head]
            rfl
          · have head : Fact.ended? key (.turn taken) = none := if_neg same
            rw [if_neg (by simpa using Ne.symm same), ← served, ← rest, ended, picked_cons, head]
            rfl
      | expires other request => exact absurd List.mem_cons_self (lasting clock other request)
      | _ => exact rest

namespace World

variable {world : World} {action : Action} {actions : List Action}

theorem seized_of_facts {next : World} (seized : .seized ∈ world.facts action next) :
    action = .hold := by
  cases action with
  | run key =>
      simp only [facts, runFacts] at seized
      split at seized <;> simp at seized
  | look =>
      simp only [facts, lookFacts] at seized
      split at seized <;> simp at seized
  | hold => rfl
  | _ => cases seized

theorem expires_of_facts {next : World} {key : Key} {request : Request}
    (expires : .expires key request ∈ world.facts action next) :
    action = .run key ∧ world.standing key = .waiting request ∧ next.standing key = .idle := by
  cases action with
  | run other =>
      simp only [facts, runFacts] at expires
      split at expires
      · simp at expires
      · simp at expires
      · simp at expires
      · rename_i waits idle
        cases List.mem_singleton.mp expires
        exact ⟨rfl, waits, idle⟩
      · simp at expires
  | look =>
      simp only [facts, lookFacts] at expires
      split at expires <;> simp at expires
  | hold => simp [facts] at expires
  | _ => cases expires

theorem hold_of_seized {clock : Nat} (seized : ⟨clock, .seized⟩ ∈ world.chronicle actions) :
    .hold ∈ actions := by
  induction actions generalizing world with
  | nil => cases seized
  | cons action actions ih =>
      simp only [chronicle] at seized
      split at seized
      · cases seized
      · rename_i next stepped
        rcases List.mem_append.mp seized with now | later
        · obtain ⟨_, own | released⟩ := View.mem_moments.mp now
          · rw [seized_of_facts own]
            exact List.mem_cons_self
          · cases (Lock.mem_facts.mp released).1
        · exact List.mem_cons_of_mem _ (ih later)

variable {capacity : Nat} {log : Log} {lockTimeout : Duration} {readBuffer : Nat} {final : World}

theorem kept_initial (built : Log.ofCapacity capacity = .ok log) :
    (initial log lockTimeout readBuffer).view.Kept capacity (turns []) := by
  obtain ⟨positive, rfl⟩ := Log.eq_empty_of_ofCapacity built
  refine ⟨.fresh built, Ring.capacity_empty capacity, ?_⟩
  have nothing : appended (turns []) = [] := rfl
  rw [nothing, List.rtake_nil]
  exact (Ring.holds_empty positive).toList_eq

theorem linear_run (built : Log.ofCapacity capacity = .ok log)
    (starts : ∀ action, action ∈ actions → action.StartsAnew)
    (reserves : ∀ memory, .remember memory ∉ actions)
    (ran : (initial log lockTimeout readBuffer).steps actions = some final) :
    final.view.Linear capacity (turns ((initial log lockTimeout readBuffer).chronicle actions)) := by
  have first : (initial log lockTimeout readBuffer).view.Linear capacity (turns []) := by
    refine ⟨kept_initial built, rfl, fun key => rfl, ?_⟩
    intro before turn after split
    cases before <;> cases split
  refine (run_induction (fun past view => view.Linear capacity (turns past)) starts first ?_ ?_ ran).2
  · intro past view memory member linear
    exact absurd member (reserves memory)
  · intro past view facts next agrees linear move
    exact move.linear linear

theorem course_run (starts : ∀ action, action ∈ actions → action.StartsAnew)
    (ran : (initial log lockTimeout readBuffer).steps actions = some final) (key : Key) :
    Course key ((initial log lockTimeout readBuffer).chronicle actions) (final.standing key) := by
  refine (run_induction (fun past view => Course key past (view.standing key)) starts
    (Or.inl rfl) ?_ ?_ ran).2
  · intro past view memory member course
    exact course
  · intro past view facts next agrees course move
    exact move.course key course

theorem unheld_run (starts : ∀ action, action ∈ actions → action.StartsAnew)
    (holdless : .hold ∉ actions)
    (ran : (initial log lockTimeout readBuffer).steps actions = some final) :
    final.view.Unheld ((initial log lockTimeout readBuffer).chronicle actions) := by
  have unseized (clock : Nat) :
      ⟨clock, .seized⟩ ∉ (initial log lockTimeout readBuffer).chronicle actions :=
    fun seized => holdless (hold_of_seized seized)
  refine (run_induction
    (fun past view => (∀ clock, ⟨clock, .seized⟩ ∉ past) → view.Unheld past) starts
    ?_ ?_ ?_ ran).2 unseized
  · intro _
    constructor
    · intro outside
      cases outside
    · intro wait member
      cases member
    · intro positive clock key request member
      cases member
  · intro past view memory member unheld unseized
    obtain ⟨nobody, recent, served⟩ := unheld unseized
    exact ⟨nobody, recent, served⟩
  · intro past view facts next agrees unheld move unseized
    refine move.unheld agrees (unheld ?_) ?_
    · intro clock member
      exact unseized clock (List.mem_append_left _ member)
    · intro member
      refine unseized view.clock (List.mem_append_right _ ?_)
      exact View.mem_moments.mpr ⟨rfl, Or.inl member⟩

/-- The turns at the log are one order of all that is done to it. After each of them the log keeps the
last entries that have been appended; each is answered, and moves the cursor of its session, as a list
of entries would have it; no two tasks have their turns at once. A log that is never held elsewhere
serves the requests of each task one by one, all of them, as they are made. -/
theorem turns_linearize (built : Log.ofCapacity capacity = .ok log)
    (starts : ∀ action, action ∈ actions → action.StartsAnew)
    (reserves : ∀ memory, .remember memory ∉ actions)
    (ran : (initial log lockTimeout readBuffer).steps actions = some final) :
    let taken := turns ((initial log lockTimeout readBuffer).chronicle actions)
    final.log.toList = (appended taken).rtake capacity ∧
    (∀ before turn after, taken = before ++ turn :: after →
      turn.kept = (appended (before ++ [turn])).rtake capacity ∧
      Answered turn.kept (cursorAfter turn.key before) turn.request turn.gain) ∧
    (∀ key worker, final.worker? key = some worker → worker.cursor = cursorAfter key taken) ∧
    (∀ first second request other, final.standing first = .holding request →
      final.standing second = .holding other → first = second) ∧
    (.hold ∉ actions → 0 < lockTimeout.nanoseconds → ∀ key,
      let made := asked key ((initial log lockTimeout readBuffer).chronicle actions)
      made = served key taken ++ (final.standing key).begun ∨
        final.standing key = .gone ∧ ∃ request, made = served key taken ++ [request]) := by
  have linear := linear_run built starts reserves ran
  have agrees := agrees_run starts ran
  refine ⟨linear.kept, linear.answered, ?_, ?_, ?_⟩
  · intro key worker found
    rw [← linear.cursor key]
    exact (cursor_of_find? (find?_of_worker? found)).symm
  · intro first second request other holds alsoHolds
    have one := agrees.inLine.holding first request holds
    have same := agrees.inLine.holding second other alsoHolds
    rw [one] at same
    cases same
    rfl
  · intro holdless positive key
    have lasting := (unheld_run starts holdless ran).served
    rw [lockTimeout_run starts ran] at lasting
    rw [← ended_eq_served key (lasting positive)]
    exact course_run starts ran key

/-- Two sessions write, the second while the first has the log; the first then seeks to what the second
has written, and a call writes once more. -/
def twoSessions : List Action :=
  [.spawn 0 none, .spawn 1 none, .arrive 0 (.bytes [97, 10]), .arrive 1 (.bytes [98, 10]),
    .run 0, .run 1, .run 0, .run 1, .run 0, .run 1, .run 0, .run 1, .run 1, .run 0, .run 0, .run 0,
    .arrive 0 (.bytes (Command.render [10] (.seek 1 0))), .run 0, .run 0, .run 0,
    .call 2 (.write [99, 10]), .run 2, .run 2, .run 2]

theorem turns_linearize_twoSessions :
    let start := initial (Ring.empty 2) (.ofSeconds 5) 64
    let taken := turns (start.chronicle twoSessions)
    ∃ final, Log.ofCapacity 2 = .ok (Ring.empty 2) ∧
      (∀ action, action ∈ twoSessions → action.StartsAnew) ∧
      (∀ memory, .remember memory ∉ twoSessions) ∧ start.steps twoSessions = some final ∧
      taken.map Turn.key = [0, 1, 0, 2] ∧ appended taken = [[97, 10], [98, 10], [99, 10]] ∧
      final.log.toList = (appended taken).rtake 2 ∧
      (∀ key worker, final.worker? key = some worker → worker.cursor = cursorAfter key taken) := by
  intro start taken
  have runs : (start.steps twoSessions).isSome := by decide +kernel
  obtain ⟨final, ran⟩ := Option.isSome_iff_exists.mp runs
  have starts : ∀ action, action ∈ twoSessions → action.StartsAnew := by
    simp [twoSessions, Action.StartsAnew]
  have reserves : ∀ memory, .remember memory ∉ twoSessions := by
    simp [twoSessions]
  have built : Log.ofCapacity 2 = .ok (Ring.empty 2) := rfl
  obtain ⟨kept, _, cursors, _⟩ := turns_linearize built starts reserves ran
  exact ⟨final, built, starts, reserves, ran, by decide +kernel, by decide +kernel, kept, cursors⟩

end World

end CommandLog
