import CommandLog.Proofs.World.Ledger
import CommandLog.Proofs.World.Simulation

/-!
What holds along every run of a new world.
-/

namespace CommandLog

namespace View

variable {view next : View} {facts : List Fact} {waits : List Wait}

theorem stop_all_outsider (view : View) (keys : List Key)
    (outside : (keys.foldl View.stop view).lock.holder = some .outsider) :
    view.lock.holder = some .outsider := by
  induction keys generalizing view with
  | nil => exact outside
  | cons key keys ih =>
      have stopped := ih (view.stop key) outside
      simp only [stop] at stopped
      split at stopped
      · exact stopped
      · exact Lock.holder_withdraw_outsider stopped

theorem Move.lockTimeout (move : Move view facts next) : next.lockTimeout = view.lockTimeout := by
  cases move with
  | stop keys going => exact (stop_all_keeps view keys).2.2.2.1
  | _ => rfl

theorem Move.memory (move : Move view facts next) : next.memory = view.memory := by
  cases move with
  | stop keys going => exact (stop_all_keeps view keys).2.2.1
  | _ => rfl

theorem Move.clock (move : Move view facts next) (held : view.InLine waits) :
    next.clock = view.clock ∨
      facts = [] ∧ next.lock = view.lock ∧ ∀ key, view.lock.holder ≠ some (.task key) := by
  cases move with
  | stop keys going => exact Or.inl (stop_all_keeps view keys).2.2.2.2
  | pass span quiet noHolding noHanded inTime =>
      refine Or.inr ⟨rfl, rfl, ?_⟩
      intro key mine
      obtain ⟨request, waits | holds⟩ := Standing.engaged_iff.mp (held.holder key mine)
      · exact noHanded key request waits mine
      · exact noHolding key request holds
  | _ => exact Or.inl rfl

theorem Move.outsider (move : Move view facts next)
    (outside : next.lock.holder = some .outsider) :
    view.lock.holder = some .outsider ∨ facts = [.seized] ∧ view.lock.holder = none := by
  cases move with
  | take stood free => cases outside
  | expire stood apart queued same late => exact Or.inl (Lock.holder_withdraw_outsider outside)
  | turn stood serves => exact absurd outside Lock.holder_release_ne_outsider
  | stop keys going => exact Or.inl (stop_all_outsider view keys outside)
  | hold free => exact Or.inr ⟨rfl, free⟩
  | release outsider => exact Or.inl outsider
  | _ => exact Or.inl outside

theorem Move.expire_due (move : Move view facts next) (held : view.InLine waits) {key : Key}
    {request : Request} (member : .expires key request ∈ facts) :
    view.lock.holder ≠ some (.task key) ∧ ∃ wait, wait ∈ waits ∧ wait.key = key ∧
      view.clock = wait.since + view.lockTimeout.nanoseconds := by
  cases move with
  | @expire other asked waiter stood apart queued same late =>
      cases List.mem_singleton.mp member
      obtain ⟨wait, inLine, _, rfl⟩ := held.line.mem_queue.mp queued
      exact ⟨apart, wait, inLine, same, Nat.le_antisymm (held.due wait inLine) late⟩
  | _ => simp at member

end View

namespace World

variable {log : Log} {lockTimeout : Duration} {readBuffer : Nat} {actions : List Action}
variable {final : World}

theorem agrees_initial : (initial log lockTimeout readBuffer).view.Agrees {} := by
  refine ⟨⟨Lock.line_nil none, List.nodup_nil, ?_, ?_, ?_, ?_, ?_⟩, List.Sublist.refl _⟩
  · intro wait member
    cases member
  · intro wait member
    cases member
  · intro key request stood
    cases stood
  · intro key request stood
    cases stood
  · intro key holder
    cases holder

theorem run_induction (motive : List Moment → View → Prop)
    (starts : ∀ action, action ∈ actions → action.StartsAnew)
    (first : motive [] (initial log lockTimeout readBuffer).view)
    (remember : ∀ past view memory, .remember memory ∈ actions → motive past view →
      motive past { view with memory })
    (move : ∀ past view facts next, view.Agrees (ledger past) → motive past view →
      View.Move view facts next → motive (past ++ view.moments facts next) next)
    (ran : (initial log lockTimeout readBuffer).steps actions = some final) :
    final.view.Agrees (ledger ((initial log lockTimeout readBuffer).chronicle actions)) ∧
      motive ((initial log lockTimeout readBuffer).chronicle actions) final.view := by
  refine chronicle_induction (fun past view => view.Agrees (ledger past) ∧ motive past view) starts
    ?_ ⟨agrees_initial, first⟩ ?_ ?_ ran
  · intro past view held key request stood
    have free : (view.standing key).engaged = false := by rw [stood, Standing.engaged]
    exact (held.1.inLine.free_of_not_engaged free).1
  · intro past view memory member held
    exact ⟨⟨held.1.inLine.of_eq rfl rfl rfl rfl, held.1.order⟩, remember past view memory member held.2⟩
  · intro past view facts next held moved
    refine ⟨?_, move past view facts next held.1 held.2 moved⟩
    rw [ledger_append]
    exact moved.agrees held.1

theorem agrees_run (starts : ∀ action, action ∈ actions → action.StartsAnew)
    (ran : (initial log lockTimeout readBuffer).steps actions = some final) :
    final.view.Agrees (ledger ((initial log lockTimeout readBuffer).chronicle actions)) := by
  refine (run_induction (fun _ _ => True) starts trivial ?_ ?_ ran).1
  · intros
    trivial
  · intros
    trivial

theorem lockTimeout_run (starts : ∀ action, action ∈ actions → action.StartsAnew)
    (ran : (initial log lockTimeout readBuffer).steps actions = some final) :
    final.view.lockTimeout = lockTimeout := by
  refine (run_induction (fun _ view => view.lockTimeout = lockTimeout) starts rfl ?_ ?_ ran).2
  · intro past view memory member same
    exact same
  · intro past view facts next agrees same move
    rw [move.lockTimeout, same]

theorem memory_run (starts : ∀ action, action ∈ actions → action.StartsAnew)
    (reserves : ∀ memory, .remember memory ∉ actions)
    (ran : (initial log lockTimeout readBuffer).steps actions = some final) :
    final.memory = .unlimited := by
  refine (run_induction (fun _ view => view.memory = .unlimited) starts rfl ?_ ?_ ran).2
  · intro past view memory member same
    exact absurd member (reserves memory)
  · intro past view facts next agrees same move
    rw [move.memory, same]

theorem memory_of_mem_passages {passage : Passage}
    (starts : ∀ action, action ∈ actions → action.StartsAnew)
    (reserves : ∀ memory, .remember memory ∉ actions)
    (member : passage ∈ (initial log lockTimeout readBuffer).passages actions) :
    passage.before.memory = .unlimited := by
  obtain ⟨early, late, split⟩ := List.append_of_mem member
  obtain ⟨sooner, later, rfl, reached, _⟩ := passages_split split
  exact memory_run (fun action listed => starts action (List.mem_append_left _ listed))
    (fun memory listed => reserves memory (List.mem_append_left _ listed)) reached

theorem free_of_quiet {world : World} {waits : List Wait} (held : world.view.InLine waits)
    (quiet : world.isQuiet = true) (inside : world.lock.holder ≠ some .outsider) :
    world.lock = {} ∧ ∀ key, world.standing key = .idle ∨ world.standing key = .gone := by
  have ready (key : Key) (request : Request) : world.standing key ≠ .requesting request ∧
      world.standing key ≠ .holding request := by
    have stuck := run_of_quiet quiet key
    constructor
    · intro stood
      have goes := run_ready (Or.inl stood)
      simp [stuck] at goes
    · intro stood
      have goes := run_ready (Or.inr stood)
      simp [stuck] at goes
  have free : world.lock.holder = none := by
    cases holder : world.lock.holder with
    | none => rfl
    | some who =>
        cases who with
        | outsider => exact absurd holder inside
        | task key =>
            obtain ⟨request, waits | holds⟩ := Standing.engaged_iff.mp (held.holder key holder)
            · have goes := (run_waiting waits).mpr (Or.inl (holdsLog_iff.mpr holder))
              simp [run_of_quiet quiet key] at goes
            · exact absurd holds (ready key request).2
  refine ⟨?_, fun key => ?_⟩
  · rw [← free, ← held.line.queue_nil free]
    rfl
  · cases stood : world.standing key with
    | idle => exact Or.inl rfl
    | gone => exact Or.inr rfl
    | requesting request => exact absurd stood (ready key request).1
    | holding request => exact absurd stood (ready key request).2
    | waiting request =>
        obtain ⟨wait, member, _⟩ := held.waiting key request stood
        rw [held.line.free free] at member
        cases member

end World

end CommandLog
