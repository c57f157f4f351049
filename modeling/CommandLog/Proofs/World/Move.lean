import CommandLog.Proofs.World.View

/-!
All that a step of the world can do at the log. Every step but a change of the memory is one of these
moves of the view, and the facts seen of the step are those of the move; what concerns the log only is
proved of the moves.
-/

namespace CommandLog

/-- What a client is shown of its command: a failure is answered with nothing and leaves the cursor. -/
def Log.shown (memory : Memory) (log : Log) (cursor : Nat) (command : Command) : Reply :=
  match (log.exchange memory cursor command).answer with
  | .ok reply => reply
  | .error _ => ⟨[], cursor⟩

def Action.StartsAnew : Action → Prop
  | .launch _ worker => worker.cursor = 0
  | _ => True

namespace View

def stop (view : View) (key : Key) : View :=
  if view.standing key = .gone then view
  else (view.put key .gone).withLock (view.lock.withdraw key)

inductive Serves (view : View) (key : Key) : Request → Gain → Log → (Key → Nat) → Prop
  | session {command : Command} :
      Serves view key (.exchange command (view.cursor key))
        (.reply (view.log.shown view.memory (view.cursor key) command).bytes
          (view.log.shown view.memory (view.cursor key) command).cursor)
        (view.log.exchange view.memory (view.cursor key) command).log
        (Function.update view.cursor key
          (view.log.shown view.memory (view.cursor key) command).cursor)
  | call {request : Request} :
      Serves view key request (.answer (view.log.serve view.memory request).answer)
        (view.log.serve view.memory request).log view.cursor

inductive Move : View → List Fact → View → Prop
  | stay {view} : Move view [] view
  | leave {view key} : view.standing key = .idle → Move view [] (view.put key .gone)
  | ask {view key request} : view.standing key = .idle → request.prepare view.memory = .ok () →
      Move view [.asks key request] (view.put key (.requesting request))
  | take {view key request} : view.standing key = .requesting request → view.lock.holder = none →
      Move view []
        ((view.put key (.holding request)).withLock ⟨some (.task key), view.lock.queue⟩)
  | wait {view key request holder} : view.standing key = .requesting request →
      view.lock.holder = some holder →
      Move view [.waits key request]
        ((view.put key (.waiting request)).withLock ⟨view.lock.holder,
          view.lock.queue ++ [⟨key, view.clock + view.lockTimeout.nanoseconds⟩]⟩)
  | wake {view key request} : view.standing key = .waiting request →
      view.lock.holder = some (.task key) →
      Move view [] (view.put key (.holding request))
  | expire {view key request waiter} : view.standing key = .waiting request →
      view.lock.holder ≠ some (.task key) → waiter ∈ view.lock.queue → waiter.key = key →
      waiter.deadline ≤ view.clock →
      Move view [.expires key request]
        ((view.put key .idle).withLock (view.lock.withdraw key))
  | turn {view key request gain log cursor} : view.standing key = .holding request →
      Serves view key request gain log cursor →
      Move view [.turn ⟨key, request, gain, log.toList⟩]
        { (view.put key .idle).withLock view.lock.release with log, cursor }
  | stop {view} (keys : List Key) : (∀ key, key ∈ keys → view.standing key ≠ .gone) →
      Move view [.stops keys] (keys.foldl View.stop view)
  | hold {view} : view.lock.holder = none →
      Move view [.seized] (view.withLock ⟨some .outsider, view.lock.queue⟩)
  | release {view} : view.lock.holder = some .outsider →
      Move view [] (view.withLock view.lock.release)
  | pass {view} (span : Nat) :
      (∀ key request, view.standing key ≠ .requesting request) →
      (∀ key request, view.standing key ≠ .holding request) →
      (∀ key request, view.standing key = .waiting request →
        view.lock.holder ≠ some (.task key)) →
      (∀ waiter, waiter ∈ view.lock.queue → view.clock + span ≤ waiter.deadline) →
      Move view [] { view with clock := view.clock + span }

variable (view : View)

theorem standing_put (key : Key) (standing : Standing) (other : Key) :
    (view.put key standing).standing other = if other = key then standing else view.standing other :=
  Function.update_apply view.standing key standing other

@[simp] theorem standing_put_same (key : Key) (standing : Standing) :
    (view.put key standing).standing key = standing := by
  simp [standing_put]

theorem standing_put_other {key other : Key} (standing : Standing) (apart : other ≠ key) :
    (view.put key standing).standing other = view.standing other := by
  simp [standing_put, apart]

@[simp] theorem lock_withLock (lock : Lock) : (view.withLock lock).lock = lock := rfl

@[simp] theorem standing_withLock (lock : Lock) :
    (view.withLock lock).standing = view.standing := rfl

end View

inductive Standing.Step (key : Key) : Standing → List Fact → Standing → Prop
  | apart {standing facts} : (∀ fact, fact ∈ facts → fact.concerns key = false) →
      Step key standing facts standing
  | leave : Step key .idle [] .gone
  | ask {request} : Step key .idle [.asks key request] (.requesting request)
  | take {request} : Step key (.requesting request) [] (.holding request)
  | wait {request} : Step key (.requesting request) [.waits key request] (.waiting request)
  | wake {request} : Step key (.waiting request) [] (.holding request)
  | expire {request} : Step key (.waiting request) [.expires key request] .idle
  | turn {request gain kept} :
      Step key (.holding request) [.turn ⟨key, request, gain, kept⟩] .idle
  | stop {standing keys} : standing ≠ .gone → key ∈ keys → Step key standing [.stops keys] .gone

namespace View

theorem standing_stop (view : View) (key other : Key) :
    (view.stop key).standing other = if other = key then .gone else view.standing other := by
  simp only [stop]
  split
  · rename_i gone
    split
    · rename_i same
      rw [same, gone]
    · rfl
  · exact standing_put view key .gone other

theorem stop_all_keeps (view : View) (keys : List Key) :
    (keys.foldl View.stop view).log = view.log ∧
      (keys.foldl View.stop view).cursor = view.cursor ∧
      (keys.foldl View.stop view).memory = view.memory ∧
      (keys.foldl View.stop view).lockTimeout = view.lockTimeout ∧
      (keys.foldl View.stop view).clock = view.clock := by
  induction keys generalizing view with
  | nil => exact ⟨rfl, rfl, rfl, rfl, rfl⟩
  | cons key keys ih =>
      obtain ⟨log, cursor, memory, lockTimeout, clock⟩ := ih (view.stop key)
      rw [List.foldl_cons, log, cursor, memory, lockTimeout, clock]
      simp only [stop]
      split <;> exact ⟨rfl, rfl, rfl, rfl, rfl⟩

theorem standing_stop_all (view : View) (keys : List Key) (other : Key) :
    (keys.foldl View.stop view).standing other =
      if other ∈ keys then .gone else view.standing other := by
  induction keys generalizing view with
  | nil => simp
  | cons key keys ih =>
      rw [List.foldl_cons, ih, standing_stop]
      by_cases same : other = key
      · simp [same]
      · simp [same]

theorem step_put (view : View) {key other : Key} (standing : Standing) {facts : List Fact}
    (mine : key = other → Standing.Step key (view.standing key) facts standing)
    (others : key ≠ other → ∀ fact, fact ∈ facts → fact.concerns key = false) :
    Standing.Step key (view.standing key) facts ((view.put other standing).standing key) := by
  by_cases same : key = other
  · rw [same, standing_put_same, ← same]
    exact mine same
  · rw [standing_put_other view standing same]
    exact .apart (others same)

theorem Move.standing {view next : View} {facts : List Fact} (move : Move view facts next)
    (key : Key) : Standing.Step key (view.standing key) facts (next.standing key) := by
  have nothing (fact : Fact) (member : fact ∈ []) : fact.concerns key = false := by
    cases member
  cases move with
  | stay => exact .apart nothing
  | leave stood =>
      refine step_put view .gone ?_ fun _ => nothing
      rintro rfl
      rw [stood]
      exact .leave
  | ask stood prepared =>
      refine step_put view _ ?_ ?_
      · rintro rfl
        rw [stood]
        exact .ask
      · intro away fact member
        rw [List.mem_singleton.mp member]
        simpa [Fact.concerns] using away
  | take stood free =>
      refine step_put view _ ?_ fun _ => nothing
      rintro rfl
      rw [stood]
      exact .take
  | wait stood taken =>
      refine step_put view _ ?_ ?_
      · rintro rfl
        rw [stood]
        exact .wait
      · intro away fact member
        rw [List.mem_singleton.mp member]
        simpa [Fact.concerns] using away
  | wake stood mine =>
      refine step_put view _ ?_ fun _ => nothing
      rintro rfl
      rw [stood]
      exact .wake
  | expire stood apart queued same late =>
      refine step_put view _ ?_ ?_
      · rintro rfl
        rw [stood]
        exact .expire
      · intro away fact member
        rw [List.mem_singleton.mp member]
        simpa [Fact.concerns] using away
  | turn stood serves =>
      refine step_put view _ ?_ ?_
      · rintro rfl
        rw [stood]
        exact .turn
      · intro away fact member
        rw [List.mem_singleton.mp member]
        simpa [Fact.concerns] using away
  | stop keys going =>
      rw [standing_stop_all]
      split
      · rename_i stopped
        exact .stop (going key stopped) stopped
      · rename_i spared
        apply Standing.Step.apart
        intro fact member
        rw [List.mem_singleton.mp member]
        simpa [Fact.concerns] using spared
  | hold free =>
      apply Standing.Step.apart
      intro fact member
      rw [List.mem_singleton.mp member]
      rfl
  | release outsider => exact .apart nothing
  | pass span quiet noHolding noHanded inTime => exact .apart nothing

end View

end CommandLog
