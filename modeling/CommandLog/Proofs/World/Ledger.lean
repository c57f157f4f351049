import CommandLog.Proofs.Lock.Line
import CommandLog.Proofs.World.Move

/-!
The record of a run tells who waits for the log, and in which order; at every moment the lock and the
tasks agree with it.
-/

namespace CommandLog

def Fact.ends (key : Key) : Fact → Bool
  | .turn taken => key == taken.key
  | .expires other _ => key == other
  | .stops keys => keys.contains key
  | .asks _ _ | .waits _ _ | .seized | .released => false

/-- All waits that have begun, those of them that have ended with a turn, in the order of the turns, and
those that have not ended. -/
structure Ledger where
  begun : List Wait := []
  granted : List Wait := []
  waiting : List Wait := []

def Ledger.enter (ledger : Ledger) (moment : Moment) : Ledger :=
  match moment.fact with
  | .waits key request =>
      { ledger with
        begun := ledger.begun ++ [⟨key, request, moment.clock⟩]
        waiting := ledger.waiting ++ [⟨key, request, moment.clock⟩] }
  | .turn taken =>
      { ledger with
        granted := ledger.granted ++ ledger.waiting.filter fun wait => wait.key == taken.key
        waiting := ledger.waiting.filter fun wait => wait.key != taken.key }
  | fact => { ledger with waiting := ledger.waiting.filter fun wait => !fact.ends wait.key }

def ledger (past : List Moment) : Ledger := past.foldl Ledger.enter {}

def Standing.engaged : Standing → Bool
  | .waiting _ | .holding _ => true
  | .idle | .requesting _ | .gone => false

theorem Standing.engaged_iff {standing : Standing} : standing.engaged = true ↔
    ∃ request, standing = .waiting request ∨ standing = .holding request := by
  cases standing <;> simp [engaged]

theorem View.standing_of_put {view : View} {key other : Key} {standing : Standing}
    (after : standing.engaged = false)
    (engaged : ((view.put key standing).standing other).engaged = true) :
    other ≠ key ∧ view.standing other = (view.put key standing).standing other := by
  have apart : other ≠ key := by
    intro same
    rw [same, standing_put_same, after] at engaged
    cases engaged
  exact ⟨apart, (standing_put_other view standing apart).symm⟩

/-- The tasks and the lock agree that just these wait, in this order. -/
structure View.InLine (view : View) (waits : List Wait) : Prop where
  line : view.lock.Line view.lockTimeout.nanoseconds waits
  distinct : (waits.map Wait.key).Nodup
  due : ∀ wait, wait ∈ waits → view.clock ≤ wait.since + view.lockTimeout.nanoseconds
  waiter : ∀ wait, wait ∈ waits →
    view.standing wait.key = .waiting wait.request ∨ view.standing wait.key = .holding wait.request
  waiting : ∀ key request, view.standing key = .waiting request → ∃ wait, wait ∈ waits ∧ wait.key = key
  holding : ∀ key request, view.standing key = .holding request → view.lock.holder = some (.task key)
  holder : ∀ key, view.lock.holder = some (.task key) → (view.standing key).engaged = true

namespace View.InLine

variable {view next : View} {waits : List Wait} {key : Key} {request : Request} {facts : List Fact}

theorem engaged (held : view.InLine waits) {wait : Wait} (member : wait ∈ waits) :
    (view.standing wait.key).engaged = true :=
  Standing.engaged_iff.mpr ⟨wait.request, held.waiter wait member⟩

theorem free_of_not_engaged (held : view.InLine waits) (free : (view.standing key).engaged = false) :
    view.lock.holder ≠ some (.task key) ∧ ∀ wait, wait ∈ waits → wait.key ≠ key := by
  constructor
  · intro mine
    rw [held.holder key mine] at free
    cases free
  · intro wait member same
    rw [← same, held.engaged member] at free
    cases free

theorem of_eq (held : view.InLine waits) (lock : next.lock = view.lock)
    (lockTimeout : next.lockTimeout = view.lockTimeout) (clock : next.clock = view.clock)
    (standing : next.standing = view.standing) : next.InLine waits := by
  constructor
  · rw [lock, lockTimeout]
    exact held.line
  · exact held.distinct
  · rw [clock, lockTimeout]
    exact held.due
  · rw [standing]
    exact held.waiter
  · rw [standing]
    exact held.waiting
  · rw [standing, lock]
    exact held.holding
  · rw [standing, lock]
    exact held.holder

theorem put (held : view.InLine waits) {standing : Standing}
    (before : (view.standing key).engaged = false) (after : standing.engaged = false) :
    (view.put key standing).InLine waits := by
  obtain ⟨notHolder, notWaiting⟩ := held.free_of_not_engaged before
  constructor
  · exact held.line
  · exact held.distinct
  · exact held.due
  · intro wait member
    rw [standing_put_other view standing (notWaiting wait member)]
    exact held.waiter wait member
  · intro other request stood
    have engaged := Standing.engaged_iff.mpr ⟨request, Or.inl stood⟩
    exact held.waiting other request ((standing_of_put after engaged).2.trans stood)
  · intro other request stood
    have engaged := Standing.engaged_iff.mpr ⟨request, Or.inr stood⟩
    exact held.holding other request ((standing_of_put after engaged).2.trans stood)
  · intro other mine
    have apart : other ≠ key := fun same => notHolder (same ▸ mine)
    rw [standing_put_other view standing apart]
    exact held.holder other mine

theorem withdraw (held : view.InLine waits) {standing : Standing} (key : Key)
    (after : standing.engaged = false) :
    ((view.put key standing).withLock (view.lock.withdraw key)).InLine
      (waits.filter fun wait => wait.key != key) := by
  have stays {wait : Wait} (member : wait ∈ waits.filter fun wait => wait.key != key) :
      wait ∈ waits ∧ wait.key ≠ key := by
    simpa using List.mem_filter.mp member
  constructor
  · exact held.line.withdraw held.distinct key
  · exact held.distinct.sublist (List.filter_sublist.map _)
  · intro wait member
    exact held.due wait (stays member).1
  · intro wait member
    obtain ⟨inLine, apart⟩ := stays member
    rw [standing_withLock, standing_put_other view standing apart]
    exact held.waiter wait inLine
  · intro other request stood
    have engaged := Standing.engaged_iff.mpr ⟨request, Or.inl stood⟩
    obtain ⟨apart, same⟩ := standing_of_put after engaged
    obtain ⟨wait, member, rfl⟩ := held.waiting other request (same.trans stood)
    exact ⟨wait, List.mem_filter.mpr ⟨member, by simpa using apart⟩, rfl⟩
  · intro other request stood
    have engaged := Standing.engaged_iff.mpr ⟨request, Or.inr stood⟩
    obtain ⟨apart, same⟩ := standing_of_put after engaged
    have mine := held.holding other request (same.trans stood)
    have notMine : view.lock.holder ≠ some (.task key) := by
      rw [mine]
      simpa using apart
    rw [lock_withLock, Lock.withdraw_other notMine]
    exact mine
  · intro other handed
    rw [lock_withLock] at handed
    by_cases mine : view.lock.holder = some (.task key)
    · -- A new holder comes out of the queue, so it is one that waits.
      rw [Lock.withdraw_holder mine] at handed
      obtain ⟨waiter, member, rfl⟩ := Lock.mem_of_holder_release handed
      obtain ⟨queued, away⟩ := List.mem_filter.mp member
      obtain ⟨wait, inLine, _, rfl⟩ := held.line.mem_queue.mp queued
      have apart : wait.key ≠ key := by simpa [Wait.waiter] using away
      rw [standing_withLock, Wait.waiter, standing_put_other view standing apart]
      exact held.engaged inLine
    · rw [Lock.withdraw_other mine] at handed
      have apart : other ≠ key := fun same => mine (same ▸ handed)
      rw [standing_withLock, standing_put_other view standing apart]
      exact held.holder other handed

theorem take (held : view.InLine waits) (free : view.lock.holder = none) (request : Request) :
    ((view.put key (.holding request)).withLock
      ⟨some (.task key), view.lock.queue⟩).InLine waits := by
  have nobody : waits = [] := held.line.free free
  have notHolding (other : Key) (request : Request) : view.standing other ≠ .holding request := by
    intro stood
    have mine := held.holding other request stood
    rw [free] at mine
    cases mine
  subst nobody
  constructor
  · rw [held.line.queue_nil free]
    exact Lock.line_nil _
  · exact held.distinct
  · exact held.due
  · intro wait member
    cases member
  · intro other asked stood
    simp only [standing_withLock, standing_put] at stood
    split at stood
    · cases stood
    · exact held.waiting other asked stood
  · intro other asked stood
    simp only [standing_withLock, standing_put] at stood
    split at stood
    · rename_i same
      rw [same]
      rfl
    · exact absurd stood (notHolding other asked)
  · intro other mine
    simp only [lock_withLock, Option.some.injEq, Holder.task.injEq] at mine
    simp [← mine, Standing.engaged]

theorem join (held : view.InLine waits) {holder : Holder} (taken : view.lock.holder = some holder)
    (stood : view.standing key = .requesting request) :
    ((view.put key (.waiting request)).withLock ⟨view.lock.holder,
      view.lock.queue ++ [⟨key, view.clock + view.lockTimeout.nanoseconds⟩]⟩).InLine
      (waits ++ [⟨key, request, view.clock⟩]) := by
  have free : (view.standing key).engaged = false := by rw [stood, Standing.engaged]
  obtain ⟨notHolder, notWaiting⟩ := held.free_of_not_engaged free
  constructor
  · exact held.line.join taken notHolder request view.clock
  · simp only [List.map_append, List.map_cons, List.map_nil]
    refine List.nodup_append.mpr ⟨held.distinct, by simp, ?_⟩
    intro other inLine last new
    obtain ⟨wait, member, rfl⟩ := List.mem_map.mp inLine
    rw [List.mem_singleton.mp new]
    exact notWaiting wait member
  · intro wait member
    rcases List.mem_append.mp member with older | newest
    · exact held.due wait older
    · rw [List.mem_singleton.mp newest]
      exact Nat.le_add_right _ _
  · intro wait member
    rcases List.mem_append.mp member with older | newest
    · rw [standing_withLock, standing_put_other view _ (notWaiting wait older)]
      exact held.waiter wait older
    · rw [List.mem_singleton.mp newest]
      exact Or.inl (standing_put_same view key (.waiting request))
  · intro other asked stood
    simp only [standing_withLock, standing_put] at stood
    split at stood
    · rename_i same
      exact ⟨_, List.mem_append_right _ List.mem_cons_self, same.symm⟩
    · obtain ⟨wait, member, same⟩ := held.waiting other asked stood
      exact ⟨wait, List.mem_append_left _ member, same⟩
  · intro other asked stood
    simp only [standing_withLock, standing_put] at stood
    split at stood
    · cases stood
    · exact held.holding other asked stood
  · intro other mine
    have apart : other ≠ key := fun same => notHolder (same ▸ mine)
    rw [standing_withLock, standing_put_other view (.waiting request) apart]
    exact held.holder other mine

theorem wake (held : view.InLine waits) (stood : view.standing key = .waiting request)
    (mine : view.lock.holder = some (.task key)) :
    (view.put key (.holding request)).InLine waits := by
  constructor
  · exact held.line
  · exact held.distinct
  · exact held.due
  · intro wait member
    by_cases same : wait.key = key
    · rw [same, standing_put_same]
      rcases held.waiter wait member with waits | holds
      · rw [same, stood] at waits
        cases waits
        exact Or.inr rfl
      · rw [same, stood] at holds
        cases holds
    · rw [standing_put_other view _ same]
      exact held.waiter wait member
  · intro other asked stands
    simp only [standing_put] at stands
    split at stands
    · cases stands
    · exact held.waiting other asked stands
  · intro other asked stands
    simp only [standing_put] at stands
    split at stands
    · rename_i same
      rw [same]
      exact mine
    · exact held.holding other asked stands
  · intro other holds
    by_cases same : other = key
    · rw [same, standing_put_same, Standing.engaged]
    · rw [standing_put_other view _ same]
      exact held.holder other holds

theorem stop (held : view.InLine waits) (key : Key) :
    (view.stop key).InLine (waits.filter fun wait => wait.key != key) := by
  simp only [View.stop]
  split
  · rename_i gone
    have free : (view.standing key).engaged = false := by rw [gone, Standing.engaged]
    have everyone : (waits.filter fun wait => wait.key != key) = waits := by
      apply List.filter_eq_self.mpr
      intro wait member
      simpa using (held.free_of_not_engaged free).2 wait member
    rw [everyone]
    exact held
  · exact held.withdraw key rfl

theorem stop_all (held : view.InLine waits) (keys : List Key) :
    (keys.foldl View.stop view).InLine (waits.filter fun wait => !keys.contains wait.key) := by
  induction keys generalizing view waits with
  | nil => simpa using held
  | cons key keys ih =>
      have stopped := ih (held.stop key)
      rw [List.filter_filter] at stopped
      have both : (fun wait : Wait => !(key :: keys).contains wait.key) =
          fun wait => !keys.contains wait.key && wait.key != key := by
        funext wait
        rw [List.contains_cons, Bool.not_or, Bool.and_comm]
        rfl
      rw [both]
      exact stopped

theorem hold (held : view.InLine waits) (free : view.lock.holder = none) :
    (view.withLock ⟨some .outsider, view.lock.queue⟩).InLine waits := by
  have nobody : waits = [] := held.line.free free
  subst nobody
  constructor
  · rw [held.line.queue_nil free]
    exact Lock.line_nil _
  · exact held.distinct
  · exact held.due
  · exact held.waiter
  · exact held.waiting
  · intro other request stood
    have mine := held.holding other request stood
    rw [free] at mine
    cases mine
  · intro other mine
    cases mine

theorem release (held : view.InLine waits) (outsider : view.lock.holder = some .outsider) :
    (view.withLock view.lock.release).InLine waits := by
  constructor
  · exact held.line.release_outsider outsider held.distinct
  · exact held.distinct
  · exact held.due
  · exact held.waiter
  · exact held.waiting
  · intro other request stood
    have mine := held.holding other request stood
    rw [outsider] at mine
    cases mine
  · intro other mine
    obtain ⟨waiter, queued, rfl⟩ := Lock.mem_of_holder_release mine
    obtain ⟨wait, member, _, rfl⟩ := held.line.mem_queue.mp queued
    exact held.engaged member

theorem pass (held : view.InLine waits) (span : Nat)
    (noHolding : ∀ key request, view.standing key ≠ .holding request)
    (noHanded : ∀ key request, view.standing key = .waiting request →
      view.lock.holder ≠ some (.task key))
    (inTime : ∀ waiter, waiter ∈ view.lock.queue → view.clock + span ≤ waiter.deadline) :
    { view with clock := view.clock + span }.InLine waits := by
  constructor
  · exact held.line
  · exact held.distinct
  · intro wait member
    have apart : view.lock.holder ≠ some (.task wait.key) := by
      rcases held.waiter wait member with waits | holds
      · exact noHanded wait.key wait.request waits
      · exact absurd holds (noHolding wait.key wait.request)
    exact inTime _ (held.line.mem_queue.mpr ⟨wait, member, apart, rfl⟩)
  · exact held.waiter
  · exact held.waiting
  · exact held.holding
  · exact held.holder

theorem split_waits (held : view.InLine waits) (mine : view.lock.holder = some (.task key)) :
    (waits.filter fun wait => wait.key == key) ++ (waits.filter fun wait => wait.key != key) =
      waits := by
  cases waits with
  | nil => rfl
  | cons first later =>
      have only (wait : Wait) (member : wait ∈ first :: later) (same : wait.key = key) :
          wait = first := by
        have head := held.line.first wait member (same ▸ mine)
        simpa using head.symm
      have others (wait : Wait) (member : wait ∈ later) : wait.key ≠ key := by
        intro same
        have head := only wait (List.mem_cons_of_mem _ member) same
        have fresh := (List.nodup_cons.mp held.distinct).1
        exact fresh (head ▸ List.mem_map_of_mem member)
      have nobody : (later.filter fun wait => wait.key == key) = [] := by
        apply List.filter_eq_nil_iff.mpr
        intro wait member
        simpa using others wait member
      have everyone : (later.filter fun wait => wait.key != key) = later := by
        apply List.filter_eq_self.mpr
        intro wait member
        simpa using others wait member
      by_cases same : first.key = key
      · simp [same, nobody, everyone]
      · simp [same, nobody, everyone]

end View.InLine

@[simp] theorem Ledger.enter_asks (ledger : Ledger) (clock : Nat) (key : Key) (request : Request) :
    ledger.enter ⟨clock, .asks key request⟩ = ledger := by
  simp [enter, Fact.ends]

@[simp] theorem Ledger.enter_seized (ledger : Ledger) (clock : Nat) :
    ledger.enter ⟨clock, .seized⟩ = ledger := by
  simp [enter, Fact.ends]

@[simp] theorem Ledger.enter_released (ledger : Ledger) (clock : Nat) :
    ledger.enter ⟨clock, .released⟩ = ledger := by
  simp [enter, Fact.ends]

theorem View.enter_moments (view next : View) (facts : List Fact) (ledger : Ledger) :
    (view.moments facts next).foldl Ledger.enter ledger =
      (facts.map fun fact => ⟨view.clock, fact⟩).foldl Ledger.enter ledger := by
  simp only [moments, List.map_append, List.foldl_append, Lock.facts]
  cases view.lock.holder with
  | none => rfl
  | some holder =>
      simp only
      split
      · rfl
      · simp

theorem ledger_append (past moments : List Moment) :
    ledger (past ++ moments) = moments.foldl Ledger.enter (ledger past) :=
  List.foldl_append

theorem Ledger.mem_waiting_foldl {wait : Wait} {moments : List Moment} {ledger : Ledger}
    (member : wait ∈ (moments.foldl Ledger.enter ledger).waiting) :
    wait ∈ ledger.waiting ∨ ⟨wait.since, .waits wait.key wait.request⟩ ∈ moments := by
  induction moments generalizing ledger with
  | nil => exact Or.inl member
  | cons moment moments ih =>
      obtain ⟨clock, fact⟩ := moment
      rcases ih member with entered | later
      · cases fact with
        | waits key request =>
            rcases List.mem_append.mp entered with older | newest
            · exact Or.inl older
            · rw [List.mem_singleton.mp newest]
              exact Or.inr List.mem_cons_self
        | _ => exact Or.inl (List.mem_filter.mp entered).1
      · exact Or.inr (List.mem_cons_of_mem _ later)

structure View.Agrees (view : View) (ledger : Ledger) : Prop where
  inLine : view.InLine ledger.waiting
  order : (ledger.granted ++ ledger.waiting).Sublist ledger.begun

theorem View.Move.agrees {view next : View} {facts : List Fact} {ledger : Ledger}
    (move : Move view facts next) (held : view.Agrees ledger) :
    next.Agrees ((view.moments facts next).foldl Ledger.enter ledger) := by
  rw [View.enter_moments]
  obtain ⟨inLine, order⟩ := held
  have fewer (keep : Wait → Bool) :
      (ledger.granted ++ ledger.waiting.filter keep).Sublist ledger.begun :=
    ((List.Sublist.refl _).append List.filter_sublist).trans order
  cases move with
  | stay => exact ⟨inLine, order⟩
  | leave stood =>
      refine ⟨inLine.put ?_ rfl, order⟩
      rw [stood, Standing.engaged]
  | ask stood prepared =>
      simp only [List.map_cons, List.map_nil, List.foldl_cons, List.foldl_nil, Ledger.enter_asks]
      refine ⟨inLine.put ?_ rfl, order⟩
      rw [stood, Standing.engaged]
  | take stood free => exact ⟨inLine.take free _, order⟩
  | wait stood taken =>
      refine ⟨inLine.join taken stood, ?_⟩
      simp only [List.map_cons, List.map_nil, List.foldl_cons, List.foldl_nil, Ledger.enter]
      rw [← List.append_assoc]
      exact order.append (List.Sublist.refl _)
  | wake stood mine => exact ⟨inLine.wake stood mine, order⟩
  | expire stood apart queued same late => exact ⟨inLine.withdraw _ rfl, fewer _⟩
  | @turn key request gain log cursor stood serves =>
      have mine := inLine.holding key request stood
      -- A turn is a withdrawal by the holder, as far as the others can see.
      have left : ((view.put key .idle).withLock (view.lock.withdraw key)).InLine _ :=
        inLine.withdraw key rfl
      rw [← inLine.line.release_eq mine] at left
      refine ⟨left.of_eq rfl rfl rfl rfl, ?_⟩
      simp only [List.map_cons, List.map_nil, List.foldl_cons, List.foldl_nil, Ledger.enter]
      rw [List.append_assoc, inLine.split_waits mine]
      exact order
  | stop keys going => exact ⟨inLine.stop_all keys, fewer _⟩
  | hold free =>
      simp only [List.map_cons, List.map_nil, List.foldl_cons, List.foldl_nil, Ledger.enter_seized]
      exact ⟨inLine.hold free, order⟩
  | release outsider => exact ⟨inLine.release outsider, order⟩
  | pass span quiet noHolding noHanded inTime =>
      exact ⟨inLine.pass span noHolding noHanded inTime, order⟩

end CommandLog
