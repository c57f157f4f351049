import CommandLog.Proofs.World.Turns
import Mathlib.Data.List.Nodup

/-!
What becomes of those who wait. A wait that sees the lock given back in time ends with a turn before
time goes on; one that does not ends at its deadline, and nothing comes of it.
-/

namespace CommandLog

variable {view next : View} {facts : List Fact} {past : List Moment} {wait : Wait}

/-- No lock is given back just when the wait of somebody who waits for it is over. -/
def InTime (timeout : Nat) (past : List Moment) : Prop :=
  ∀ before clock after, past = before ++ ⟨clock, .released⟩ :: after →
    ∀ wait, wait ∈ (ledger before).waiting → wait.since + timeout ≠ clock

def inTimeFrom (timeout : Nat) (entered : Ledger) : List Moment → Bool
  | [] => true
  | moment :: moments =>
      (match moment.fact with
        | .released => entered.waiting.all fun wait => wait.since + timeout != moment.clock
        | _ => true) &&
      inTimeFrom timeout (entered.enter moment) moments

theorem inTimeFrom_iff (timeout : Nat) (entered : Ledger) (past : List Moment) :
    inTimeFrom timeout entered past = true ↔
      ∀ before clock after, past = before ++ ⟨clock, .released⟩ :: after →
        ∀ wait, wait ∈ (before.foldl Ledger.enter entered).waiting → wait.since + timeout ≠ clock := by
  induction past generalizing entered with
  | nil =>
      apply iff_of_true rfl
      intro before clock after split
      cases before <;> cases split
  | cons moment past ih =>
      obtain ⟨now, fact⟩ := moment
      rw [inTimeFrom, Bool.and_eq_true, ih]
      constructor
      · rintro ⟨first, rest⟩ before clock after split
        cases before with
        | nil =>
            obtain ⟨rfl, rfl⟩ := Moment.mk.inj (List.cons.inj split).1
            simpa using first
        | cons _ before =>
            obtain ⟨rfl, later⟩ := List.cons.inj split
            exact rest before clock after later
      · intro all
        refine ⟨?_, fun before clock after split => all (_ :: before) clock after (by rw [split]; rfl)⟩
        cases fact with
        | released => simpa using all [] now past rfl
        | _ => rfl

instance (timeout : Nat) (past : List Moment) : Decidable (InTime timeout past) :=
  decidable_of_iff _ (inTimeFrom_iff timeout {} past)

def Spares (key : Key) (moments : List Moment) : Prop :=
  ∀ moment, moment ∈ moments → moment.fact.concerns key = false

def ReleasesAt (clock : Nat) (moments : List Moment) : Prop :=
  ∀ moment, moment ∈ moments → moment.fact = .released → moment.clock = clock

/-- How a wait has ended. -/
inductive Wait.Ended (timeout : Nat) (wait : Wait) : List Moment → View → Prop
  | served {between later clock turn view} : Spares wait.key between → turn.key = wait.key →
      turn.request = wait.request → clock < wait.since + timeout →
      ⟨clock, .released⟩ ∈ between → ReleasesAt clock between →
      Ended timeout wait (between ++ ⟨clock, .turn turn⟩ :: later) view
  | expired {between later view} : Spares wait.key between →
      (∀ clock, ⟨clock, .released⟩ ∉ between) →
      (∀ moment, moment ∈ later → wait.since + timeout ≤ moment.clock) →
      wait.since + timeout ≤ view.clock →
      Ended timeout wait
        (between ++ ⟨wait.since + timeout, .expires wait.key wait.request⟩ :: later) view
  | stopped {between later clock keys view} : Spares wait.key between → wait.key ∈ keys →
      Spares wait.key later → view.standing wait.key = .gone →
      Ended timeout wait (between ++ ⟨clock, .stops keys⟩ :: later) view

/-- A wait that has not ended: the lock has not been given back since it began, or just now. -/
structure Wait.Pending (timeout : Nat) (wait : Wait) (after : List Moment) (view : View) : Prop where
  spared : Spares wait.key after
  hope : (∀ clock, ⟨clock, .released⟩ ∉ after) ∧ view.lock.holder ≠ some (.task wait.key) ∨
    (ReleasesAt view.clock after ∧ ⟨view.clock, .released⟩ ∈ after ∧
      view.lock.holder ≠ some .outsider ∧ view.clock < wait.since + timeout)

namespace View

theorem Move.released_not_mem (move : Move view facts next) : .released ∉ facts := by
  cases move <;> simp

theorem Move.clock_le (move : Move view facts next) : view.clock ≤ next.clock := by
  cases move with
  | stop keys going => exact Nat.le_of_eq (stop_all_keeps view keys).2.2.2.2.symm
  | pass span quiet noHolding noHanded inTime => exact Nat.le_add_right _ _
  | _ => exact Nat.le_refl _

end View

theorem mem_waiting_of_spared (view next : View) (member : wait ∈ (ledger past).waiting)
    (spared : ∀ fact, fact ∈ facts → fact.concerns wait.key = false) :
    wait ∈ (ledger (past ++ view.moments facts next)).waiting := by
  rw [ledger_append, View.enter_moments]
  generalize ledger past = entered at member
  induction facts generalizing entered with
  | nil => exact member
  | cons fact facts ih =>
      apply ih (fun other inFacts => spared other (List.mem_cons_of_mem _ inFacts)) _
      have untouched := spared fact List.mem_cons_self
      cases fact with
      | waits key request => exact List.mem_append_left _ member
      | asks key request => simpa using member
      | seized => simpa using member
      | released => simpa using member
      | turn taken =>
          refine List.mem_filter.mpr ⟨member, ?_⟩
          simpa [Fact.concerns] using untouched
      | expires key request =>
          refine List.mem_filter.mpr ⟨member, ?_⟩
          simpa [Fact.concerns, Fact.ends] using untouched
      | stops keys =>
          refine List.mem_filter.mpr ⟨member, ?_⟩
          simpa [Fact.concerns, Fact.ends] using untouched

theorem moments_of_taken (next : View) (facts : List Fact) (taken : view.lock.holder ≠ none) :
    next.lock.holder = view.lock.holder ∧
        view.moments facts next = facts.map (fun fact => ⟨view.clock, fact⟩) ∨
      next.lock.holder ≠ view.lock.holder ∧
        view.moments facts next =
          facts.map (fun fact => ⟨view.clock, fact⟩) ++ [⟨view.clock, .released⟩] := by
  simp only [View.moments, List.map_append, Lock.facts]
  cases holder : view.lock.holder with
  | none => exact absurd holder taken
  | some holding =>
      by_cases same : next.lock.holder = some holding
      · exact Or.inl ⟨same, by simp [same]⟩
      · exact Or.inr ⟨same, by simp [same]⟩

theorem ReleasesAt.append {clock : Nat} {first second : List Moment} (one : ReleasesAt clock first)
    (other : ReleasesAt clock second) : ReleasesAt clock (first ++ second) := by
  intro moment member
  rcases List.mem_append.mp member with inFirst | inSecond
  · exact one moment inFirst
  · exact other moment inSecond

theorem Spares.append {key : Key} {first second : List Moment} (one : Spares key first)
    (other : Spares key second) : Spares key (first ++ second) := by
  intro moment member
  rcases List.mem_append.mp member with inFirst | inSecond
  · exact one moment inFirst
  · exact other moment inSecond

theorem spares_moments {key : Key} (spared : ∀ fact, fact ∈ facts → fact.concerns key = false) :
    Spares key (view.moments facts next) := by
  intro moment member
  obtain ⟨_, own | released⟩ := View.mem_moments.mp member
  · exact spared moment.fact own
  · rw [(Lock.mem_facts.mp released).1]
    rfl

theorem Wait.Pending.stay {timeout : Nat} {after : List Moment}
    (pending : wait.Pending timeout after view) (move : View.Move view facts next)
    (agrees : view.Agrees (ledger past))
    (limit : view.lockTimeout.nanoseconds = timeout)
    (inTime : InTime timeout (past ++ view.moments facts next))
    (member : wait ∈ (ledger past).waiting)
    (spared : ∀ fact, fact ∈ facts → fact.concerns wait.key = false) :
    wait.Pending timeout (after ++ view.moments facts next) next := by
  have stays := mem_waiting_of_spared view next member spared
  have taken : view.lock.holder ≠ none := by
    intro free
    rw [agrees.inLine.line.free free] at member
    cases member
  have unreleased (clock : Nat) :
      ⟨clock, .released⟩ ∉ facts.map fun fact => (⟨view.clock, fact⟩ : Moment) := by
    intro released
    obtain ⟨fact, inFacts, same⟩ := List.mem_map.mp released
    cases same
    exact move.released_not_mem inFacts
  have silent (clock : Nat) : ReleasesAt clock (facts.map fun fact => ⟨view.clock, fact⟩) := by
    rintro ⟨_, fact⟩ released rfl
    exact absurd released (unreleased _)
  refine ⟨pending.spared.append (spares_moments spared), ?_⟩
  rcases moments_of_taken next facts taken with ⟨same, moments⟩ | ⟨changed, moments⟩
  · -- The lock stays where it is; once it has been given back, that is with a task, and time waits.
    rw [moments, same]
    rcases pending.hope with ⟨unheard, apart⟩ | ⟨now, released, inside, early⟩
    · refine Or.inl ⟨?_, apart⟩
      intro clock heard
      rcases List.mem_append.mp heard with before | after
      · exact unheard clock before
      · exact unreleased clock after
    · have still : next.clock = view.clock := by
        rcases move.clock agrees.inLine with still | ⟨_, _, free⟩
        · exact still
        · cases holder : view.lock.holder with
          | none => exact absurd holder taken
          | some holding =>
              cases holding with
              | outsider => exact absurd holder inside
              | task key => exact absurd holder (free key)
      rw [still]
      exact Or.inr ⟨now.append (silent _), List.mem_append_left _ released, inside, early⟩
  · -- The lock passes on in this very step, to one of those who wait, so it is no outsider's.
    rw [moments] at stays inTime ⊢
    have still : next.clock = view.clock := by
      rcases move.clock agrees.inLine with still | ⟨_, same, _⟩
      · exact still
      · exact absurd (congrArg Lock.holder same) changed
    have before : ReleasesAt view.clock after := by
      rcases pending.hope with ⟨unheard, _⟩ | ⟨now, _⟩
      · rintro ⟨clock, fact⟩ heard rfl
        exact absurd heard (unheard clock)
      · exact now
    have last : ReleasesAt view.clock [⟨view.clock, .released⟩] := by
      intro moment only _
      rw [List.mem_singleton.mp only]
    have due := agrees.inLine.due wait member
    have apart : wait.since + timeout ≠ view.clock := by
      refine inTime (past ++ facts.map fun fact => ⟨view.clock, fact⟩) view.clock [] ?_ wait ?_
      · rw [List.append_assoc]
      · rw [← List.append_assoc, ledger_append] at stays
        simpa using stays
    rw [still]
    refine Or.inr ⟨before.append ((silent _).append last), ?_, ?_, ?_⟩
    · exact List.mem_append_right _ (List.mem_append_right _ List.mem_cons_self)
    · intro outside
      rcases move.outsider outside with before | ⟨_, free⟩
      · exact changed (outside.trans before.symm)
      · exact taken free
    · omega

theorem View.moments_cons (view next : View) (fact : Fact) : view.moments [fact] next =
    ⟨view.clock, fact⟩ :: (view.lock.facts next.lock).map fun fact => ⟨view.clock, fact⟩ := rfl

theorem spares_released (key : Key) (view next : View) :
    Spares key ((view.lock.facts next.lock).map fun fact => ⟨view.clock, fact⟩) := by
  intro moment member
  obtain ⟨fact, released, rfl⟩ := List.mem_map.mp member
  rw [(Lock.mem_facts.mp released).1]
  rfl

theorem Wait.Pending.step {timeout : Nat} {after : List Moment}
    (pending : wait.Pending timeout after view) (move : View.Move view facts next)
    (agrees : view.Agrees (ledger past)) (limit : view.lockTimeout.nanoseconds = timeout)
    (inTime : InTime timeout (past ++ view.moments facts next))
    (member : wait ∈ (ledger past).waiting) :
    wait ∈ (ledger (past ++ view.moments facts next)).waiting ∧
        wait.Pending timeout (after ++ view.moments facts next) next ∨
      wait.Ended timeout (after ++ view.moments facts next) next := by
  have goesOn (spared : ∀ fact, fact ∈ facts → fact.concerns wait.key = false) :=
    And.intro (mem_waiting_of_spared view next member spared)
      (pending.stay move agrees limit inTime member spared)
  have stood := agrees.inLine.waiter wait member
  have step := move.standing wait.key
  have clock_le := move.clock_le
  generalize before : view.standing wait.key = standing at step stood
  generalize later : next.standing wait.key = standing' at step
  cases step with
  | apart others => exact Or.inl (goesOn others)
  | wake => exact Or.inl (goesOn fun fact inFacts => by cases inFacts)
  | @expire request =>
      have same : request = wait.request := by
        rcases stood with waits | holds
        · exact (Standing.waiting.injEq _ _ ▸ waits)
        · cases holds
      subst same
      obtain ⟨apart, other, inLine, sameKey, due⟩ :=
        move.expire_due agrees.inLine List.mem_cons_self
      -- Nobody gives up after the lock has been given back, because that was before the deadline.
      have one : other = wait :=
        List.inj_on_of_nodup_map agrees.inLine.distinct inLine member sameKey
      subst one
      rw [limit] at due
      rcases pending.hope with ⟨unheard, _⟩ | ⟨_, _, _, early⟩
      · rw [View.moments_cons, due]
        refine Or.inr (.expired pending.spared unheard ?_ (due ▸ clock_le))
        intro moment rest
        obtain ⟨fact, _, rfl⟩ := List.mem_map.mp rest
        exact Nat.le_refl _
      · omega
  | @turn request gain kept =>
      have same : request = wait.request := by
        rcases stood with waits | holds
        · cases waits
        · exact (Standing.holding.injEq _ _ ▸ holds)
      have mine := agrees.inLine.holding wait.key request before
      -- A waiting task comes to hold the lock only by being handed it.
      rcases pending.hope with ⟨_, apart⟩ | ⟨now, released, _, early⟩
      · exact absurd mine apart
      · rw [View.moments_cons]
        exact Or.inr (.served pending.spared rfl same early released now)
  | stop going stopped =>
      rw [View.moments_cons]
      exact Or.inr (.stopped pending.spared stopped (spares_released _ _ _) later)
  | leave => rcases stood with waits | holds <;> contradiction
  | ask => rcases stood with waits | holds <;> contradiction
  | take => rcases stood with waits | holds <;> contradiction
  | wait => rcases stood with waits | holds <;> contradiction

theorem Wait.Ended.step {timeout : Nat} {after : List Moment}
    (ended : wait.Ended timeout after view) (move : View.Move view facts next) :
    wait.Ended timeout (after ++ view.moments facts next) next := by
  cases ended with
  | served spared mine same early released now =>
      rw [List.append_assoc, List.cons_append]
      exact .served spared mine same early released now
  | expired spared unheard late passed =>
      rw [List.append_assoc, List.cons_append]
      refine .expired spared unheard ?_ (Nat.le_trans passed move.clock_le)
      intro moment member
      rcases List.mem_append.mp member with before | now
      · exact late moment before
      · rw [(View.mem_moments.mp now).1]
        exact passed
  | stopped spared stopped spares gone =>
      have step := move.standing wait.key
      rw [gone] at step
      obtain ⟨stays, others⟩ := step.of_gone
      rw [List.append_assoc, List.cons_append]
      exact .stopped spared stopped (spares.append (spares_moments others)) stays

theorem InTime.of_append {timeout : Nat} {moments : List Moment}
    (inTime : InTime timeout (past ++ moments)) : InTime timeout past := by
  intro before clock after split
  apply inTime before clock (after ++ moments)
  rw [split, List.append_assoc, List.cons_append]

theorem View.Move.begins {key : Key} {request : Request} (move : View.Move view facts next)
    (member : .waits key request ∈ facts) : view.standing key = .requesting request ∧
      facts = [.waits key request] ∧ next.lock.holder = view.lock.holder := by
  cases move with
  | wait stood taken =>
      cases List.mem_singleton.mp member
      exact ⟨stood, rfl, rfl⟩
  | _ => simp at member

theorem split_moments {start after : List Moment} {clock : Nat} {fact other : Fact}
    (split : view.moments [fact] next = start ++ ⟨clock, other⟩ :: after) (own : other ≠ .released) :
    start = [] ∧ other = fact ∧ clock = view.clock := by
  rw [View.moments_cons] at split
  cases start with
  | nil =>
      cases (List.cons.inj split).1
      exact ⟨rfl, rfl, rfl⟩
  | cons first start =>
      have member : (⟨clock, other⟩ : Moment) ∈
          (view.lock.facts next.lock).map fun fact => ⟨view.clock, fact⟩ := by
        rw [(List.cons.inj split).2]
        exact List.mem_append_right _ List.mem_cons_self
      obtain ⟨fact, released, same⟩ := List.mem_map.mp member
      cases same
      exact absurd (Lock.mem_facts.mp released).1 own

def Followed (timeout : Nat) (past : List Moment) (view : View) : Prop :=
  ∀ before after (wait : Wait), past = before ++ ⟨wait.since, .waits wait.key wait.request⟩ :: after →
    wait ∈ (ledger past).waiting ∧ wait.Pending timeout after view ∨ wait.Ended timeout after view

theorem View.Move.followed {timeout : Nat} (move : View.Move view facts next)
    (agrees : view.Agrees (ledger past)) (limit : view.lockTimeout.nanoseconds = timeout)
    (inTime : InTime timeout (past ++ view.moments facts next))
    (followed : Followed timeout past view) :
    Followed timeout (past ++ view.moments facts next) next := by
  intro before after wait split
  rcases split_append split with ⟨rest, older, rfl⟩ | ⟨start, _, newest⟩
  · rcases followed before rest wait older with ⟨member, pending⟩ | ended
    · exact pending.step move agrees limit inTime member
    · exact Or.inr (ended.step move)
  · have member : ⟨wait.since, .waits wait.key wait.request⟩ ∈ view.moments facts next := by
      rw [newest]
      exact List.mem_append_right _ List.mem_cons_self
    obtain ⟨now, begins | released⟩ := View.mem_moments.mp member
    · obtain ⟨stood, rfl, same⟩ := move.begins begins
      have free : (view.standing wait.key).engaged = false := by rw [stood, Standing.engaged]
      have apart := (agrees.inLine.free_of_not_engaged free).1
      obtain ⟨rfl, _⟩ := split_moments newest (by simp)
      rw [View.moments_cons, Lock.facts_of_same same, List.map_nil, ← now] at newest ⊢
      obtain ⟨_, rfl⟩ := List.cons.inj newest
      refine Or.inl ⟨?_, ?_, Or.inl ⟨?_, ?_⟩⟩
      · rw [ledger_append]
        exact List.mem_append_right _ List.mem_cons_self
      · intro moment absent
        cases absent
      · intro clock absent
        cases absent
      · rw [same]
        exact apart
    · cases (Lock.mem_facts.mp released).1

theorem Followed.remember {timeout : Nat} (followed : Followed timeout past view)
    (memory : Memory) : Followed timeout past { view with memory } := by
  intro before after wait split
  rcases followed before after wait split with ⟨member, pending⟩ | ended
  · exact Or.inl ⟨member, pending.spared, pending.hope⟩
  · apply Or.inr
    cases ended with
    | served spared mine same early released now =>
        exact .served spared mine same early released now
    | expired spared unheard late passed => exact .expired spared unheard late passed
    | stopped spared stopped spares gone => exact .stopped spared stopped spares gone

def InOrder (past : List Moment) : Prop :=
  ∀ before clock turn after, past = before ++ ⟨clock, .turn turn⟩ :: after →
    ∀ wait, wait ∈ (ledger before).waiting → wait.key = turn.key →
      (ledger before).waiting.head? = some wait ∧ wait.request = turn.request

theorem View.Move.inOrder (move : View.Move view facts next) (agrees : view.Agrees (ledger past))
    (inOrder : InOrder past) : InOrder (past ++ view.moments facts next) := by
  intro before clock turn after split wait waits same
  rcases split_append split with ⟨rest, older, rfl⟩ | ⟨start, rfl, newest⟩
  · exact inOrder before clock turn rest older wait waits same
  · have member : ⟨clock, .turn turn⟩ ∈ view.moments facts next := by
      rw [newest]
      exact List.mem_append_right _ List.mem_cons_self
    obtain ⟨_, own | released⟩ := View.mem_moments.mp member
    · obtain ⟨_, ⟨key, request, gain, stood, rfl, _⟩ | ⟨silent, _⟩⟩ := move.turn_or_keeps
      · obtain ⟨rfl, mine, _⟩ := split_moments newest (by simp)
        cases mine
        rw [List.append_nil] at waits ⊢
        have holder := agrees.inLine.holding key request stood
        refine ⟨agrees.inLine.line.first wait waits (same ▸ holder), ?_⟩
        rcases agrees.inLine.waiter wait waits with waiting | holds
        · rw [same, stood] at waiting
          cases waiting
        · rw [same, stood] at holds
          cases holds
          rfl
      · have missing := List.filterMap_eq_nil_iff.mp silent _ own
        cases missing
    · cases (Lock.mem_facts.mp released).1

end CommandLog
