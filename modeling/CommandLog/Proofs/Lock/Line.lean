import CommandLog.Lock
import CommandLog.Log.Request
import Mathlib.Data.List.Basic

/-!
Those who wait for a lock, in the order in which they began to: whoever the lock has been handed to is
the first of them, and the others are in its queue in the same order.
-/

namespace CommandLog

structure Wait where
  key : Key
  request : Request
  since : Nat
deriving DecidableEq

def Wait.waiter (timeout : Nat) (wait : Wait) : Waiter := ⟨wait.key, wait.since + timeout⟩

namespace Lock

/-- The lock serves `waits` in their order. -/
structure Line (timeout : Nat) (lock : Lock) (waits : List Wait) : Prop where
  queue : lock.queue =
    (waits.filter fun wait => lock.holder != some (.task wait.key)).map (Wait.waiter timeout)
  first : ∀ wait, wait ∈ waits → lock.holder = some (.task wait.key) → waits.head? = some wait
  free : lock.holder = none → waits = []

variable {timeout : Nat} {lock : Lock} {waits : List Wait} {key : Key}

theorem line_nil (holder : Option Holder) : Line timeout ⟨holder, []⟩ [] := by
  refine ⟨rfl, ?_, fun _ => rfl⟩
  intro wait member
  cases member

theorem Line.queue_nil (line : Line timeout lock waits) (free : lock.holder = none) :
    lock.queue = [] := by
  rw [line.queue, line.free free]
  rfl

theorem Line.mem_queue (line : Line timeout lock waits) {waiter : Waiter} :
    waiter ∈ lock.queue ↔
      ∃ wait, wait ∈ waits ∧ lock.holder ≠ some (.task wait.key) ∧ wait.waiter timeout = waiter := by
  rw [line.queue]
  simp [and_assoc]

theorem Line.join (line : Line timeout lock waits) {holder : Holder} (held : lock.holder = some holder)
    (apart : lock.holder ≠ some (.task key)) (request : Request) (clock : Nat) :
    Line timeout { lock with queue := lock.queue ++ [⟨key, clock + timeout⟩] }
      (waits ++ [⟨key, request, clock⟩]) := by
  constructor
  · have away : (lock.holder != some (.task key)) = true := by simpa using apart
    simp only [List.filter_append, List.map_append, ← line.queue, List.filter_cons, away]
    rfl
  · intro wait member mine
    rcases List.mem_append.mp member with older | newest
    · have first := line.first wait older mine
      rw [List.head?_append, first]
      rfl
    · rw [List.mem_singleton.mp newest] at mine
      exact absurd mine apart
  · intro free
    rw [held] at free
    cases free

theorem line_release (queue : lock.queue = waits.map (Wait.waiter timeout))
    (distinct : (waits.map Wait.key).Nodup) : Line timeout lock.release waits := by
  cases waits with
  | nil =>
      have released : lock.release = ⟨none, []⟩ := by
        simp [release, queue]
      rw [released]
      exact line_nil none
  | cons first later =>
      have released : lock.release =
          ⟨some (.task first.key), later.map (Wait.waiter timeout)⟩ := by
        simp [release, queue, Wait.waiter]
      rw [released]
      have others (wait : Wait) (member : wait ∈ later) : wait.key ≠ first.key := by
        intro same
        have fresh := (List.nodup_cons.mp distinct).1
        exact fresh (same ▸ List.mem_map_of_mem member)
      constructor
      · have kept : later.filter (fun wait => some (Holder.task first.key) != some (.task wait.key)) =
            later := by
          apply List.filter_eq_self.mpr
          intro wait member
          simpa using (others wait member).symm
        simp [kept]
      · intro wait member mine
        rcases List.mem_cons.mp member with same | behind
        · rw [same]
          rfl
        · simp only [Option.some.injEq, Holder.task.injEq] at mine
          exact absurd mine.symm (others wait behind)
      · intro free
        cases free

theorem filter_map_waiter (waits : List Wait) (key : Key) :
    (waits.map (Wait.waiter timeout)).filter (fun waiter => waiter.key != key) =
      (waits.filter fun wait => wait.key != key).map (Wait.waiter timeout) := by
  rw [List.filter_map]
  rfl

theorem withdraw_holder (held : lock.holder = some (.task key)) : lock.withdraw key =
    release { lock with queue := lock.queue.filter fun waiter => waiter.key != key } := by
  simp [withdraw, isHeldBy, held]

theorem withdraw_other (apart : lock.holder ≠ some (.task key)) : lock.withdraw key =
    { lock with queue := lock.queue.filter fun waiter => waiter.key != key } := by
  simp [withdraw, isHeldBy, apart]

theorem Line.withdraw (line : Line timeout lock waits) (distinct : (waits.map Wait.key).Nodup)
    (key : Key) : Line timeout (lock.withdraw key) (waits.filter fun wait => wait.key != key) := by
  have rest : ((waits.filter fun wait => wait.key != key).map Wait.key).Nodup :=
    distinct.sublist (List.filter_sublist.map _)
  by_cases held : lock.holder = some (.task key)
  · rw [withdraw_holder held]
    refine line_release ?_ rest
    have others : (fun wait : Wait => lock.holder != some (.task wait.key)) =
        fun wait : Wait => wait.key != key := by
      funext wait
      simp [held, bne, Bool.beq_comm, eq_comm]
    rw [line.queue, others, filter_map_waiter, List.filter_filter]
    simp
  · rw [withdraw_other held]
    constructor
    · simp only [line.queue, filter_map_waiter, List.filter_filter, Bool.and_comm]
    · intro wait member mine
      obtain ⟨inLine, stays⟩ := List.mem_filter.mp member
      have first := line.first wait inLine mine
      obtain ⟨later, rfl⟩ := List.head?_eq_some_iff.mp first
      rw [List.filter_cons, if_pos stays]
      rfl
    · intro free
      rw [line.free free]
      rfl

theorem Line.release_eq (line : Line timeout lock waits) (held : lock.holder = some (.task key)) :
    lock.release = lock.withdraw key := by
  have others : (lock.queue.filter fun waiter => waiter.key != key) = lock.queue := by
    apply List.filter_eq_self.mpr
    intro waiter member
    obtain ⟨wait, _, apart, rfl⟩ := line.mem_queue.mp member
    have other : key ≠ wait.key := by simpa [held] using apart
    simpa [Wait.waiter] using other.symm
  rw [withdraw_holder held, others]

theorem Line.release_outsider (line : Line timeout lock waits) (held : lock.holder = some .outsider)
    (distinct : (waits.map Wait.key).Nodup) : Line timeout lock.release waits := by
  refine line_release ?_ distinct
  have everyone : (waits.filter fun wait => lock.holder != some (.task wait.key)) = waits := by
    apply List.filter_eq_self.mpr
    intro wait member
    simp [held]
  rw [line.queue, everyone]

theorem mem_of_holder_release {other : Key} (handed : lock.release.holder = some (.task other)) :
    ∃ waiter, waiter ∈ lock.queue ∧ waiter.key = other := by
  simp only [release] at handed
  split at handed
  · cases handed
  · rename_i first later queue
    simp only [Option.some.injEq, Holder.task.injEq] at handed
    exact ⟨first, by simp [queue], handed⟩

theorem holder_release_ne_outsider : lock.release.holder ≠ some .outsider := by
  simp only [release]
  split <;> simp

theorem holder_withdraw_outsider (outside : (lock.withdraw key).holder = some .outsider) :
    lock.holder = some .outsider := by
  by_cases held : lock.holder = some (.task key)
  · rw [withdraw_holder held] at outside
    exact absurd outside holder_release_ne_outsider
  · rwa [withdraw_other held] at outside

end Lock

end CommandLog
