import CommandLog.Proofs.Lock.Line

/-!
A lock as it would be without one of those who have a part in it. What they do at the lock does not show
there, and what the others do comes to the same as without them.
-/

namespace CommandLog

namespace Lock

variable {lock : Lock} {key other : Key} {deadline : Nat}

theorem withdraw_eq_self (apart : lock.holder ≠ some (.task key))
    (unqueued : ∀ waiter, waiter ∈ lock.queue → waiter.key ≠ key) : lock.withdraw key = lock := by
  rw [withdraw_other apart, List.filter_eq_self.mpr]
  intro waiter queued
  simpa using unqueued waiter queued

theorem queue_release_subset {waiter : Waiter} (queued : waiter ∈ lock.release.queue) :
    waiter ∈ lock.queue := by
  obtain ⟨holder, queue⟩ := lock
  cases queue with
  | nil => cases queued
  | cons first later => exact List.mem_cons_of_mem first queued

theorem withdraw_withdraw (lock : Lock) (key : Key) :
    (lock.withdraw key).withdraw key = lock.withdraw key := by
  have gone {waiter : Waiter}
      (queued : waiter ∈ lock.queue.filter fun waiter => waiter.key != key) : waiter.key ≠ key := by
    simpa using (List.mem_filter.mp queued).2
  by_cases held : lock.holder = some (.task key)
  · rw [withdraw_holder held]
    refine withdraw_eq_self (fun handed => ?_) fun waiter queued => gone (queue_release_subset queued)
    obtain ⟨waiter, queued, same⟩ := mem_of_holder_release handed
    exact gone queued same
  · rw [withdraw_other held]
    exact withdraw_eq_self held fun waiter queued => gone queued

theorem withdraw_request_same (free : lock.holder = none → lock.queue = []) :
    (lock.request key deadline).withdraw key = lock.withdraw key := by
  cases holder : lock.holder with
  | none => simp [request, withdraw, isHeldBy, release, holder, free holder]
  | some holding => simp [request, withdraw, isHeldBy, holder]

theorem withdraw_free (free : lock.holder = none) (empty : lock.queue = []) : lock.withdraw key = lock :=
  withdraw_eq_self (by rw [free]; nofun) (by simp [empty])

theorem withdraw_request_other (apart : other ≠ key) (free : lock.holder = none → lock.queue = []) :
    (lock.request other deadline).withdraw key = (lock.withdraw key).request other deadline := by
  cases holder : lock.holder with
  | none =>
      rw [withdraw_free holder (free holder)]
      refine withdraw_eq_self ?_ ?_ <;> simp [request, holder, free holder, apart]
  | some holding =>
      by_cases held : lock.holder = some (.task key)
      · -- Without its holder the lock goes to the first of the others, or is free for the one who asks.
        rw [withdraw_holder held]
        have joins : (lock.request other deadline).holder = some (.task key) := by
          rw [request, holder, ← held, holder]
        rw [withdraw_holder joins]
        cases others : lock.queue.filter fun waiter => waiter.key != key with
        | nil => simp [request, release, holder, others, apart]
        | cons first later => simp [request, release, holder, others, apart]
      · rw [withdraw_other held]
        have stays : (lock.request other deadline).holder ≠ some (.task key) := by
          simpa [request, holder] using held
        rw [withdraw_other stays]
        simp [request, holder, apart]

theorem withdraw_release_other (apart : other ≠ key) (held : lock.holder = some (.task other)) :
    lock.release.withdraw key = (lock.withdraw key).release := by
  have away : lock.holder ≠ some (.task key) := by simpa [held] using apart
  rw [withdraw_other away]
  obtain ⟨holder, queue⟩ := lock
  cases queue with
  | nil => rfl
  | cons first later =>
      by_cases own : first.key = key
      · simp [release, withdraw, isHeldBy, own]
      · simp [release, withdraw, isHeldBy, own]

theorem withdraw_comm (apart : lock.holder ≠ some (.task other)) :
    (lock.withdraw other).withdraw key = (lock.withdraw key).withdraw other := by
  have both : ((lock.queue.filter fun waiter => waiter.key != other).filter fun waiter =>
      waiter.key != key) = (lock.queue.filter fun waiter => waiter.key != key).filter fun waiter =>
        waiter.key != other := by
    simp only [List.filter_filter, Bool.and_comm]
  by_cases held : lock.holder = some (.task key)
  · have stays : (lock.withdraw other).holder = some (.task key) := by
      rw [withdraw_other apart]
      exact held
    rw [withdraw_holder stays, withdraw_holder held, withdraw_other apart]
    simp only [both]
    cases lock.queue.filter fun waiter => waiter.key != key with
    | nil => rfl
    | cons first later =>
        by_cases own : first.key = other <;> simp [release, withdraw, isHeldBy, own]
  · have stays : (lock.withdraw other).holder ≠ some (.task key) := by
      rw [withdraw_other apart]
      exact held
    have remains : (lock.withdraw key).holder ≠ some (.task other) := by
      rw [withdraw_other held]
      exact apart
    rw [withdraw_other stays, withdraw_other remains, withdraw_other apart, withdraw_other held]
    simp only [both]

theorem deadline?_withdraw (apart : other ≠ key)
    (waits : (lock.withdraw key).holder ≠ some (.task other)) :
    (lock.withdraw key).deadline? other = lock.deadline? other := by
  have rest : (lock.queue.filter fun waiter => waiter.key != key).find? (fun waiter =>
      waiter.key == other) = lock.queue.find? fun waiter => waiter.key == other := by
    rw [List.find?_filter]
    congr 1
    funext waiter
    by_cases mine : waiter.key = other <;> simp [mine, apart]
  by_cases held : lock.holder = some (.task key)
  · rw [withdraw_holder held] at waits ⊢
    rw [deadline?, deadline?, ← rest]
    cases others : lock.queue.filter fun waiter => waiter.key != key with
    | nil => simp [release]
    | cons first later =>
        have notFirst : first.key ≠ other := by simpa [release, others] using waits
        simp [release, notFirst]
  · rw [withdraw_other held, deadline?, deadline?, rest]

theorem holder_withdraw_other (apart : other ≠ key) (held : lock.holder = some (.task other)) :
    (lock.withdraw key).holder = some (.task other) := by
  rw [withdraw_other (by simpa [held] using apart)]
  exact held

theorem holder_request_of_some {holder : Holder} (held : lock.holder = some holder) :
    (lock.request key deadline).holder = some holder := by
  simp only [request, held]

theorem isHeldBy_request (apart : lock.holder ≠ some (.task key)) :
    (lock.request key deadline).isHeldBy key = lock.holder.isNone := by
  cases holder : lock.holder with
  | none => simp [request, isHeldBy, holder]
  | some holding =>
      rw [holder] at apart
      simpa [request, isHeldBy, holder] using apart

theorem mem_of_holder_withdraw (handed : (lock.withdraw key).holder = some (.task other)) :
    lock.holder = some (.task other) ∨ ∃ waiter, waiter ∈ lock.queue ∧ waiter.key = other := by
  by_cases held : lock.holder = some (.task key)
  · rw [withdraw_holder held] at handed
    obtain ⟨waiter, queued, same⟩ := mem_of_holder_release handed
    exact Or.inr ⟨waiter, List.mem_of_mem_filter queued, same⟩
  · rw [withdraw_other held] at handed
    exact Or.inl handed

end Lock

end CommandLog
