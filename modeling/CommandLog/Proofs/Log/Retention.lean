import CommandLog.Log.Basic
import CommandLog.Proofs.Ring.Contents

/-!
Which entries a log keeps. A log that is reached from an empty one by appends holds a list of
entries, and that list is the last `capacity` of all that were appended.
-/

namespace CommandLog

namespace Log

/-- The logs that there can be: an empty one, and what an append makes of another. -/
inductive Reachable : Log → Prop
  | fresh {capacity : Nat} {log : Log} : ofCapacity capacity = .ok log → Reachable log
  | append {log : Log} (entry : Bytes) : Reachable log → Reachable (log.append entry).1

theorem eq_empty_of_ofCapacity {capacity : Nat} {log : Log}
    (built : ofCapacity capacity = .ok log) : 0 < capacity ∧ log = Ring.empty capacity := by
  simp only [ofCapacity] at built
  split at built
  · cases built
  · cases built
    exact ⟨by omega, rfl⟩

theorem ofCapacity_eq_ok {capacity : Nat} (positive : 0 < capacity) :
    ofCapacity capacity = .ok (Ring.empty capacity) := by
  simp [ofCapacity, Nat.ne_of_gt positive]

theorem Reachable.holds {log : Log} (reached : log.Reachable) : log.Holds log.toList := by
  have held : ∃ entries, log.Holds entries := by
    induction reached with
    | fresh built =>
        obtain ⟨positive, rfl⟩ := eq_empty_of_ofCapacity built
        exact ⟨[], Ring.holds_empty positive⟩
    | append entry _ ih =>
        obtain ⟨entries, holds⟩ := ih
        exact ⟨_, (holds.append entry).1⟩
  obtain ⟨entries, holds⟩ := held
  rwa [holds.toList_eq]

theorem Reachable.toList_append {log : Log} (reached : log.Reachable) (entry : Bytes) :
    (log.append entry).1.toList = (log.toList ++ [entry]).rtake log.capacity :=
  (reached.holds.append entry).1.toList_eq

theorem Reachable.appendAll {log : Log} (reached : log.Reachable) (entries : List Bytes) :
    Reachable (log.appendAll entries).1 := by
  induction entries generalizing log with
  | nil => exact reached
  | cons entry entries ih => exact ih (reached.append entry)

theorem totalBytes_eq_sum (log : Log) : log.totalBytes = (log.toList.map List.length).sum := by
  rw [← length_content, content, List.length_flatten]

/-- A new log refines a list of which the last `capacity` entries are kept. Whatever is appended, no
entry is lost, doubled or moved: those that had to leave, and behind them those that are kept, are
all of them. -/
theorem appendAll_keeps_last (capacity : Nat) (positive : 0 < capacity) (entries : List Bytes) :
    ∃ fresh : Log, ofCapacity capacity = .ok fresh ∧
      let (log, displaced) := fresh.appendAll entries
      let kept := entries.rtake capacity
      displaced ++ log.toList = entries ∧
      (∀ entry, entries.length < capacity → (log.append entry).2 = none) ∧
      (∀ entry, capacity ≤ entries.length →
        ∃ oldest, log.get? 0 = some oldest ∧ (log.append entry).2 = some oldest) ∧
      log.count = min entries.length capacity ∧
      (log.full = true ↔ capacity ≤ entries.length) ∧
      (log.isEmpty = true ↔ entries.length = 0) ∧
      totalBytes log = (kept.map List.length).sum ∧
      (∀ index, index < log.count → ∃ entry, kept[index]? = some entry ∧ log.get? index = some entry) ∧
      (∀ index, log.count ≤ index → log.get? index = none) := by
  refine ⟨Ring.empty capacity, ofCapacity_eq_ok positive, ?_⟩
  obtain ⟨holds, nothingLost⟩ := (Ring.holds_empty positive).appendAll entries
  rw [Ring.capacity_empty, List.nil_append] at holds nothingLost
  have sameCapacity : ((Ring.empty capacity : Log).appendAll entries).1.capacity = capacity := by
    rw [Ring.capacity_appendAll, Ring.capacity_empty]
  have counted := Ring.length_rtake capacity entries
  generalize (Ring.empty capacity : Log).appendAll entries = result at *
  obtain ⟨log, displaced⟩ := result
  simp only at holds nothingLost sameCapacity ⊢
  refine ⟨by rw [holds.toList_eq, nothingLost], ?_, ?_, ?_, ?_, ?_, ?_, ?_, ?_⟩
  · intro entry room
    rw [(holds.append entry).2.1, if_pos (by omega)]
  · intro entry filled
    have full : ¬ (entries.rtake capacity).length < log.capacity := by omega
    rw [(holds.append entry).2.1, if_neg full, holds.get?_eq, List.head?_eq_getElem?]
    have some_left : 0 < (entries.rtake capacity).length := by omega
    exact ⟨_, List.getElem?_eq_getElem some_left, List.getElem?_eq_getElem some_left⟩
  · rw [holds.count_eq, counted]
  · rw [holds.full_iff, counted]
    omega
  · rw [holds.isEmpty_iff, ← List.length_eq_zero_iff, counted]
    omega
  · rw [totalBytes_eq_sum, holds.toList_eq]
  · intro index bound
    rw [holds.count_eq] at bound
    exact ⟨_, List.getElem?_eq_getElem bound, by rw [holds.get?_eq, List.getElem?_eq_getElem bound]⟩
  · intro index bound
    rw [holds.count_eq] at bound
    rw [holds.get?_eq, List.getElem?_eq_none bound]

theorem appendAll_keeps_last_two :
    0 < 2 ∧ ∃ fresh : Log, ofCapacity 2 = .ok fresh ∧
      let (log, displaced) := fresh.appendAll [[97, 10], [], [98, 99, 10]]
      displaced ++ log.toList = [[97, 10], [], [98, 99, 10]] ∧ log.count = 2 ∧ totalBytes log = 3 := by
  refine ⟨by decide, ?_⟩
  obtain ⟨fresh, built, facts⟩ :=
    appendAll_keeps_last 2 (by decide) [[97, 10], [], [98, 99, 10]]
  exact ⟨fresh, built, facts.1, facts.2.2.2.1, facts.2.2.2.2.2.2.1⟩

end Log

end CommandLog
