import CommandLog.Ring
import Mathlib.Data.List.DropRight
import Mathlib.Data.Nat.ModEq

/-!
What a ring holds, as the list of its values from the oldest to the newest. The list determines every
answer of the ring, and appending a value puts it behind the others and drops the oldest one when
there is no slot left: the ring refines a list of which only the last `capacity` values are kept.
-/

namespace CommandLog

namespace Ring

variable {α : Type} {ring : Ring α} {values : List α}

/-- The slots from the oldest on hold `values`, and all other slots hold nothing. -/
structure Holds (ring : Ring α) (values : List α) : Prop where
  oldest_lt : ring.oldest < ring.capacity
  length_le : values.length ≤ ring.capacity
  next_eq : ring.next = ring.wrap (ring.oldest + values.length)
  full_iff : ring.full = true ↔ values.length = ring.capacity
  slot_eq : ∀ index, index < ring.capacity →
    ring.slot (ring.wrap (ring.oldest + index)) = values[index]?

theorem wrap_add_injective (ring : Ring α) {start first second : Nat} (firstBound : first < ring.capacity)
    (secondBound : second < ring.capacity)
    (same : ring.wrap (start + first) = ring.wrap (start + second)) : first = second :=
  (Nat.ModEq.add_left_cancel' start same).eq_of_lt_of_lt firstBound secondBound

theorem wrap_lt (positive : 0 < ring.capacity) (position : Nat) :
    ring.wrap position < ring.capacity := Nat.mod_lt _ positive

theorem wrap_of_lt {position : Nat} (bound : position < ring.capacity) :
    ring.wrap position = position := Nat.mod_eq_of_lt bound

theorem wrap_add_wrap (start steps : Nat) :
    ring.wrap (ring.wrap start + steps) = ring.wrap (start + steps) := Nat.mod_add_mod _ _ _

theorem wrap_add_capacity (start : Nat) : ring.wrap (start + ring.capacity) = ring.wrap start :=
  Nat.add_mod_right _ _

@[simp] theorem capacity_empty (capacity : Nat) : (empty capacity : Ring α).capacity = capacity := by
  simp [empty, Ring.capacity]

@[simp] theorem capacity_append (ring : Ring α) (value : α) :
    (ring.append value).1.capacity = ring.capacity := by
  simp [append, capacity]

@[simp] theorem capacity_appendAll (ring : Ring α) (values : List α) :
    (ring.appendAll values).1.capacity = ring.capacity := by
  induction values generalizing ring with
  | nil => rfl
  | cons value values ih => simp [Ring.appendAll, ih]

theorem appendAll_concat (ring : Ring α) (values : List α) (value : α) :
    (ring.appendAll (values ++ [value])).1 = ((ring.appendAll values).1.append value).1 := by
  induction values generalizing ring with
  | nil => rfl
  | cons first values ih => simp only [List.cons_append, Ring.appendAll, ih]

theorem wrap_append (value : α) (position : Nat) :
    (ring.append value).1.wrap position = ring.wrap position := by
  simp [wrap]

theorem slot_append (value : α) {position : Nat} (bound : position < ring.capacity) :
    (ring.append value).1.slot position =
      if ring.next = position then some value else ring.slot position := by
  simp only [capacity] at bound
  by_cases same : ring.next = position
  · subst same
    simp [append, slot, bound]
  · simp [append, slot, same]

theorem Holds.capacity_pos (holds : ring.Holds values) : 0 < ring.capacity :=
  Nat.zero_lt_of_lt holds.oldest_lt

theorem Holds.not_full_iff (holds : ring.Holds values) :
    ring.full = false ↔ values.length < ring.capacity := by
  have fits := holds.length_le
  rw [← Bool.not_eq_true, holds.full_iff]
  omega

theorem holds_empty {capacity : Nat} (positive : 0 < capacity) :
    (empty capacity : Ring α).Holds [] where
  oldest_lt := by simpa [empty, Ring.capacity] using positive
  length_le := by simp
  next_eq := by simp [empty, wrap]
  full_iff := by
    simp only [capacity_empty, List.length_nil]
    simp only [empty, Bool.false_eq_true, false_iff]
    omega
  slot_eq := by
    intro index _
    simp only [empty, slot, Array.getElem?_replicate, List.getElem?_nil]
    split <;> rfl

theorem Holds.append_room (holds : ring.Holds values) (room : values.length < ring.capacity)
    (value : α) :
    (ring.append value).1.Holds (values ++ [value]) ∧ (ring.append value).2 = none := by
  have notFull : ring.full = false := holds.not_full_iff.mpr room
  have sameOldest : (ring.append value).1.oldest = ring.oldest := by simp [append, notFull]
  have nextWrapped : ring.wrap (ring.next + 1) = ring.wrap (ring.oldest + (values.length + 1)) := by
    rw [holds.next_eq, wrap_add_wrap, Nat.add_assoc]
  refine ⟨?_, by simp [append, notFull]⟩
  constructor
  · simpa [sameOldest] using holds.oldest_lt
  · rw [List.length_append, List.length_singleton, capacity_append]
    exact room
  · rw [wrap_append, sameOldest, List.length_append, List.length_singleton, ← nextWrapped]
    rfl
  · have filled : (ring.append value).1.full = (ring.wrap (ring.next + 1) == ring.oldest) := by
      simp [append, notFull]
    rw [filled, capacity_append, List.length_append, List.length_singleton, beq_iff_eq, nextWrapped]
    constructor
    · intro met
      by_contra short
      have back : ring.wrap (ring.oldest + (values.length + 1)) = ring.wrap (ring.oldest + 0) := by
        rw [met, Nat.add_zero, wrap_of_lt holds.oldest_lt]
      have := wrap_add_injective ring (by omega) holds.capacity_pos back
      omega
    · intro last
      rw [last, wrap_add_capacity, wrap_of_lt holds.oldest_lt]
  · intro index bound
    rw [capacity_append] at bound
    rw [wrap_append, sameOldest, slot_append value (wrap_lt holds.capacity_pos _)]
    by_cases last : index = values.length
    · subst last
      simp [holds.next_eq]
    · rw [if_neg, holds.slot_eq index bound]
      · by_cases before : index < values.length
        · rw [List.getElem?_append_left before]
        · rw [List.getElem?_eq_none (by omega), List.getElem?_eq_none (by simp; omega)]
      · intro same
        rw [holds.next_eq] at same
        exact last (wrap_add_injective ring room bound same).symm

theorem Holds.append_full {oldest : α} {later : List α} (holds : ring.Holds (oldest :: later))
    (full : (oldest :: later).length = ring.capacity) (value : α) :
    (ring.append value).1.Holds (later ++ [value]) ∧ (ring.append value).2 = some oldest := by
  have isFull : ring.full = true := holds.full_iff.mpr full
  have nextOldest : ring.next = ring.oldest := by
    rw [holds.next_eq, full, wrap_add_capacity, wrap_of_lt holds.oldest_lt]
  have newOldest : (ring.append value).1.oldest = ring.wrap (ring.oldest + 1) := by
    simp [append, isFull, nextOldest]
  have length : later.length + 1 = ring.capacity := by simpa using full
  have first : ring.slot ring.oldest = some oldest := by
    have found := holds.slot_eq 0 holds.capacity_pos
    rwa [Nat.add_zero, wrap_of_lt holds.oldest_lt, List.getElem?_cons_zero] at found
  refine ⟨?_, by simp [append, isFull, nextOldest, first]⟩
  constructor
  · rw [newOldest, capacity_append]
    exact wrap_lt holds.capacity_pos _
  · simp [length]
  · rw [wrap_append, newOldest, wrap_add_wrap, List.length_append, List.length_singleton, length,
      wrap_add_capacity]
    simp [append, nextOldest]
  · have stays : (ring.append value).1.full = true := by simp [append, isFull]
    simpa [stays] using length
  · intro index bound
    rw [capacity_append] at bound
    rw [wrap_append, newOldest, wrap_add_wrap, Nat.add_assoc, Nat.add_comm 1,
      slot_append value (wrap_lt holds.capacity_pos _), nextOldest]
    by_cases last : index = later.length
    · rw [if_pos (by rw [last, length, wrap_add_capacity, wrap_of_lt holds.oldest_lt])]
      simp [last]
    · have before : index < later.length := by omega
      rw [if_neg, holds.slot_eq (index + 1) (by omega), List.getElem?_append_left before,
        List.getElem?_cons_succ]
      intro same
      have back : ring.wrap (ring.oldest + 0) = ring.wrap (ring.oldest + (index + 1)) := by
        rw [← same, Nat.add_zero, wrap_of_lt holds.oldest_lt]
      have := wrap_add_injective ring holds.capacity_pos (by omega) back
      omega

theorem Holds.count_eq (holds : ring.Holds values) : ring.count = values.length := by
  have bound := holds.oldest_lt
  have fits := holds.length_le
  cases full : ring.full with
  | true => simp [count, full, holds.full_iff.mp full]
  | false =>
      have room : values.length < ring.capacity := holds.not_full_iff.mp full
      simp only [count, full, Bool.false_eq_true, if_false]
      rw [holds.next_eq, wrap]
      by_cases short : ring.oldest + values.length < ring.capacity
      · rw [Nat.mod_eq_of_lt short,
          show ring.oldest + values.length + ring.capacity - ring.oldest =
            values.length + ring.capacity by omega,
          Nat.add_mod_right, Nat.mod_eq_of_lt room]
      · have wrapped : (ring.oldest + values.length) % ring.capacity =
            ring.oldest + values.length - ring.capacity := by
          rw [Nat.mod_eq_sub_mod (by omega), Nat.mod_eq_of_lt (by omega)]
        rw [wrapped,
          show ring.oldest + values.length - ring.capacity + ring.capacity - ring.oldest =
            values.length by omega,
          Nat.mod_eq_of_lt room]

theorem Holds.isEmpty_iff (holds : ring.Holds values) : ring.isEmpty = true ↔ values = [] := by
  have counted := holds.count_eq
  have positive := holds.capacity_pos
  constructor
  · intro empty
    simp only [isEmpty, Bool.and_eq_true, Bool.not_eq_true', beq_iff_eq] at empty
    have none_left : ring.count = 0 := by
      simp [count, empty.1, empty.2]
    exact List.length_eq_zero_iff.mp (by omega)
  · rintro rfl
    have notFull : ring.full = false := holds.not_full_iff.mpr positive
    have met : ring.next = ring.oldest := by
      rw [holds.next_eq, List.length_nil, Nat.add_zero, wrap_of_lt holds.oldest_lt]
    simp [isEmpty, notFull, met]

theorem Holds.get?_eq (holds : ring.Holds values) (index : Nat) : ring.get? index = values[index]? := by
  rw [get?, holds.count_eq]
  by_cases bound : index < values.length
  · rw [if_pos bound, holds.slot_eq index (Nat.lt_of_lt_of_le bound holds.length_le)]
  · rw [if_neg bound, List.getElem?_eq_none (by omega)]

theorem Holds.toList_eq (holds : ring.Holds values) : ring.toList = values := by
  have answers : ring.get? = fun index => values[index]? := funext holds.get?_eq
  rw [toList, holds.count_eq, answers]
  clear holds answers
  induction values with
  | nil => rfl
  | cons first later ih =>
      rw [List.length_cons, List.range_succ_eq_map, List.filterMap_cons, List.filterMap_map]
      simpa [Function.comp_def] using ih

theorem rtake_of_length_le {count : Nat} (short : values.length ≤ count) :
    values.rtake count = values := by
  simp [List.rtake, Nat.sub_eq_zero_of_le short]

theorem rtake_append_rtake (count : Nat) (values more : List α) :
    (values.rtake count ++ more).rtake count = (values ++ more).rtake count := by
  simp only [List.rtake, List.length_append, List.length_drop, List.drop_append, List.drop_drop]
  congr 1
  · congr 1
    omega
  · congr 1
    omega

theorem length_rtake (count : Nat) (values : List α) :
    (values.rtake count).length = min values.length count := by
  simp only [List.rtake, List.length_drop]
  omega

theorem Holds.append (holds : ring.Holds values) (value : α) :
    (ring.append value).1.Holds ((values ++ [value]).rtake ring.capacity) ∧
    (ring.append value).2 = (if values.length < ring.capacity then none else values.head?) ∧
    (ring.append value).2.toList ++ (values ++ [value]).rtake ring.capacity = values ++ [value] := by
  by_cases room : values.length < ring.capacity
  · obtain ⟨kept, displaced⟩ := holds.append_room room value
    rw [rtake_of_length_le (by simp; omega), if_pos room, displaced]
    exact ⟨kept, rfl, rfl⟩
  · have full : values.length = ring.capacity := by
      have := holds.length_le
      omega
    cases values with
    | nil =>
        have := holds.capacity_pos
        simp at full
        omega
    | cons oldest later =>
        obtain ⟨kept, displaced⟩ := holds.append_full full value
        have last : (oldest :: later ++ [value]).rtake ring.capacity = later ++ [value] := by
          simp [List.rtake, ← full]
        rw [last, if_neg room, displaced]
        exact ⟨kept, rfl, rfl⟩

theorem Holds.appendAll (holds : ring.Holds values) (more : List α) :
    (ring.appendAll more).1.Holds ((values ++ more).rtake ring.capacity) ∧
    (ring.appendAll more).2 ++ (values ++ more).rtake ring.capacity = values ++ more := by
  induction more generalizing ring values with
  | nil => simpa [Ring.appendAll, rtake_of_length_le holds.length_le] using holds
  | cons value more ih =>
      obtain ⟨kept, _, nothingLost⟩ := holds.append value
      obtain ⟨keptLater, nothingLostLater⟩ := ih kept
      rw [capacity_append, rtake_append_rtake, List.append_assoc, List.singleton_append] at keptLater
      rw [capacity_append, rtake_append_rtake, List.append_assoc, List.singleton_append]
        at nothingLostLater
      refine ⟨keptLater, ?_⟩
      simp only [Ring.appendAll, List.append_assoc]
      rw [nothingLostLater, ← List.append_assoc, nothingLost, List.append_assoc,
        List.singleton_append]

end Ring

end CommandLog
