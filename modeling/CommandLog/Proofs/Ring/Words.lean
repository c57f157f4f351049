import CommandLog.Proofs.Ring.Representation

/-!
The operations of a ring on a machine with words of 64 bits. A sum that no word holds, a difference below
zero, a division by zero, a slot that is not there and a value where a free slot is expected are faults.
A ring that is reached by appends meets none of them: its slots are well-formed, and twice their number
still fits into a word.
-/

namespace CommandLog

inductive MachineFault where
  | overflow
  | underflow
  | divisionByZero
  | outOfBounds
  | slotTaken
deriving DecidableEq, Repr

namespace Word

def add (first second : Nat) : Except MachineFault Nat :=
  if first + second < 2 ^ 64 then .ok (first + second) else .error .overflow

def sub (whole part : Nat) : Except MachineFault Nat :=
  if part ≤ whole then .ok (whole - part) else .error .underflow

def mod (value divisor : Nat) : Except MachineFault Nat :=
  if divisor = 0 then .error .divisionByZero else .ok (value % divisor)

end Word

namespace Ring

variable {α : Type} {ring : Ring α}

def checkedSlot (ring : Ring α) (position : Nat) : Except MachineFault (Option α) :=
  match ring.slots[position]? with
  | some slot => .ok slot
  | none => .error .outOfBounds

def checkedCount (ring : Ring α) : Except MachineFault Nat :=
  if ring.full then .ok ring.capacity
  else do
    let sum ← Word.add ring.next ring.capacity
    let distance ← Word.sub sum ring.oldest
    Word.mod distance ring.capacity

def checkedGet? (ring : Ring α) (index : Nat) : Except MachineFault (Option α) := do
  let count ← ring.checkedCount
  if index < count then
    let sum ← Word.add ring.oldest index
    let position ← Word.mod sum ring.capacity
    ring.checkedSlot position
  else
    return none

def checkedDisplaced (ring : Ring α) (previous : Option α) : Except MachineFault (Option α) :=
  if ring.full then .ok previous
  else if previous.isSome then .error .slotTaken
  else .ok none

def checkedAppend (ring : Ring α) (value : α) : Except MachineFault (Ring α × Option α) := do
  let previous ← ring.checkedSlot ring.next
  let displaced ← ring.checkedDisplaced previous
  let sum ← Word.add ring.next 1
  let next ← Word.mod sum ring.capacity
  let slots := ring.slots.setIfInBounds ring.next (some value)
  if ring.full then
    return (⟨slots, next, next, true⟩, displaced)
  else
    return (⟨slots, next, ring.oldest, next == ring.oldest⟩, displaced)

structure WithinWords (ring : Ring α) : Prop where
  capacity_ne_zero : ring.capacity ≠ 0
  next_lt : ring.next < ring.slots.size
  next_free : ring.full = false → ring.slots[ring.next]? = some none
  succ_fits : ring.next + 1 < 2 ^ 64
  sum_fits : ring.next + ring.capacity < 2 ^ 64
  oldest_le : ring.oldest ≤ ring.next + ring.capacity
  index_fits : ∀ index < ring.count, ring.oldest + index < 2 ^ 64
  index_lt : ∀ index < ring.count, ring.wrap (ring.oldest + index) < ring.slots.size

theorem WellFormed.withinWords (wellFormed : ring.WellFormed) (fits : ring.capacity < 2 ^ 63) :
    ring.WithinWords := by
  have nextBound := wellFormed.next_lt
  have oldestBound := wellFormed.oldest_lt
  have counted := wellFormed.count_le
  exact
    { capacity_ne_zero := Nat.ne_of_gt wellFormed.capacity_pos
      next_lt := nextBound
      next_free := wellFormed.next_free
      succ_fits := by omega
      sum_fits := by omega
      oldest_le := by omega
      index_fits := by
        intro index inside
        omega
      index_lt := by
        intro index _
        exact wrap_lt wellFormed.capacity_pos _ }

theorem checkedSlot_eq {position : Nat} (bound : position < ring.capacity) :
    ring.checkedSlot position = .ok (ring.slot position) := by
  rw [checkedSlot, slots_getElem? bound]

namespace WithinWords

variable (within : ring.WithinWords)
include within

theorem mod_capacity (position : Nat) : Word.mod position ring.capacity = .ok (ring.wrap position) :=
  if_neg within.capacity_ne_zero

theorem checkedCount_eq : ring.checkedCount = .ok ring.count := by
  have sum : Word.add ring.next ring.capacity = .ok (ring.next + ring.capacity) := if_pos within.sum_fits
  have distance : Word.sub (ring.next + ring.capacity) ring.oldest =
      .ok (ring.next + ring.capacity - ring.oldest) := if_pos within.oldest_le
  cases full : ring.full with
  | true => simp only [checkedCount, count, full, if_true]
  | false =>
      simp only [checkedCount, count, full, Bool.false_eq_true, if_false, sum, distance, bind, Except.bind]
      exact within.mod_capacity _

theorem checkedGet?_eq (index : Nat) : ring.checkedGet? index = .ok (ring.get? index) := by
  simp only [checkedGet?, get?, within.checkedCount_eq, bind, Except.bind]
  by_cases inside : index < ring.count
  · have sum : Word.add ring.oldest index = .ok (ring.oldest + index) :=
      if_pos (within.index_fits index inside)
    simp only [inside, if_true, sum, within.mod_capacity, checkedSlot_eq (within.index_lt index inside)]
  · simp only [inside, if_false, pure, Except.pure]

theorem checkedDisplaced_eq :
    ring.checkedDisplaced (ring.slot ring.next) = .ok (if ring.full then ring.slot ring.next else none) := by
  cases full : ring.full with
  | true => simp only [checkedDisplaced, full, if_true]
  | false =>
      have free : ring.slot ring.next = none := by
        rw [slot, within.next_free full, Option.join_some]
      simp only [checkedDisplaced, full, free, Option.isSome_none, Bool.false_eq_true, if_false]

theorem checkedAppend_eq (value : α) : ring.checkedAppend value = .ok (ring.append value) := by
  have sum : Word.add ring.next 1 = .ok (ring.next + 1) := if_pos within.succ_fits
  simp only [checkedAppend, append, checkedSlot_eq within.next_lt, within.checkedDisplaced_eq, sum,
    within.mod_capacity, bind, Except.bind, pure, Except.pure]
  cases full : ring.full with
  | true => rfl
  | false => rfl

end WithinWords

/-- Whatever is appended to an empty ring, its numbers tell which slots are taken, append by append the
values go round the slots, and no operation meets a fault. -/
theorem appendAll_keeps_representation (capacity : Nat) (positive : 0 < capacity)
    (fits : capacity < 2 ^ 63) (values : List α) :
    let fresh : Ring α := empty capacity
    let ring := (fresh.appendAll values).1
    ring.slots.size = capacity ∧ ring.WellFormed ∧ ring.next = values.length % capacity ∧
    (∀ number value, values[number]? = some value →
      (fresh.appendAll (values.take (number + 1))).1.slots =
        (fresh.appendAll (values.take number)).1.slots.setIfInBounds (number % capacity) (some value)) ∧
    ring.WithinWords ∧
    (∀ value, ring.checkedAppend value = .ok (ring.append value)) ∧
    ring.checkedCount = .ok ring.count ∧
    (∀ index, ring.checkedGet? index = .ok (ring.get? index)) ∧
    (∀ index, (ring.get? index).isSome = true ↔ index < ring.count) ∧
    ring.toList.length = ring.count := by
  intro fresh ring
  have size : ring.capacity = capacity := by rw [capacity_appendAll, capacity_empty]
  have wellFormed : ring.WellFormed := (wellFormed_empty positive).appendAll values
  have within : ring.WithinWords := wellFormed.withinWords (by rwa [size])
  have start : fresh.next < fresh.capacity := (wellFormed_empty positive).next_lt
  have around (count : Nat) : fresh.wrap (fresh.next + count) = count % capacity := by
    rw [wrap, capacity_empty]
    exact congrArg (· % capacity) (Nat.zero_add count)
  refine ⟨size, wellFormed, ?_, ?_, within, within.checkedAppend_eq, within.checkedCount_eq,
    within.checkedGet?_eq, wellFormed.get?_isSome_iff, wellFormed.length_toList⟩
  · rw [← around]
    exact next_appendAll start values
  · intro number value written
    obtain ⟨bound, rfl⟩ := List.getElem?_eq_some_iff.mp written
    have before : (values.take number).length = number := List.length_take_of_le (by omega)
    rw [List.take_succ_eq_append_getElem bound, slots_appendAll_concat start, before, around]

theorem appendAll_keeps_representation_overwritten :
    0 < 3 ∧ 3 < 2 ^ 63 ∧
      let fresh : Ring Nat := empty 3
      let ring := (fresh.appendAll [7, 8, 9, 10]).1
      ring.slots.size = 3 ∧ ring.WellFormed ∧ ring.next = 1 ∧
      ring.slots = (fresh.appendAll [7, 8, 9]).1.slots.setIfInBounds 0 (some 10) ∧
      ring.checkedAppend 11 = .ok (ring.append 11) ∧ ring.toList.length = 3 := by
  refine ⟨by decide, by decide, ?_⟩
  obtain ⟨size, wellFormed, next, written, _, appended, _, _, _, length⟩ :=
    appendAll_keeps_representation 3 (by decide) (by decide) [7, 8, 9, 10]
  exact ⟨size, wellFormed, next, written 3 10 rfl, appended 11, length⟩

end Ring

end CommandLog
