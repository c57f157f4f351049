import CommandLog.Proofs.Ring.Contents
import Mathlib.Data.Int.ModEq

/-!
The slots of a ring, one by one: `next`, `oldest` and `full` alone tell which of them are taken. A ring
of which that is true holds a list, and the other way round, so that every append to such a ring leaves
one behind.
-/

namespace CommandLog

namespace Ring

variable {α : Type} {ring : Ring α} {values : List α}

/-- How far `next` is ahead of `oldest`, around the ring. -/
def lead (ring : Ring α) : Nat := (((ring.next : Int) - ring.oldest) % ring.capacity).toNat

def InUse (ring : Ring α) (position : Nat) : Prop :=
  ∃ steps < ring.lead, ring.wrap (ring.oldest + steps) = position

/-- Every slot of a full ring is taken, and `next` has come round to `oldest`. Of any other ring the slots
from `oldest` up to `next` are taken, and no others. -/
structure WellFormed (ring : Ring α) : Prop where
  next_lt : ring.next < ring.capacity
  oldest_lt : ring.oldest < ring.capacity
  met : ring.full = true → ring.oldest = ring.next
  taken : ring.full = true → ∀ position < ring.capacity, (ring.slot position).isSome = true
  taken_iff : ring.full = false → ∀ position < ring.capacity,
    ((ring.slot position).isSome = true ↔ ring.InUse position)

theorem slots_getElem? {position : Nat} (bound : position < ring.capacity) :
    ring.slots[position]? = some (ring.slot position) := by
  rw [slot, Array.getElem?_eq_getElem bound, Option.join_some]

theorem count_of_full (full : ring.full = true) : ring.count = ring.capacity := by
  rw [count, if_pos full]

theorem exists_wrap_add {position : Nat} (start : Nat) (bound : position < ring.capacity) :
    ∃ steps < ring.capacity, ring.wrap (start + steps) = position := by
  have positive : 0 < ring.capacity := Nat.zero_lt_of_lt bound
  have before : ring.wrap start < ring.capacity := wrap_lt positive start
  -- From `start` to the end of the round, and from there on to `position`.
  refine ⟨ring.wrap (position + (ring.capacity - ring.wrap start)), wrap_lt positive _, ?_⟩
  rw [← wrap_add_wrap, Nat.add_comm, wrap_add_wrap,
    show position + (ring.capacity - ring.wrap start) + ring.wrap start = position + ring.capacity by omega,
    wrap_add_capacity, wrap_of_lt bound]

theorem natCast_lead (positive : 0 < ring.capacity) :
    (ring.lead : Int) = ((ring.next : Int) - ring.oldest) % ring.capacity :=
  Int.toNat_of_nonneg (Int.emod_nonneg _ (by omega))

theorem lead_eq {steps : Nat} (bound : steps < ring.capacity)
    (reaches : ring.wrap (ring.oldest + steps) = ring.next) : ring.lead = steps := by
  have positive : 0 < ring.capacity := Nat.zero_lt_of_lt bound
  have distance : (ring.lead : Int) = steps := by
    rw [natCast_lead positive, ← reaches, wrap, Int.natCast_emod, Int.emod_sub_emod, Nat.cast_add,
      add_sub_cancel_left, Int.emod_eq_of_lt (by omega) (by omega)]
  exact_mod_cast distance

theorem inUse_wrap_iff {index : Nat} (bound : index < ring.capacity) (ahead : ring.lead < ring.capacity) :
    ring.InUse (ring.wrap (ring.oldest + index)) ↔ index < ring.lead := by
  constructor
  · rintro ⟨steps, inside, same⟩
    have := wrap_add_injective ring (by omega) bound same
    omega
  · intro inside
    exact ⟨index, inside, rfl⟩

namespace WellFormed

variable (wellFormed : ring.WellFormed)
include wellFormed

theorem capacity_pos : 0 < ring.capacity := Nat.zero_lt_of_lt wellFormed.next_lt

theorem lead_lt : ring.lead < ring.capacity := by
  obtain ⟨steps, bound, reaches⟩ := exists_wrap_add ring.oldest wellFormed.next_lt
  rwa [lead_eq bound reaches]

theorem wrap_lead : ring.wrap (ring.oldest + ring.lead) = ring.next := by
  obtain ⟨steps, bound, reaches⟩ := exists_wrap_add ring.oldest wellFormed.next_lt
  rw [lead_eq bound reaches, reaches]

theorem not_inUse_next : ¬ ring.InUse ring.next := by
  rw [← wellFormed.wrap_lead, inUse_wrap_iff wellFormed.lead_lt wellFormed.lead_lt]
  exact Nat.lt_irrefl _

theorem next_free (notFull : ring.full = false) : ring.slots[ring.next]? = some none := by
  rw [slots_getElem? wellFormed.next_lt, Option.some.injEq, ← Option.not_isSome_iff_eq_none,
    wellFormed.taken_iff notFull _ wellFormed.next_lt]
  exact wellFormed.not_inUse_next

theorem count_of_not_full (notFull : ring.full = false) : ring.count = ring.lead := by
  have before := wellFormed.oldest_lt
  have around : ((ring.next + ring.capacity - ring.oldest : Nat) : Int) =
      (ring.next : Int) - ring.oldest + ring.capacity := by omega
  have distance : (ring.count : Int) = ring.lead := by
    rw [natCast_lead wellFormed.capacity_pos, count, if_neg (by simp [notFull]), Int.natCast_emod, around,
      Int.add_emod_right]
  exact_mod_cast distance

theorem count_le : ring.count ≤ ring.capacity := by
  cases full : ring.full with
  | true => rw [count_of_full full]
  | false =>
      rw [wellFormed.count_of_not_full full]
      exact Nat.le_of_lt wellFormed.lead_lt

theorem slot_isSome_iff {index : Nat} (bound : index < ring.capacity) :
    (ring.slot (ring.wrap (ring.oldest + index))).isSome = true ↔ index < ring.count := by
  have place := wrap_lt wellFormed.capacity_pos (ring.oldest + index)
  cases full : ring.full with
  | true => simp only [wellFormed.taken full _ place, count_of_full full, bound]
  | false =>
      rw [wellFormed.taken_iff full _ place, wellFormed.count_of_not_full full,
        inUse_wrap_iff bound wellFormed.lead_lt]

theorem get?_isSome_iff (index : Nat) : (ring.get? index).isSome = true ↔ index < ring.count := by
  rw [get?]
  by_cases bound : index < ring.count
  · have within := wellFormed.count_le
    rw [if_pos bound, wellFormed.slot_isSome_iff (by omega)]
  · simp [bound]

theorem map_some_toList : ring.toList.map some = (List.range ring.count).map ring.get? := by
  rw [toList, List.map_filterMap_some_eq_filter_map_isSome, List.filter_eq_self]
  intro found among
  obtain ⟨index, inRange, rfl⟩ := List.mem_map.mp among
  exact (wellFormed.get?_isSome_iff index).mpr (List.mem_range.mp inRange)

theorem length_toList : ring.toList.length = ring.count := by
  simpa using congrArg List.length wellFormed.map_some_toList

theorem getElem?_toList {index : Nat} (bound : index < ring.count) :
    ring.toList[index]? = ring.get? index := by
  have found := congrArg (fun list => list[index]?) wellFormed.map_some_toList
  simp only [List.getElem?_map, List.getElem?_range bound, Option.map_some] at found
  obtain ⟨value, listed, same⟩ := Option.map_eq_some_iff.mp found
  rw [listed, same]

theorem holds : ring.Holds ring.toList where
  oldest_lt := wellFormed.oldest_lt
  length_le := by
    rw [wellFormed.length_toList]
    exact wellFormed.count_le
  next_eq := by
    rw [wellFormed.length_toList]
    cases full : ring.full with
    | true =>
        rw [count_of_full full, wrap_add_capacity, wrap_of_lt wellFormed.oldest_lt,
          wellFormed.met full]
    | false => rw [wellFormed.count_of_not_full full, wellFormed.wrap_lead]
  full_iff := by
    rw [wellFormed.length_toList]
    constructor
    · exact count_of_full
    · intro counted
      by_contra notFull
      rw [Bool.not_eq_true] at notFull
      have short := wellFormed.lead_lt
      rw [wellFormed.count_of_not_full notFull] at counted
      omega
  slot_eq := by
    intro index bound
    by_cases inside : index < ring.count
    · rw [wellFormed.getElem?_toList inside, get?, if_pos inside]
    · rw [List.getElem?_eq_none (by rw [wellFormed.length_toList]; omega), ← Option.not_isSome_iff_eq_none,
        wellFormed.slot_isSome_iff bound]
      exact inside

end WellFormed

theorem Holds.slot_isSome_iff (holds : ring.Holds values) {index : Nat} (bound : index < ring.capacity) :
    (ring.slot (ring.wrap (ring.oldest + index))).isSome = true ↔ index < values.length := by
  rw [holds.slot_eq index bound, isSome_getElem?]

theorem Holds.wellFormed (holds : ring.Holds values) : ring.WellFormed where
  next_lt := by
    rw [holds.next_eq]
    exact wrap_lt holds.capacity_pos _
  oldest_lt := holds.oldest_lt
  met := by
    intro full
    rw [holds.next_eq, holds.full_iff.mp full, wrap_add_capacity, wrap_of_lt holds.oldest_lt]
  taken := by
    intro full position bound
    obtain ⟨steps, inside, rfl⟩ := exists_wrap_add ring.oldest bound
    rw [holds.slot_isSome_iff inside, holds.full_iff.mp full]
    exact inside
  taken_iff := by
    intro notFull position bound
    have room : values.length < ring.capacity := holds.not_full_iff.mp notFull
    have ahead : ring.lead = values.length := lead_eq room holds.next_eq.symm
    obtain ⟨steps, inside, rfl⟩ := exists_wrap_add ring.oldest bound
    rw [holds.slot_isSome_iff inside, inUse_wrap_iff inside (by omega), ahead]

theorem wellFormed_empty {capacity : Nat} (positive : 0 < capacity) :
    (empty capacity : Ring α).WellFormed :=
  (holds_empty positive).wellFormed

theorem WellFormed.append (wellFormed : ring.WellFormed) (value : α) :
    (ring.append value).1.WellFormed :=
  (wellFormed.holds.append value).1.wellFormed

theorem WellFormed.appendAll (wellFormed : ring.WellFormed) (values : List α) :
    (ring.appendAll values).1.WellFormed := by
  induction values generalizing ring with
  | nil => exact wellFormed
  | cons value values ih => exact ih (wellFormed.append value)

theorem next_appendAll (bound : ring.next < ring.capacity) (values : List α) :
    (ring.appendAll values).1.next = ring.wrap (ring.next + values.length) := by
  induction values generalizing ring with
  | nil => exact (wrap_of_lt bound).symm
  | cons value values ih =>
      have onward : (ring.append value).1.next = ring.wrap (ring.next + 1) := rfl
      have stays : (ring.append value).1.next < (ring.append value).1.capacity := by
        rw [capacity_append, onward]
        exact wrap_lt (Nat.zero_lt_of_lt bound) _
      calc (ring.appendAll (value :: values)).1.next
        _ = (ring.append value).1.wrap ((ring.append value).1.next + values.length) := ih stays
        _ = ring.wrap (ring.next + (1 + values.length)) := by
          rw [wrap_append, onward, wrap_add_wrap, Nat.add_assoc]
        _ = ring.wrap (ring.next + (value :: values).length) := by
          rw [List.length_cons, Nat.add_comm 1]

theorem slots_appendAll_concat (bound : ring.next < ring.capacity) (values : List α) (value : α) :
    (ring.appendAll (values ++ [value])).1.slots =
      (ring.appendAll values).1.slots.setIfInBounds (ring.wrap (ring.next + values.length)) (some value) := by
  rw [appendAll_concat, ← next_appendAll bound]
  rfl

end Ring

end CommandLog
