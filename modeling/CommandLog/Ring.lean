/-!
A ring of a fixed number of slots, which keeps the values appended last. `next` is the slot that the
next value goes to and `oldest` the slot of the oldest value kept; when every slot is taken the two
meet, and `full` tells that state from the empty one.
-/

namespace CommandLog

structure Ring (α : Type) where
  slots : Array (Option α)
  next : Nat
  oldest : Nat
  full : Bool
deriving DecidableEq, Repr

namespace Ring

variable {α : Type}

def empty (capacity : Nat) : Ring α := ⟨Array.replicate capacity none, 0, 0, false⟩

def capacity (ring : Ring α) : Nat := ring.slots.size

def wrap (ring : Ring α) (position : Nat) : Nat := position % ring.capacity

def isEmpty (ring : Ring α) : Bool := !ring.full && ring.next == ring.oldest

def count (ring : Ring α) : Nat :=
  if ring.full then ring.capacity
  else (ring.next + ring.capacity - ring.oldest) % ring.capacity

def slot (ring : Ring α) (position : Nat) : Option α := ring.slots[position]?.join

def get? (ring : Ring α) (index : Nat) : Option α :=
  if index < ring.count then ring.slot (ring.wrap (ring.oldest + index)) else none

def toList (ring : Ring α) : List α := (List.range ring.count).filterMap ring.get?

/-- Puts `value` behind the newest one, and returns the value that had to leave for it. -/
def append (ring : Ring α) (value : α) : Ring α × Option α :=
  let next := ring.wrap (ring.next + 1)
  ({ slots := ring.slots.setIfInBounds ring.next (some value)
     next := next
     oldest := if ring.full then next else ring.oldest
     full := ring.full || next == ring.oldest },
   if ring.full then ring.slot ring.next else none)

def appendAll (ring : Ring α) : List α → Ring α × List α
  | [] => (ring, [])
  | value :: values =>
      let (ring, displaced) := ring.append value
      let (ring, later) := ring.appendAll values
      (ring, displaced.toList ++ later)

end Ring

end CommandLog
