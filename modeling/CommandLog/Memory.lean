/-!
Memory that may be refused. Three things are reserved before they are used: the copy of an entry, the
line that a client is sending, and the reply taken from the log. Nothing refuses zero bytes.
-/

namespace CommandLog

inductive Purpose where
  | entry
  | line
  | reply
deriving DecidableEq, Repr

structure Memory where
  allows : Purpose → Nat → Bool

namespace Memory

def unlimited : Memory := ⟨fun _ _ => true⟩

/-- Refuses every reservation of `limit` bytes or more. -/
def below (limit : Nat) : Memory := ⟨fun _ bytes => bytes < limit⟩

def grants (memory : Memory) (purpose : Purpose) (bytes : Nat) : Bool :=
  bytes == 0 || memory.allows purpose bytes

def growsLine (memory : Memory) (held more : Nat) : Bool :=
  more == 0 || memory.allows .line (held + more)

theorem grants_unlimited (purpose : Purpose) (bytes : Nat) : unlimited.grants purpose bytes = true := by
  simp [grants, unlimited]

theorem growsLine_unlimited (held more : Nat) : unlimited.growsLine held more = true := by
  simp [growsLine, unlimited]

end Memory

end CommandLog
