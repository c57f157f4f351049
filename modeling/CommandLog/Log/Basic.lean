import CommandLog.Bytes
import CommandLog.Ring

/-!
The log: a ring of entries, each a byte string. Its content is the entries one after the other, the
oldest first.
-/

namespace CommandLog

abbrev Log := Ring Bytes

inductive CapacityError where
  | zero
deriving DecidableEq, Repr

def CapacityError.message : CapacityError → String
  | .zero => "entry store capacity must be non-zero"

namespace Log

def defaultCapacity : Nat := 10

def ofCapacity (capacity : Nat) : Except CapacityError Log :=
  if capacity = 0 then .error .zero else .ok (Ring.empty capacity)

def totalBytes (log : Log) : Nat := Bytes.totalLength log.toList

def content (log : Log) : Bytes := log.toList.flatten

theorem length_content (log : Log) : log.content.length = log.totalBytes :=
  Bytes.length_flatten log.toList

end Log

end CommandLog
