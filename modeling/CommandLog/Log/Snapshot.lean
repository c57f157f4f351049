import CommandLog.Log.Position
import CommandLog.Memory

/-!
A copy of the log from one byte on. The copy is reserved as a whole before it is made.
-/

namespace CommandLog

structure Stats where
  entries : Nat
  bytes : Nat
  capacity : Nat
deriving DecidableEq, Repr

namespace Log

def stats (log : Log) : Stats := ⟨log.count, log.totalBytes, log.capacity⟩

/-- What lies at `start` or behind it; nothing when `start` is at the end or past it. -/
def snapshot (memory : Memory) (log : Log) (start : Nat) : Except LogError Bytes :=
  let requested := log.totalBytes - start
  if memory.grants .reply requested then .ok (log.tail start).flatten
  else .error (.allocation requested)

end Log

end CommandLog
