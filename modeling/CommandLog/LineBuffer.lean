import CommandLog.Bytes
import CommandLog.Failure
import CommandLog.Memory

/-!
Commands out of raw reads. A command ends at the first line feed of the read that completes it, and
what stands behind that line feed in the same read is dropped and counted. When a line cannot be
held, all of it is dropped: the reads up to the one that brings its line feed yield nothing.
-/

namespace CommandLog

structure LineBuffer where
  pending : Bytes := []
  discarding : Bool := false
deriving DecidableEq, Repr

inductive Feed where
  | incomplete
  | complete (line : Bytes) (discarded : Nat)
deriving DecidableEq, Repr

namespace LineBuffer

def clear (_ : LineBuffer) : LineBuffer := {}

/-- Takes one read. The line is complete when its last byte is a line feed. -/
def feed (memory : Memory) (buffer : LineBuffer) (chunk : Bytes) :
    Except LogError Feed × LineBuffer :=
  let cut := Bytes.cutLine? chunk
  if buffer.discarding then
    (.ok .incomplete, { buffer with discarding := cut.isNone })
  else
    let (head, behind) := cut.getD (chunk, [])
    let line := buffer.pending ++ head
    if memory.growsLine buffer.pending.length head.length then
      if line.getLast? = some lineFeed then (.ok (.complete line behind.length), {})
      else (.ok .incomplete, { buffer with pending := line })
    else
      (.error (.allocation line.length), { buffer.clear with discarding := cut.isNone })

/-- Takes the reads in order, each with the memory it meets. -/
def feedAll (buffer : LineBuffer) : List (Memory × Bytes) → List (Except LogError Feed) × LineBuffer
  | [] => ([], buffer)
  | (memory, chunk) :: reads =>
      let (outcome, buffer) := buffer.feed memory chunk
      let (outcomes, buffer) := buffer.feedAll reads
      (outcome :: outcomes, buffer)

end LineBuffer

end CommandLog
