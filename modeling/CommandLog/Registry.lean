import CommandLog.Table
import CommandLog.Worker

/-!
The records of the sessions that are being served: an id for each, counted from one and never used
twice, and the key of its worker. A drain takes all records out at once and looks at their workers
every ten milliseconds.
-/

namespace CommandLog

structure Record where
  id : Nat
  key : Key
deriving DecidableEq, Repr

structure Registry where
  records : List Record := []
  nextId : Nat := 1
  readBuffer : Nat := Worker.defaultReadBuffer
deriving DecidableEq, Repr

namespace Registry

def find? (registry : Registry) (id : Nat) : Option Record :=
  registry.records.find? (·.id == id)

def size (registry : Registry) : Nat := registry.records.length

def isEmpty (registry : Registry) : Bool := registry.records.isEmpty

def add (registry : Registry) (key : Key) : Registry :=
  { registry with
    records := registry.records ++ [⟨registry.nextId, key⟩]
    nextId := registry.nextId + 1 }

end Registry

/-- A drain that is under way. Times are in nanoseconds. -/
structure Drain where
  records : List Record
  deadline : Nat
  nextLook : Nat
deriving DecidableEq, Repr

def Drain.interval : Duration := .ofMilliseconds 10

end CommandLog
