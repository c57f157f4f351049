import CommandLog.Event
import CommandLog.Log.Request

/-!
One log and those who ask it in turn, while someone else may hold it. A request that meets a held log
waits as long as it may and then gives up; on a free log no request ever waits.
-/

namespace CommandLog

structure Service where
  log : Log
  lockTimeout : Duration
  memory : Memory := .unlimited
  heldElsewhere : Bool := false

namespace Service

def defaultLockTimeout : Duration := .ofSeconds 5

def ofCapacity (capacity : Nat) (lockTimeout : Duration) : Except CapacityError Service := do
  let log ← Log.ofCapacity capacity
  return { log, lockTimeout }

def access (service : Service) : Access :=
  if service.heldElsewhere then .expired service.lockTimeout else .granted

def hold (service : Service) : Service :=
  { service with heldElsewhere := service.heldElsewhere || Log.totalBytes service.log != 0 }

def release (service : Service) : Service := { service with heldElsewhere := false }

/-- Answers one request, and reports the entry that had to leave for it. -/
def request (service : Service) (request : Request) :
    Service × Except LogError Answer × List Event :=
  let served := Log.answer service.memory service.access service.log request
  ({ service with log := served.log }, served.answer, Event.ofDisplaced served.displaced)

end Service

end CommandLog
