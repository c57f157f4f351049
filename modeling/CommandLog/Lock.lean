import CommandLog.Table

/-!
The lock on the log: at most one holder, and behind it those who wait, first come, first served. Who
gives the lock back hands it to the first who waits, so a lock that is free has no queue.
-/

namespace CommandLog

inductive Holder where
  /-- Somebody who is none of the tasks. -/
  | outsider
  | task (key : Key)
deriving DecidableEq, Repr

structure Waiter where
  key : Key
  deadline : Nat
deriving DecidableEq, Repr

structure Lock where
  holder : Option Holder := none
  queue : List Waiter := []
deriving DecidableEq, Repr

namespace Lock

def isHeldBy (lock : Lock) (key : Key) : Bool := lock.holder == some (.task key)

def request (lock : Lock) (key : Key) (deadline : Nat) : Lock :=
  match lock.holder with
  | none => { lock with holder := some (.task key) }
  | some _ => { lock with queue := lock.queue ++ [⟨key, deadline⟩] }

def release (lock : Lock) : Lock :=
  match lock.queue with
  | [] => { lock with holder := none }
  | first :: queue => ⟨some (.task first.key), queue⟩

def withdraw (lock : Lock) (key : Key) : Lock :=
  let lock := { lock with queue := lock.queue.filter fun waiter => waiter.key != key }
  if lock.isHeldBy key then lock.release else lock

def deadline? (lock : Lock) (key : Key) : Option Nat :=
  (lock.queue.find? fun waiter => waiter.key == key).map Waiter.deadline

def nextDeadline? (lock : Lock) : Option Nat := (lock.queue.map Waiter.deadline).min?

end Lock

end CommandLog
