import CommandLog.Net.SocketAddress
import CommandLog.Stream

/-!
The record of one connection that others may look at, and the ways in which serving it can end.
-/

namespace CommandLog

open CommandLog.Net (SocketAddress)

inductive Phase where
  | accepted
  | processing
  | closing
  | done
deriving DecidableEq, Repr

def Phase.rank : Phase → Nat
  | .accepted => 0
  | .processing => 1
  | .closing => 2
  | .done => 3

structure Identity where
  id : Nat
  peer : Option SocketAddress
deriving DecidableEq, Repr

def Identity.peerText (identity : Identity) : String :=
  match identity.peer with
  | none => "None"
  | some address => "Some(" ++ address.text ++ ")"

structure Session extends Identity where
  phase : Phase := .accepted
deriving DecidableEq, Repr

def Session.isComplete (session : Session) : Bool := session.phase == .done

inductive Stage where
  | receive
  | send
  | flush
deriving DecidableEq, Repr

def Stage.message : Stage → String
  | .receive => "failed to receive from client"
  | .send => "failed to send reply"
  | .flush => "failed to flush reply"

structure SessionFailure where
  stage : Stage
  cause : StreamError
deriving DecidableEq, Repr

namespace SessionFailure

def message (failure : SessionFailure) : String :=
  failure.stage.message ++ ": " ++ failure.cause.message

def report (failure : SessionFailure) : String :=
  failure.stage.message ++ "\n\nCaused by:\n    " ++ failure.cause.message

end SessionFailure

inductive Ending where
  | returned (result : Except SessionFailure Unit)
  | panicked
  | aborted
  | discarded

end CommandLog
