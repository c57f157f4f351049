import CommandLog.Command
import CommandLog.Log.Snapshot

/-!
Requests to the log. A request is prepared before the log is held, and served while it is held by
nobody else; a client's command is served together with the reply to it, so nothing can come between
the two. A request that fails leaves the log as it was, except that an entry stays in the log when
only the reply to it could not be copied.
-/

namespace CommandLog

inductive Request where
  | write (bytes : Bytes)
  | seek (index offset : Nat)
  | read (start : Nat)
  | stats
  /-- A client's command, and the cursor from which that client reads. -/
  | exchange (command : Command) (cursor : Nat)
deriving DecidableEq, Repr

structure Reply where
  bytes : Bytes
  cursor : Nat
deriving DecidableEq, Repr

inductive Answer where
  | written
  | position (start : Nat)
  | content (bytes : Bytes)
  | stats (stats : Stats)
  | reply (reply : Reply)
deriving DecidableEq, Repr

/-- The log after a request, the entry that had to leave, and the answer. -/
structure Served (α : Type) where
  log : Log
  displaced : Option Bytes
  answer : Except LogError α

def Served.map {α β : Type} (f : α → β) (served : Served α) : Served β :=
  ⟨served.log, served.displaced, served.answer.map f⟩

inductive Access where
  | granted
  | expired (waited : Duration)
deriving DecidableEq, Repr

def Memory.copyEntry (memory : Memory) (bytes : Bytes) : Except LogError Unit :=
  if memory.grants .entry bytes.length then .ok () else .error (.allocation bytes.length)

/-- What has to succeed before the log is asked for: an entry is copied first. -/
def Request.prepare (memory : Memory) : Request → Except LogError Unit
  | .write bytes => memory.copyEntry bytes
  | .exchange (.write bytes) _ => memory.copyEntry bytes
  | .exchange (.seek _ _) _ | .seek _ _ | .read _ | .stats => .ok ()

namespace Log

/-- Replies to a command. The cursor moves with the reply to a seek, and with nothing else. -/
def exchange (memory : Memory) (log : Log) (cursor : Nat) : Command → Served Reply
  | .write bytes =>
      let (written, displaced) := log.append bytes
      ⟨written, displaced, (Log.snapshot memory written cursor).map (⟨·, cursor⟩)⟩
  | .seek index offset =>
      match log.resolve index offset with
      | .error error => ⟨log, none, .error (.range error)⟩
      | .ok start => ⟨log, none, (log.snapshot memory start).map (⟨·, start⟩)⟩

def serve (memory : Memory) (log : Log) : Request → Served Answer
  | .write bytes =>
      let (written, displaced) := log.append bytes
      ⟨written, displaced, .ok .written⟩
  | .seek index offset => ⟨log, none, ((log.resolve index offset).map .position).mapError .range⟩
  | .read start => ⟨log, none, (log.snapshot memory start).map .content⟩
  | .stats => ⟨log, none, .ok (.stats log.stats)⟩
  | .exchange command cursor => (log.exchange memory cursor command).map .reply

def answer (memory : Memory) (access : Access) (log : Log) (request : Request) :
    Served Answer :=
  match request.prepare memory with
  | .error error => ⟨log, none, .error error⟩
  | .ok () =>
      match access with
      | .expired waited => ⟨log, none, .error (.lockTimeout waited)⟩
      | .granted => log.serve memory request

end Log

/-- Where the cursor of a client is after an answer: a reply says so, and nothing else moves it. -/
def Answer.cursorAfter (cursor : Nat) : Except LogError Answer → Nat
  | .ok (.reply taken) => taken.cursor
  | .ok _ | .error _ => cursor

end CommandLog
