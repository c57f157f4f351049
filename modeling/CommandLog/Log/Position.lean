import CommandLog.Failure
import CommandLog.Log.Basic

/-!
Two ways to name a byte of the log: by its offset in the whole content, and by an entry and an offset
in it. The end of the content is no position.
-/

namespace CommandLog

structure Position where
  index : Nat
  offset : Nat
deriving DecidableEq, Repr

namespace Position

/-- The byte `start` of the entries' concatenation: a walk that leaves one entry behind at a time. -/
def locateIn : List Bytes → (start : Nat) → Option Position
  | [], _ => none
  | entry :: entries, start =>
      if start < entry.length then some ⟨0, start⟩
      else (locateIn entries (start - entry.length)).map fun found => { found with index := found.index + 1 }

def Before (first second : Position) : Prop :=
  first.index < second.index ∨ first.index = second.index ∧ first.offset < second.offset

end Position

namespace Log

def locate (log : Log) (start : Nat) : Option Position := Position.locateIn log.toList start

def resolve (log : Log) (index offset : Nat) : Except RangeError Nat :=
  match log.get? index with
  | none => .error (.entry index log.count)
  | some entry =>
      if offset < entry.length then .ok (Bytes.totalLength (log.toList.take index) + offset)
      else .error (.byte index offset entry.length)

def tail (log : Log) (start : Nat) : List Bytes :=
  match log.locate start with
  | none => []
  | some found =>
      match log.toList.drop found.index with
      | [] => []
      | first :: later => first.drop found.offset :: later

end Log

end CommandLog
