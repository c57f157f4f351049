import CommandLog.Log.Snapshot
import CommandLog.Proofs.Log.Retention

/-!
The content of a log from one byte on. A walk over the entries and a cut in their concatenation give
the same bytes, and a position that resolves to an offset is found there again.
-/

namespace CommandLog

namespace Position

theorem locateIn_eq_none {entries : List Bytes} {start : Nat}
    (missing : locateIn entries start = none) : entries.flatten.length ≤ start := by
  induction entries generalizing start with
  | nil => simp
  | cons entry entries ih =>
      simp only [locateIn] at missing
      split at missing
      · cases missing
      · have rest := ih (Option.map_eq_none_iff.mp missing)
        simp only [List.flatten_cons, List.length_append]
        omega

theorem locateIn_eq_some {entries : List Bytes} {start : Nat} {found : Position}
    (located : locateIn entries start = some found) :
    ∃ before entry after, entries = before ++ entry :: after ∧ before.length = found.index ∧
      found.offset < entry.length ∧ start = before.flatten.length + found.offset := by
  induction entries generalizing start found with
  | nil => simp [locateIn] at located
  | cons first entries ih =>
      simp only [locateIn] at located
      split at located
      · rename_i inside
        cases located
        exact ⟨[], first, entries, rfl, rfl, inside, by simp⟩
      · rename_i outside
        obtain ⟨inner, found_inner, rfl⟩ := Option.map_eq_some_iff.mp located
        obtain ⟨before, entry, after, rfl, length, inside, offset⟩ := ih found_inner
        refine ⟨first :: before, entry, after, rfl, by simp [length], inside, ?_⟩
        simp only [List.flatten_cons, List.length_append]
        omega

end Position

namespace Log

variable {log : Log}

theorem flatten_drop_at (before : List Bytes) (entry : Bytes) (after : List Bytes) {offset : Nat}
    (inside : offset ≤ entry.length) :
    (before ++ entry :: after).flatten.drop (before.flatten.length + offset) =
      entry.drop offset ++ after.flatten := by
  rw [List.flatten_append, List.drop_append, List.drop_of_length_le (by omega), List.nil_append,
    Nat.add_sub_cancel_left, List.flatten_cons, List.drop_append_of_le_length inside]

theorem flatten_tail (log : Log) (start : Nat) :
    (log.tail start).flatten = log.content.drop start := by
  simp only [tail, locate, content]
  cases located : Position.locateIn log.toList start with
  | none =>
      have past := Position.locateIn_eq_none located
      rw [List.drop_of_length_le past]
      rfl
  | some found =>
      obtain ⟨before, entry, after, entries, index, inside, offset⟩ :=
        Position.locateIn_eq_some located
      have rest : log.toList.drop found.index = entry :: after := by
        rw [entries, ← index, List.drop_left]
      simp only [rest]
      rw [entries, offset, flatten_drop_at before entry after (Nat.le_of_lt inside)]
      rfl

theorem snapshot_eq (memory : Memory) (log : Log) (start : Nat) :
    log.snapshot memory start =
      if memory.grants .reply (log.totalBytes - start) then .ok (log.content.drop start)
      else .error (.allocation (log.totalBytes - start)) := by
  simp only [snapshot, flatten_tail]

theorem snapshot_unlimited (log : Log) (start : Nat) :
    log.snapshot .unlimited start = .ok (log.content.drop start) := by
  rw [snapshot_eq, if_pos (Memory.grants_unlimited _ _)]

def startOf (entries : List Bytes) (index offset : Nat) : Nat :=
  Bytes.totalLength (entries.take index) + offset

theorem drop_startOf {entries : List Bytes} {index offset : Nat} {entry : Bytes}
    (kept : entries[index]? = some entry) (inside : offset < entry.length) :
    entries.flatten.drop (startOf entries index offset) =
      entry.drop offset ++ (entries.drop (index + 1)).flatten := by
  obtain ⟨bound, rfl⟩ := List.getElem?_eq_some_iff.mp kept
  have split : entries = entries.take index ++ entries[index] :: entries.drop (index + 1) := by
    rw [← List.drop_eq_getElem_cons bound, List.take_append_drop]
  rw [startOf, ← Bytes.length_flatten]
  conv_lhs => rw [split]
  rw [List.take_append_of_le_length (by simp; omega), List.take_take, Nat.min_self]
  exact flatten_drop_at _ _ _ (Nat.le_of_lt inside)

theorem resolve_eq (reached : log.Reachable) (index offset : Nat) :
    log.resolve index offset =
      match log.toList[index]? with
      | none => .error (.entry index log.count)
      | some entry =>
          if offset < entry.length then .ok (startOf log.toList index offset)
          else .error (.byte index offset entry.length) := by
  rw [resolve, reached.holds.get?_eq]
  rfl

end Log

end CommandLog
