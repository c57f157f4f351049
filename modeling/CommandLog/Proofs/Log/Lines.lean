import CommandLog.Log.Request
import CommandLog.Proofs.Log.Content

/-!
Entries that are lines. Where every entry ends with its only line feed, the content of the log says
where one entry ends and the next begins.
-/

namespace CommandLog

/-- An entry that a client has written: a line, and none that would move a cursor. -/
structure Entry (bytes : Bytes) : Prop where
  filled : bytes ≠ []
  once : bytes.count lineFeed = 1
  last : bytes.getLast? = some lineFeed
  untagged : ¬ Command.seekTag <+: bytes

namespace Bytes

/-- Cuts behind each line feed; what is left behind the last one is a line of its own. -/
def splitLines : Bytes → List Bytes
  | [] => []
  | byte :: rest =>
      if byte = lineFeed then [byte] :: splitLines rest
      else
        match splitLines rest with
        | [] => [[byte]]
        | line :: lines => (byte :: line) :: lines

theorem flatten_splitLines (bytes : Bytes) : (splitLines bytes).flatten = bytes := by
  induction bytes with
  | nil => rfl
  | cons byte rest ih =>
      simp only [splitLines]
      split
      · simp [ih]
      · cases split : splitLines rest with
        | nil => simpa [split] using ih
        | cons line lines => simpa [split] using ih

theorem splitLines_append {text : Bytes} (clean : lineFeed ∉ text) (rest : Bytes) :
    splitLines (text ++ lineFeed :: rest) = (text ++ [lineFeed]) :: splitLines rest := by
  induction text with
  | nil => simp [splitLines]
  | cons byte text ih =>
      simp only [List.mem_cons, not_or] at clean
      simp only [List.cons_append, splitLines, if_neg (Ne.symm clean.1), ih clean.2]

end Bytes

theorem Entry.of_text {text : Bytes} (clean : lineFeed ∉ text)
    (untagged : Bytes.dropPrefix? Command.seekTag (text ++ [lineFeed]) = none) :
    Entry (text ++ [lineFeed]) := by
  refine ⟨by simp, ?_, by simp, ?_⟩
  · simp [List.count_eq_zero_of_not_mem clean]
  · rintro ⟨rest, same⟩
    rw [← same, Bytes.dropPrefix?_append] at untagged
    cases untagged

theorem Entry.eq_text {bytes : Bytes} (entry : Entry bytes) :
    ∃ text, lineFeed ∉ text ∧ bytes = text ++ [lineFeed] := by
  obtain ⟨text, rfl⟩ := List.getLast?_eq_some_iff.mp entry.last
  refine ⟨text, ?_, rfl⟩
  have once := entry.once
  rw [List.count_append, List.count_singleton_self] at once
  exact List.count_eq_zero.mp (by omega)

theorem Bytes.splitLines_flatten {entries : List Bytes} (lines : ∀ entry, entry ∈ entries → Entry entry) :
    splitLines entries.flatten = entries := by
  induction entries with
  | nil => rfl
  | cons entry entries ih =>
      obtain ⟨text, clean, rfl⟩ := (lines entry List.mem_cons_self).eq_text
      have rest := ih fun later member => lines later (List.mem_cons_of_mem _ member)
      rw [List.flatten_cons, List.append_assoc, List.singleton_append, splitLines_append clean, rest]

theorem Log.splitLines_snapshot {log : Log} (lines : ∀ entry, entry ∈ log.toList → Entry entry)
    {memory : Memory} {bytes : Bytes} (taken : log.snapshot memory 0 = .ok bytes) :
    Bytes.splitLines bytes = log.toList := by
  rw [snapshot_eq] at taken
  split at taken
  · cases taken
    exact Bytes.splitLines_flatten lines
  · cases taken

theorem Log.reply_ends {log : Log} (reached : log.Reachable) {memory : Memory} {bytes : Bytes}
    {reply : Reply} (answered : (log.exchange memory 0 (.write bytes)).answer = .ok reply) :
    bytes <:+ reply.bytes := by
  simp only [exchange, snapshot_eq] at answered
  split at answered
  · cases answered
    obtain ⟨room, same⟩ := Nat.exists_eq_succ_of_ne_zero (Nat.ne_of_gt reached.holds.capacity_pos)
    rw [List.drop_zero, content, reached.toList_append, same, List.rtake_concat_succ,
      List.flatten_append, List.flatten_singleton]
    exact List.suffix_append _ _
  · cases answered

end CommandLog
