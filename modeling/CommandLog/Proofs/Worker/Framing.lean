import CommandLog.Proofs.LineBuffer.Lines
import CommandLog.Proofs.Worker.Account
import CommandLog.Proofs.Log.Lines

/-!
What reaches the log from a client is a line: however its bytes are cut into reads, and whichever lines
could not be held, a command is the text between two line feeds with the one that ends it.
-/

namespace CommandLog

theorem LineBuffer.feed_framed {memory : Memory} {line next : LineBuffer} {chunk : Bytes}
    {outcome : Except LogError Feed} (fed : line.feed memory chunk = (outcome, next))
    (clean : lineFeed ∉ line.pending) :
    lineFeed ∉ next.pending ∧
      ∀ bytes, Feed.line? outcome = some bytes → ∃ text, lineFeed ∉ text ∧ bytes = text ++ [lineFeed] := by
  cases going : line.discarding with
  | true =>
      simp only [feed, going, ↓reduceIte] at fed
      cases fed
      exact ⟨clean, by simp [Feed.line?]⟩
  | false =>
      cases cut : Bytes.cutLine? chunk with
      | none =>
          have cleanChunk := Bytes.cutLine?_eq_none_iff.mp cut
          have whole : lineFeed ∉ line.pending ++ chunk := by simp [clean, cleanChunk]
          cases room : memory.growsLine line.pending.length chunk.length with
          | true =>
              rw [feed_open going cleanChunk (fun last => whole (List.mem_of_getLast? last)) room] at fed
              cases fed
              exact ⟨whole, by simp [Feed.line?]⟩
          | false =>
              rw [feed_open_refused going cleanChunk room] at fed
              cases fed
              exact ⟨List.not_mem_nil, by simp [Feed.line?]⟩
      | some parts =>
          obtain ⟨text, cleanText, _, rfl⟩ := Bytes.eq_append_of_cutLine? cut
          cases room : memory.growsLine line.pending.length (text.length + 1) with
          | true =>
              rw [feed_complete going cleanText room] at fed
              cases fed
              refine ⟨List.not_mem_nil, ?_⟩
              rintro _ ⟨⟩
              exact ⟨line.pending ++ text, by simp [clean, cleanText], rfl⟩
          | false =>
              rw [feed_complete_refused going cleanText room] at fed
              cases fed
              exact ⟨List.not_mem_nil, by simp [Feed.line?]⟩

def Progress.Framed : Progress → Prop
  | .asking line => ∃ text, lineFeed ∉ text ∧ line = text ++ [lineFeed]
  | .reading | .sending _ => True

theorem Exchanges.framed {past : List Deed} {line : LineBuffer} {progress : Progress}
    (exchanges : Exchanges past line progress) : lineFeed ∉ line.pending ∧ progress.Framed := by
  induction exchanges with
  | start => exact ⟨List.not_mem_nil, trivial⟩
  | unfinished _ _ fed _ ih => exact ⟨(LineBuffer.feed_framed fed ih.1).1, trivial⟩
  | complete _ _ fed complete ih =>
      obtain ⟨clean, framed⟩ := LineBuffer.feed_framed fed ih.1
      exact ⟨clean, framed _ complete⟩
  | reply _ _ ih | send _ _ ih | flush _ ih => exact ⟨ih.1, trivial⟩

theorem Command.parseArguments_ne_write {text : List Char} {bytes : Bytes} :
    parseArguments text ≠ .ok (.write bytes) := by
  intro parsed
  simp only [parseArguments] at parsed
  split at parsed
  · cases parsed
  · simp only [bind, Except.bind] at parsed
    split at parsed
    · cases parsed
    · split at parsed <;> cases parsed

theorem Command.entry_of_parse {text bytes : Bytes} (clean : lineFeed ∉ text)
    (parsed : parse (text ++ [lineFeed]) = .ok (.write bytes)) : Entry bytes := by
  simp only [parse] at parsed
  split at parsed
  · rename_i untagged
    cases parsed
    exact .of_text clean untagged
  · split at parsed
    · cases parsed
    · exact absurd parsed parseArguments_ne_write

theorem Worker.Account.entry {past : List Deed} {worker : Worker} {bytes : Bytes}
    (account : worker.Account past) (holding : worker.point = .holding (.write bytes)) :
    Entry bytes := by
  have stands := account.stands
  rw [holding] at stands
  obtain ⟨line, asking, parsed⟩ := stands
  obtain ⟨_, text, clean, rfl⟩ := asking.framed
  exact Command.entry_of_parse clean parsed

end CommandLog
