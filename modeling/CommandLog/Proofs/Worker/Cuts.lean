import CommandLog.Proofs.LineBuffer.Lines
import CommandLog.Proofs.Worker.Hearing

/-!
A text that is read in pieces. As long as no piece goes on behind a line feed, how the text is cut makes no
difference to a session: it hears the lines of the text, and drops nothing.
-/

namespace CommandLog

namespace Bytes

structure IsPiece (chunk : Bytes) : Prop where
  filled : chunk ≠ []
  inside : lineFeed ∉ chunk.dropLast

instance (chunk : Bytes) : Decidable (IsPiece chunk) :=
  decidable_of_iff (chunk ≠ [] ∧ lineFeed ∉ chunk.dropLast)
    ⟨fun ⟨filled, inside⟩ => ⟨filled, inside⟩, fun piece => ⟨piece.filled, piece.inside⟩⟩

/-- A text cut behind each line feed, and what is left behind the last one. -/
inductive Cut : Bytes → List Bytes → Bytes → Prop
  | rest {text} : lineFeed ∉ text → Cut text [] text
  | line {front text lines rest} : lineFeed ∉ front → Cut text lines rest →
      Cut (front ++ lineFeed :: text) ((front ++ [lineFeed]) :: lines) rest

variable {text front chunk rest : Bytes} {lines : List Bytes}

theorem exists_cut (text : Bytes) : ∃ lines rest, Cut text lines rest := by
  induction text with
  | nil => exact ⟨[], [], .rest List.not_mem_nil⟩
  | cons byte text ih =>
      obtain ⟨lines, rest, cut⟩ := ih
      by_cases ends : byte = lineFeed
      · subst ends
        exact ⟨_, _, .line List.not_mem_nil cut⟩
      · cases cut with
        | rest clean => exact ⟨_, _, .rest (by simp [Ne.symm ends, clean])⟩
        | @line front text lines _ clean cut =>
            have longer : lineFeed ∉ byte :: front := by simp [Ne.symm ends, clean]
            exact ⟨_, _, .line longer cut⟩

theorem Cut.of_clean (cut : Cut text lines rest) (clean : lineFeed ∉ text) : lines = [] ∧ rest = text := by
  cases cut with
  | rest => exact ⟨rfl, rfl⟩
  | line => simp at clean

theorem Cut.of_line (cut : Cut (front ++ lineFeed :: text) lines rest) (clean : lineFeed ∉ front) :
    ∃ later, lines = (front ++ [lineFeed]) :: later ∧ Cut text later rest := by
  generalize whole : front ++ lineFeed :: text = bytes at cut
  cases cut with
  | rest without => simp [← whole] at without
  | @line first later lines _ cleanFirst cut =>
      have same := congrArg cutLine? whole
      rw [cutLine?_append clean, cutLine?_append cleanFirst, Option.some.injEq, Prod.mk.injEq] at same
      obtain ⟨line, rfl⟩ := same
      exact ⟨lines, by rw [line], cut⟩

theorem IsPiece.clean_or_ends (piece : IsPiece chunk) :
    lineFeed ∉ chunk ∨ ∃ front, lineFeed ∉ front ∧ chunk = front ++ [lineFeed] := by
  rcases List.eq_nil_or_concat chunk with rfl | ⟨front, last, rfl⟩
  · exact absurd rfl piece.filled
  · have inside := piece.inside
    rw [List.concat_eq_append, List.dropLast_concat] at inside
    by_cases ends : last = lineFeed
    · exact Or.inr ⟨front, inside, by rw [ends, List.concat_eq_append]⟩
    · exact Or.inl (by simp [inside, Ne.symm ends])

theorem IsPiece.split {back : Bytes} (piece : IsPiece (front ++ back)) (filled : front ≠ [])
    (more : back ≠ []) : IsPiece front ∧ IsPiece back := by
  have inside := piece.inside
  rw [List.dropLast_append_of_ne_nil more, List.mem_append, not_or] at inside
  exact ⟨⟨filled, fun member => inside.1 (List.dropLast_subset front member)⟩, ⟨more, inside.2⟩⟩

end Bytes

open Bytes (IsPiece Cut)

variable {pieces lines : List Bytes} {text pending rest : Bytes}

theorem LineBuffer.commands_append (early late : List (Except LogError Feed)) :
    commands (early ++ late) = commands early ++ commands late :=
  List.filterMap_append

theorem LineBuffer.feedAll_pieces (each : ∀ piece ∈ pieces, IsPiece piece)
    (clean : lineFeed ∉ pending) (cut : Cut text lines rest) (whole : pending ++ pieces.flatten = text) :
    let fed := (⟨pending, false⟩ : LineBuffer).feedAll (pieces.map fun piece => (.unlimited, piece))
    commands fed.1 = lines.map (·, 0) ∧ fed.2 = ⟨rest, false⟩ := by
  induction pieces generalizing text pending lines with
  | nil =>
      rw [List.flatten_nil, List.append_nil] at whole
      obtain ⟨rfl, rfl⟩ := cut.of_clean (whole ▸ clean)
      exact ⟨rfl, whole ▸ rfl⟩
  | cons piece pieces ih =>
      rw [List.forall_mem_cons] at each
      rw [List.flatten_cons, ← List.append_assoc] at whole
      -- What is pending has no line feed, so the piece makes it longer or ends it.
      rcases each.1.clean_or_ends with cleanPiece | ⟨front, cleanFront, rfl⟩
      · have longer : lineFeed ∉ pending ++ piece := by simp [clean, cleanPiece]
        have fed : (⟨pending, false⟩ : LineBuffer).feed .unlimited piece = _ :=
          feed_open rfl cleanPiece (fun last => longer (List.mem_of_getLast? last))
            (Memory.growsLine_unlimited _ _)
        simpa only [List.map_cons, feedAll, fed, commands, List.filterMap_cons] using
          ih each.2 longer cut whole
      · have longer : lineFeed ∉ pending ++ front := by simp [clean, cleanFront]
        have fed : (⟨pending, false⟩ : LineBuffer).feed .unlimited (front ++ [lineFeed]) = _ :=
          feed_complete rfl cleanFront (Memory.growsLine_unlimited _ _)
        rw [← List.append_assoc, List.append_assoc _ [lineFeed], List.singleton_append] at whole
        rw [← whole] at cut
        obtain ⟨later, rfl, cutLater⟩ := cut.of_line longer
        obtain ⟨heard, left⟩ := ih each.2 List.not_mem_nil cutLater rfl
        simp only [List.map_cons, feedAll, fed, commands, List.filterMap_cons, List.length_nil]
        exact ⟨congrArg _ heard, left⟩

def chunk? (read : Memory × Incoming) : Option LineBuffer.Read :=
  match read with
  | (memory, .bytes (first :: rest)) => some (memory, first :: rest)
  | _ => none

def chunks (past : List Deed) : List LineBuffer.Read := (reads past).filterMap chunk?

theorem chunks_append (past later : List Deed) : chunks (past ++ later) = chunks past ++ chunks later := by
  simp only [chunks, reads, List.filterMap_append]

theorem foldl_read {read : List (Memory × Incoming)} (granted : ∀ one ∈ read, one.1 = .unlimited)
    (hearing : Hearing) :
    let fed := hearing.line.feedAll (read.filterMap chunk?)
    read.foldl (fun hearing one => hearing.read one.1 one.2) hearing = ⟨fed.2, hearing.heard ++
      (LineBuffer.commands fed.1).map fun line => Command.ready? .unlimited line.1⟩ := by
  induction read generalizing hearing with
  | nil => simp [LineBuffer.feedAll, LineBuffer.commands]
  | cons one read ih =>
      obtain ⟨memory, item⟩ := one
      rw [List.forall_mem_cons] at granted
      obtain rfl : memory = .unlimited := granted.1
      have later := ih granted.2 (hearing.read .unlimited item)
      rw [List.foldl_cons, later]
      cases item with
      | bytes chunk =>
          cases chunk with
          | nil => rfl
          | cons first rest =>
              cases fed : hearing.line.feed .unlimited (first :: rest) with
              | mk outcome line =>
                  simp only [List.filterMap_cons, chunk?, LineBuffer.feedAll, Hearing.read, fed]
                  cases outcome with
                  | error error => simp [LineBuffer.commands, Feed.line?]
                  | ok feed => cases feed <;> simp [LineBuffer.commands, Feed.line?]
      | _ => rfl

theorem hearing_eq {past : List Deed} (granted : ∀ read ∈ reads past, read.1 = .unlimited) :
    let fed := ({} : LineBuffer).feedAll (chunks past)
    hearing past =
      ⟨fed.2, (LineBuffer.commands fed.1).map fun line => Command.ready? .unlimited line.1⟩ :=
  (foldl_read granted {}).trans (by simp [chunks])

def items (past : List Deed) : List Incoming := (reads past).map Prod.snd

theorem items_append (past later : List Deed) : items (past ++ later) = items past ++ items later := by
  simp only [items, reads, List.filterMap_append, List.map_append]

theorem chunks_of_pieces {past : List Deed} (granted : ∀ read ∈ reads past, read.1 = .unlimited)
    (each : ∀ piece ∈ pieces, IsPiece piece) (read : items past = pieces.map .bytes ++ [.endOfStream]) :
    chunks past = pieces.map fun piece => (.unlimited, piece) := by
  have all : reads past = (items past).map (.unlimited, ·) := by
    have same : ∀ read ∈ reads past, (Memory.unlimited, read.2) = id read := fun read member => by
      rw [← granted read member]
      rfl
    rw [items, List.map_map]
    exact ((List.map_congr_left same).trans (List.map_id _)).symm
  rw [chunks, all, read]
  clear granted read all
  induction pieces with
  | nil => rfl
  | cons piece pieces ih =>
      rw [List.forall_mem_cons] at each
      obtain ⟨first, rest, rfl⟩ := List.exists_cons_of_ne_nil each.1.filled
      simpa [chunk?] using ih each.2

/-- The same as has arrived, in parts: byte strings of it that are too long for a read of this size are cut
in two, again and again. -/
inductive Parts (size : Nat) (arrived : List Incoming) : List Incoming → Prop
  | whole : Parts size arrived arrived
  | cut {before front back after} : Parts size arrived (before ++ .bytes (front ++ back) :: after) →
      front ≠ [] → back ≠ [] → size < (front ++ back).length →
      Parts size arrived (before ++ .bytes front :: .bytes back :: after)

variable {size : Nat} {arrived items earlier lost : List Incoming} {item : Incoming} {sends : List Bytes}

theorem Parts.append (parts : Parts size arrived items) (more : List Incoming) :
    Parts size (arrived ++ more) (items ++ more) := by
  induction parts with
  | whole => exact .whole
  | cut _ filled others long ih =>
      simp only [List.append_assoc, List.cons_append] at ih ⊢
      exact .cut ih filled others long

theorem Parts.of_short (parts : Parts size arrived items)
    (short : ∀ data, .bytes data ∈ arrived → data.length ≤ size) : items = arrived := by
  induction parts with
  | whole => rfl
  | @cut before front back after _ _ _ long ih =>
      have fits := short (front ++ back) (ih ▸ List.mem_append_right before List.mem_cons_self)
      exact absurd long (Nat.not_lt.mpr fits)

theorem split_of_map {before after : List Incoming} {chunk : Bytes}
    (split : pieces.map .bytes ++ [.endOfStream] = before ++ .bytes chunk :: after) :
    ∃ first last, pieces = first ++ chunk :: last ∧ before = first.map .bytes ∧
      after = last.map .bytes ++ [.endOfStream] := by
  induction pieces generalizing before with
  | nil =>
      cases before with
      | nil => cases split
      | cons item before => simp at split
  | cons piece pieces ih =>
      cases before with
      | nil =>
          rw [List.map_cons, List.cons_append, List.nil_append, List.cons.injEq] at split
          obtain ⟨rfl, rfl⟩ := split.imp Incoming.bytes.inj Eq.symm
          exact ⟨[], pieces, rfl, rfl, rfl⟩
      | cons item before =>
          rw [List.map_cons, List.cons_append, List.cons_append, List.cons.injEq] at split
          obtain ⟨first, last, rfl, rfl, rfl⟩ := ih split.2
          exact ⟨piece :: first, last, rfl, by rw [List.map_cons, split.1], rfl⟩

theorem Parts.arePieces (parts : Parts size (sends.map .bytes ++ [.endOfStream]) items)
    (each : ∀ piece ∈ sends, IsPiece piece) :
    ∃ pieces : List Bytes, items = pieces.map .bytes ++ [.endOfStream] ∧ (∀ piece ∈ pieces, IsPiece piece) ∧
      pieces.flatten = sends.flatten := by
  induction parts with
  | whole => exact ⟨sends, rfl, each, rfl⟩
  | @cut before front back after _ filled more _ ih =>
      obtain ⟨pieces, same, each, text⟩ := ih
      obtain ⟨first, last, rfl, rfl, rfl⟩ := split_of_map same.symm
      simp only [List.forall_mem_append, List.forall_mem_cons] at each
      obtain ⟨pieceFront, pieceBack⟩ := each.2.1.split filled more
      refine ⟨first ++ front :: back :: last, by simp, ?_, by simpa using text⟩
      simp only [List.forall_mem_append, List.forall_mem_cons]
      exact ⟨each.1, pieceFront, pieceBack, each.2.2⟩

theorem Parts.receive {stream next : Stream} (positive : 1 ≤ size)
    (received : stream.receive? size = some (item, next))
    (parts : Parts size arrived (earlier ++ stream.incoming ++ lost)) :
    Parts size arrived (earlier ++ [item] ++ next.incoming ++ lost) := by
  simp only [Stream.receive?] at received
  cases incoming : stream.incoming with
  | nil => simp [incoming] at received
  | cons first later =>
      rw [incoming] at parts
      cases first with
      | bytes data =>
          simp only [incoming] at received
          cases rest : data.drop size with
          | nil =>
              simp only [rest] at received
              cases received
              simpa using parts
          | cons byte more =>
              simp only [rest] at received
              cases received
              have filled : data.take size ≠ [] := by
                intro nothing
                rcases List.take_eq_nil_iff.mp nothing with zero | rfl
                · omega
                · simp at rest
              have long : size < (data.take size ++ byte :: more).length := by
                rw [← rest, List.take_append_drop]
                exact Nat.not_le.mp fun fits => by simp [List.drop_eq_nil_of_le fits] at rest
              rw [← List.take_append_drop size data, rest] at parts
              simp only [List.append_assoc, List.cons_append, List.nil_append] at parts ⊢
              exact .cut parts filled (List.cons_ne_nil _ _) long
      | _ =>
          simp only [incoming] at received
          cases received
          simpa using parts

end CommandLog
