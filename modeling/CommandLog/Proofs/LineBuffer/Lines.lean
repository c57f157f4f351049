import CommandLog.LineBuffer
import Mathlib.Data.List.Forall2

/-!
Reads cut into lines. A line ends with the first read that brings a line feed; whether its reservations
are granted decides on its answers, and on nothing else. Main statement: the answers to all reads are
those of the lines, one after the other, so a line that could not be held takes no other with it.
-/

namespace CommandLog

namespace LineBuffer

abbrev Read := Memory × Bytes

def received (parts : List Read) : Bytes := (parts.map Prod.snd).flatten

/-- Whether memory grants each of these parts of a line, of which `held` bytes are there already. -/
def granted (held : Nat) : List Read → Bool
  | [] => true
  | (memory, part) :: parts =>
      memory.growsLine held part.length && granted (held + part.length) parts

/-- A line as it is read: the last read brings its line feed, and what stands behind it. -/
structure Line where
  opening : List Read
  memory : Memory
  front : Bytes
  behind : Bytes
  clean_opening : ∀ read ∈ opening, lineFeed ∉ read.2
  clean_front : lineFeed ∉ front

namespace Line

def reads (line : Line) : List Read :=
  line.opening ++ [(line.memory, line.front ++ lineFeed :: line.behind)]

def parts (line : Line) : List Read := line.opening ++ [(line.memory, line.front ++ [lineFeed])]

def isHeld (line : Line) : Bool := granted 0 line.parts

def command (line : Line) : Bytes × Nat := (received line.parts, line.behind.length)

/-- The answers to the reads of a line. A reservation that fails is reported with the bytes that the
line has then, and what comes of the line after that is passed over. -/
inductive Answers (line : Line) : List (Except LogError Feed) → Prop
  | held : line.isHeld = true →
      Answers line (List.replicate line.opening.length (.ok .incomplete) ++
        [.ok (.complete line.command.1 line.command.2)])
  | lost {early memory part late} : line.parts = early ++ (memory, part) :: late →
      granted 0 early = true → memory.growsLine (received early).length part.length = false →
      Answers line (List.replicate early.length (.ok .incomplete) ++
        .error (.allocation (received early ++ part).length) ::
          List.replicate late.length (.ok .incomplete))

end Line

inductive Unfinished (rest : List Read) : List (Except LogError Feed) → LineBuffer → Prop
  | held : granted 0 rest = true →
      Unfinished rest (List.replicate rest.length (.ok .incomplete)) ⟨received rest, false⟩
  | lost {early memory part late} : rest = early ++ (memory, part) :: late →
      granted 0 early = true → memory.growsLine (received early).length part.length = false →
      Unfinished rest (List.replicate early.length (.ok .incomplete) ++
        .error (.allocation (received early ++ part).length) ::
          List.replicate late.length (.ok .incomplete)) ⟨[], true⟩

def commands (answers : List (Except LogError Feed)) : List (Bytes × Nat) :=
  answers.filterMap fun
    | .ok (.complete line discarded) => some (line, discarded)
    | _ => none

def freed (reads : List Read) : List Read := reads.map fun read => (.unlimited, read.2)

variable {memory : Memory} {pending chunk front behind : Bytes} {early late parts rest reads : List Read}
variable {buffer : LineBuffer} {line : Line} {lines : List Line} {held : Nat}

theorem feed_open (going : buffer.discarding = false) (clean : lineFeed ∉ chunk)
    (open_ended : (buffer.pending ++ chunk).getLast? ≠ some lineFeed)
    (room : memory.growsLine buffer.pending.length chunk.length = true) :
    buffer.feed memory chunk =
      (.ok .incomplete, { buffer with pending := buffer.pending ++ chunk }) := by
  simp only [feed, going, Bool.false_eq_true, ↓reduceIte, Bytes.cutLine?_eq_none_iff.mpr clean,
    Option.getD_none, room, if_neg open_ended]

theorem feed_complete (going : buffer.discarding = false) (clean : lineFeed ∉ front)
    (room : memory.growsLine buffer.pending.length (front.length + 1) = true) :
    buffer.feed memory (front ++ lineFeed :: behind) =
      (.ok (.complete (buffer.pending ++ front ++ [lineFeed]) behind.length), {}) := by
  simp [feed, going, Bytes.cutLine?_append clean, room]

theorem feed_open_refused (going : buffer.discarding = false) (clean : lineFeed ∉ chunk)
    (refused : memory.growsLine buffer.pending.length chunk.length = false) :
    buffer.feed memory chunk =
      (.error (.allocation (buffer.pending ++ chunk).length), ⟨[], true⟩) := by
  simp [feed, going, Bytes.cutLine?_eq_none_iff.mpr clean, refused, clear]

theorem feed_complete_refused (going : buffer.discarding = false) (clean : lineFeed ∉ front)
    (refused : memory.growsLine buffer.pending.length (front.length + 1) = false) :
    buffer.feed memory (front ++ lineFeed :: behind) =
      (.error (.allocation (buffer.pending ++ (front ++ [lineFeed])).length), {}) := by
  simp [feed, going, Bytes.cutLine?_append clean, refused, clear]

theorem feedAll_append (buffer : LineBuffer) (early late : List Read) :
    buffer.feedAll (early ++ late) =
      ((buffer.feedAll early).1 ++ ((buffer.feedAll early).2.feedAll late).1,
        ((buffer.feedAll early).2.feedAll late).2) := by
  induction early generalizing buffer with
  | nil => rfl
  | cons read early ih => simp only [List.cons_append, feedAll, ih]

theorem feedAll_granted (clean : lineFeed ∉ pending) (cleanParts : ∀ part ∈ parts, lineFeed ∉ part.2)
    (room : granted pending.length parts = true) :
    (⟨pending, false⟩ : LineBuffer).feedAll parts =
      (List.replicate parts.length (.ok .incomplete), ⟨pending ++ received parts, false⟩) := by
  induction parts generalizing pending with
  | nil => simp [feedAll, received]
  | cons first parts ih =>
      obtain ⟨memory, part⟩ := first
      simp only [granted, Bool.and_eq_true] at room
      have cleanPart := cleanParts _ List.mem_cons_self
      have whole : lineFeed ∉ pending ++ part := by simpa [clean] using cleanPart
      have fed : (⟨pending, false⟩ : LineBuffer).feed memory part = _ :=
        feed_open rfl cleanPart (fun last => whole (List.mem_of_getLast? last)) room.1
      rw [← List.length_append] at room
      have more := ih whole (fun part member => cleanParts part (List.mem_cons_of_mem _ member)) room.2
      simp only [feedAll, fed, more, List.length_cons, List.replicate_succ, received, List.map_cons,
        List.flatten_cons, List.append_assoc]

theorem feedAll_passed (cleanParts : ∀ part ∈ parts, lineFeed ∉ part.2) :
    (⟨[], true⟩ : LineBuffer).feedAll parts =
      (List.replicate parts.length (.ok .incomplete), ⟨[], true⟩) := by
  induction parts with
  | nil => rfl
  | cons first parts ih =>
      obtain ⟨memory, part⟩ := first
      have cut := Bytes.cutLine?_eq_none_iff.mpr (cleanParts _ List.mem_cons_self)
      have more := ih fun part member => cleanParts part (List.mem_cons_of_mem _ member)
      simp only [feedAll, feed, ↓reduceIte, cut, Option.isNone_none, more, List.length_cons,
        List.replicate_succ]

theorem granted_append : granted held (early ++ late) =
    (granted held early && granted (held + (received early).length) late) := by
  induction early generalizing held with
  | nil => simp [granted, received]
  | cons first early ih =>
      simp only [List.cons_append, granted, ih, received, List.map_cons, List.flatten_cons,
        List.length_append, Bool.and_assoc, Nat.add_assoc]

theorem granted_freed (held : Nat) (parts : List Read) : granted held (freed parts) = true := by
  induction parts generalizing held with
  | nil => rfl
  | cons first parts ih =>
      exact Bool.and_eq_true_iff.mpr ⟨Memory.growsLine_unlimited _ _, ih _⟩

theorem exists_refused (lost : granted held parts = false) :
    ∃ early memory part late, parts = early ++ (memory, part) :: late ∧ granted held early = true ∧
      memory.growsLine (held + (received early).length) part.length = false := by
  induction parts generalizing held with
  | nil => cases lost
  | cons first parts ih =>
      obtain ⟨memory, part⟩ := first
      cases room : memory.growsLine held part.length with
      | false => exact ⟨[], memory, part, parts, rfl, rfl, by simpa [received] using room⟩
      | true =>
          simp only [granted, room, Bool.true_and] at lost
          obtain ⟨early, other, refused, late, rfl, before, fails⟩ := ih lost
          refine ⟨(memory, part) :: early, other, refused, late, rfl, ?_, ?_⟩
          · simp only [granted, room, before, Bool.true_and]
          · simpa [received, Nat.add_assoc] using fails

theorem received_append : received (early ++ late) = received early ++ received late := by
  simp [received]

theorem received_one (memory : Memory) (part : Bytes) : received [(memory, part)] = part := by
  simp [received]

theorem feedAll_lost (clean : ∀ part ∈ early ++ (memory, chunk) :: late, lineFeed ∉ part.2)
    (before : granted 0 early = true)
    (fails : memory.growsLine (received early).length chunk.length = false) :
    feedAll {} (early ++ (memory, chunk) :: late) =
      (List.replicate early.length (.ok .incomplete) ++
        .error (.allocation (received early ++ chunk).length) ::
          List.replicate late.length (.ok .incomplete), ⟨[], true⟩) := by
  simp only [List.forall_mem_append, List.forall_mem_cons] at clean
  have first : feedAll {} early = _ := feedAll_granted List.not_mem_nil clean.1 before
  have refused : (⟨received early, false⟩ : LineBuffer).feed memory chunk = _ :=
    feed_open_refused rfl clean.2.1 fails
  simp only [feedAll_append, first, feedAll, List.nil_append, refused, feedAll_passed clean.2.2]

theorem exists_unfinished (clean : ∀ read ∈ rest, lineFeed ∉ read.2) :
    ∃ last buffer, Unfinished rest last buffer ∧ feedAll {} rest = (last, buffer) := by
  cases room : granted 0 rest with
  | true => exact ⟨_, _, .held room, by simpa using feedAll_granted List.not_mem_nil clean room⟩
  | false =>
      obtain ⟨early, memory, part, late, rfl, before, fails⟩ := exists_refused room
      rw [Nat.zero_add] at fails
      exact ⟨_, _, .lost rfl before fails, feedAll_lost clean before fails⟩

namespace Line

theorem feedAll_reads (line : Line) :
    ∃ answers, line.Answers answers ∧ feedAll {} line.reads = (answers, {}) := by
  cases room : granted 0 line.opening with
  | true =>
      have first : feedAll {} line.opening = _ := feedAll_granted List.not_mem_nil line.clean_opening room
      rw [List.nil_append] at first
      cases ended : line.memory.growsLine (received line.opening).length (line.front.length + 1) with
      | true =>
          have whole : line.isHeld = true := by simp [isHeld, parts, granted_append, granted, room, ended]
          have last : (⟨received line.opening, false⟩ : LineBuffer).feed line.memory
              (line.front ++ lineFeed :: line.behind) = _ := feed_complete rfl line.clean_front ended
          refine ⟨_, .held whole, ?_⟩
          simp [reads, feedAll_append, first, feedAll, last, command, parts, received_append, received_one]
      | false =>
          have last : (⟨received line.opening, false⟩ : LineBuffer).feed line.memory
              (line.front ++ lineFeed :: line.behind) = _ :=
            feed_complete_refused rfl line.clean_front ended
          have parts : line.parts = line.opening ++ [(line.memory, line.front ++ [lineFeed])] := rfl
          refine ⟨_, .lost parts room (by simpa using ended), ?_⟩
          simp [reads, feedAll_append, first, feedAll, last]
  | false =>
      obtain ⟨early, memory, part, late, opening, before, fails⟩ := exists_refused room
      rw [Nat.zero_add] at fails
      have lost : feedAll {} line.opening = _ :=
        opening ▸ feedAll_lost (opening ▸ line.clean_opening) before fails
      have parts : line.parts =
          early ++ (memory, part) :: (late ++ [(line.memory, line.front ++ [lineFeed])]) := by
        simp [parts, opening]
      -- The last read brings the line feed, so the next read starts a line.
      refine ⟨_, .lost parts before fails, ?_⟩
      simp [reads, feedAll_append, lost, feedAll, feed, Bytes.cutLine?_append line.clean_front,
        List.replicate_succ']

theorem Answers.commands_eq {answers : List (Except LogError Feed)} (own : line.Answers answers) :
    commands answers = if line.isHeld then [line.command] else [] := by
  cases own with
  | held room => simp [commands, room]
  | lost parts before fails =>
      have gone : line.isHeld = false := by
        simp [isHeld, parts, granted_append, granted, before, fails]
      simp [commands, gone]

theorem commands_flatten {answers : List (List (Except LogError Feed))}
    (each : List.Forall₂ Answers lines answers) :
    commands answers.flatten = (lines.filter isHeld).map command := by
  induction each with
  | nil => rfl
  | @cons line answers lines later own _ ih =>
      have apart : commands (answers ++ later.flatten) = commands answers ++ commands later.flatten :=
        List.filterMap_append
      rw [List.flatten_cons, apart, own.commands_eq, ih, List.filter_cons]
      cases line.isHeld <;> rfl

def freed (line : Line) : Line where
  opening := LineBuffer.freed line.opening
  memory := .unlimited
  front := line.front
  behind := line.behind
  clean_opening := List.forall_mem_map.mpr line.clean_opening
  clean_front := line.clean_front

theorem reads_freed (line : Line) : line.freed.reads = LineBuffer.freed line.reads := by
  simp [freed, LineBuffer.freed, reads]

theorem isHeld_freed (line : Line) : line.freed.isHeld = true := by
  have parts : line.freed.parts = LineBuffer.freed line.parts := by
    simp [freed, LineBuffer.freed, Line.parts]
  rw [isHeld, parts, granted_freed]

theorem command_freed (line : Line) : line.freed.command = line.command := by
  simp [command, freed, LineBuffer.freed, Line.parts, received, Function.comp_def]

end Line

theorem Unfinished.commands_nil {last : List (Except LogError Feed)}
    (unfinished : Unfinished rest last buffer) : commands last = [] := by
  cases unfinished <;> simp [commands]

theorem Unfinished.state (clean : ∀ read ∈ rest, lineFeed ∉ read.2)
    {last : List (Except LogError Feed)} (unfinished : Unfinished rest last buffer) :
    lineFeed ∉ buffer.pending ∧ (buffer.discarding = true → buffer.pending = []) := by
  cases unfinished with
  | held =>
      refine ⟨fun member => ?_, nofun⟩
      obtain ⟨part, among, member⟩ := List.mem_flatten.mp member
      obtain ⟨read, arrived, rfl⟩ := List.mem_map.mp among
      exact clean read arrived member
  | lost => simp

theorem exists_lines (reads : List Read) : ∃ (lines : List Line) (rest : List Read),
    reads = lines.flatMap Line.reads ++ rest ∧ ∀ read ∈ rest, lineFeed ∉ read.2 := by
  induction reads with
  | nil => exact ⟨[], [], rfl, nofun⟩
  | cons read reads ih =>
      obtain ⟨memory, chunk⟩ := read
      obtain ⟨lines, rest, rfl, clean⟩ := ih
      by_cases ends : lineFeed ∈ chunk
      · obtain ⟨front, behind, rfl, cleanFront⟩ := List.eq_append_cons_of_mem ends
        exact ⟨⟨[], memory, front, behind, nofun, cleanFront⟩ :: lines, rest, by simp [Line.reads], clean⟩
      · cases lines with
        | nil => exact ⟨[], (memory, chunk) :: rest, rfl, by simpa [ends] using clean⟩
        | cons line lines =>
            have cleanOpening : ∀ read ∈ (memory, chunk) :: line.opening, lineFeed ∉ read.2 := by
              simpa [ends] using fun memory part => line.clean_opening (memory, part)
            exact ⟨{ line with opening := _, clean_opening := cleanOpening } :: lines, rest,
              by simp [Line.reads], clean⟩

theorem feedAll_lines (lines : List Line) (clean : ∀ read ∈ rest, lineFeed ∉ read.2) :
    ∃ answers last buffer, List.Forall₂ Line.Answers lines answers ∧ Unfinished rest last buffer ∧
      feedAll {} (lines.flatMap Line.reads ++ rest) = (answers.flatten ++ last, buffer) := by
  induction lines with
  | nil =>
      obtain ⟨last, buffer, unfinished, fed⟩ := exists_unfinished clean
      exact ⟨[], last, buffer, .nil, unfinished, fed⟩
  | cons line lines ih =>
      obtain ⟨own, answered, first⟩ := line.feedAll_reads
      obtain ⟨answers, last, buffer, each, unfinished, fed⟩ := ih
      refine ⟨own :: answers, last, buffer, .cons answered each, unfinished, ?_⟩
      simp only [List.flatMap_cons, List.append_assoc, feedAll_append _ line.reads, first, fed,
        List.flatten_cons]

theorem commands_feedAll (lines : List Line) (clean : ∀ read ∈ rest, lineFeed ∉ read.2) :
    commands (feedAll {} (lines.flatMap Line.reads ++ rest)).1 =
      (lines.filter Line.isHeld).map Line.command := by
  obtain ⟨answers, last, buffer, each, unfinished, fed⟩ := feedAll_lines lines clean
  rw [fed, commands, List.filterMap_append]
  exact (congrArg₂ _ (Line.commands_flatten each) unfinished.commands_nil).trans (List.append_nil _)

/-- Whatever is read, and whatever memory each read meets, the reads are those of some lines, one after the
other, and of a rest without a line feed, and so are the answers. Each line that is held is answered with
its command, and with how much has been dropped behind it, and one that could not be held with none. Had
all been granted, every line would have been. -/
theorem feedAll_line_by_line (reads : List Read) :
    ∃ lines rest, reads = lines.flatMap Line.reads ++ rest ∧ (∀ read ∈ rest, lineFeed ∉ read.2) ∧
      (∃ answers last buffer, List.Forall₂ Line.Answers lines answers ∧ Unfinished rest last buffer ∧
        feedAll {} reads = (answers.flatten ++ last, buffer) ∧
        lineFeed ∉ buffer.pending ∧ (buffer.discarding = true → buffer.pending = [])) ∧
      commands (feedAll {} reads).1 = (lines.filter Line.isHeld).map Line.command ∧
      commands (feedAll {} (freed reads)).1 = lines.map Line.command := by
  obtain ⟨lines, rest, rfl, clean⟩ := exists_lines reads
  obtain ⟨answers, last, buffer, each, unfinished, fed⟩ := feedAll_lines lines clean
  refine ⟨lines, rest, rfl, clean, ⟨answers, last, buffer, each, unfinished, fed, unfinished.state clean⟩,
    commands_feedAll lines clean, ?_⟩
  have cleanFreed : ∀ read ∈ freed rest, lineFeed ∉ read.2 := List.forall_mem_map.mpr clean
  have same : freed (lines.flatMap Line.reads ++ rest) =
      (lines.map Line.freed).flatMap Line.reads ++ freed rest := by
    simp [freed, Line.reads_freed, List.flatMap_map, List.map_flatMap]
  rw [same, commands_feedAll _ cleanFreed, List.filter_eq_self.mpr (by simp [Line.isHeld_freed])]
  simp [Line.command_freed, Function.comp_def]

-- The second read cannot be held, so its line is passed over up to its line feed and no further.
example : feedAll {} [(.below 3, [97]), (.below 3, [98, 99]), (.below 3, [100, 10, 101]), (.below 3, [98, 10])] =
    ([.ok .incomplete, .error (.allocation 3), .ok .incomplete, .ok (.complete [98, 10] 0)], {}) := rfl

end LineBuffer

end CommandLog
