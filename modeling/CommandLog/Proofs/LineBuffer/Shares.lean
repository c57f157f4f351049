import CommandLog.Proofs.LineBuffer.Lines
import CommandLog.Proofs.Text.Unambiguous
import Mathlib.Algebra.BigOperators.Group.List.Basic
import Mathlib.Algebra.GroupWithZero.Nat

/-!
What becomes of the bytes that are read. Each byte has one share: it is in a command, counted as dropped,
pending, part of a line that was refused, or behind the line feed of such a line. Main statement: the
shares are what the answers tell of them, but for the last, which no answer tells of. So nothing is lost
without a word exactly when no refused line has bytes behind it.
-/

namespace CommandLog.LineBuffer

structure IsCut (reads : List Read) (lines : List Line) (rest : List Read) : Prop where
  whole : reads = lines.flatMap Line.reads ++ rest
  clean : ∀ read ∈ rest, lineFeed ∉ read.2

inductive Fate where
  | returned
  | counted
  | pending
  | refused
  | untold
deriving DecidableEq, Repr

abbrev Share := Fate × Bytes

/-- The shares of a line: its own bytes, up to its line feed, and those behind it in the same read. -/
def Line.shares (line : Line) : List Share :=
  if line.isHeld then [(.returned, received line.parts), (.counted, line.behind)]
  else [(.refused, received line.parts), (.untold, line.behind)]

def restShares (rest : List Read) : List Share :=
  if granted 0 rest then [(.pending, received rest)] else [(.refused, received rest)]

def shares (lines : List Line) (rest : List Read) : List Share :=
  lines.flatMap Line.shares ++ restShares rest

def withFate (fate : Fate) (shares : List Share) : List Bytes :=
  (shares.filter fun share => share.1 == fate).map Prod.snd

def refusals (answers : List (Except LogError Feed)) : List Nat :=
  answers.filterMap fun
    | .error (.allocation requested) => some requested
    | _ => none

def TellsDropped (reads : List Read) : Prop :=
  ∀ early memory front behind late, reads = early ++ (memory, front ++ lineFeed :: behind) :: late →
    lineFeed ∉ front → behind ≠ [] →
      ∃ command, (feedAll {} reads).1[early.length]? = some (.ok (.complete command behind.length))

/-- The bytes in commands, those that are counted as dropped, those still pending and those of refused
lines are all there are; and every number of dropped bytes is told. -/
def Accounted (reads : List Read) : Prop :=
  TellsDropped reads ∧ ∃ lines rest, IsCut reads lines rest ∧
    (received reads).length =
      ((commands (feedAll {} reads).1).map fun (line, dropped) => line.length + dropped).sum +
        (feedAll {} reads).2.pending.length +
        (withFate .refused (shares lines rest)).flatten.length

variable {memory : Memory} {chunk front behind : Bytes} {early late rest otherRest reads : List Read}
variable {line other : Line} {lines otherLines : List Line} {answers : List (Except LogError Feed)}

theorem Line.reads_append_inj {first second : List Read} (same : line.reads ++ first = other.reads ++ second) :
    line = other ∧ first = second := by
  have passed (line : Line) : ∀ read ∈ line.opening, decide (lineFeed ∉ read.2) = true :=
    fun read member => decide_eq_true (line.clean_opening read member)
  have stops (line : Line) :
      decide (lineFeed ∉ (line.memory, line.front ++ lineFeed :: line.behind).2) = false := by
    simp
  simp only [reads, List.append_assoc, List.singleton_append] at same
  obtain ⟨openings, closings⟩ := append_cons_inj (fun read : Read => decide (lineFeed ∉ read.2))
    (passed line) (passed other) (stops line) (stops other) same
  obtain ⟨closing, rests⟩ := List.cons.inj closings
  obtain ⟨memories, chunks⟩ := Prod.mk.inj closing
  have apart : ∀ byte ∈ line.front, (byte != lineFeed) = true := fun byte member =>
    bne_iff_ne.mpr fun feed => line.clean_front (feed ▸ member)
  have alsoApart : ∀ byte ∈ other.front, (byte != lineFeed) = true := fun byte member =>
    bne_iff_ne.mpr fun feed => other.clean_front (feed ▸ member)
  obtain ⟨fronts, behinds⟩ := append_cons_inj (· != lineFeed) apart alsoApart rfl rfl chunks
  refine ⟨?_, rests⟩
  cases line
  cases other
  simp_all

theorem lines_append_inj (clean : ∀ read ∈ rest, lineFeed ∉ read.2)
    (otherClean : ∀ read ∈ otherRest, lineFeed ∉ read.2)
    (same : lines.flatMap Line.reads ++ rest = otherLines.flatMap Line.reads ++ otherRest) :
    lines = otherLines ∧ rest = otherRest := by
  have ends (line : Line) (reads : List Read) :
      ∃ read ∈ line.reads ++ reads, lineFeed ∈ read.2 :=
    ⟨(line.memory, line.front ++ lineFeed :: line.behind), by simp [Line.reads], by simp⟩
  induction lines generalizing otherLines with
  | nil =>
      cases otherLines with
      | nil => exact ⟨rfl, same⟩
      | cons line otherLines =>
          rw [List.flatMap_nil, List.nil_append, List.flatMap_cons, List.append_assoc] at same
          obtain ⟨read, member, feed⟩ := ends line (otherLines.flatMap Line.reads ++ otherRest)
          exact absurd feed (clean read (same ▸ member))
  | cons line lines ih =>
      rw [List.flatMap_cons, List.append_assoc] at same
      cases otherLines with
      | nil =>
          rw [List.flatMap_nil, List.nil_append] at same
          obtain ⟨read, member, feed⟩ := ends line (lines.flatMap Line.reads ++ rest)
          exact absurd feed (otherClean read (same ▸ member))
      | cons other otherLines =>
          rw [List.flatMap_cons, List.append_assoc] at same
          obtain ⟨rfl, later⟩ := Line.reads_append_inj same
          obtain ⟨rfl, last⟩ := ih later
          exact ⟨rfl, last⟩

theorem IsCut.unique (cut : IsCut reads lines rest) (other : IsCut reads otherLines otherRest) :
    lines = otherLines ∧ rest = otherRest :=
  lines_append_inj cut.clean other.clean (cut.whole.symm.trans other.whole)

theorem exists_cut (reads : List Read) : ∃ lines rest, IsCut reads lines rest := by
  obtain ⟨lines, rest, whole, clean⟩ := exists_lines reads
  exact ⟨lines, rest, whole, clean⟩

theorem withFate_append (fate : Fate) (first second : List Share) :
    withFate fate (first ++ second) = withFate fate first ++ withFate fate second := by
  simp [withFate]

theorem Line.received_reads (line : Line) :
    received line.reads = (line.shares.map Prod.snd).flatten := by
  cases held : line.isHeld <;>
    simp [reads, shares, held, parts, received]

theorem received_lines (lines : List Line) :
    received (lines.flatMap Line.reads) = ((lines.flatMap Line.shares).map Prod.snd).flatten := by
  induction lines with
  | nil => rfl
  | cons line lines ih =>
      rw [List.flatMap_cons, List.flatMap_cons, received_append, ih, line.received_reads,
        List.map_append, List.flatten_append]

theorem received_rest (rest : List Read) : received rest = ((restShares rest).map Prod.snd).flatten := by
  cases room : granted 0 rest <;> simp [restShares, room]

theorem IsCut.received_eq (cut : IsCut reads lines rest) :
    received reads = ((shares lines rest).map Prod.snd).flatten := by
  rw [cut.whole, received_append, received_lines, received_rest, shares, List.map_append,
    List.flatten_append]

theorem length_flatten_shares (shares : List Share) :
    (shares.map Prod.snd).flatten.length =
      (withFate .returned shares).flatten.length + (withFate .counted shares).flatten.length +
        (withFate .pending shares).flatten.length + (withFate .refused shares).flatten.length +
        (withFate .untold shares).flatten.length := by
  induction shares with
  | nil => rfl
  | cons share shares ih =>
      obtain ⟨fate, bytes⟩ := share
      simp only [List.map_cons, List.flatten_cons, List.length_append, ih, withFate, List.filter_cons]
      cases fate <;> simp <;> omega

/-- The answers tell which bytes are in commands and how many are dropped behind those, and of each line
that is refused, how much of it could not be held. -/
structure Tells (answers : List (Except LogError Feed)) (shares : List Share) : Prop where
  returned : withFate .returned shares = (commands answers).map Prod.fst
  counted : (withFate .counted shares).map List.length = (commands answers).map Prod.snd
  refused : List.Forall₂ (fun bytes requested => requested ≤ bytes.length) (withFate .refused shares)
    (refusals answers)

theorem Tells.append {later : List (Except LogError Feed)} {first second : List Share}
    (tells : Tells answers first) (goesOn : Tells later second) :
    Tells (answers ++ later) (first ++ second) where
  returned := by
    rw [withFate_append, tells.returned, goesOn.returned, commands, commands, commands,
      List.filterMap_append, List.map_append]
  counted := by
    rw [withFate_append, List.map_append, tells.counted, goesOn.counted, commands, commands, commands,
      List.filterMap_append, List.map_append]
  refused := by
    rw [withFate_append, refusals, List.filterMap_append]
    exact List.rel_append tells.refused goesOn.refused

theorem Line.Answers.tells (own : line.Answers answers) : Tells answers line.shares := by
  cases own with
  | held room =>
      constructor <;> simp [shares, room, withFate, commands, refusals, command]
  | @lost early memory part late parts before fails =>
      have gone : line.isHeld = false := by
        simp [isHeld, parts, granted_append, granted, before, fails]
      constructor
      · simp [shares, gone, withFate, commands]
      · simp [shares, gone, withFate, commands]
      · simp [shares, gone, withFate, refusals, parts, received]

theorem Unfinished.tells {last : List (Except LogError Feed)} {buffer : LineBuffer}
    (unfinished : Unfinished rest last buffer) : Tells last (restShares rest) ∧
      (withFate .pending (restShares rest)).flatten = buffer.pending := by
  cases unfinished with
  | held room =>
      refine ⟨?_, by simp [restShares, room, withFate]⟩
      constructor <;> simp [restShares, room, withFate, commands, refusals]
  | @lost early memory part late rest before fails =>
      have gone : granted 0 (early ++ (memory, part) :: late) = false := by
        simp [granted_append, granted, before, fails]
      subst rest
      refine ⟨?_, by simp [restShares, gone, withFate]⟩
      constructor
      · simp [restShares, gone, withFate, commands]
      · simp [restShares, gone, withFate, commands]
      · simp [restShares, gone, withFate, refusals, received]

theorem tells_lines {each : List (List (Except LogError Feed))}
    (answered : List.Forall₂ Line.Answers lines each) :
    Tells each.flatten (lines.flatMap Line.shares) := by
  induction answered with
  | nil => exact ⟨rfl, rfl, .nil⟩
  | cons own _ ih => exact own.tells.append ih

theorem pending_lines (lines : List Line) : withFate .pending (lines.flatMap Line.shares) = [] := by
  induction lines with
  | nil => rfl
  | cons line lines ih =>
      rw [List.flatMap_cons, withFate_append, ih, Line.shares]
      split <;> rfl

theorem IsCut.tells (cut : IsCut reads lines rest) :
    Tells (feedAll {} reads).1 (shares lines rest) ∧
      (withFate .pending (shares lines rest)).flatten = (feedAll {} reads).2.pending := by
  obtain ⟨each, last, buffer, answered, unfinished, fed⟩ := feedAll_lines lines cut.clean
  rw [cut.whole, fed, shares, withFate_append, pending_lines]
  exact ⟨(tells_lines answered).append unfinished.tells.1, unfinished.tells.2⟩

theorem length_feedAll (buffer : LineBuffer) (reads : List Read) :
    (buffer.feedAll reads).1.length = reads.length := by
  induction reads generalizing buffer with
  | nil => rfl
  | cons read reads ih => simp only [feedAll, List.length_cons, ih]

theorem answer_at (early : List Read) (memory : Memory) (chunk : Bytes) (late : List Read) :
    (feedAll {} (early ++ (memory, chunk) :: late)).1[early.length]? =
      some ((feedAll {} early).2.feed memory chunk).1 := by
  have length := length_feedAll {} early
  simp only [feedAll_append, feedAll]
  rw [List.getElem?_append_right length.le, length, Nat.sub_self, List.getElem?_cons_zero]

theorem feedAll_lines_state (lines : List Line) : (feedAll {} (lines.flatMap Line.reads)).2 = {} := by
  have clean : ∀ read ∈ ([] : List Read), lineFeed ∉ read.2 := nofun
  obtain ⟨each, last, buffer, _, unfinished, fed⟩ := feedAll_lines lines clean
  rw [List.append_nil] at fed
  rw [fed]
  cases unfinished with
  | held => rfl
  | lost rest => simp at rest

theorem Line.told_iff (line : Line) :
    (∃ command, ((feedAll {} line.opening).2.feed line.memory (line.front ++ lineFeed :: line.behind)).1 =
      .ok (.complete command line.behind.length)) ↔ line.isHeld = true := by
  obtain ⟨own, answered, fed⟩ := line.feedAll_reads
  have last : own = (feedAll {} line.opening).1 ++
      [((feedAll {} line.opening).2.feed line.memory (line.front ++ lineFeed :: line.behind)).1] := by
    have answers := congrArg Prod.fst fed
    simpa only [reads, feedAll_append, feedAll] using answers.symm
  constructor
  · rintro ⟨command, told⟩
    have commands := answered.commands_eq
    rw [last, told] at commands
    cases held : line.isHeld with
    | true => rfl
    | false => simp [LineBuffer.commands, held] at commands
  · intro held
    cases answered with
    | held => exact ⟨line.command.1, (List.cons.inj (List.append_inj' last rfl).2).1.symm⟩
    | lost parts before fails =>
        have commands := (Answers.lost parts before fails).commands_eq
        simp [LineBuffer.commands, held] at commands

theorem IsCut.tellsDropped_iff (cut : IsCut reads lines rest) :
    TellsDropped reads ↔ ∀ line ∈ lines, line.isHeld = false → line.behind = [] := by
  have state (before : List Line) (opening : List Read) :
      (feedAll {} (before.flatMap Line.reads ++ opening)).2 = (feedAll {} opening).2 := by
    rw [feedAll_append, feedAll_lines_state]
  constructor
  · intro told line member gone
    by_contra filled
    obtain ⟨before, after, rfl⟩ := List.append_of_mem member
    have split : reads = (before.flatMap Line.reads ++ line.opening) ++
        (line.memory, line.front ++ lineFeed :: line.behind) :: (after.flatMap Line.reads ++ rest) := by
      rw [cut.whole]
      simp [Line.reads]
    obtain ⟨command, answer⟩ := told _ _ _ _ _ split line.clean_front filled
    rw [split, answer_at, state, Option.some.injEq] at answer
    exact absurd (line.told_iff.mp ⟨command, answer⟩) (Bool.eq_false_iff.mp gone)
  · rintro empty early memory front behind late rfl clean filled
    obtain ⟨before, opening, first⟩ := exists_cut early
    obtain ⟨after, last, second⟩ := exists_cut late
    let line : Line := ⟨opening, memory, front, behind, first.clean, clean⟩
    have other : IsCut (early ++ (memory, front ++ lineFeed :: behind) :: late) (before ++ line :: after)
        last := by
      refine ⟨?_, second.clean⟩
      rw [first.whole, second.whole]
      simp [line, Line.reads]
    obtain ⟨rfl, rfl⟩ := cut.unique other
    have held : line.isHeld = true := by
      cases held : line.isHeld with
      | true => rfl
      | false => exact absurd (empty line (by simp) held) filled
    obtain ⟨command, answer⟩ := line.told_iff.mpr held
    refine ⟨command, ?_⟩
    rw [answer_at, first.whole, state, answer]

theorem withFate_untold (lines : List Line) (rest : List Read) :
    (withFate .untold (shares lines rest)).flatten = [] ↔
      ∀ line ∈ lines, line.isHeld = false → line.behind = [] := by
  have last : withFate .untold (restShares rest) = [] := by
    unfold restShares
    split <;> rfl
  rw [shares, withFate_append, last, List.append_nil]
  induction lines with
  | nil => simp [withFate]
  | cons line lines ih =>
      rw [List.flatMap_cons, withFate_append, List.flatten_append, List.append_eq_nil_iff,
        List.forall_mem_cons]
      refine and_congr ?_ ih
      cases held : line.isHeld <;> simp [Line.shares, held, withFate]

theorem IsCut.length_received (cut : IsCut reads lines rest) :
    (received reads).length =
      ((commands (feedAll {} reads).1).map fun (line, dropped) => line.length + dropped).sum +
        (feedAll {} reads).2.pending.length + (withFate .refused (shares lines rest)).flatten.length +
        (withFate .untold (shares lines rest)).flatten.length := by
  obtain ⟨tells, pending⟩ := cut.tells
  have returned := congrArg (fun texts => (texts.map List.length).sum) tells.returned
  have counted := congrArg List.sum tells.counted
  rw [cut.received_eq, length_flatten_shares, ← pending]
  simp only [List.length_flatten, List.map_map, Function.comp_def, List.sum_map_add] at returned counted ⊢
  omega

theorem IsCut.accounted_iff (cut : IsCut reads lines rest) :
    Accounted reads ↔ ∀ line ∈ lines, line.isHeld = false → line.behind = [] := by
  rw [Accounted, cut.tellsDropped_iff, and_iff_left_iff_imp]
  intro empty
  have untold := (withFate_untold lines rest).mpr empty
  exact ⟨lines, rest, cut, by rw [cut.length_received, untold, List.length_nil, Nat.add_zero]⟩

/-- Every byte that is read has one share. The answers tell which bytes are in commands, how many are
dropped behind those, and of each refused line how much could not be held; pending bytes are kept. What
stands behind the line feed of a refused line is dropped without a word, and nothing else is. -/
theorem received_accounted (reads : List Read) :
    ∃ lines rest, IsCut reads lines rest ∧
      received reads = ((shares lines rest).map Prod.snd).flatten ∧
      Tells (feedAll {} reads).1 (shares lines rest) ∧
      (withFate .pending (shares lines rest)).flatten = (feedAll {} reads).2.pending ∧
      (Accounted reads ↔ ∀ line ∈ lines, line.isHeld = false → line.behind = []) := by
  obtain ⟨lines, rest, cut⟩ := exists_cut reads
  exact ⟨lines, rest, cut, cut.received_eq, cut.tells.1, cut.tells.2, cut.accounted_iff⟩

/-- Three bytes behind a refused line are not told of, whether the line is refused in the read that ends
it or before. -/
theorem dropped_untold :
    let line : Bytes := List.replicate 9 97
    let behind : Bytes := [120, 121, 122]
    (feedAll {} [(.below 8, line ++ lineFeed :: behind)] = ([.error (.allocation 10)], {}) ∧
      ¬ Accounted [(.below 8, line ++ lineFeed :: behind)]) ∧
    feedAll {} [(.below 8, line), (.unlimited, line ++ lineFeed :: behind)] =
        ([.error (.allocation 9), .ok .incomplete], {}) ∧
      ¬ Accounted [(.below 8, line), (.unlimited, line ++ lineFeed :: behind)] := by
  intro line behind
  have clean : lineFeed ∉ line := by decide
  refine ⟨⟨rfl, fun accounted => ?_⟩, rfl, fun accounted => ?_⟩
  · obtain ⟨command, told⟩ := accounted.1 [] (.below 8) line behind [] rfl clean (by decide)
    cases told
  · obtain ⟨command, told⟩ := accounted.1 [(.below 8, line)] .unlimited line behind [] rfl clean (by decide)
    cases told

end CommandLog.LineBuffer
