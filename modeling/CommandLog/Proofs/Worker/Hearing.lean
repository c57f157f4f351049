import CommandLog.Proofs.Worker.Account

/-!
What a session hears of its client, and what it says. The reads of a session determine the commands that
it asks the log for and those that it refuses, and with the outcomes of the former all of its replies.
-/

namespace CommandLog

/-- What the reads of a session have come to: the unfinished line, and for each line that is complete
its command, when the log can be asked for it. -/
structure Hearing where
  line : LineBuffer := {}
  heard : List (Option Command) := []

namespace Hearing

def read (hearing : Hearing) (memory : Memory) : Incoming → Hearing
  | .bytes (first :: rest) =>
      let (outcome, line) := hearing.line.feed memory (first :: rest)
      ⟨line, hearing.heard ++ ((Feed.line? outcome).map (Command.ready? memory)).toList⟩
  | _ => hearing

theorem read_of_bytes {hearing : Hearing} {memory : Memory} {chunk : Bytes} (filled : chunk ≠ []) :
    hearing.read memory (.bytes chunk) = ⟨(hearing.line.feed memory chunk).2, hearing.heard ++
      ((Feed.line? (hearing.line.feed memory chunk).1).map (Command.ready? memory)).toList⟩ := by
  cases chunk with
  | nil => exact absurd rfl filled
  | cons first rest => rfl

theorem heard_prefix_read (hearing : Hearing) (memory : Memory) (item : Incoming) :
    hearing.heard <+: (hearing.read memory item).heard := by
  cases item with
  | bytes chunk =>
      cases chunk with
      | nil => exact List.prefix_rfl
      | cons first rest => exact List.prefix_append _ _
  | _ => exact List.prefix_rfl

end Hearing

@[simp] def Deed.read? : Deed → Option (Memory × Incoming)
  | .reads memory item => some (memory, item)
  | _ => none

def reads (past : List Deed) : List (Memory × Incoming) := past.filterMap Deed.read?

theorem Worker.memory_of_reads {memory other : Memory} {item : Incoming} {before after : Worker}
    (member : .reads other item ∈ before.deeds memory after) : other = memory := by
  have unread (point : Point) : .reads other item ∉ point.reply := by cases point <;> simp [Point.reply]
  have performed (member : .reads other item ∈ before.performs memory) : other = memory := by
    simp only [performs] at member
    split at member
    · split at member <;> simp_all
    · split at member
      · cases member
      · split at member <;> simp at member
    · split at member <;> simp at member
    · cases member
  simp only [deeds] at member
  split at member
  · exact performed member
  · exact performed ((List.mem_append.mp member).resolve_right (unread _))

def hearing (past : List Deed) : Hearing :=
  (reads past).foldl (fun hearing read => hearing.read read.1 read.2) {}

theorem hearing_append (past later : List Deed) : hearing (past ++ later) =
    (reads later).foldl (fun hearing read => hearing.read read.1 read.2) (hearing past) := by
  simp only [hearing, reads, List.filterMap_append, List.foldl_append]

theorem heard_prefix_append (past later : List Deed) :
    (hearing past).heard <+: (hearing (past ++ later)).heard := by
  rw [hearing_append]
  generalize hearing past = hearing
  induction reads later generalizing hearing with
  | nil => exact List.prefix_rfl
  | cons read later ih => exact (hearing.heard_prefix_read read.1 read.2).trans (ih _)

def commands (heard : List (Option Command)) : List Command := heard.filterMap id

/-- The replies to what has been heard, given the outcomes of the commands so far: a command that could
not be asked for is answered with nothing, and no reply comes before its command's outcome. -/
def weave : List (Option Command) → List Bytes → List Bytes
  | [], _ => []
  | none :: heard, outcomes => [] :: weave heard outcomes
  | some _ :: _, [] => []
  | some _ :: heard, outcome :: outcomes => outcome :: weave heard outcomes

variable {heard : List (Option Command)} {outcomes : List Bytes}

theorem weave_refused (settled : (commands heard).length = outcomes.length) :
    weave (heard ++ [none]) outcomes = weave heard outcomes ++ [[]] := by
  induction heard generalizing outcomes with
  | nil => rfl
  | cons first heard ih =>
      cases first with
      | none => simp only [List.cons_append, weave, ih settled]
      | some command =>
          cases outcomes with
          | nil => cases settled
          | cons outcome outcomes =>
              simp only [List.cons_append, weave, ih (Nat.succ.inj settled)]

theorem weave_asked (settled : (commands heard).length = outcomes.length) (command : Command) :
    weave (heard ++ [some command]) outcomes = weave heard outcomes := by
  induction heard generalizing outcomes with
  | nil =>
      cases outcomes with
      | nil => rfl
      | cons outcome outcomes => cases settled
  | cons first heard ih =>
      cases first with
      | none => simp only [List.cons_append, weave, ih settled]
      | some other =>
          cases outcomes with
          | nil => cases settled
          | cons outcome outcomes =>
              simp only [List.cons_append, weave, ih (Nat.succ.inj settled)]

theorem weave_answered (settled : (commands heard).length = outcomes.length) (command : Command)
    (outcome : Bytes) : weave (heard ++ [some command]) (outcomes ++ [outcome]) =
      weave (heard ++ [some command]) outcomes ++ [outcome] := by
  rw [weave_asked settled]
  induction heard generalizing outcomes with
  | nil =>
      cases outcomes with
      | nil => rfl
      | cons outcome outcomes => cases settled
  | cons first heard ih =>
      cases first with
      | none => simp only [List.cons_append, weave, ih settled]
      | some other =>
          cases outcomes with
          | nil => cases settled
          | cons first outcomes =>
              simp only [List.cons_append, weave, ih (Nat.succ.inj settled)]

def Point.Hears (heard : List (Option Command)) (outcomes : List Bytes) : Point → Prop
  | .requesting command | .waiting command | .holding command =>
      ∃ earlier, heard = earlier ++ [some command] ∧ (commands earlier).length = outcomes.length
  | .ended .aborted => True
  | _ => (commands heard).length = outcomes.length

structure Worker.Follows (past : List Deed) (cursor : Nat) (outcomes : List Bytes) (worker : Worker) :
    Prop where
  cursor : worker.cursor = cursor
  line : worker.line = (hearing past).line
  replies : replies past = weave (hearing past).heard outcomes
  stands : worker.point.Hears (hearing past).heard outcomes

namespace Worker

variable {past added : List Deed} {memory : Memory} {world : World} {before after : Worker}
variable {told : List Event} {cursor : Nat}

theorem follows_create (identity : Identity) (origin : Origin) (readBuffer : Nat) :
    (create identity origin readBuffer).Follows [] 0 [] :=
  ⟨rfl, rfl, rfl, rfl⟩

theorem Follows.aborted (follows : before.Follows past cursor outcomes) :
    (before.finish .aborted).Follows past cursor outcomes :=
  ⟨follows.cursor, follows.line, follows.replies, trivial⟩

theorem Follows.discarded (follows : before.Follows past cursor outcomes)
    (fresh : before.point = .fresh) : (before.finish .discarded).Follows past cursor outcomes := by
  refine ⟨follows.cursor, follows.line, follows.replies, ?_⟩
  have stands := follows.stands
  rw [fresh] at stands
  exact stands

theorem hearing_of_unread (past : List Deed) (unread : reads added = []) :
    hearing (past ++ added) = hearing past := by
  rw [hearing_append, unread]
  rfl

theorem reads_reply (point : Point) : reads point.reply = [] := by
  cases point <;> rfl

theorem hearing_read (past : List Deed) (memory : Memory) (item : Incoming) (point : Point) :
    hearing (past ++ .reads memory item :: point.reply) = (hearing past).read memory item := by
  have one : reads (.reads memory item :: point.reply) = [(memory, item)] :=
    congrArg (List.cons _) (reads_reply point)
  rw [hearing_append, one]
  rfl

theorem Follows.moves (follows : before.Follows past cursor outcomes)
    (unread : reads added = []) (unsaid : CommandLog.replies added = [])
    (same : after.cursor = before.cursor) (line : after.line = before.line)
    (stands : after.point.Hears (hearing past).heard outcomes) :
    after.Follows (past ++ added) cursor outcomes := by
  have still := hearing_of_unread past unread
  refine ⟨same.trans follows.cursor, ?_, ?_, ?_⟩
  · rw [still, line, follows.line]
  · rw [still, replies_append, unsaid, List.append_nil, follows.replies]
  · rw [still]
    exact stands

theorem Follows.last (follows : before.Follows past cursor outcomes) {item : Incoming}
    (ends : ∀ chunk, chunk ≠ [] → item ≠ .bytes chunk)
    (same : after.cursor = before.cursor) (line : after.line = before.line)
    (silent : after.point.reply = [])
    (stands : after.point.Hears (hearing past).heard outcomes) :
    after.Follows (past ++ .reads memory item :: after.point.reply) cursor outcomes := by
  have still : (hearing past).read memory item = hearing past := by
    cases item with
    | bytes chunk =>
        cases chunk with
        | nil => rfl
        | cons first rest => exact absurd rfl (ends _ (List.cons_ne_nil first rest))
    | _ => rfl
  have unsaid : CommandLog.replies (.reads memory item :: after.point.reply) = [] := by
    rw [silent]
    rfl
  refine ⟨same.trans follows.cursor, ?_, ?_, ?_⟩
  · rw [hearing_read, still, line, follows.line]
  · rw [hearing_read, still, replies_append, unsaid, List.append_nil, follows.replies]
  · rw [hearing_read, still]
    exact stands

theorem Follows.outcome (follows : before.Follows past cursor outcomes) {command : Command}
    {bytes : Bytes} (hears : ∃ earlier, (hearing past).heard = earlier ++ [some command] ∧
      (commands earlier).length = outcomes.length)
    (line : after.line = before.line) (point : after.point = .sending bytes) :
    after.Follows (past ++ after.point.reply) after.cursor (outcomes ++ [bytes]) := by
  have still := hearing_of_unread past (reads_reply after.point)
  obtain ⟨earlier, heard, settled⟩ := hears
  refine ⟨rfl, ?_, ?_, ?_⟩
  · rw [still, line, follows.line]
  · rw [still, point, replies_append, follows.replies, heard, weave_answered settled]
    rfl
  · rw [still, point, heard]
    simpa [Point.Hears, commands] using settled

theorem Step.follows_concluded {command : Command} (step : Step world before after told)
    (follows : before.Follows past cursor outcomes) (holding : before.point = .holding command) :
    after.Follows (past ++ before.deeds world.memory after)
      (world.log.shown world.memory cursor command).cursor
      (outcomes ++ [(world.log.shown world.memory cursor command).bytes]) := by
  have stands := follows.stands
  rw [holding] at stands
  rw [step.concluded holding, deeds_apart (by simp [holding]) (by simp [performs, holding]),
    ← follows.cursor]
  exact follows.outcome stands rfl rfl

theorem Step.follows_expired {command : Command} {bytes : Bytes} (step : Step world before after told)
    (follows : before.Follows past cursor outcomes) (waiting : before.point = .waiting command)
    (sends : after.point = .sending bytes) :
    after.Follows (past ++ before.deeds world.memory after) cursor (outcomes ++ [[]]) := by
  have stands := follows.stands
  rw [waiting] at stands
  rw [step.expired waiting sends, deeds_apart (by simp [waiting]) (by simp [performs, waiting]),
    ← follows.cursor]
  exact follows.outcome stands rfl rfl

theorem Step.follows (step : Step world before after told)
    (follows : before.Follows past cursor outcomes)
    (unheld : ∀ command, before.point ≠ .holding command)
    (unexpired : ∀ command bytes, before.point = .waiting command → after.point ≠ .sending bytes) :
    after.Follows (past ++ before.deeds world.memory after) cursor outcomes := by
  have stands := follows.stands
  cases step with
  | start point =>
      rw [point] at stands
      rw [deeds_apart (by simp [point]) (by simp [performs, point])]
      exact follows.moves rfl rfl rfl rfl stands
  | leave point arrived ends =>
      rw [point] at stands
      rw [deeds_receiving point arrived]
      refine follows.last ?_ rfl rfl rfl stands
      rintro chunk filled rfl
      rcases ends with other | empty
      · cases other
      · exact filled (Incoming.bytes.inj empty)
  | «break» point arrived | crash point arrived =>
      rw [point] at stands
      rw [deeds_receiving point arrived]
      exact follows.last (by simp) rfl rfl rfl stands
  | read point arrived filled fed incomplete =>
      rw [point] at stands
      rw [deeds_receiving point arrived]
      have read : (hearing past).read world.memory (.bytes _) = _ := Hearing.read_of_bytes filled
      rw [← follows.line, fed, incomplete] at read
      refine ⟨follows.cursor, ?_, ?_, ?_⟩
      · rw [hearing_read, read]
      · rw [hearing_read, read, replies_append, follows.replies]
        simp [point, Point.reply, CommandLog.replies]
      · rw [hearing_read, read]
        simpa [point, Point.Hears] using stands
  | refuse point arrived filled fed complete unready =>
      rw [point] at stands
      rw [deeds_receiving point arrived]
      have read : (hearing past).read world.memory (.bytes _) = _ := Hearing.read_of_bytes filled
      rw [← follows.line, fed, complete] at read
      refine ⟨follows.cursor, ?_, ?_, ?_⟩
      · rw [hearing_read, read]
      · rw [hearing_read, read, replies_append, follows.replies]
        simp only [Option.map_some, unready, Option.toList_some]
        rw [weave_refused stands]
        rfl
      · rw [hearing_read, read]
        simpa [Point.Hears, commands, unready] using stands
  | ask point arrived filled fed complete ready =>
      rw [point] at stands
      rw [deeds_receiving point arrived]
      have read : (hearing past).read world.memory (.bytes _) = _ := Hearing.read_of_bytes filled
      rw [← follows.line, fed, complete] at read
      simp only [Option.map_some, ready, Option.toList_some] at read
      refine ⟨follows.cursor, ?_, ?_, ?_⟩
      · rw [hearing_read, read]
      · rw [hearing_read, read, replies_append, follows.replies, weave_asked stands]
        exact List.append_nil _
      · rw [hearing_read, read]
        exact ⟨_, rfl, stands⟩
  | take point | wait point | wake point =>
      rw [point] at stands
      rw [deeds_apart (by simp [point]) (by simp [performs, point])]
      exact follows.moves rfl rfl rfl rfl stands
  | expire point => exact absurd rfl (unexpired _ _ point)
  | conclude point => exact absurd point (unheld _)
  | send point filled written =>
      rw [point] at stands
      rw [deeds_sending point filled written]
      exact follows.moves rfl rfl rfl rfl stands
  | sendFails point filled written =>
      rw [point] at stands
      rw [deeds_unsent point filled written]
      exact follows.moves rfl rfl rfl rfl stands
  | sent point =>
      rw [point] at stands
      rw [deeds_sent point]
      exact follows.moves rfl rfl rfl rfl stands
  | flush point flushed =>
      rw [point] at stands
      rw [deeds_flushing point flushed]
      exact follows.moves rfl rfl rfl rfl stands
  | flushFails point flushed =>
      rw [point] at stands
      rw [deeds_unflushed point flushed]
      exact follows.moves rfl rfl rfl rfl stands
  | shut point shut =>
      rw [point] at stands
      rw [deeds_apart (by simp [point]) (by simp [performs, point])]
      exact follows.moves rfl rfl rfl rfl stands

end Worker

end CommandLog
