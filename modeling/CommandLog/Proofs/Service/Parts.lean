import CommandLog.Proofs.Service.Reading

/-!
A client's command against its parts: the request that does what the command says and, once that is
answered, a read from where the client then is. Under one hold of the log or under two, the answer, the
log and the events are the same.
-/

namespace CommandLog

/-- The request that does what a command says, and replies with nothing from the log. -/
def Command.deed : Command → Request
  | .write bytes => .write bytes
  | .seek index offset => .seek index offset

theorem Command.prepare_deed (memory : Memory) (command : Command) (cursor : Nat) :
    (Request.exchange command cursor).prepare memory = command.deed.prepare memory := by
  cases command <;> rfl

namespace Answer

def start (cursor : Nat) : Answer → Nat
  | .position start => start
  | .written | .content _ | .stats _ | .reply _ => cursor

def withoutCursor : Answer → Answer
  | .reply taken => .content taken.bytes
  | answer => answer

theorem map_withoutCursor (content : Except LogError Bytes) (cursor : Nat) :
    (content.map fun bytes => Answer.reply ⟨bytes, cursor⟩).map Answer.withoutCursor =
      content.map .content := by
  cases content <;> rfl

end Answer

namespace Service

variable {service : Service} {cursor index offset : Nat} {command : Command} {answer : Answer}
variable {error : LogError}

/-- Asks for one thing and, when that has been answered, for the next; nothing comes between the two. -/
def andThen (service : Service) (first : Request) (next : Answer → Request) :
    Service × Except LogError Answer × List Event :=
  let (between, answer, events) := service.request first
  match answer with
  | .error error => (between, .error error, events)
  | .ok answer =>
      let (after, last, later) := between.request (next answer)
      (after, last, events ++ later)

def inParts (service : Service) (command : Command) (cursor : Nat) :
    Service × Except LogError Answer × List Event :=
  service.andThen command.deed fun answer => .read (answer.start cursor)

theorem andThen_of_error {first : Request} {next : Answer → Request}
    (failed : (service.request first).2.1 = .error error) :
    service.andThen first next = service.request first := by
  simp only [andThen]
  generalize service.request first = done at failed
  obtain ⟨between, answer, events⟩ := done
  cases failed
  rfl

theorem andThen_of_ok {first : Request} {next : Answer → Request}
    (answered : (service.request first).2.1 = .ok answer) :
    service.andThen first next =
      let between := service.request first
      let last := between.1.request (next answer)
      (last.1, last.2.1, between.2.2 ++ last.2.2) := by
  simp only [andThen]
  generalize service.request first = done at answered
  obtain ⟨between, answer, events⟩ := done
  cases answered
  rfl

theorem request_deed_write_free {bytes : Bytes}
    (prepared : (Request.write bytes).prepare service.memory = .ok ())
    (free : service.heldElsewhere = false) :
    service.request (.write bytes) =
      ({ service with log := (service.log.append bytes).1 }, .ok .written,
        Event.ofDisplaced (service.log.append bytes).2) :=
  request_free prepared free

theorem request_deed_seek_free (free : service.heldElsewhere = false) :
    service.request (.seek index offset) =
      (service, ((service.log.resolve index offset).map .position).mapError .range, []) :=
  request_free rfl free

theorem inParts_write_free {bytes : Bytes}
    (prepared : (Request.write bytes).prepare service.memory = .ok ())
    (free : service.heldElsewhere = false) :
    service.inParts (.write bytes) cursor =
      ({ service with log := (service.log.append bytes).1 },
        (Log.snapshot service.memory (service.log.append bytes).1 cursor).map .content,
        Event.ofDisplaced (service.log.append bytes).2) := by
  have deed := request_deed_write_free prepared free
  have answered : (service.request (.write bytes)).2.1 = .ok .written := by rw [deed]
  have stillFree : (service.request (.write bytes)).1.heldElsewhere = false := free
  rw [inParts, Command.deed, andThen_of_ok answered]
  simp only [Answer.start, request_read_free stillFree, List.append_nil]
  rw [deed]

theorem inParts_seek_free (free : service.heldElsewhere = false) :
    service.inParts (.seek index offset) cursor =
      (service,
        match service.log.resolve index offset with
        | .error error => .error (.range error)
        | .ok start => (service.log.snapshot service.memory start).map .content,
        []) := by
  have deed : service.request (.seek index offset) = _ := request_deed_seek_free free
  cases resolved : service.log.resolve index offset with
  | error error =>
      have failed : (service.request (.seek index offset)).2.1 = .error (.range error) := by
        rw [deed, resolved]
        rfl
      rw [inParts, Command.deed, andThen_of_error failed, deed, resolved]
      rfl
  | ok start =>
      have answered : (service.request (.seek index offset)).2.1 = .ok (.position start) := by
        rw [deed, resolved]
        rfl
      have stillFree : (service.request (.seek index offset)).1.heldElsewhere = false := free
      rw [inParts, Command.deed, andThen_of_ok answered]
      simp only [Answer.start, request_read_free stillFree, List.append_nil]
      rw [deed]

theorem exchange_eq_inParts (service : Service) (command : Command) (cursor : Nat) :
    let both := service.request (.exchange command cursor)
    (both.1, both.2.1.map Answer.withoutCursor, both.2.2) = service.inParts command cursor := by
  intro both
  have alike := Command.prepare_deed service.memory command cursor
  cases prepared : command.deed.prepare service.memory with
  | error error =>
      rw [prepared] at alike
      have failed : (service.request command.deed).2.1 = .error error := by
        rw [request_unprepared prepared]
      rw [inParts, andThen_of_error failed]
      simp only [both, request_unprepared alike, request_unprepared prepared]
      rfl
  | ok _ =>
      rw [prepared] at alike
      rcases Bool.eq_false_or_eq_true service.heldElsewhere with held | free
      · have failed : (service.request command.deed).2.1 =
            .error (.lockTimeout service.lockTimeout) := by rw [request_held prepared held]
        rw [inParts, andThen_of_error failed]
        simp only [both, request_held alike held, request_held prepared held]
        rfl
      · cases command with
        | write bytes =>
            rw [inParts_write_free prepared free, ← Answer.map_withoutCursor _ cursor]
            simp only [both, request_free alike free, Log.serve, Log.exchange, Served.map]
            cases Log.snapshot service.memory (service.log.append bytes).1 cursor <;> rfl
        | seek index offset =>
            rw [inParts_seek_free free]
            simp only [both, request_seek_free free]
            cases service.log.resolve index offset with
            | error error => rfl
            | ok start => simp only [Answer.map_withoutCursor]

theorem cursor_after_failure (failed : (service.inParts command cursor).2.1 = .error error) :
    Answer.cursorAfter cursor (service.request (.exchange command cursor)).2.1 = cursor := by
  have same := congrArg (fun done => done.2.1) (exchange_eq_inParts service command cursor)
  simp only [failed] at same
  cases answer : (service.request (.exchange command cursor)).2.1 with
  | error _ => rfl
  | ok _ =>
      rw [answer] at same
      cases same

theorem cursor_after_write (service : Service) (bytes : Bytes) (cursor : Nat) :
    Answer.cursorAfter cursor (service.request (.exchange (.write bytes) cursor)).2.1 = cursor := by
  cases prepared : (Request.exchange (.write bytes) cursor).prepare service.memory with
  | error error => rw [request_unprepared prepared, Answer.cursorAfter]
  | ok _ =>
      rcases Bool.eq_false_or_eq_true service.heldElsewhere with held | free
      · rw [request_held prepared held, Answer.cursorAfter]
      · rw [request_free prepared free]
        simp only [Log.serve, Log.exchange, Served.map]
        cases Log.snapshot service.memory (service.log.append bytes).1 cursor <;> rfl

theorem seek_answered (answered : (service.request (.seek index offset)).2.1 = .ok answer) :
    service.heldElsewhere = false ∧
      ∃ start, service.log.resolve index offset = .ok start ∧ answer = .position start := by
  rcases Bool.eq_false_or_eq_true service.heldElsewhere with held | free
  · rw [request_held rfl held] at answered
    cases answered
  · rw [request_deed_seek_free free] at answered
    cases resolved : service.log.resolve index offset with
    | error error =>
        rw [resolved] at answered
        cases answered
    | ok start =>
        rw [resolved] at answered
        cases answered
        exact ⟨free, start, rfl, rfl⟩

theorem cursor_after_seek {start : Nat} {bytes : Bytes} (free : service.heldElsewhere = false)
    (resolved : service.log.resolve index offset = .ok start)
    (read : (service.request (.read start)).2.1 = .ok (.content bytes)) (cursor : Nat) :
    Answer.cursorAfter cursor (service.request (.exchange (.seek index offset) cursor)).2.1 = start := by
  rw [request_read_free free] at read
  rw [request_seek_free free, resolved]
  simp only
  cases taken : service.log.snapshot service.memory start with
  | error error =>
      rw [taken] at read
      cases read
  | ok content => rfl

theorem read_answered {start : Nat} (answered : (service.request (.read start)).2.1 = .ok answer) :
    ∃ bytes, answer = .content bytes := by
  rcases Bool.eq_false_or_eq_true service.heldElsewhere with held | free
  · rw [request_read_held held] at answered
    cases answered
  · rw [request_read_free free] at answered
    cases taken : service.log.snapshot service.memory start with
    | error error =>
        rw [taken] at answered
        cases answered
    | ok content =>
        rw [taken] at answered
        cases answered
        exact ⟨content, rfl⟩

theorem log_request (service : Service) (request : Request) :
    (service.request request).1.log = service.log ∨
      ∃ bytes, (service.request request).1.log = (service.log.append bytes).1 := by
  cases prepared : request.prepare service.memory with
  | error error => exact Or.inl (by rw [request_unprepared prepared])
  | ok _ =>
      rcases Bool.eq_false_or_eq_true service.heldElsewhere with held | free
      · exact Or.inl (by rw [request_held prepared held])
      · rw [request_free prepared free]
        cases request with
        | write bytes => exact Or.inr ⟨bytes, rfl⟩
        | seek index offset => exact Or.inl rfl
        | read start => exact Or.inl rfl
        | stats => exact Or.inl rfl
        | exchange command cursor =>
            cases command with
            | write bytes => exact Or.inr ⟨bytes, rfl⟩
            | seek index offset =>
                left
                simp only [Log.serve, Served.map, Log.exchange]
                cases service.log.resolve index offset <;> rfl

theorem reachable_request (reached : service.log.Reachable) (request : Request) :
    (service.request request).1.log.Reachable := by
  rcases log_request service request with same | ⟨bytes, appended⟩
  · rwa [same]
  · rw [appended]
    exact reached.append bytes

theorem capacity_request (service : Service) (request : Request) :
    (service.request request).1.log.capacity = service.log.capacity := by
  rcases log_request service request with same | ⟨bytes, appended⟩
  · rw [same]
  · rw [appended, Ring.capacity_append]

theorem request_stats_free (free : service.heldElsewhere = false) :
    service.request .stats = (service, .ok (.stats service.log.stats), []) :=
  request_free rfl free

theorem request_stats_held (held : service.heldElsewhere = true) :
    service.request .stats = (service, .error (.lockTimeout service.lockTimeout), []) :=
  request_held rfl held

theorem length_of_read {bytes : Bytes}
    (read : (service.request (.read 0)).2.1 = .ok (.content bytes))
    (free : service.heldElsewhere = false) :
    bytes.length = Log.totalBytes service.log := by
  rw [request_read_free free, Log.snapshot_eq] at read
  split at read
  · cases read
    rw [List.drop_zero, Log.length_content]
  · cases read

/-- A command and its parts, told apart by nothing: the same log, answer and events, the cursor moved by a
seek exactly when both of its parts succeed, and statistics that agree with a read of all that there is. -/
theorem exchange_agrees_with_parts (service : Service) (cursor : Nat) :
    (∀ command,
      let both := service.request (.exchange command cursor)
      (both.1, both.2.1.map Answer.withoutCursor, both.2.2) = service.inParts command cursor) ∧
    (∀ bytes,
      Answer.cursorAfter cursor (service.request (.exchange (.write bytes) cursor)).2.1 = cursor) ∧
    (∀ index offset,
      let both := (service.request (.exchange (.seek index offset) cursor)).2.1
      let sought := service.request (.seek index offset)
      (∀ error, sought.2.1 = .error error → Answer.cursorAfter cursor both = cursor) ∧
      ∀ answer, sought.2.1 = .ok answer → ∃ start, answer = .position start ∧
        let read := (sought.1.request (.read start)).2.1
        (Answer.cursorAfter cursor both = start ↔
          (∃ bytes, read = .ok (.content bytes)) ∨ start = cursor) ∧
        ∀ error, read = .error error → Answer.cursorAfter cursor both = cursor) ∧
    ∀ command,
      let after := (service.request (.exchange command cursor)).1
      let told := (after.request .stats).2.1
      (service.heldElsewhere = true → told = .error (.lockTimeout service.lockTimeout) ∧
        (after.request (.read 0)).2.1 = .error (.lockTimeout service.lockTimeout)) ∧
      (service.heldElsewhere = false → ∃ stats, told = .ok (.stats stats) ∧
        stats.entries = after.log.count ∧
        (service.log.Reachable → stats.entries = after.log.toList.length) ∧
        stats.capacity = service.log.capacity ∧
        (∀ memory bytes, ({ after with memory }.request (.read 0)).2.1 = .ok (.content bytes) →
          bytes.length = stats.bytes) ∧
        ∃ bytes, ({ after with memory := .unlimited }.request (.read 0)).2.1 = .ok (.content bytes)) := by
  refine ⟨fun command => exchange_eq_inParts service command cursor,
    fun bytes => cursor_after_write service bytes cursor, ?_, ?_⟩
  · intro index offset both sought
    constructor
    · intro error failed
      apply cursor_after_failure
      rw [inParts, Command.deed, andThen_of_error failed, failed]
    · intro answer answered
      obtain ⟨free, start, resolved, rfl⟩ := seek_answered answered
      have unmoved : ∀ error, (sought.1.request (.read start)).2.1 = .error error →
          Answer.cursorAfter cursor both = cursor := by
        intro error failed
        apply cursor_after_failure
        rw [inParts, Command.deed, andThen_of_ok answered]
        exact failed
      refine ⟨start, rfl, ?_, unmoved⟩
      cases read : (sought.1.request (.read start)).2.1 with
      | error error =>
          rw [unmoved error read]
          simp [eq_comm]
      | ok answer =>
          obtain ⟨bytes, rfl⟩ := read_answered read
          have same : sought.1 = service := by simp only [sought, request_deed_seek_free free]
          rw [same] at read
          simp [both, cursor_after_seek free resolved read]
  · intro command after told
    constructor
    · intro held
      have heldAfter : after.heldElsewhere = true := held
      simp only [told, request_stats_held heldAfter, request_read_held heldAfter]
      exact ⟨rfl, rfl⟩
    · intro free
      have freeAfter : after.heldElsewhere = false := free
      refine ⟨after.log.stats, ?_, rfl, ?_, capacity_request service _, ?_, ?_⟩
      · simp only [told, request_stats_free freeAfter]
      · intro reached
        have reachedAfter : after.log.Reachable := reachable_request reached _
        exact reachedAfter.holds.count_eq
      · intro memory bytes read
        have length := length_of_read read freeAfter
        exact length
      · have freeThen : ({ after with memory := .unlimited } : Service).heldElsewhere = false := free
        rw [request_read_free freeThen, Log.snapshot_unlimited]
        exact ⟨_, rfl⟩

theorem exchange_agrees_with_parts_limited :
    let service : Service := ⟨Log.wrapped, .ofSeconds 5, .below 4, false⟩
    let written := service.request (.exchange (.write [99, 10]) 0)
    service.log.Reachable ∧ written.2 = (.error (.allocation 7), [.overwrote 0]) ∧
      (service.inParts (.write [99, 10]) 0).2 = (.error (.allocation 7), [.overwrote 0]) ∧
      Answer.cursorAfter 1 (service.request (.exchange (.seek 3 0) 1)).2.1 = 3 ∧
      ∃ stats, (written.1.request .stats).2.1 = .ok (.stats stats) ∧
        stats.entries = written.1.log.toList.length ∧ stats.capacity = 4 := by
  intro service written
  have reached : service.log.Reachable := Log.wrapped_reachable
  have failed : written.2 = (.error (.allocation 7), [.overwrote 0]) := by decide +kernel
  have sought : (service.request (.seek 3 0)).2.1 = .ok (.position 3) := by decide +kernel
  have read : ((service.request (.seek 3 0)).1.request (.read 3)).2.1 = .ok (.content [98, 10]) := by
    decide +kernel
  obtain ⟨agrees, _, _, tells⟩ := exchange_agrees_with_parts service 0
  obtain ⟨_, _, moves, _⟩ := exchange_agrees_with_parts service 1
  have parts := congrArg Prod.snd (agrees (.write [99, 10]))
  obtain ⟨start, same, moved, _⟩ := (moves 3 0).2 _ sought
  cases same
  obtain ⟨stats, told, _, entries, capacity, _⟩ := (tells (.write [99, 10])).2 rfl
  refine ⟨reached, failed, ?_, moved.mpr (Or.inl ⟨_, read⟩), stats, told, entries reached, capacity⟩
  rw [← parts]
  change (written.2.1.map Answer.withoutCursor, written.2.2) = _
  rw [failed]
  rfl

end Service

end CommandLog
