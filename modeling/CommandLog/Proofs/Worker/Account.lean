import CommandLog.Proofs.Worker.Exchanges

/-!
The account of a worker. What it has done to its connection, as the connection itself took it, explains
where the worker stands, what it has sent and flushed, and with which result it closes.
-/

namespace CommandLog

namespace Stream

variable {stream next : Stream}

theorem receive?_eq {size : Nat} {item : Incoming}
    (received : stream.receive? size = some (item, next)) :
    ∃ incoming, next = { stream with incoming } := by
  simp only [receive?] at received
  split at received
  · cases received
  · split at received <;> (cases received; exact ⟨_, rfl⟩)
  · cases received
    exact ⟨_, rfl⟩

theorem write?_ok {data : Bytes} {count : Nat} (filled : data ≠ [])
    (written : stream.write? data = some (.ok count, next)) :
    data.take count ≠ [] ∧ next = { stream with output := stream.output ++ data.take count } := by
  have some_taken {count taken : Nat} {next : Stream}
      (took : (if count = 0 then (Except.error StreamError.writeZero, stream)
        else (.ok count, { stream with output := stream.output ++ data.take count })) =
          (Except.ok taken, next)) :
      data.take taken ≠ [] ∧ next = { stream with output := stream.output ++ data.take taken } := by
    split at took
    · cases took
    · rename_i positive
      cases took
      exact ⟨by simp [List.take_eq_nil_iff, positive, filled], rfl⟩
  simp only [write?] at written
  split at written
  · exact some_taken (Option.some.inj written)
  · exact some_taken (Option.some.inj written)
  · cases written
  · cases written

theorem write?_error {data : Bytes} {cause : StreamError}
    (written : stream.write? data = some (.error cause, next)) : next = stream := by
  have unchanged {count : Nat} {next : Stream}
      (took : (if count = 0 then (Except.error StreamError.writeZero, stream)
        else (.ok count, { stream with output := stream.output ++ data.take count })) =
          (Except.error cause, next)) : next = stream := by
    split at took
    · cases took
      rfl
    · cases took
  simp only [write?] at written
  split at written
  · exact unchanged (Option.some.inj written)
  · exact unchanged (Option.some.inj written)
  · cases written
  · cases written
    rfl

theorem flush?_ok {done : Unit} (flushed : stream.flush? = some (.ok done, next)) :
    next = { stream with flushes := stream.flushes + 1 } := by
  simp only [flush?] at flushed
  split at flushed <;> cases flushed
  rfl

theorem flush?_error {cause : StreamError} (flushed : stream.flush? = some (.error cause, next)) :
    next = stream := by
  simp only [flush?] at flushed
  split at flushed <;> cases flushed
  rfl

theorem shutDown?_eq {outcome : Except StreamError Unit}
    (shut : stream.shutDown? = some (outcome, next)) :
    ∃ isShutDown, next = { stream with isShutDown } := by
  simp only [shutDown?] at shut
  split at shut <;> cases shut <;> exact ⟨_, rfl⟩

end Stream

def Point.reply : Point → List Deed
  | .sending bytes => [.replies bytes]
  | _ => []

namespace Worker

def performs (memory : Memory) (worker : Worker) : List Deed :=
  match worker.point with
  | .receiving =>
      match worker.stream.receive? worker.readBuffer with
      | some (item, _) => [.reads memory item]
      | none => []
  | .sending rest =>
      if rest = [] then []
      else
        match worker.stream.write? rest with
        | some (.ok count, _) => [.sends (rest.take count)]
        | some (.error cause, _) => [.fails ⟨.send, cause⟩]
        | none => []
  | .flushing =>
      match worker.stream.flush? with
      | some (.ok _, _) => [.flushes]
      | some (.error cause, _) => [.fails ⟨.flush, cause⟩]
      | none => []
  | _ => []

def deeds (memory : Memory) (before after : Worker) : List Deed :=
  match before.point with
  | .sending _ => before.performs memory
  | _ => before.performs memory ++ after.point.reply

variable {memory : Memory} {before after : Worker}

theorem deeds_receiving {item : Incoming} {stream : Stream} (point : before.point = .receiving)
    (arrived : before.stream.receive? before.readBuffer = some (item, stream)) :
    before.deeds memory after = .reads memory item :: after.point.reply := by
  simp only [deeds, performs, point, arrived, List.singleton_append]

theorem deeds_sending {rest : Bytes} {count : Nat} {stream : Stream}
    (point : before.point = .sending rest) (filled : rest ≠ [])
    (written : before.stream.write? rest = some (.ok count, stream)) :
    before.deeds memory after = [.sends (rest.take count)] := by
  simp only [deeds, performs, point, written, if_neg filled]

theorem deeds_unsent {rest : Bytes} {cause : StreamError} {stream : Stream}
    (point : before.point = .sending rest) (filled : rest ≠ [])
    (written : before.stream.write? rest = some (.error cause, stream)) :
    before.deeds memory after = [.fails ⟨.send, cause⟩] := by
  simp only [deeds, performs, point, written, if_neg filled]

theorem deeds_sent (point : before.point = .sending []) : before.deeds memory after = [] := by
  simp only [deeds, performs, point, if_pos]

theorem deeds_flushing {done : Unit} {stream : Stream} (point : before.point = .flushing)
    (flushed : before.stream.flush? = some (.ok done, stream)) :
    before.deeds memory after = .flushes :: after.point.reply := by
  simp only [deeds, performs, point, flushed, List.singleton_append]

theorem deeds_unflushed {cause : StreamError} {stream : Stream} (point : before.point = .flushing)
    (flushed : before.stream.flush? = some (.error cause, stream)) :
    before.deeds memory after = .fails ⟨.flush, cause⟩ :: after.point.reply := by
  simp only [deeds, performs, point, flushed, List.singleton_append]

theorem deeds_apart (apart : ∀ rest, before.point ≠ .sending rest)
    (idle : before.performs memory = []) : before.deeds memory after = after.point.reply := by
  simp only [deeds, idle, List.nil_append]

end Worker

/-- Why the exchanges are over, and with which result. -/
inductive Closes : List Deed → Except SessionFailure Unit → Prop
  | left {past line memory item} : Exchanges past line .reading →
      item = .endOfStream ∨ item = .bytes [] → Closes (past ++ [.reads memory item]) (.ok ())
  | unread {past line memory cause} : Exchanges past line .reading →
      Closes (past ++ [.reads memory (.failure cause)]) (.error ⟨.receive, cause⟩)
  | unsent {past line rest cause} : Exchanges past line (.sending rest) → rest ≠ [] →
      Closes (past ++ [.fails ⟨.send, cause⟩]) (.error ⟨.send, cause⟩)
  | unflushed {past line cause} : Exchanges past line (.sending []) →
      Closes (past ++ [.fails ⟨.flush, cause⟩]) (.error ⟨.flush, cause⟩)

def Point.After (past : List Deed) (line : LineBuffer) : Point → Prop
  | .fresh => past = [] ∧ line = {}
  | .receiving => Exchanges past line .reading
  | .requesting command | .waiting command | .holding command =>
      ∃ text, Exchanges past line (.asking text) ∧ Command.parse text = .ok command
  | .sending rest => Exchanges past line (.sending rest)
  | .flushing => Exchanges past line (.sending [])
  | .closing result | .ended (.returned result) => Closes past result
  | .ended .panicked =>
      ∃ early line memory, Exchanges early line .reading ∧ past = early ++ [.reads memory .crash]
  | .ended .aborted =>
      (∃ line progress, Exchanges past line progress) ∨ ∃ result, Closes past result
  | .ended .discarded => past = []

structure Worker.Account (past : List Deed) (worker : Worker) : Prop where
  output : worker.stream.output = sent past
  flushed : worker.stream.flushes = flushes past
  exchanged : worker.exchanges = flushes past
  stands : worker.point.After past worker.line

namespace Worker

variable {past : List Deed} {memory : Memory} {world : World} {before after worker : Worker}
variable {told : List Event}

theorem account_create (identity : Identity) (origin : Origin) (readBuffer : Nat) :
    (create identity origin readBuffer).Account [] :=
  ⟨rfl, rfl, rfl, rfl, rfl⟩

theorem Account.aborted (account : worker.Account past) (going : worker.isEnded = false) :
    (worker.finish .aborted).Account past := by
  refine ⟨account.output, account.flushed, account.exchanged, ?_⟩
  have stands := account.stands
  show (∃ line progress, Exchanges past line progress) ∨ ∃ result, Closes past result
  cases point : worker.point with
  | fresh =>
      rw [point] at stands
      obtain ⟨rfl, _⟩ := stands
      exact Or.inl ⟨_, _, .start⟩
  | receiving =>
      rw [point] at stands
      exact Or.inl ⟨_, _, stands⟩
  | requesting command | waiting command | holding command =>
      rw [point] at stands
      obtain ⟨text, asking, _⟩ := stands
      exact Or.inl ⟨_, _, asking⟩
  | sending rest | flushing =>
      rw [point] at stands
      exact Or.inl ⟨_, _, stands⟩
  | closing result =>
      rw [point] at stands
      exact Or.inr ⟨_, stands⟩
  | ended ending => simp [isEnded, point] at going

theorem Account.discarded (account : worker.Account past) (fresh : worker.point = .fresh) :
    (worker.finish .discarded).Account past := by
  refine ⟨account.output, account.flushed, account.exchanged, ?_⟩
  have stands := account.stands
  rw [fresh] at stands
  exact stands.1

theorem Account.change (account : worker.Account past) {stream : Stream}
    (output : stream.output = worker.stream.output)
    (flushes : stream.flushes = worker.stream.flushes) :
    ({ worker with stream } : Worker).Account past :=
  ⟨output.trans account.output, flushes.trans account.flushed, account.exchanged, account.stands⟩

theorem Account.extend (account : before.Account past) {added : List Deed}
    (output : after.stream.output = before.stream.output ++ sent added)
    (flushed : after.stream.flushes = before.stream.flushes + flushes added)
    (exchanged : after.exchanges = before.exchanges + flushes added)
    (stands : after.point.After (past ++ added) after.line) : after.Account (past ++ added) := by
  refine ⟨?_, ?_, ?_, stands⟩
  · rw [output, account.output, sent_append]
  · rw [flushed, account.flushed, flushes_append]
  · rw [exchanged, account.exchanged, flushes_append]

theorem Account.moves (account : before.Account past) (stream : after.stream = before.stream)
    (exchanged : after.exchanges = before.exchanges)
    (stands : after.point.After past after.line) : after.Account past :=
  ⟨stream ▸ account.output, stream ▸ account.flushed, exchanged.trans account.exchanged, stands⟩

theorem Account.reads (account : before.Account past) {item : Incoming} {stream : Stream}
    (arrived : before.stream.receive? before.readBuffer = some (item, stream))
    (output : after.stream.output = stream.output) (flushed : after.stream.flushes = stream.flushes)
    (exchanged : after.exchanges = before.exchanges)
    (stands : after.point.After (past ++ .reads memory item :: after.point.reply) after.line) :
    after.Account (past ++ .reads memory item :: after.point.reply) := by
  obtain ⟨incoming, rfl⟩ := Stream.receive?_eq arrived
  have nothing : sent (.reads memory item :: after.point.reply) = [] ∧
      flushes (.reads memory item :: after.point.reply) = 0 := by
    simp only [Point.reply]
    split <;> exact ⟨rfl, rfl⟩
  refine account.extend ?_ ?_ ?_ stands
  · rw [nothing.1, List.append_nil, output]
  · rw [nothing.2, flushed, Nat.add_zero]
  · rw [nothing.2, exchanged, Nat.add_zero]

theorem Account.replies (account : before.Account past) {bytes text : Bytes}
    (asking : Exchanges past before.line (.asking text)) (stream : after.stream = before.stream)
    (exchanged : after.exchanges = before.exchanges) (line : after.line = before.line)
    (point : after.point = .sending bytes) : after.Account (past ++ after.point.reply) := by
  rw [point]
  refine account.extend ?_ ?_ ?_ ?_
  · simp [stream, Point.reply, sent]
  · simp [stream, Point.reply, flushes]
  · simp [exchanged, Point.reply, flushes]
  · rw [point, line]
    exact .reply bytes asking

theorem Step.account (step : Step world before after told) (account : before.Account past) :
    after.Account (past ++ before.deeds world.memory after) := by
  have stands := account.stands
  cases step with
  | start point =>
      rw [deeds_apart (by simp [point]) (by simp [performs, point]), Point.reply.eq_def]
      rw [point] at stands
      obtain ⟨rfl, blank⟩ := stands
      refine account.moves rfl rfl ?_
      show Exchanges [] before.line .reading
      rw [blank]
      exact .start
  | leave point arrived ends =>
      rw [point] at stands
      rw [deeds_receiving point arrived]
      exact account.reads arrived rfl rfl rfl (Closes.left stands ends)
  | «break» point arrived =>
      rw [point] at stands
      rw [deeds_receiving point arrived]
      exact account.reads arrived rfl rfl rfl (Closes.unread stands)
  | crash point arrived =>
      rw [point] at stands
      rw [deeds_receiving point arrived]
      exact account.reads arrived rfl rfl rfl ⟨_, _, _, stands, rfl⟩
  | read point arrived filled fed incomplete =>
      rw [point] at stands
      rw [deeds_receiving point arrived]
      refine account.reads arrived rfl rfl rfl ?_
      simp only [point]
      exact Exchanges.unfinished stands filled fed incomplete
  | refuse point arrived filled fed complete unready =>
      rw [point] at stands
      rw [deeds_receiving point arrived]
      refine account.reads arrived rfl rfl rfl ?_
      have replied := Exchanges.reply [] (.complete stands filled fed complete)
      simpa [Point.reply, Point.After] using replied
  | ask point arrived filled fed complete ready =>
      rw [point] at stands
      rw [deeds_receiving point arrived]
      refine account.reads arrived rfl rfl rfl ?_
      exact ⟨_, .complete stands filled fed complete, Command.parse_of_ready? ready⟩
  | take point | wait point | wake point =>
      rw [point] at stands
      rw [deeds_apart (by simp [point]) (by simp [performs, point])]
      simp only [Point.reply, List.append_nil]
      exact account.moves rfl rfl stands
  | expire point | conclude point =>
      rw [point] at stands
      obtain ⟨text, asking, _⟩ := stands
      rw [deeds_apart (by simp [point]) (by simp [performs, point])]
      exact account.replies asking rfl rfl rfl rfl
  | send point filled written =>
      rw [point] at stands
      rw [deeds_sending point filled written]
      obtain ⟨some_taken, rfl⟩ := Stream.write?_ok filled written
      refine account.extend ?_ rfl rfl ?_
      · simp [CommandLog.sent]
      · refine Exchanges.send ?_ some_taken
        rwa [List.take_append_drop]
  | sendFails point filled written =>
      rw [point] at stands
      rw [deeds_unsent point filled written]
      cases Stream.write?_error written
      exact account.extend (List.append_nil _).symm rfl rfl (Closes.unsent stands filled)
  | sent point =>
      rw [point] at stands
      rw [deeds_sent point, List.append_nil]
      exact account.moves rfl rfl stands
  | flush point flushed =>
      rw [point] at stands
      rw [deeds_flushing point flushed]
      cases Stream.flush?_ok flushed
      exact account.extend (List.append_nil _).symm rfl rfl (.flush stands)
  | flushFails point flushed =>
      rw [point] at stands
      rw [deeds_unflushed point flushed]
      cases Stream.flush?_error flushed
      exact account.extend (List.append_nil _).symm rfl rfl (Closes.unflushed stands)
  | shut point shut =>
      rw [point] at stands
      rw [deeds_apart (by simp [point]) (by simp [performs, point])]
      obtain ⟨isShutDown, rfl⟩ := Stream.shutDown?_eq shut
      exact account.extend (List.append_nil _).symm rfl rfl ((List.append_nil past).symm ▸ stands)

end Worker

end CommandLog
