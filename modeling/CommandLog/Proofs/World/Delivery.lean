import CommandLog.Proofs.World.Replay

/-!
What a client receives of its session, whatever its connection does: the replies to its commands in
order, each flushed once before the next read, cut short only where the session ends.
-/

namespace CommandLog

def Deed.failure? : Deed → Option SessionFailure
  | .reads _ (.failure cause) => some ⟨.receive, cause⟩
  | .fails failure => some failure
  | _ => none

def Deed.EndsInput (deed : Deed) : Prop :=
  ∃ memory item, deed = .reads memory item ∧ (item = .endOfStream ∨ item = .bytes [])

theorem Exchanges.goes_on {past : List Deed} {line : LineBuffer} {progress : Progress} {deed : Deed}
    (exchanges : Exchanges past line progress) (member : deed ∈ past) : ¬ deed.EndsInput := by
  induction exchanges with
  | start => cases member
  | unfinished _ filled _ _ ih | complete _ filled _ _ ih =>
      rcases List.mem_append.mp member with older | last
      · exact ih older
      · rw [List.mem_singleton.mp last]
        rintro ⟨memory, item, same, ends | empty⟩ <;> cases same
        · cases ends
        · exact filled (Incoming.bytes.inj empty)
  | reply _ _ ih | send _ _ ih | flush _ ih =>
      rcases List.mem_append.mp member with older | last
      · exact ih older
      · rw [List.mem_singleton.mp last]
        rintro ⟨memory, item, same, _⟩
        cases same

theorem Deed.not_endsInput {deed : Deed} {failure : SessionFailure}
    (fails : deed.failure? = some failure) : ¬ deed.EndsInput := by
  rintro ⟨memory, item, rfl, rfl | rfl⟩ <;> cases fails

theorem Closes.returns {past : List Deed} {result : Except SessionFailure Unit}
    (closes : Closes past result) :
    (result = .ok () ↔ ∃ deed, deed ∈ past ∧ deed.EndsInput) ∧
      ∀ failure, result = .error failure ↔ past.getLast?.bind Deed.failure? = some failure := by
  have broken {early : List Deed} {line : LineBuffer} {progress : Progress} {last : Deed}
      {failure : SessionFailure} (exchanges : Exchanges early line progress)
      (fails : last.failure? = some failure) :
      (Except.error failure = .ok () ↔ ∃ deed, deed ∈ early ++ [last] ∧ deed.EndsInput) ∧
        ∀ other, (.error failure : Except SessionFailure Unit) = .error other ↔
          (early ++ [last]).getLast?.bind Deed.failure? = some other := by
    refine ⟨⟨nofun, ?_⟩, fun other => ?_⟩
    · rintro ⟨deed, member, ends⟩
      rcases List.mem_append.mp member with older | same
      · exact absurd ends (exchanges.goes_on older)
      · rw [List.mem_singleton.mp same] at ends
        exact absurd ends (Deed.not_endsInput fails)
    · rw [List.getLast?_concat, Option.bind_some, fails, Option.some.injEq, Except.error.injEq]
  cases closes with
  | left exchanges ends =>
      refine ⟨⟨fun _ => ⟨_, List.mem_concat_self, _, _, rfl, ends⟩, fun _ => rfl⟩, fun failure => ?_⟩
      rcases ends with rfl | rfl <;> simp [Deed.failure?]
  | unread exchanges => exact broken exchanges rfl
  | unsent exchanges _ => exact broken exchanges rfl
  | unflushed exchanges => exact broken exchanges rfl

inductive Whole (past : List Deed) : Prop
  | going {line progress} : Exchanges past line progress → Whole past
  | ended {early line progress last} : past = early ++ [last] → Exchanges early line progress →
      (last.isRead = true → progress = .reading) → last.replied? = none → last.sent = [] →
      last.isFlush = false → Whole past

theorem Closes.whole {past : List Deed} {result : Except SessionFailure Unit}
    (closes : Closes past result) : Whole past := by
  cases closes with
  | left exchanges ends => exact .ended rfl exchanges (fun _ => rfl) rfl rfl rfl
  | unread exchanges => exact .ended rfl exchanges (fun _ => rfl) rfl rfl rfl
  | unsent exchanges _ => exact .ended rfl exchanges nofun rfl rfl rfl
  | unflushed exchanges => exact .ended rfl exchanges nofun rfl rfl rfl

theorem Worker.Account.whole {past : List Deed} {worker : Worker} (account : worker.Account past) :
    Whole past := by
  have stands := account.stands
  cases point : worker.point with
  | fresh =>
      rw [point] at stands
      rw [stands.1]
      exact .going .start
  | receiving | sending rest | flushing =>
      rw [point] at stands
      exact .going stands
  | requesting command | waiting command | holding command =>
      rw [point] at stands
      obtain ⟨text, asking, _⟩ := stands
      exact .going asking
  | closing result =>
      rw [point] at stands
      exact Closes.whole stands
  | ended ending =>
      rw [point] at stands
      cases ending with
      | returned result => exact Closes.whole stands
      | panicked =>
          obtain ⟨early, line, memory, exchanges, rfl⟩ := stands
          exact .ended rfl exchanges (fun _ => rfl) rfl rfl rfl
      | aborted =>
          rcases stands with ⟨line, progress, exchanges⟩ | ⟨result, closes⟩
          · exact .going exchanges
          · exact closes.whole
      | discarded =>
          rw [show past = [] from stands]
          exact .going .start

theorem Whole.bounds {past : List Deed} (whole : Whole past) :
    sent past <+: (replies past).flatten ∧
      ((replies past).take (flushes past)).flatten <+: sent past := by
  cases whole with
  | going exchanges => exact exchanges.delivers.bounds
  | ended split exchanges _ unsaid unsent unflushed =>
      have bounds := exchanges.delivers.bounds
      rw [split, sent_concat, replies_concat, flushes_concat, unsaid, unsent, unflushed]
      simpa using bounds

theorem Whole.before_read {past early late : List Deed} {memory : Memory} {item : Incoming}
    (whole : Whole past) (split : past = early ++ .reads memory item :: late) :
    ∃ line, Exchanges early line .reading := by
  cases whole with
  | going exchanges => exact exchanges.before_read split
  | ended ends exchanges idle =>
      rcases concat_eq_split (ends.symm.trans split) with ⟨_, rfl, rfl⟩ | ⟨rest, _, older⟩
      · obtain rfl := idle rfl
        exact ⟨_, exchanges⟩
      · exact exchanges.before_read older

structure Worker.Delivers (past : List Deed) (worker : Worker) : Prop where
  inOrder : worker.stream.output <+: (replies past).flatten
  flushed : ((replies past).take worker.stream.flushes).flatten <+: worker.stream.output
  counted : worker.exchanges = worker.stream.flushes
  answers : ∀ before memory chunk between after, chunk ≠ [] →
    past = before ++ .reads memory (.bytes chunk) :: (between ++ after) →
    (∀ deed, deed ∈ between → deed.isRead = false) →
    (∃ memory item rest, after = .reads memory item :: rest) ∨
      after = [] ∧ worker.point = .receiving →
    Answers ((lineAfter before).feed memory chunk).1 between
  returns : ∀ result, worker.point = .closing result ∨ worker.point = .ended (.returned result) →
    (result = .ok () ↔ ∃ deed, deed ∈ past ∧ deed.EndsInput) ∧
      ∀ failure, result = .error failure ↔ past.getLast?.bind Deed.failure? = some failure

theorem Worker.Account.delivers {past : List Deed} {worker : Worker}
    (account : worker.Account past) : worker.Delivers past := by
  obtain ⟨inOrder, flushed⟩ := account.whole.bounds
  refine ⟨?_, ?_, ?_, ?_, ?_⟩
  · rwa [account.output]
  · rwa [account.output, account.flushed]
  · rw [account.exchanged, account.flushed]
  · rintro before memory chunk between after filled split unread (⟨next, item, rest, rfl⟩ | ⟨rfl, point⟩)
    · rw [← List.cons_append, ← List.append_assoc] at split
      obtain ⟨line, exchanges⟩ := account.whole.before_read split
      exact (exchanges.since_read rfl unread).answers
    · have exchanges := account.stands
      rw [point] at exchanges
      rw [List.append_nil] at split
      exact (Exchanges.since_read exchanges split unread).answers
  · rintro result (point | point)
    · have closes := account.stands
      rw [point] at closes
      exact Closes.returns closes
    · have closes := account.stands
      rw [point] at closes
      exact Closes.returns closes

/-- What a step of a session that has done `past` replies and reports. -/
structure Passage.Tells (key : Key) (past : List Deed) (passage : Passage) : Prop where
  replies : ∀ worker bytes, passage.before.worker? key = some worker →
    .replies bytes ∈ passage.deeds key → Replies passage.before worker passage.events bytes
  closes : ∀ worker result, passage.action = .run key → passage.before.worker? key = some worker →
    worker.point = .closing result → .closed worker.identity (flushes past) ∈ passage.events
  closed : ∀ worker identity count, passage.action = .run key →
    passage.before.worker? key = some worker → .closed identity count ∈ passage.events →
    identity = worker.identity ∧ count = flushes past

theorem Worker.begins_of_replies {memory : Memory} {before after : Worker} {bytes : Bytes}
    (member : .replies bytes ∈ before.deeds memory after) :
    (∀ rest, before.point ≠ .sending rest) ∧ after.point = .sending bytes := by
  have silent : .replies bytes ∉ before.performs memory := by
    simp only [performs]
    split
    · split <;> simp
    · split
      · simp
      · split <;> simp
    · split <;> simp
    · simp
  have replied (member : .replies bytes ∈ after.point.reply) : after.point = .sending bytes := by
    cases point : after.point with
    | sending rest =>
        rw [point] at member
        cases List.mem_singleton.mp member
        rfl
    | _ => simp [point, Point.reply] at member
  simp only [deeds] at member
  split at member
  · exact absurd member silent
  · rename_i apart
    exact ⟨apart, replied ((List.mem_append.mp member).resolve_left silent)⟩

namespace World

variable {log : Log} {lockTimeout : Duration} {readBuffer : Nat} {actions : List Action}
variable {world next : World} {action : Action} {key : Key} {past : List Passage}

theorem step_tells (stepped : world.step action = some next) (accounts : world.Accounts past key) :
    Passage.Tells key (deeds key past) ⟨world, action, next⟩ := by
  have turn (worker : Worker) (runs : action = .run key) (found : world.worker? key = some worker) :
      ∃ after told, Worker.Step world worker after told ∧
        Passage.events ⟨world, action, next⟩ = told ∧
        Passage.deeds key ⟨world, action, next⟩ = worker.deeds world.memory after := by
    subst runs
    obtain ⟨after, told, left, step, reported, _⟩ := turn_of_run found stepped
    exact ⟨after, told, step, Passage.events_eq reported, Passage.deeds_of_run found left⟩
  refine ⟨?_, ?_, ?_⟩
  · intro worker bytes found member
    by_cases runs : action = .run key
    · obtain ⟨after, told, step, events, deeds⟩ := turn worker runs found
      rw [deeds] at member
      obtain ⟨apart, begun⟩ := Worker.begins_of_replies member
      rw [events]
      exact step.replies apart begun
    · rw [Passage.deeds_of_idle runs] at member
      cases member
  · intro worker result runs found closing
    obtain ⟨after, told, step, events, _⟩ := turn worker runs found
    rw [events, ← (accounts.of_some found).exchanged]
    exact (step.closes closing).1
  · intro worker identity count runs found reported
    obtain ⟨after, told, step, events, _⟩ := turn worker runs found
    rw [events] at reported
    rw [← (accounts.of_some found).exchanged]
    exact step.closed reported

theorem tells_run {early late : List Passage} {passage : Passage}
    (launches : ∀ action, action ∈ actions → action.LaunchesNew)
    (split : (initial log lockTimeout readBuffer).passages actions = early ++ passage :: late)
    (key : Key) : passage.Tells key (deeds key early) := by
  obtain ⟨sooner, later, rfl, reached, rfl, stepped⟩ := passages_split split
  refine step_tells stepped (accounts_run (fun action member => ?_) reached key)
  exact launches action (List.mem_append_left _ member)

end World

end CommandLog
