import CommandLog.Proofs.Worker.Step

/-!
What a worker does to its connection, in order: it reads until a command is complete, gets the reply to
that command, sends it in as many parts as the connection takes, and flushes it once, before it reads
on. What has been sent is what has been replied, up to the rest of the last reply.
-/

namespace CommandLog

inductive Deed where
  | reads (memory : Memory) (item : Incoming)
  | replies (bytes : Bytes)
  | sends (bytes : Bytes)
  | flushes
  | fails (failure : SessionFailure)

namespace Deed

@[simp] def replied? : Deed → Option Bytes
  | .replies bytes => some bytes
  | _ => none

@[simp] def sent : Deed → Bytes
  | .sends bytes => bytes
  | _ => []

@[simp] def isFlush : Deed → Bool
  | .flushes => true
  | _ => false

@[simp] def isRead : Deed → Bool
  | .reads _ _ => true
  | _ => false

@[simp] def feeds (line : LineBuffer) : Deed → LineBuffer
  | .reads memory (.bytes chunk) => (line.feed memory chunk).2
  | _ => line

end Deed

def replies (past : List Deed) : List Bytes := past.filterMap Deed.replied?

def sent (past : List Deed) : Bytes := past.flatMap Deed.sent

def flushes (past : List Deed) : Nat := past.countP Deed.isFlush

theorem replies_append (past later : List Deed) :
    replies (past ++ later) = replies past ++ replies later :=
  List.filterMap_append

theorem sent_append (past later : List Deed) : sent (past ++ later) = sent past ++ sent later :=
  List.flatMap_append

theorem flushes_append (past later : List Deed) :
    flushes (past ++ later) = flushes past + flushes later :=
  List.countP_append

@[simp] theorem replies_concat (past : List Deed) (deed : Deed) :
    replies (past ++ [deed]) = replies past ++ deed.replied?.toList := by
  simp only [replies, List.filterMap_append, List.filterMap_cons, List.filterMap_nil]
  cases deed.replied? <;> rfl

@[simp] theorem sent_concat (past : List Deed) (deed : Deed) :
    sent (past ++ [deed]) = sent past ++ deed.sent := by
  simp [sent]

@[simp] theorem flushes_concat (past : List Deed) (deed : Deed) :
    flushes (past ++ [deed]) = flushes past + if deed.isFlush then 1 else 0 := by
  simp [flushes, List.countP_singleton]

inductive Progress where
  | reading
  | asking (line : Bytes)
  | sending (rest : Bytes)

inductive Exchanges : List Deed → LineBuffer → Progress → Prop
  | start : Exchanges [] {} .reading
  | unfinished {past line memory chunk outcome next} : Exchanges past line .reading → chunk ≠ [] →
      line.feed memory chunk = (outcome, next) → Feed.line? outcome = none →
      Exchanges (past ++ [.reads memory (.bytes chunk)]) next .reading
  | complete {past line memory chunk outcome text next} : Exchanges past line .reading →
      chunk ≠ [] → line.feed memory chunk = (outcome, next) → Feed.line? outcome = some text →
      Exchanges (past ++ [.reads memory (.bytes chunk)]) next (.asking text)
  | reply {past line text} (bytes : Bytes) : Exchanges past line (.asking text) →
      Exchanges (past ++ [.replies bytes]) line (.sending bytes)
  | send {past line part rest} : Exchanges past line (.sending (part ++ rest)) → part ≠ [] →
      Exchanges (past ++ [.sends part]) line (.sending rest)
  | flush {past line} : Exchanges past line (.sending []) →
      Exchanges (past ++ [.flushes]) line .reading

def Progress.Delivers (past : List Deed) : Progress → Prop
  | .reading | .asking _ =>
      sent past = (replies past).flatten ∧ flushes past = (replies past).length
  | .sending rest => ∃ done part, replies past = done ++ [part ++ rest] ∧
      sent past = done.flatten ++ part ∧ flushes past = done.length

variable {past : List Deed} {line : LineBuffer} {progress : Progress}

theorem Exchanges.delivers (exchanges : Exchanges past line progress) : progress.Delivers past := by
  induction exchanges with
  | start => exact ⟨rfl, rfl⟩
  | unfinished _ _ _ _ ih => simpa [Progress.Delivers] using ih
  | complete _ _ _ _ ih => simpa [Progress.Delivers] using ih
  | @reply past line text bytes _ ih =>
      obtain ⟨sends, flushed⟩ := ih
      refine ⟨replies past, [], ?_, ?_, ?_⟩
      · simp
      · simpa using sends
      · simpa using flushed
  | @send past line part rest _ _ ih =>
      obtain ⟨done, before, replied, sends, flushed⟩ := ih
      refine ⟨done, before ++ part, ?_, ?_, ?_⟩
      · simpa using replied
      · simp [sends]
      · simpa using flushed
  | flush _ ih =>
      obtain ⟨done, part, replied, sends, flushed⟩ := ih
      constructor
      · simp [sends, replied]
      · simp [flushed, replied]

theorem Progress.Delivers.bounds (delivers : progress.Delivers past) :
    sent past <+: (replies past).flatten ∧
      ((replies past).take (flushes past)).flatten <+: sent past := by
  have whole (same : sent past = (replies past).flatten)
      (count : flushes past = (replies past).length) :
      sent past <+: (replies past).flatten ∧
        ((replies past).take (flushes past)).flatten <+: sent past := by
    rw [same, count, List.take_length]
    exact ⟨List.prefix_rfl, List.prefix_rfl⟩
  cases progress with
  | reading => exact whole delivers.1 delivers.2
  | asking text => exact whole delivers.1 delivers.2
  | sending rest =>
      obtain ⟨done, part, replied, sends, flushed⟩ := delivers
      rw [replied, sends, flushed, List.take_left]
      constructor
      · simp
      · exact List.prefix_append _ _

def lineAfter (past : List Deed) : LineBuffer := past.foldl Deed.feeds {}

theorem lineAfter_concat (past : List Deed) (deed : Deed) :
    lineAfter (past ++ [deed]) = deed.feeds (lineAfter past) := by
  simp only [lineAfter, List.foldl_append, List.foldl_cons, List.foldl_nil]

theorem Exchanges.line_eq (exchanges : Exchanges past line progress) : line = lineAfter past := by
  induction exchanges with
  | start => rfl
  | unfinished _ _ fed _ ih => rw [lineAfter_concat, ← ih, Deed.feeds, fed]
  | complete _ _ fed _ ih => rw [lineAfter_concat, ← ih, Deed.feeds, fed]
  | reply _ _ ih | send _ _ ih | flush _ ih => rw [lineAfter_concat, ih]; rfl

/-- What a session does after a read with this outcome, before it reads again: nothing when no command
is complete, and otherwise one reply is sent, all of it, and flushed once. -/
def Answers (outcome : Except LogError Feed) (between : List Deed) : Prop :=
  match Feed.line? outcome with
  | none => between = []
  | some _ => ∃ parts : List Bytes, [] ∉ parts ∧
      between = .replies parts.flatten :: (parts.map Deed.sends ++ [.flushes])

inductive Progress.Since (outcome : Except LogError Feed) : List Deed → Progress → Prop
  | unfinished : Feed.line? outcome = none → Since outcome [] .reading
  | complete {text} : Feed.line? outcome = some text → Since outcome [] (.asking text)
  | sending {text rest} (parts : List Bytes) : Feed.line? outcome = some text → [] ∉ parts →
      Since outcome (.replies (parts.flatten ++ rest) :: parts.map Deed.sends) (.sending rest)
  | flushed {text} (parts : List Bytes) : Feed.line? outcome = some text → [] ∉ parts →
      Since outcome (.replies parts.flatten :: (parts.map Deed.sends ++ [.flushes])) .reading

theorem Progress.Since.answers {outcome : Except LogError Feed} {between : List Deed}
    (since : Since outcome between .reading) : Answers outcome between := by
  cases since with
  | unfinished incomplete => simp only [Answers, incomplete]
  | flushed parts complete filled =>
      simp only [Answers, complete]
      exact ⟨parts, filled, rfl⟩

theorem concat_eq_split {α : Type} {values before after : List α} {last value : α}
    (split : values ++ [last] = before ++ value :: after) :
    (after = [] ∧ values = before ∧ last = value) ∨
      ∃ rest, after = rest ++ [last] ∧ values = before ++ value :: rest := by
  rcases List.eq_nil_or_concat after with rfl | ⟨rest, final, rfl⟩
  · obtain ⟨same, rest⟩ := List.append_inj' split rfl
    exact Or.inl ⟨rfl, same, List.singleton_inj.mp rest⟩
  · rw [List.concat_eq_append, ← List.cons_append, ← List.append_assoc] at split
    obtain ⟨same, rest⟩ := List.append_inj' split rfl
    rw [List.singleton_inj.mp rest]
    exact Or.inr ⟨_, List.concat_eq_append, same⟩

theorem Exchanges.before_read {early late : List Deed} {memory : Memory} {item : Incoming}
    (exchanges : Exchanges past line progress) (split : past = early ++ .reads memory item :: late) :
    ∃ line, Exchanges early line .reading := by
  induction exchanges generalizing late with
  | start => simp at split
  | unfinished exchanges _ _ _ ih | complete exchanges _ _ _ ih =>
      rcases concat_eq_split split with ⟨_, rfl, _⟩ | ⟨rest, _, older⟩
      · exact ⟨_, exchanges⟩
      · exact ih older
  | reply _ _ ih | send _ _ ih | flush _ ih =>
      rcases concat_eq_split split with ⟨_, _, other⟩ | ⟨rest, _, older⟩
      · cases other
      · exact ih older

theorem Exchanges.since_read {before after : List Deed} {memory : Memory} {chunk : Bytes}
    (exchanges : Exchanges past line progress)
    (split : past = before ++ .reads memory (.bytes chunk) :: after)
    (last : ∀ deed, deed ∈ after → deed.isRead = false) :
    progress.Since ((lineAfter before).feed memory chunk).1 after := by
  induction exchanges generalizing after with
  | start => simp at split
  | unfinished exchanges _ fed incomplete ih =>
      rcases concat_eq_split split with ⟨rfl, rfl, same⟩ | ⟨rest, rfl, older⟩
      · cases same
        rw [← exchanges.line_eq, fed]
        exact .unfinished incomplete
      · exact absurd (last _ List.mem_concat_self) (by simp)
  | complete exchanges _ fed complete ih =>
      rcases concat_eq_split split with ⟨rfl, rfl, same⟩ | ⟨rest, rfl, older⟩
      · cases same
        rw [← exchanges.line_eq, fed]
        exact .complete complete
      · exact absurd (last _ List.mem_concat_self) (by simp)
  | reply bytes _ ih =>
      rcases concat_eq_split split with ⟨_, _, other⟩ | ⟨rest, rfl, older⟩
      · cases other
      · cases ih older fun deed member => last deed (List.mem_append_left _ member) with
        | complete complete => exact .sending [] complete List.not_mem_nil
  | @send past line part rest _ filled ih =>
      rcases concat_eq_split split with ⟨_, _, other⟩ | ⟨rest, rfl, older⟩
      · cases other
      · have since := ih older fun deed member => last deed (List.mem_append_left _ member)
        generalize earlier : Progress.sending _ = progress at since
        cases since with
        | sending parts complete others =>
            cases earlier
            have all : [] ∉ parts ++ [part] := by simpa using ⟨others, filled⟩
            have sent : Progress.Since _ _ (.sending rest) := .sending (parts ++ [part]) complete all
            simpa using sent
        | _ => cases earlier
  | flush _ ih =>
      rcases concat_eq_split split with ⟨_, _, other⟩ | ⟨rest, rfl, older⟩
      · cases other
      · have since := ih older fun deed member => last deed (List.mem_append_left _ member)
        generalize earlier : Progress.sending _ = progress at since
        cases since with
        | sending parts complete filled =>
            cases earlier
            have flushed := Progress.Since.flushed parts complete filled
            simpa using flushed
        | _ => cases earlier

end CommandLog
