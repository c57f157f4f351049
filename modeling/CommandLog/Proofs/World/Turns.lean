import CommandLog.Proofs.Log.Content
import CommandLog.Proofs.World.Run

/-!
The order of the turns. Whatever order the tasks run in, their turns at the log follow each other, and
each is what a list of entries makes of its request at its place in that order.
-/

namespace CommandLog

variable {α : Type}

def picked (pick : Fact → Option α) (past : List Moment) : List α :=
  past.filterMap fun moment => pick moment.fact

theorem picked_cons (pick : Fact → Option α) (clock : Nat) (fact : Fact) (past : List Moment) :
    picked pick (⟨clock, fact⟩ :: past) = (pick fact).toList ++ picked pick past := by
  simp only [picked, List.filterMap_cons]
  cases pick fact <;> rfl

theorem picked_append (pick : Fact → Option α) (released : pick .released = none)
    (past : List Moment) (view next : View) (facts : List Fact) :
    picked pick (past ++ view.moments facts next) = picked pick past ++ facts.filterMap pick := by
  have silent : (view.lock.facts next.lock).filterMap pick = [] := by
    simp only [Lock.facts]
    split
    · rfl
    · split
      · rfl
      · simp [released]
  simp only [picked, View.moments, List.filterMap_append, List.filterMap_map]
  change _ ++ (facts.filterMap pick ++ (view.lock.facts next.lock).filterMap pick) = _
  rw [silent, List.append_nil]

def Fact.turn? : Fact → Option Turn
  | .turn taken => some taken
  | _ => none

def Fact.asked? (key : Key) : Fact → Option Request
  | .asks other request => if key = other then some request else none
  | _ => none

def Fact.ended? (key : Key) : Fact → Option Request
  | .turn taken => if key = taken.key then some taken.request else none
  | .expires other request => if key = other then some request else none
  | _ => none

def turns (past : List Moment) : List Turn := picked Fact.turn? past

def asked (key : Key) (past : List Moment) : List Request := picked (Fact.asked? key) past

def ended (key : Key) (past : List Moment) : List Request := picked (Fact.ended? key) past

section Append

variable (past : List Moment) (view next : View) (facts : List Fact)

theorem turns_append :
    turns (past ++ view.moments facts next) = turns past ++ facts.filterMap Fact.turn? :=
  picked_append Fact.turn? rfl past view next facts

theorem asked_append (key : Key) : asked key (past ++ view.moments facts next) =
    asked key past ++ facts.filterMap (Fact.asked? key) :=
  picked_append (Fact.asked? key) rfl past view next facts

theorem ended_append (key : Key) : ended key (past ++ view.moments facts next) =
    ended key past ++ facts.filterMap (Fact.ended? key) :=
  picked_append (Fact.ended? key) rfl past view next facts

end Append

def Request.bytes? : Request → Option Bytes
  | .write bytes | .exchange (.write bytes) _ => some bytes
  | .exchange (.seek _ _) _ | .seek _ _ | .read _ | .stats => none

def appended (taken : List Turn) : List Bytes := taken.filterMap fun turn => turn.request.bytes?

def Gain.cursor (cursor : Nat) : Gain → Nat
  | .reply _ moved => moved
  | .answer _ | .nothing => cursor

def cursorAfter (key : Key) (taken : List Turn) : Nat :=
  taken.foldl (fun cursor turn => if turn.key = key then turn.gain.cursor cursor else cursor) 0

/-- What a task gets from a list of entries, which are those that are kept after its request, when its
cursor was `cursor`. -/
inductive Answered (kept : List Bytes) (cursor : Nat) : Request → Gain → Prop
  | write {bytes : Bytes} :
      Answered kept cursor (.exchange (.write bytes) cursor) (.reply (kept.flatten.drop cursor) cursor)
  | seek {index offset : Nat} {entry : Bytes} : kept[index]? = some entry → offset < entry.length →
      Answered kept cursor (.exchange (.seek index offset) cursor)
        (.reply (kept.flatten.drop (Log.startOf kept index offset)) (Log.startOf kept index offset))
  | outside {index offset : Nat} : (∀ entry, kept[index]? = some entry → entry.length ≤ offset) →
      Answered kept cursor (.exchange (.seek index offset) cursor) (.reply [] cursor)
  | call {request : Request} {answer : Except LogError Answer} :
      (∀ bytes, request = .write bytes → answer = .ok .written) →
      Answered kept cursor request (.answer answer)

theorem split_append {values more before after : List α} {value : α}
    (split : values ++ more = before ++ value :: after) :
    (∃ rest, values = before ++ value :: rest ∧ after = rest ++ more) ∨
      ∃ start, before = values ++ start ∧ more = start ++ value :: after := by
  rcases List.append_eq_append_iff.mp split with ⟨start, rfl, rest⟩ | ⟨rest, rfl, later⟩
  · exact Or.inr ⟨start, rfl, rest⟩
  · cases rest with
    | nil => exact Or.inr ⟨[], by simp, by simpa using later.symm⟩
    | cons first rest =>
        obtain ⟨rfl, rfl⟩ := List.cons.inj later
        exact Or.inl ⟨rest, rfl, rfl⟩

theorem Log.exchange_log (memory : Memory) (log : Log) (cursor : Nat) (command : Command) :
    (log.exchange memory cursor command).log =
      (Request.exchange command cursor).bytes?.elim log fun bytes => (log.append bytes).1 := by
  cases command with
  | write bytes => rfl
  | seek index offset =>
      simp only [Log.exchange, Request.bytes?, Option.elim_none]
      cases log.resolve index offset <;> rfl

namespace View

variable {view next : View} {key : Key} {request : Request} {gain : Gain} {log : Log}
variable {cursor : Key → Nat} {facts : List Fact}

theorem Serves.log_eq (serves : view.Serves key request gain log cursor) :
    log = request.bytes?.elim view.log fun bytes => (view.log.append bytes).1 := by
  cases serves with
  | session => exact Log.exchange_log _ _ _ _
  | call =>
      cases request with
      | exchange command cursor => exact Log.exchange_log _ _ _ _
      | _ => rfl

theorem Serves.cursor_eq (serves : view.Serves key request gain log cursor) :
    cursor = Function.update view.cursor key (gain.cursor (view.cursor key)) := by
  cases serves with
  | session => rfl
  | call => simp [Gain.cursor]

theorem shown_seek {log : Log} (reached : log.Reachable) (cursor index offset : Nat) :
    log.shown .unlimited cursor (.seek index offset) =
      match log.toList[index]? with
      | none => ⟨[], cursor⟩
      | some entry =>
          if offset < entry.length then
            let start := Log.startOf log.toList index offset
            ⟨log.toList.flatten.drop start, start⟩
          else ⟨[], cursor⟩ := by
  simp only [Log.shown, Log.exchange, Log.resolve_eq reached]
  cases log.toList[index]? with
  | none => rfl
  | some entry =>
      by_cases inside : offset < entry.length
      · simp only [if_pos inside, Log.snapshot_unlimited]
        rfl
      · simp only [if_neg inside]

theorem Serves.answered (serves : view.Serves key request gain log cursor)
    (unlimited : view.memory = .unlimited) (reached : view.log.Reachable) :
    Answered log.toList (view.cursor key) request gain := by
  cases serves with
  | @session command =>
      rw [unlimited]
      cases command with
      | write bytes =>
          simp only [Log.shown, Log.exchange, Log.snapshot_unlimited]
          exact .write
      | seek index offset =>
          rw [Log.exchange_log, shown_seek reached]
          simp only [Request.bytes?, Option.elim_none]
          cases kept : view.log.toList[index]? with
          | none =>
              apply Answered.outside
              intro entry found
              rw [kept] at found
              cases found
          | some entry =>
              simp only
              split
              · rename_i inside
                exact .seek kept inside
              · rename_i outside
                apply Answered.outside
                intro other found
                rw [kept] at found
                cases found
                exact Nat.le_of_not_lt outside
  | call =>
      apply Answered.call
      intro bytes same
      rw [same]
      rfl

theorem Move.turn_or_keeps (move : Move view facts next) :
    next.memory = view.memory ∧
      ((∃ key request gain, view.standing key = .holding request ∧
          facts = [.turn ⟨key, request, gain, next.log.toList⟩] ∧
          view.Serves key request gain next.log next.cursor) ∨
        (facts.filterMap Fact.turn? = [] ∧ next.log = view.log ∧ next.cursor = view.cursor)) := by
  cases move with
  | @turn key request gain log cursor stood serves =>
      exact ⟨rfl, Or.inl ⟨key, request, gain, stood, rfl, serves⟩⟩
  | stop keys going =>
      obtain ⟨log, cursor, memory, _⟩ := stop_all_keeps view keys
      exact ⟨memory, Or.inr ⟨rfl, log, cursor⟩⟩
  | _ => exact ⟨rfl, Or.inr ⟨rfl, rfl, rfl⟩⟩

end View

variable {capacity : Nat} {view next : View} {facts : List Fact} {past : List Moment}

/-- The log keeps the last of what the turns taken so far have appended. -/
structure View.Kept (capacity : Nat) (taken : List Turn) (view : View) : Prop where
  reached : view.log.Reachable
  bounded : view.log.capacity = capacity
  kept : view.log.toList = (appended taken).rtake capacity

structure View.Linear (capacity : Nat) (taken : List Turn) (view : View) : Prop extends
    View.Kept capacity taken view where
  unlimited : view.memory = .unlimited
  cursor : ∀ key, view.cursor key = cursorAfter key taken
  answered : ∀ before turn after, taken = before ++ turn :: after →
    turn.kept = (appended (before ++ [turn])).rtake capacity ∧
      Answered turn.kept (cursorAfter turn.key before) turn.request turn.gain

theorem appended_concat (taken : List Turn) (turn : Turn) :
    appended (taken ++ [turn]) = appended taken ++ turn.request.bytes?.toList := by
  simp only [appended, List.filterMap_append]
  cases entry : turn.request.bytes? <;> simp [entry]

theorem cursorAfter_concat (key : Key) (taken : List Turn) (turn : Turn) :
    cursorAfter key (taken ++ [turn]) =
      if turn.key = key then turn.gain.cursor (cursorAfter key taken) else cursorAfter key taken := by
  simp [cursorAfter]

theorem View.Serves.kept {taken : List Turn} {log : Log} {cursor : Key → Nat}
    (kept : view.Kept capacity taken) (turn : Turn)
    (serves : view.Serves turn.key turn.request turn.gain log cursor) :
    log.Reachable ∧ log.capacity = capacity ∧
      log.toList = (appended (taken ++ [turn])).rtake capacity := by
  rw [serves.log_eq, appended_concat]
  cases turn.request.bytes? with
  | none =>
      refine ⟨kept.reached, kept.bounded, ?_⟩
      rw [Option.toList_none, List.append_nil]
      exact kept.kept
  | some bytes =>
      refine ⟨kept.reached.append bytes, ?_, ?_⟩
      · rw [Option.elim_some, Ring.capacity_append]
        exact kept.bounded
      · rw [Option.elim_some, kept.reached.toList_append, kept.kept, kept.bounded,
          Ring.rtake_append_rtake]
        rfl

theorem View.Move.kept (move : Move view facts next) (kept : view.Kept capacity (turns past)) :
    next.Kept capacity (turns (past ++ view.moments facts next)) := by
  rw [turns_append]
  obtain ⟨_, ⟨key, request, gain, stood, rfl, serves⟩ | ⟨silent, log, _⟩⟩ := move.turn_or_keeps
  · obtain ⟨reached, bounded, keeps⟩ :=
      Serves.kept kept ⟨key, request, gain, next.log.toList⟩ serves
    exact ⟨reached, bounded, keeps⟩
  · rw [silent, List.append_nil]
    constructor
    · rw [log]
      exact kept.reached
    · rw [log]
      exact kept.bounded
    · rw [log]
      exact kept.kept

theorem View.Move.linear (move : Move view facts next)
    (linear : view.Linear capacity (turns past)) :
    next.Linear capacity (turns (past ++ view.moments facts next)) := by
  have kept := move.kept linear.toKept
  rw [turns_append] at kept ⊢
  obtain ⟨memory, ⟨key, request, gain, stood, rfl, serves⟩ | ⟨silent, log, cursor⟩⟩ :=
    move.turn_or_keeps
  · have answered := serves.answered linear.unlimited linear.reached
    rw [linear.cursor key] at answered
    have cursors := serves.cursor_eq
    refine ⟨kept, ?_, ?_, ?_⟩
    · rw [memory, linear.unlimited]
    · intro other
      simp only [List.filterMap_cons, Fact.turn?, List.filterMap_nil]
      rw [cursors, cursorAfter_concat, Function.update_apply, linear.cursor, linear.cursor]
      by_cases same : other = key
      · simp [same]
      · simp [same, Ne.symm same]
    · intro before turn after split
      rcases split_append split with ⟨rest, older, _⟩ | ⟨start, rfl, last⟩
      · exact linear.answered before turn rest older
      · cases start with
        | nil =>
            obtain ⟨rfl, _⟩ := List.cons.inj last
            rw [List.append_nil]
            exact ⟨kept.kept, answered⟩
        | cons first start =>
            have tooLong := congrArg List.length last
            simp [Fact.turn?] at tooLong
  · rw [silent, List.append_nil] at kept ⊢
    refine ⟨kept, ?_, ?_, linear.answered⟩
    · rw [memory, linear.unlimited]
    · rw [cursor]
      exact linear.cursor

def Standing.begun : Standing → List Request
  | .requesting request | .waiting request | .holding request => [request]
  | .idle | .gone => []

def Course (key : Key) (past : List Moment) (standing : Standing) : Prop :=
  asked key past = ended key past ++ standing.begun ∨
    standing = .gone ∧ ∃ request, asked key past = ended key past ++ [request]

theorem filterMap_of_apart {key : Key}
    (apart : ∀ fact, fact ∈ facts → fact.concerns key = false) :
    facts.filterMap (Fact.asked? key) = [] ∧ facts.filterMap (Fact.ended? key) = [] := by
  constructor
  · apply List.filterMap_eq_nil_iff.mpr
    intro fact member
    have other := apart fact member
    cases fact with
    | asks asker request => simpa [Fact.concerns, Fact.asked?] using other
    | _ => rfl
  · apply List.filterMap_eq_nil_iff.mpr
    intro fact member
    have other := apart fact member
    cases fact with
    | turn taken => simpa [Fact.concerns, Fact.ended?] using other
    | expires asker request => simpa [Fact.concerns, Fact.ended?] using other
    | _ => rfl

theorem Standing.Step.of_gone {key : Key} {after : Standing} (step : Step key .gone facts after) :
    after = .gone ∧ ∀ fact, fact ∈ facts → fact.concerns key = false := by
  cases step with
  | apart others => exact ⟨rfl, others⟩
  | stop going stopped => exact absurd rfl going

theorem Standing.Step.conserves {key : Key} {before after : Standing}
    (step : Step key before facts after) :
    before.begun ++ facts.filterMap (Fact.asked? key) =
        facts.filterMap (Fact.ended? key) ++ after.begun ∨
      after = .gone ∧ facts.filterMap (Fact.asked? key) = [] ∧
        facts.filterMap (Fact.ended? key) = [] ∧ ∃ request, before.begun = [request] := by
  cases step with
  | apart others =>
      obtain ⟨asks, ends⟩ := filterMap_of_apart others
      rw [asks, ends, List.append_nil]
      exact Or.inl rfl
  | leave => exact Or.inl rfl
  | take => exact Or.inl rfl
  | wake => exact Or.inl rfl
  | wait => exact Or.inl rfl
  | ask => exact Or.inl (by simp [List.filterMap_cons, Fact.asked?, Fact.ended?, begun])
  | expire => exact Or.inl (by simp [List.filterMap_cons, Fact.asked?, Fact.ended?, begun])
  | turn => exact Or.inl (by simp [List.filterMap_cons, Fact.asked?, Fact.ended?, begun])
  | stop going stopped =>
      cases before with
      | idle => exact Or.inl rfl
      | gone => exact Or.inl rfl
      | requesting request => exact Or.inr ⟨rfl, rfl, rfl, request, rfl⟩
      | waiting request => exact Or.inr ⟨rfl, rfl, rfl, request, rfl⟩
      | holding request => exact Or.inr ⟨rfl, rfl, rfl, request, rfl⟩

theorem View.Move.course (move : Move view facts next) (key : Key)
    (course : Course key past (view.standing key)) :
    Course key (past ++ view.moments facts next) (next.standing key) := by
  have step := move.standing key
  rw [Course, asked_append, ended_append]
  rcases course with same | ⟨gone, request, left⟩
  · -- What the step ends was begun before it or is asked for in it.
    rcases step.conserves with balance | ⟨gone, asks, ends, request, begun⟩
    · rw [same, List.append_assoc, balance, List.append_assoc]
      exact Or.inl rfl
    · rw [same, begun, asks, ends, List.append_nil, List.append_nil]
      exact Or.inr ⟨gone, request, rfl⟩
  · rw [gone] at step
    obtain ⟨stays, others⟩ := step.of_gone
    obtain ⟨asks, ends⟩ := filterMap_of_apart others
    rw [asks, ends, List.append_nil, List.append_nil]
    exact Or.inr ⟨stays, request, left⟩

end CommandLog
