import CommandLog.Proofs.Log.Addresses
import CommandLog.Proofs.World.Entries

/-!
Where the cursors of sessions are. A seek that is answered puts the cursor inside the log, and nothing
else moves it. The log may become shorter behind its back: an entry that has to leave can be longer than
the one that it leaves for. A cursor that is behind the end then reads nothing.
-/

namespace CommandLog

namespace Log

variable {log : Log} {entries : List Bytes}

theorem Reachable.totalBytes_appendAll (reached : log.Reachable) (entries : List Bytes) :
    Bytes.totalLength (log.appendAll entries).2 + totalBytes (log.appendAll entries).1 =
      log.totalBytes + Bytes.totalLength entries := by
  obtain ⟨holds, nothingLost⟩ := reached.holds.appendAll entries
  rw [← holds.toList_eq] at nothingLost
  have lengths := congrArg (fun bytes => bytes.flatten.length) nothingLost
  simp only [List.flatten_append, List.length_append, Bytes.length_flatten] at lengths
  exact lengths

theorem Reachable.displaced_of_room (reached : log.Reachable) (entries : List Bytes)
    (room : (log.appendAll entries).1.full = false) : (log.appendAll entries).2 = [] := by
  obtain ⟨holds, nothingLost⟩ := reached.holds.appendAll entries
  have counted := Ring.length_rtake log.capacity (log.toList ++ entries)
  have filled := holds.full_iff
  rw [Ring.capacity_appendAll] at filled
  have short : (log.toList ++ entries).length ≤ log.capacity := by
    rw [room] at filled
    simp only [Bool.false_eq_true, false_iff] at filled
    omega
  rw [Ring.rtake_of_length_le short] at nothingLost
  simpa using nothingLost

theorem snapshot_past_end (memory : Memory) {start : Nat} (past : log.totalBytes ≤ start) :
    log.snapshot memory start = .ok [] := by
  rw [← length_content] at past
  simp [snapshot_eq, ← length_content, Nat.sub_eq_zero_of_le past, Memory.grants, past]

end Log

theorem Worker.Step.cursor {world : World} {before after : Worker} {told : List Event}
    (step : Step world before after told) : after.cursor = before.cursor ∨ ∃ index offset bytes,
      before.point = .holding (.seek index offset) ∧
      world.log.resolve index offset = .ok after.cursor ∧
      (world.log.exchange world.memory before.cursor (.seek index offset)).answer =
        .ok ⟨bytes, after.cursor⟩ ∧
      after.point = .sending bytes := by
  cases step with
  | @conclude command holding =>
      cases command with
      | write bytes =>
          left
          simp only [Log.shown, Log.exchange]
          cases Log.snapshot world.memory (world.log.append bytes).1 before.cursor <;> rfl
      | seek index offset =>
          simp only [Log.shown, Log.exchange]
          cases found : world.log.resolve index offset with
          | error error => exact Or.inl rfl
          | ok start =>
              cases taken : world.log.snapshot world.memory start with
              | error error => exact Or.inl (by simp [taken, Except.map])
              | ok bytes =>
                  exact Or.inr ⟨index, offset, bytes, holding, by simp [taken, found, Except.map]⟩
  | _ => exact Or.inl rfl

namespace World

variable {log : Log} {lockTimeout : Duration} {readBuffer capacity : Nat} {actions : List Action}
variable {start world next final place : World} {action : Action} {key : Key} {worker : Worker}
variable {early late : List Action} {cursor : Nat}

/-- How a cursor has come to be where it is: after these actions the session is a new one, or it has just
taken the answer to a seek of its own, which found this position. -/
inductive Placed (start : World) (key : Key) : Nat → List Action → World → Prop
  | fresh {early place identity origin readBuffer} : start.steps early = some place →
      place.worker? key = some (Worker.create identity origin readBuffer) → Placed start key 0 early place
  | sought {early before place worker after index offset bytes cursor} :
      start.steps early = some before → before.worker? key = some worker →
      worker.point = .holding (.seek index offset) → before.log.resolve index offset = .ok cursor →
      (before.log.exchange before.memory worker.cursor (.seek index offset)).answer =
        .ok ⟨bytes, cursor⟩ →
      before.step (.run key) = some place → place.worker? key = some after →
      after.cursor = cursor → after.point = .sending bytes →
      Placed start key cursor (early ++ [.run key]) place

theorem Placed.reached (placed : Placed start key cursor early place) :
    start.steps early = some place := by
  cases placed with
  | fresh reached => exact reached
  | sought reached _ _ _ _ stepped => exact steps_concat_eq_some.mpr ⟨_, reached, stepped⟩

theorem log_of_steps (ran : world.steps actions = some final) :
    ∃ entries, final.log = (world.log.appendAll entries).1 := by
  refine passages_induction (fun _ final => ∃ entries, final.log = (world.log.appendAll entries).1)
    ⟨[], rfl⟩ ?_ ran
  rintro _ action _ before after _ _ ⟨entries, kept⟩ stepped
  rcases log_of_step stepped with same | ⟨bytes, appended, _⟩
  · exact ⟨entries, same.trans kept⟩
  · exact ⟨entries ++ [bytes], by rw [appended, kept, Ring.appendAll_concat]⟩

theorem reachable_run (built : Log.ofCapacity capacity = .ok log)
    (ran : (initial log lockTimeout readBuffer).steps actions = some final) : final.log.Reachable := by
  obtain ⟨entries, kept⟩ := log_of_steps ran
  rw [kept]
  exact (Log.Reachable.fresh built).appendAll entries

theorem Placed.inside (built : Log.ofCapacity capacity = .ok log)
    (placed : Placed (initial log lockTimeout readBuffer) key cursor early place) :
    cursor = 0 ∨ cursor < place.log.totalBytes := by
  cases placed with
  | fresh => exact Or.inl rfl
  | @sought _ before _ worker _ _ _ _ _ reached present holding resolved _ stepped =>
      obtain ⟨_, _, _, _, _, logged⟩ := turn_of_run present stepped
      have same : place.log = before.log := by
        rw [logged]
        simp only [logAfter, holding, Log.exchange_log]
        rfl
      rw [same]
      exact Or.inr (Log.resolve_inside (reachable_run built reached) resolved)

/-- The cursor was put where it is at `place`, and no step behind that has moved it. -/
structure Since (start : World) (key : Key) (cursor : Nat) (actions : List Action) (early late : List Action)
    (place final : World) : Prop where
  whole : actions = early ++ late
  placed : Placed start key cursor early place
  ran : place.steps late = some final
  still : ∀ passage ∈ place.passages late, ∀ worker, passage.after.worker? key = some worker →
    worker.cursor = cursor

theorem Since.stay (since : Since start key cursor actions early late place world)
    (stepped : world.step action = some next)
    (still : ∀ worker, next.worker? key = some worker → worker.cursor = cursor) :
    Since start key cursor (actions ++ [action]) early (late ++ [action]) place next where
  whole := by rw [since.whole, List.append_assoc]
  placed := since.placed
  ran := steps_concat_eq_some.mpr ⟨world, since.ran, stepped⟩
  still := by
    rw [passages_concat since.ran stepped]
    intro passage member
    rcases List.mem_append.mp member with earlier | last
    · exact since.still passage earlier
    · exact List.mem_singleton.mp last ▸ still

theorem since_placed (placed : Placed start key cursor early place) :
    Since start key cursor early early [] place place where
  whole := (List.append_nil early).symm
  placed := placed
  ran := by rw [steps]
  still := by simp [passages]

theorem since_run (launches : ∀ action, action ∈ actions → action.LaunchesNew)
    (fresh : start.worker? key = none) (ran : start.steps actions = some final)
    (found : final.worker? key = some worker) :
    ∃ early late place, Since start key worker.cursor actions early late place final := by
  induction actions using List.reverseRecOn generalizing final worker with
  | nil =>
      cases ran
      rw [fresh] at found
      cases found
  | append_singleton actions action ih =>
      obtain ⟨middle, reached, stepped⟩ := steps_concat_eq_some.mp ran
      have ih {worker : Worker} := @ih middle worker
        (fun action member => launches action (List.mem_append_left _ member)) reached
      have stay {before : Worker} (present : middle.worker? key = some before)
          (same : worker.cursor = before.cursor) :
          ∃ early late place, Since start key worker.cursor (actions ++ [action]) early late place final := by
        obtain ⟨early, late, place, since⟩ := ih present
        refine ⟨early, _, place, (same ▸ since).stay stepped fun after left => ?_⟩
        rw [Option.some.inj (found.symm.trans left)]
      have fate := step_fate (launches action (by simp)) stepped key
      rw [Fates, found] at fate
      generalize present : middle.worker? key = before at fate
      cases fate with
      | same => exact stay present rfl
      | new => exact ⟨_, [], final, since_placed (.fresh ran found)⟩
      | change => exact stay present rfl
      | abort => exact stay present rfl
      | discard => exact stay present rfl
      | run runs step =>
          rcases step.cursor with same | ⟨index, offset, bytes, holding, resolved, replied, sending⟩
          · exact stay present same
          · rw [runs] at stepped ⊢
            exact ⟨_, [], final, since_placed
              (.sought reached present holding resolved replied stepped found rfl sending)⟩

/-- A cursor is where the session began or where the last seek of its own has put it, which was inside the
log as it was then. Since then it is the entries that decide: as long as those that had to leave are no
longer than those that came for them, the cursor is inside the log. Otherwise it may be behind the end,
and what is read from there is nothing. -/
theorem cursor_inside_when_placed (built : Log.ofCapacity capacity = .ok log)
    (launches : ∀ action, action ∈ actions → action.LaunchesNew)
    (ran : (initial log lockTimeout readBuffer).steps actions = some final)
    (found : final.worker? key = some worker) :
    ∃ early late place entries,
      Since (initial log lockTimeout readBuffer) key worker.cursor actions early late place final ∧
      (worker.cursor = 0 ∨ worker.cursor < place.log.totalBytes) ∧
      final.log = (place.log.appendAll entries).1 ∧
      let displaced := (place.log.appendAll entries).2
      worker.cursor + Bytes.totalLength entries ≤ final.log.totalBytes + Bytes.totalLength displaced ∧
      (Bytes.totalLength displaced ≤ Bytes.totalLength entries ∨ final.log.full = false →
        worker.cursor ≤ final.log.totalBytes) ∧
      ∀ memory, final.log.totalBytes ≤ worker.cursor →
        final.log.snapshot memory worker.cursor = .ok [] := by
  obtain ⟨early, late, place, since⟩ := since_run launches rfl ran found
  obtain ⟨entries, kept⟩ := log_of_steps since.ran
  have reached := reachable_run built since.placed.reached
  have bytes := reached.totalBytes_appendAll entries
  rw [← kept] at bytes
  have inside := since.placed.inside built
  refine ⟨early, late, place, entries, since, inside, kept, by omega, ?_,
    fun memory => Log.snapshot_past_end memory⟩
  rintro (shorter | room)
  · omega
  · have nothing := reached.displaced_of_room entries (kept ▸ room)
    rw [nothing, Bytes.totalLength, List.foldr_nil] at bytes
    omega

/-- A session writes an entry and seeks into it, and another one writes a shorter entry, for which the
first has to leave. -/
def shorterEntry : List Action :=
  [.spawn 0 none, .spawn 1 none, .run 0, .run 1, .arrive 0 (.bytes [97, 97, 97, 97, 10]),
    .arrive 0 (.bytes (Command.seekTag ++ [48, 44, 51, 10])), .arrive 1 (.bytes [98, 10])] ++
    List.replicate 12 (.run 0) ++ List.replicate 3 (.run 1)

theorem shorterEntry_run : ∃ final worker,
    (initial (Ring.empty 1) (.ofSeconds 5) 64).steps shorterEntry = some final ∧
      final.worker? 0 = some worker ∧ worker.cursor = 3 ∧ final.log.totalBytes = 2 := by
  have cursor : (((initial (Ring.empty 1) (.ofSeconds 5) 64).steps shorterEntry).bind fun final =>
      (final.worker? 0).map fun worker => (worker.cursor, final.log.totalBytes)) = some (3, 2) := by
    decide +kernel
  obtain ⟨final, ran, shown⟩ := Option.bind_eq_some_iff.mp cursor
  obtain ⟨worker, found, both⟩ := Option.map_eq_some_iff.mp shown
  exact ⟨final, worker, ran, found, Prod.mk.inj both⟩

theorem shorterEntry_launchesNew : ∀ action, action ∈ shorterEntry → action.LaunchesNew := by
  simp [shorterEntry, Action.LaunchesNew]

theorem cursor_inside_when_placed_shorterEntry :
    ∃ final worker, Log.ofCapacity 1 = .ok (Ring.empty 1) ∧
      (∀ action, action ∈ shorterEntry → action.LaunchesNew) ∧
      (initial (Ring.empty 1) (.ofSeconds 5) 64).steps shorterEntry = some final ∧
      final.worker? 0 = some worker ∧ final.log.totalBytes < worker.cursor ∧
      (∃ early late place, worker.cursor < place.log.totalBytes ∧
        Since (initial (Ring.empty 1) (.ofSeconds 5) 64) 0 worker.cursor shorterEntry early late
          place final) ∧
      ∀ memory, final.log.snapshot memory worker.cursor = .ok [] := by
  obtain ⟨final, worker, ran, found, cursor, bytes⟩ := shorterEntry_run
  have built : Log.ofCapacity 1 = .ok (Ring.empty 1) := rfl
  obtain ⟨early, late, place, _, since, inside, _, _, _, past⟩ :=
    cursor_inside_when_placed built shorterEntry_launchesNew ran found
  exact ⟨final, worker, built, shorterEntry_launchesNew, ran, found, by omega,
    ⟨early, late, place, by omega, since⟩, fun memory => past memory (by omega)⟩

/-- A cursor need not be inside the log as it is now. -/
theorem cursor_left_behind : ¬ ∀ (capacity : Nat) (log : Log) (lockTimeout : Duration) (readBuffer : Nat)
    (actions : List Action) (final : World) (key : Key) (worker : Worker),
    Log.ofCapacity capacity = .ok log → (∀ action, action ∈ actions → action.LaunchesNew) →
    (initial log lockTimeout readBuffer).steps actions = some final →
    final.worker? key = some worker → worker.cursor ≤ final.log.totalBytes := by
  intro inside
  obtain ⟨final, worker, ran, found, cursor, bytes⟩ := shorterEntry_run
  have bound := inside 1 _ _ _ _ final 0 worker rfl shorterEntry_launchesNew ran found
  omega

end World

end CommandLog
