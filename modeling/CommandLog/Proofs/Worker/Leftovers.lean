import CommandLog.Proofs.Worker.Account
import CommandLog.Proofs.Worker.Cuts

/-!
What a worker dispatches, and what is reported of the bytes that come to nothing: those that stand behind a
line feed in the same read, and those of a command that its client does not end.
-/

namespace CommandLog

def Event.dropped? : Event → Option Nat
  | .droppedBytes _ count => some count
  | _ => none

def Event.unended? : Event → Option Nat
  | .partialCommand _ pending => some pending
  | _ => none

namespace Worker

def dispatches? (memory : Memory) (worker : Worker) : Option (Bytes × Nat) :=
  match worker.point, worker.stream.receive? worker.readBuffer with
  | .receiving, some (.bytes (first :: rest), _) =>
      match (worker.line.feed memory (first :: rest)).1 with
      | .ok (.complete line discarded) => some (line, discarded)
      | _ => none
  | _, _ => none

def unended (worker : Worker) : List Nat :=
  match worker.point with
  | .closing (.ok ()) | .ended (.returned (.ok ())) =>
      if worker.line.pending.length = 0 then [] else [worker.line.pending.length]
  | _ => []

variable {memory : Memory} {world : World} {before after worker : Worker} {told : List Event}

theorem reads_deeds (memory : Memory) (before after : Worker) :
    reads (before.deeds memory after) = reads (before.performs memory) := by
  simp only [deeds]
  split
  · rfl
  · rw [reads, List.filterMap_append]
    exact (congrArg (reads (before.performs memory) ++ ·) (reads_reply after.point)).trans
      (List.append_nil _)

theorem reads_performs_apart (apart : worker.point ≠ .receiving) : reads (worker.performs memory) = [] := by
  simp only [performs]
  split
  · exact absurd ‹_› apart
  · split
    · rfl
    · split <;> rfl
  · split <;> rfl
  · rfl

theorem commands_deeds (memory : Memory) (before after : Worker) :
    LineBuffer.commands (before.line.feedAll (chunks (before.deeds memory after))).1 =
      (before.dispatches? memory).toList := by
  rw [chunks, reads_deeds]
  by_cases reading : before.point = .receiving
  · simp only [performs, dispatches?, reading]
    cases before.stream.receive? before.readBuffer with
    | none => rfl
    | some arrival =>
        obtain ⟨item, stream⟩ := arrival
        cases item with
        | bytes chunk =>
            cases chunk with
            | nil => rfl
            | cons first rest =>
                simp only [reads, Deed.read?, List.filterMap_cons, List.filterMap_nil, chunk?,
                  LineBuffer.feedAll, LineBuffer.commands]
                cases (before.line.feed memory (first :: rest)).1 with
                | error error => rfl
                | ok feed => cases feed <;> rfl
        | _ => rfl
  · rw [reads_performs_apart reading]
    simp only [dispatches?]
    split
    · exact absurd ‹_› reading
    · rfl

theorem dispatches?_of_read {chunk : Bytes} {stream : Stream} {outcome : Except LogError Feed}
    {line : LineBuffer} (reading : worker.point = .receiving)
    (arrived : worker.stream.receive? worker.readBuffer = some (.bytes chunk, stream)) (filled : chunk ≠ [])
    (fed : worker.line.feed memory chunk = (outcome, line)) :
    (worker.dispatches? memory).toList = LineBuffer.commands [outcome] := by
  cases chunk with
  | nil => exact absurd rfl filled
  | cons first rest =>
      simp only [dispatches?, reading, arrived, fed, LineBuffer.commands]
      cases outcome with
      | error error => rfl
      | ok feed => cases feed <;> rfl

theorem dispatches?_apart (apart : worker.point ≠ .receiving) : worker.dispatches? memory = none := by
  simp only [dispatches?]
  split
  · exact absurd ‹_› apart
  · rfl

theorem silent_conclude {command : Command} {answer : Except LogError Reply} {displaced : Option Bytes}
    {event : Event} (member : event ∈ Event.ofDisplaced displaced ++ (worker.conclude command answer).2) :
    event.dropped? = none ∧ event.unended? = none := by
  rcases List.mem_append.mp member with left | concluded
  · obtain ⟨entry, _, rfl⟩ := List.mem_map.mp left
    exact ⟨rfl, rfl⟩
  · cases answer with
    | error error =>
        rw [List.mem_singleton.mp concluded]
        exact ⟨rfl, rfl⟩
    | ok reply =>
        rw [List.mem_singleton.mp concluded]
        cases command <;> exact ⟨rfl, rfl⟩

theorem silent_return {result : Except SessionFailure Unit} {failed : List Event} {event : Event}
    (shutdown : ∀ event, event ∈ failed → ∃ cause, event = .shutdownFailed worker.identity cause)
    (member : event ∈ failed ++ [.closed worker.identity worker.exchanges] ++ worker.returnEvents result) :
    event.dropped? = none ∧ event.unended? = none := by
  rcases List.mem_append.mp member with first | returned
  · rcases List.mem_append.mp first with early | closed
    · obtain ⟨cause, rfl⟩ := shutdown event early
      exact ⟨rfl, rfl⟩
    · rw [List.mem_singleton.mp closed]
      exact ⟨rfl, rfl⟩
  · simp only [returnEvents] at returned
    split at returned
    · rw [List.mem_singleton.mp returned]
      exact ⟨rfl, rfl⟩
    · cases returned

theorem Step.dropped (step : Step world before after told) : told.filterMap Event.dropped? =
    ((before.dispatches? world.memory).toList.map Prod.snd).filter (· ≠ 0) := by
  have fed (outcome : Except LogError Feed) : (before.fedEvents outcome).filterMap Event.dropped? =
      ((LineBuffer.commands [outcome]).map Prod.snd).filter (· ≠ 0) := by
    cases outcome with
    | error error => rfl
    | ok feed =>
        cases feed with
        | incomplete => rfl
        | complete line discarded =>
            by_cases nothing : discarded = 0 <;>
              simp [fedEvents, LineBuffer.commands, Event.dropped?, nothing]
  have nothing (unheard : before.dispatches? world.memory = none)
      (silent : ∀ event ∈ told, event.dropped? = none) : told.filterMap Event.dropped? =
        ((before.dispatches? world.memory).toList.map Prod.snd).filter (· ≠ 0) := by
    rw [unheard, List.filterMap_eq_nil_iff.mpr silent]
    rfl
  cases step with
  | leave point arrived ends =>
      refine nothing ?_ ?_
      · rcases ends with rfl | rfl <;> simp only [dispatches?, point, arrived]
      · intro event member
        split at member
        · cases member
        · rw [List.mem_singleton.mp member]
          rfl
  | «break» point arrived | crash point arrived =>
      exact nothing (by simp only [dispatches?, point, arrived]) (List.forall_mem_nil _)
  | read point arrived filled heard | ask point arrived filled heard =>
      rw [dispatches?_of_read point arrived filled heard, fed]
  | refuse point arrived filled heard =>
      rw [dispatches?_of_read point arrived filled heard, List.filterMap_append, fed]
      exact List.append_nil _
  | conclude point =>
      exact nothing (dispatches?_apart (by simp [point])) fun event member => (silent_conclude member).1
  | shut point _ failed =>
      exact nothing (dispatches?_apart (by simp [point])) fun event member => (silent_return failed member).1
  | expire point =>
      exact nothing (dispatches?_apart (by simp [point])) (List.forall_mem_singleton.mpr rfl)
  | start point | take point | wait point | wake point | send point | sendFails point | sent point
  | flush point | flushFails point =>
      exact nothing (dispatches?_apart (by simp [point])) (List.forall_mem_nil _)

theorem Step.unended (step : Step world before after told) :
    before.unended ++ told.filterMap Event.unended? = after.unended := by
  have fed (outcome : Except LogError Feed) : (before.fedEvents outcome).filterMap Event.unended? = [] := by
    refine List.filterMap_eq_nil_iff.mpr fun event member => ?_
    simp only [fedEvents] at member
    split at member
    · rw [List.mem_singleton.mp member]
      rfl
    · cases member
    · split at member
      · cases member
      · rw [List.mem_singleton.mp member]
        rfl
  cases step with
  | leave point =>
      by_cases nothing : before.line.pending.length = 0 <;>
        simp [Worker.unended, point, close, enter, nothing, Event.unended?]
  | read point => simp only [Worker.unended, point, fed, List.append_nil]
  | refuse point =>
      simp only [Worker.unended, point, List.filterMap_append, fed, List.nil_append]
      rfl
  | ask point => simp only [Worker.unended, point, fed, List.append_nil]
  | conclude point =>
      rw [List.filterMap_eq_nil_iff.mpr fun event member => (silent_conclude member).2]
      simp only [Worker.unended, point, List.append_nil]
  | @shut result _ _ _ point _ failed =>
      rw [List.filterMap_eq_nil_iff.mpr fun event member => (silent_return failed member).2,
        List.append_nil]
      cases result <;> simp [Worker.unended, point, finish, enter]
  | «break» point | crash point | start point | take point | wait point | wake point | expire point
  | send point | sendFails point | sent point | flush point | flushFails point =>
      simp only [Worker.unended, point]
      rfl

end Worker

end CommandLog
