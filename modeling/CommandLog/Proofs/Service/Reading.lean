import CommandLog.Proofs.Log.Addresses
import CommandLog.Proofs.Service.Outcome

/-!
Reading the log from one byte on. The chunks that are copied are one cut entry and all later ones, and
together they take exactly the room that was reserved for them, so a read fails only where that
reservation does.
-/

namespace CommandLog

namespace Log

variable {log : Log} {start : Nat} {found : Position}

theorem tail_of_missing (missing : log.locate start = none) : log.tail start = [] := by
  rw [tail, missing]

theorem tail_of_located (located : log.locate start = some found) :
    ∃ entry, log.toList[found.index]? = some entry ∧ found.offset < entry.length ∧
      log.tail start = entry.drop found.offset :: log.toList.drop (found.index + 1) := by
  obtain ⟨entry, kept, inside, _⟩ := Position.locateIn_eq_some_iff.mp located
  obtain ⟨bound, same⟩ := List.getElem?_eq_some_iff.mp kept
  refine ⟨entry, kept, inside, ?_⟩
  rw [tail, located]
  simp only [List.drop_eq_getElem_cons bound, same]

theorem tail_past_end (past : log.totalBytes ≤ start) : log.tail start = [] := by
  cases located : log.locate start with
  | none => exact tail_of_missing located
  | some found =>
      have inside : start < log.totalBytes := by
        apply Position.isSome_locateIn.mp
        rw [← locate, located]
        rfl
      omega

theorem totalLength_tail (log : Log) (start : Nat) :
    Bytes.totalLength (log.tail start) = log.totalBytes - start := by
  rw [← Bytes.length_flatten, flatten_tail, List.length_drop, length_content]

theorem chunks_of_located (reached : log.Reachable) (located : log.locate start = some found) :
    ∃ entry, log.get? found.index = some entry ∧
      (log.tail start).length = log.count - found.index ∧
      (log.tail start)[0]? = some (entry.drop found.offset) ∧ entry.drop found.offset ≠ [] ∧
      ∀ later, 0 < later → (log.tail start)[later]? = log.get? (found.index + later) := by
  obtain ⟨entry, kept, inside, chunks⟩ := tail_of_located located
  have bound := (List.getElem?_eq_some_iff.mp kept).1
  rw [chunks]
  refine ⟨entry, ?_, ?_, rfl, ?_, ?_⟩
  · rw [get?_eq reached, kept]
  · rw [List.length_cons, List.length_drop, reached.holds.count_eq]
    omega
  · rw [Ne, List.drop_eq_nil_iff]
    omega
  · intro later positive
    obtain ⟨before, rfl⟩ := Nat.exists_eq_add_one_of_ne_zero (Nat.ne_of_gt positive)
    rw [List.getElem?_cons_succ, List.getElem?_drop, get?_eq reached, Nat.add_assoc, Nat.add_comm 1]

end Log

/-- Bytes in a buffer, and the room that has been reserved behind them. -/
structure Buffer where
  held : Bytes
  room : Nat
deriving DecidableEq, Repr

namespace Buffer

/-- Puts a chunk behind what the buffer holds. A chunk without room would make the buffer grow, which has
no result here. -/
def extend (buffer : Buffer) (chunk : Bytes) : Option Buffer :=
  if chunk.length ≤ buffer.room then some ⟨buffer.held ++ chunk, buffer.room - chunk.length⟩ else none

theorem extend_all {chunks : List Bytes} {buffer : Buffer}
    (enough : Bytes.totalLength chunks ≤ buffer.room) :
    chunks.foldlM extend buffer =
      some ⟨buffer.held ++ chunks.flatten, buffer.room - Bytes.totalLength chunks⟩ := by
  induction chunks generalizing buffer with
  | nil => simp [Bytes.totalLength]
  | cons chunk chunks ih =>
      have split : Bytes.totalLength (chunk :: chunks) = chunk.length + Bytes.totalLength chunks := rfl
      have fits : chunk.length ≤ buffer.room := by omega
      rw [List.foldlM_cons, extend, if_pos fits, Option.bind_eq_bind, Option.bind_some,
        ih (by simp only; omega), split, List.flatten_cons, List.append_assoc, Nat.sub_sub]

end Buffer

namespace Service

variable {service : Service} {start : Nat}

theorem request_read_free (free : service.heldElsewhere = false) :
    service.request (.read start) =
      (service, (service.log.snapshot service.memory start).map .content, []) :=
  request_free rfl free

theorem request_read_held (held : service.heldElsewhere = true) :
    service.request (.read start) = (service, .error (.lockTimeout service.lockTimeout), []) :=
  request_held rfl held

/-- What is read is the content from `start` on, in chunks that fill the room reserved for them. -/
theorem read_fills_reservation (service : Service) (reached : service.log.Reachable) (start : Nat) :
    let log := service.log
    let left := Log.totalBytes log - start
    let read := service.request (.read start)
    (Log.tail log start).flatten = (Log.content log).drop start ∧
    (start < Log.totalBytes log → ∃ found entry, Log.locate log start = some found ∧
      log.get? found.index = some entry ∧ (Log.tail log start).length = log.count - found.index ∧
      (Log.tail log start)[0]? = some (entry.drop found.offset) ∧ entry.drop found.offset ≠ [] ∧
      ∀ later, 0 < later → (Log.tail log start)[later]? = log.get? (found.index + later)) ∧
    (Log.totalBytes log ≤ start → Log.locate log start = none ∧ Log.tail log start = []) ∧
    (Log.tail log start).flatten.length = left ∧
    (Log.tail log start).foldlM Buffer.extend ⟨[], left⟩ = some ⟨(Log.content log).drop start, 0⟩ ∧
    (service.heldElsewhere = false →
      ((∃ error, read.2.1 = .error error) ↔ service.memory.grants .reply left = false) ∧
      read.2.1 =
        if service.memory.grants .reply left then .ok (.content ((Log.content log).drop start))
        else .error (.allocation left)) ∧
    read.1 = service ∧ read.2.2 = [] := by
  intro log left read
  have room := Log.totalLength_tail log start
  refine ⟨Log.flatten_tail log start, ?_, ?_, ?_, ?_, ?_, ?_⟩
  · intro inside
    obtain ⟨found, located⟩ := Option.isSome_iff_exists.mp (Position.isSome_locateIn.mpr inside)
    obtain ⟨entry, chunks⟩ := Log.chunks_of_located reached located
    exact ⟨found, entry, located, chunks⟩
  · intro past
    constructor
    · rw [← Option.not_isSome_iff_eq_none, Log.locate, Position.isSome_locateIn]
      exact Nat.not_lt.mpr past
    · exact Log.tail_past_end past
  · rw [Bytes.length_flatten, room]
  · rw [Buffer.extend_all (Nat.le_of_eq room), room, Nat.sub_self, List.nil_append, Log.flatten_tail]
  · intro free
    have answer : read.2.1 = if service.memory.grants .reply left
        then .ok (.content ((Log.content log).drop start)) else .error (.allocation left) := by
      simp only [read, request_read_free free, Log.snapshot_eq]
      split <;> rfl
    refine ⟨?_, answer⟩
    rw [answer]
    cases service.memory.grants .reply left with
    | false => simp
    | true => simp
  · rcases Bool.eq_false_or_eq_true service.heldElsewhere with held | free
    · simp only [read, request_read_held held, and_self]
    · simp only [read, request_read_free free, and_self]

theorem read_fills_reservation_limited :
    let service : Service := ⟨Log.wrapped, .ofSeconds 5, .below 4, false⟩
    service.log.Reachable ∧ (Log.tail service.log 2).length = 3 ∧
      (service.request (.read 2)).2.1 = .ok (.content [10, 98, 10]) ∧
      (service.request (.read 1)).2.1 = .error (.allocation 4) ∧
      (Log.tail service.log 5).length = 0 := by
  intro service
  have reached : service.log.Reachable := Log.wrapped_reachable
  have located : Log.locate service.log 2 = some ⟨1, 2⟩ := by decide +kernel
  have bytes : Log.totalBytes service.log = 5 := by decide +kernel
  have counted : service.log.count = 4 := by decide +kernel
  have content : Log.content service.log = [97, 97, 10, 98, 10] := by decide +kernel
  obtain ⟨_, chunks, _, _, _, granted, _⟩ := read_fills_reservation service reached 2
  obtain ⟨_, _, _, _, _, refused, _⟩ := read_fills_reservation service reached 1
  obtain ⟨_, _, nothing, _⟩ := read_fills_reservation service reached 5
  rw [bytes, content] at granted refused
  rw [bytes] at chunks nothing
  obtain ⟨found, _, same, _, length, _⟩ := chunks (by decide)
  rw [located, Option.some.injEq] at same
  rw [counted, ← same] at length
  refine ⟨reached, length, (granted rfl).2, (refused rfl).2, ?_⟩
  rw [(nothing (by decide)).2]
  rfl

end Service

end CommandLog
