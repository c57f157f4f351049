import CommandLog.Proofs.Log.Content
import CommandLog.Service

/-!
How a client's command ends, for every log, cursor, lock and memory. The failures have an order: the
copy of an entry comes before the wait for the log, the wait before the look at the position, and the
copy of the reply comes last. Only that last one can fail when the command has had its effect.
-/

namespace CommandLog

namespace Service

variable {service : Service} {cursor : Nat}

theorem access_of_held (held : service.heldElsewhere = true) :
    service.access = .expired service.lockTimeout := by
  simp [access, held]

theorem access_of_free (free : service.heldElsewhere = false) : service.access = .granted := by
  simp [access, free]

theorem request_unprepared {request : Request} {error : LogError}
    (failed : request.prepare service.memory = .error error) :
    service.request request = (service, .error error, []) := by
  simp [Service.request, Log.answer, failed, Event.ofDisplaced]

theorem request_held {request : Request} (prepared : request.prepare service.memory = .ok ())
    (held : service.heldElsewhere = true) :
    service.request request = (service, .error (.lockTimeout service.lockTimeout), []) := by
  simp [Service.request, Log.answer, prepared, access_of_held held, Event.ofDisplaced]

theorem request_free {request : Request} (prepared : request.prepare service.memory = .ok ())
    (free : service.heldElsewhere = false) :
    service.request request =
      ({ service with log := (service.log.serve service.memory request).log },
        (service.log.serve service.memory request).answer,
        Event.ofDisplaced (service.log.serve service.memory request).displaced) := by
  simp only [Service.request, Log.answer, prepared, access_of_free free]

theorem request_write_uncopied {bytes : Bytes}
    (refused : service.memory.grants .entry bytes.length = false) :
    service.request (.exchange (.write bytes) cursor) =
      (service, .error (.allocation bytes.length), []) := by
  apply request_unprepared
  simp [Request.prepare, Memory.copyEntry, refused]

theorem request_write_held {bytes : Bytes}
    (copied : service.memory.grants .entry bytes.length = true)
    (held : service.heldElsewhere = true) :
    service.request (.exchange (.write bytes) cursor) =
      (service, .error (.lockTimeout service.lockTimeout), []) := by
  apply request_held _ held
  simp [Request.prepare, Memory.copyEntry, copied]

theorem request_write_free {bytes : Bytes}
    (copied : service.memory.grants .entry bytes.length = true)
    (free : service.heldElsewhere = false) :
    service.request (.exchange (.write bytes) cursor) =
      ({ service with log := (service.log.append bytes).1 },
        (Log.snapshot service.memory (service.log.append bytes).1 cursor).map
          fun content => Answer.reply ⟨content, cursor⟩,
        Event.ofDisplaced (service.log.append bytes).2) := by
  rw [request_free (by simp [Request.prepare, Memory.copyEntry, copied]) free]
  simp only [Log.serve, Log.exchange, Served.map]
  cases Log.snapshot service.memory (service.log.append bytes).1 cursor <;> rfl

theorem request_seek_held {index offset : Nat} (held : service.heldElsewhere = true) :
    service.request (.exchange (.seek index offset) cursor) =
      (service, .error (.lockTimeout service.lockTimeout), []) :=
  request_held rfl held

theorem request_seek_free {index offset : Nat} (free : service.heldElsewhere = false) :
    service.request (.exchange (.seek index offset) cursor) =
      (service,
        match service.log.resolve index offset with
        | .error error => .error (.range error)
        | .ok start =>
            (service.log.snapshot service.memory start).map fun content =>
              Answer.reply ⟨content, start⟩,
        []) := by
  rw [request_free rfl free]
  simp only [Log.serve, Log.exchange]
  cases service.log.resolve index offset with
  | error error => rfl
  | ok start =>
      simp only [Served.map]
      cases Log.snapshot service.memory service.log start <;> rfl

theorem request_seek_missing (reached : service.log.Reachable)
    (free : service.heldElsewhere = false) {index offset : Nat}
    (missing : service.log.toList[index]? = none) :
    service.request (.exchange (.seek index offset) cursor) =
      (service, .error (.range (.entry index service.log.count)), []) := by
  rw [request_seek_free free, Log.resolve_eq reached, missing]

theorem request_seek_outside (reached : service.log.Reachable)
    (free : service.heldElsewhere = false) {index offset : Nat} {entry : Bytes}
    (kept : service.log.toList[index]? = some entry) (outside : entry.length ≤ offset) :
    service.request (.exchange (.seek index offset) cursor) =
      (service, .error (.range (.byte index offset entry.length)), []) := by
  rw [request_seek_free free, Log.resolve_eq reached, kept]
  simp only [if_neg (Nat.not_lt.mpr outside)]

theorem request_seek_inside (reached : service.log.Reachable)
    (free : service.heldElsewhere = false) {index offset : Nat} {entry : Bytes}
    (kept : service.log.toList[index]? = some entry) (inside : offset < entry.length) :
    service.request (.exchange (.seek index offset) cursor) =
      (service,
        (service.log.snapshot service.memory (Log.startOf service.log.toList index offset)).map
          fun content => Answer.reply ⟨content, Log.startOf service.log.toList index offset⟩,
        []) := by
  rw [request_seek_free free, Log.resolve_eq reached, kept]
  simp only [if_pos inside]

theorem map_snapshot_eq_error {memory : Memory} {log : Log} {start : Nat} {error : LogError}
    {answer : Bytes → Answer} (failed : (log.snapshot memory start).map answer = .error error) :
    error = .allocation (log.totalBytes - start) := by
  rw [Log.snapshot_eq] at failed
  split at failed
  · cases failed
  · cases failed
    rfl

theorem request_exchange_error (reached : service.log.Reachable) {command : Command}
    {error : LogError}
    (failed : (service.request (.exchange command cursor)).2.1 = .error error) :
    let after := (service.request (.exchange command cursor)).1
    (error.isRetryable = true → error = .lockTimeout service.lockTimeout ∧ after = service) ∧
    (after = service ∨
      ∃ bytes, command = .write bytes ∧ after = { service with log := (service.log.append bytes).1 } ∧
        error = .allocation (Log.totalBytes after.log - cursor)) := by
  cases command with
  | write bytes =>
      rcases Bool.eq_false_or_eq_true (service.memory.grants .entry bytes.length) with copied | refused
      · rcases Bool.eq_false_or_eq_true service.heldElsewhere with held | free
        · rw [request_write_held copied held] at failed ⊢
          cases failed
          exact ⟨fun _ => ⟨rfl, rfl⟩, Or.inl rfl⟩
        · rw [request_write_free copied free] at failed ⊢
          have unanswered := map_snapshot_eq_error failed
          subst unanswered
          exact ⟨by simp [LogError.isRetryable], Or.inr ⟨bytes, rfl, rfl, rfl⟩⟩
      · rw [request_write_uncopied refused] at failed ⊢
        cases failed
        exact ⟨by simp [LogError.isRetryable], Or.inl rfl⟩
  | seek index offset =>
      rcases Bool.eq_false_or_eq_true service.heldElsewhere with held | free
      · rw [request_seek_held held] at failed ⊢
        cases failed
        exact ⟨fun _ => ⟨rfl, rfl⟩, Or.inl rfl⟩
      · cases kept : service.log.toList[index]? with
        | none =>
            rw [request_seek_missing reached free kept] at failed ⊢
            cases failed
            exact ⟨by simp [LogError.isRetryable], Or.inl rfl⟩
        | some entry =>
            by_cases inside : offset < entry.length
            · rw [request_seek_inside reached free kept inside] at failed ⊢
              have unanswered := map_snapshot_eq_error failed
              subst unanswered
              exact ⟨by simp [LogError.isRetryable], Or.inl rfl⟩
            · rw [request_seek_outside reached free kept (by omega)] at failed ⊢
              cases failed
              exact ⟨by simp [LogError.isRetryable], Or.inl rfl⟩

/-- The exact end of a client's command. -/
theorem exchange_outcome (service : Service) (reached : service.log.Reachable) (cursor : Nat) :
    (∀ bytes,
      let done := service.request (.exchange (.write bytes) cursor)
      if service.memory.grants .entry bytes.length = false then
        done.1 = service ∧ done.2.1 = .error (.allocation bytes.length)
      else if service.heldElsewhere then
        done.1 = service ∧ done.2.1 = .error (.lockTimeout service.lockTimeout)
      else
        let left := Log.totalBytes done.1.log - cursor
        done.1 = { service with log := done.1.log } ∧
        done.1.log.toList = (service.log.toList ++ [bytes]).rtake service.log.capacity ∧
        done.2.1 =
          if service.memory.grants .reply left then
            .ok (.reply ⟨(Log.content done.1.log).drop cursor, cursor⟩)
          else .error (.allocation left)) ∧
    (∀ index offset,
      let done := service.request (.exchange (.seek index offset) cursor)
      done.1 = service ∧
      if service.heldElsewhere then done.2.1 = .error (.lockTimeout service.lockTimeout)
      else
        (done.2.1 = .error (.range (.entry index service.log.count)) ↔ service.log.count ≤ index) ∧
        (index < service.log.count → ∃ entry, service.log.get? index = some entry ∧
          (done.2.1 = .error (.range (.byte index offset entry.length)) ↔ entry.length ≤ offset) ∧
          (offset < entry.length →
            let start := Log.startOf service.log.toList index offset
            let left := Log.totalBytes service.log - start
            service.log.resolve index offset = .ok start ∧
            if service.memory.grants .reply left then
              ∃ byte later, entry[offset]? = some byte ∧
                byte :: later = (Log.content service.log).drop start ∧
                done.2.1 = .ok (.reply ⟨byte :: later, start⟩)
            else done.2.1 = .error (.allocation left)))) ∧
    (∀ command error,
      let done := service.request (.exchange command cursor)
      done.2.1 = .error error →
        Answer.cursorAfter cursor done.2.1 = cursor ∧
        (error.isRetryable = true → error = .lockTimeout service.lockTimeout ∧ done.1 = service) ∧
        (done.1 = service ∨ ∃ bytes, command = .write bytes ∧
          done.1 = { service with log := (service.log.append bytes).1 } ∧
          error = .allocation (Log.totalBytes done.1.log - cursor))) := by
  refine ⟨?_, ?_, ?_⟩
  · intro bytes done
    rcases Bool.eq_false_or_eq_true (service.memory.grants .entry bytes.length) with copied | refused
    · rw [if_neg (by simp [copied])]
      rcases Bool.eq_false_or_eq_true service.heldElsewhere with held | free
      · rw [if_pos held]
        simp only [done, request_write_held copied held, and_self]
      · rw [if_neg (by simp [free])]
        simp only [done, request_write_free copied free, true_and]
        refine ⟨reached.toList_append bytes, ?_⟩
        rw [Log.snapshot_eq]
        split <;> rfl
    · rw [if_pos refused]
      simp only [done, request_write_uncopied refused, and_self]
  · intro index offset done
    rcases Bool.eq_false_or_eq_true service.heldElsewhere with held | free
    · rw [if_pos held]
      simp only [done, request_seek_held held, and_self]
    · rw [if_neg (by simp [free])]
      have counted := reached.holds.count_eq
      cases kept : service.log.toList[index]? with
      | none =>
          have missing := List.getElem?_eq_none_iff.mp kept
          simp only [done, request_seek_missing reached free kept, true_and, true_iff]
          exact ⟨by omega, fun bound => by omega⟩
      | some entry =>
          have bound := (List.getElem?_eq_some_iff.mp kept).1
          by_cases inside : offset < entry.length
          · simp only [done, request_seek_inside reached free kept inside, Log.snapshot_eq, true_and]
            refine ⟨?_, fun _ => ⟨entry, by rw [reached.holds.get?_eq, kept], ?_, fun _ => ?_⟩⟩
            · refine iff_of_false ?_ (by omega)
              split <;> exact fun bad => by cases bad
            · refine iff_of_false ?_ (by omega)
              split <;> exact fun bad => by cases bad
            · refine ⟨by simp [Log.resolve_eq reached, kept, inside], ?_⟩
              split
              · have rest := Log.drop_startOf kept inside
                rw [List.drop_eq_getElem_cons inside, List.cons_append] at rest
                refine ⟨entry[offset], _, List.getElem?_eq_getElem inside, rest.symm, ?_⟩
                rw [Log.content, rest]
                rfl
              · rfl
          · simp only [done, request_seek_outside reached free kept (Nat.le_of_not_lt inside),
              true_and]
            refine ⟨?_, fun _ => ⟨entry, by rw [reached.holds.get?_eq, kept], ?_, fun bad => ?_⟩⟩
            · simp
              omega
            · simp
              omega
            · exact absurd bad inside
  · intro command error done failed
    refine ⟨?_, request_exchange_error reached failed⟩
    rw [failed]
    rfl

theorem exchange_outcome_one_entry :
    let service : Service :=
      ⟨((Ring.empty 2 : Log).append [97, 10]).1, .ofSeconds 5, .unlimited, false⟩
    service.log.Reachable ∧
      (service.request (.exchange (.seek 1 0) 1)).2.1 = .error (.range (.entry 1 1)) ∧
      (service.request (.exchange (.write [98, 10]) 1)).1.log.toList = [[97, 10], [98, 10]] ∧
      (service.request (.exchange (.write [98, 10]) 1)).2.1 = .ok (.reply ⟨[10, 98, 10], 1⟩) := by
  intro service
  have built : Log.ofCapacity 2 = .ok (Ring.empty 2) := rfl
  have reached : service.log.Reachable := .append _ (.fresh built)
  obtain ⟨writes, seeks, _⟩ := exchange_outcome service reached 1
  have written := writes [98, 10]
  have sought := (seeks 1 0).2
  rw [if_neg (by decide), if_neg (by decide)] at written
  rw [if_neg (by decide)] at sought
  have counted : service.log.count = 1 := by decide +kernel
  have kept : (service.log.toList ++ [[98, 10]]).rtake service.log.capacity =
      [[97, 10], [98, 10]] := by decide +kernel
  rw [counted] at sought
  refine ⟨reached, sought.1.mpr (Nat.le_refl 1), written.2.1.trans kept, written.2.2.trans ?_⟩
  rw [if_pos (by decide), Log.content, written.2.1, kept]
  rfl

end Service

end CommandLog
