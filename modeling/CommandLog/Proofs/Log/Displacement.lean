import CommandLog.Proofs.Log.Addresses

/-!
What one append does to the addresses. The entries that stay keep their bytes and come nearer to the
beginning, by the entry that has to leave for the new one, if one has; the new entry lies behind them.
-/

namespace CommandLog

namespace Position

open Log (startOf)

variable {front back entries : List Bytes} {entry : Bytes} {index offset start : Nat}

theorem startOf_append_left (within : index ≤ front.length) :
    startOf (front ++ back) index offset = startOf front index offset := by
  rw [startOf, List.take_append_of_le_length within, startOf]

theorem startOf_append_right :
    startOf (front ++ back) (index + front.length) offset =
      startOf back index offset + Bytes.totalLength front := by
  rw [startOf, Nat.add_comm index, List.take_length_add_append, Bytes.totalLength_append, startOf]
  omega

theorem liesAt_append_right :
    LiesAt (front ++ back) ⟨index + front.length, offset⟩ (start + Bytes.totalLength front) ↔
      LiesAt back ⟨index, offset⟩ start := by
  simp only [LiesAt, startOf_append_right, Nat.add_right_cancel_iff]
  rw [List.getElem?_append_right (Nat.le_add_left _ _), Nat.add_sub_cancel]

theorem liesAt_concat :
    LiesAt (entries ++ [entry]) ⟨index, offset⟩ start ↔ LiesAt entries ⟨index, offset⟩ start ∨
      index = entries.length ∧ offset < entry.length ∧ start = Bytes.totalLength entries + offset := by
  rcases Nat.lt_trichotomy index entries.length with before | last | past
  · have other : index ≠ entries.length := by omega
    simp only [LiesAt, startOf_append_left (Nat.le_of_lt before), List.getElem?_append_left before,
      other, false_and, or_false]
  · subst last
    have missing : entries[entries.length]? = none := List.getElem?_eq_none (Nat.le_refl _)
    have behind : startOf (entries ++ [entry]) entries.length offset =
        Bytes.totalLength entries + offset := by rw [startOf, List.take_left]
    simp only [LiesAt, missing, behind, List.getElem?_concat_length, Option.some.injEq,
      exists_eq_left', reduceCtorEq, false_and, exists_const, false_or, true_and, eq_comm]
  · have other : index ≠ entries.length := by omega
    have missing : entries[index]? = none := List.getElem?_eq_none (by omega)
    have missingAfter : (entries ++ [entry])[index]? = none :=
      List.getElem?_eq_none (by rw [List.length_append, List.length_singleton]; omega)
    simp [LiesAt, missing, missingAfter, other]

end Position

namespace Log

variable {log : Log} {index offset start : Nat}

/-- An append, as two views of the entries that stay. -/
structure Replaces (log : Log) (entry : Bytes) (staying : List Bytes) : Prop where
  before : log.toList = (log.append entry).2.toList ++ staying
  after : (log.append entry).1.toList = staying ++ [entry]

theorem Reachable.replaces (reached : log.Reachable) (entry : Bytes) :
    ∃ staying, Replaces log entry staying := by
  obtain ⟨_, _, nothingLost⟩ := reached.holds.append entry
  obtain ⟨room, same⟩ := Nat.exists_eq_succ_of_ne_zero (Nat.ne_of_gt reached.holds.capacity_pos)
  have after : (log.append entry).1.toList = log.toList.rtake room ++ [entry] := by
    rw [reached.toList_append, same, List.rtake_concat_succ]
  rw [← reached.toList_append, after, ← List.append_assoc] at nothingLost
  exact ⟨_, (List.append_cancel_right nothingLost).symm, after⟩

namespace Replaces

variable {entry : Bytes} {staying : List Bytes}

theorem totalBytes_before (replaces : Replaces log entry staying) :
    log.totalBytes = Bytes.totalLength (log.append entry).2.toList + Bytes.totalLength staying := by
  rw [totalBytes, replaces.before, Bytes.totalLength_append]

theorem totalBytes_after (replaces : Replaces log entry staying) :
    totalBytes (log.append entry).1 = Bytes.totalLength staying + entry.length := by
  rw [totalBytes, replaces.after, Bytes.totalLength_append]
  rfl

theorem count_after (replaces : Replaces log entry staying) (reached : log.Reachable) :
    (log.append entry).1.count = staying.length + 1 := by
  rw [(reached.append entry).holds.count_eq, replaces.after, List.length_append, List.length_singleton]

theorem resolve_before (replaces : Replaces log entry staying) (reached : log.Reachable) :
    log.resolve (index + (log.append entry).2.toList.length) offset =
        .ok (start + Bytes.totalLength (log.append entry).2.toList) ↔
      Position.LiesAt staying ⟨index, offset⟩ start := by
  rw [resolve_eq_ok_iff reached, replaces.before]
  exact Position.liesAt_append_right

theorem among_staying (replaces : Replaces log entry staying) (reached : log.Reachable)
    (behind : (log.append entry).2.toList.length ≤ index)
    (resolved : log.resolve index offset = .ok start) :
    ∃ nearer less, index = nearer + (log.append entry).2.toList.length ∧
      start = less + Bytes.totalLength (log.append entry).2.toList ∧
      Position.LiesAt staying ⟨nearer, offset⟩ less := by
  obtain ⟨nearer, rfl⟩ := Nat.exists_eq_add_of_le' behind
  have far : Bytes.totalLength (log.append entry).2.toList ≤ start := by
    have lies := (resolve_eq_ok_iff reached).mp resolved
    rw [replaces.before] at lies
    obtain ⟨_, _, _, rfl⟩ := lies
    rw [Position.startOf_append_right]
    exact Nat.le_add_left _ _
  obtain ⟨less, rfl⟩ := Nat.exists_eq_add_of_le' far
  exact ⟨nearer, less, rfl, rfl, (replaces.resolve_before reached).mp resolved⟩

theorem resolve_after (replaces : Replaces log entry staying) (reached : log.Reachable) :
    resolve (log.append entry).1 index offset = .ok start ↔
      Position.LiesAt staying ⟨index, offset⟩ start ∨
      index = staying.length ∧ offset < entry.length ∧ start = Bytes.totalLength staying + offset := by
  rw [resolve_eq_ok_iff (reached.append entry), replaces.after]
  exact Position.liesAt_concat

theorem drop_content_after (replaces : Replaces log entry staying)
    (within : start ≤ Bytes.totalLength staying) :
    (content (log.append entry).1).drop start =
      log.content.drop (start + Bytes.totalLength (log.append entry).2.toList) ++ entry := by
  rw [content, content, replaces.after, List.flatten_append, List.flatten_singleton,
    List.drop_append_of_le_length (by rwa [Bytes.length_flatten])]
  congr 1
  rw [replaces.before, List.flatten_append, ← Bytes.length_flatten, Nat.add_comm start,
    List.drop_length_add_append]

theorem byte_stays (replaces : Replaces log entry staying) {position : Position}
    (lies : Position.LiesAt staying position start) :
    ∃ byte, (content (log.append entry).1)[start]? = some byte ∧
      log.content[start + Bytes.totalLength (log.append entry).2.toList]? = some byte := by
  obtain ⟨_, byte, _, _, _, here⟩ := lies.byte
  have bound : start < staying.flatten.length := by
    rw [Bytes.length_flatten]
    exact lies.inside
  refine ⟨byte, ?_, ?_⟩
  · rw [content, replaces.after, List.flatten_append, List.getElem?_append_left bound, here]
  · rw [content, replaces.before, List.flatten_append, ← Bytes.length_flatten,
      List.getElem?_append_right (Nat.le_add_left _ _), Nat.add_sub_cancel, here]

end Replaces

/-- Where every byte is after an append: those of the displaced entry are gone, those of the entries that
stay have moved by that entry, and those of the new entry are last. -/
theorem append_moves_addresses (reached : log.Reachable) (entry : Bytes) :
    let after := (log.append entry).1
    let displaced := (log.append entry).2
    let gone := displaced.elim 0 fun _ => 1
    let lost := displaced.elim 0 List.length
    (∀ index offset start, log.resolve index offset = .ok start → gone ≤ index →
      lost ≤ start ∧ resolve after (index - gone) offset = .ok (start - lost) ∧
      ∃ byte, log.content[start]? = some byte ∧ (content after)[start - lost]? = some byte) ∧
    (∀ offset, offset < entry.length →
      resolve after (after.count - 1) offset = .ok (totalBytes after - entry.length + offset)) ∧
    (∀ index offset start, resolve after index offset = .ok start →
      log.resolve (index + gone) offset = .ok (start + lost) ∨
      index = after.count - 1 ∧ offset < entry.length) ∧
    lost ≤ log.totalBytes ∧ totalBytes after = log.totalBytes - lost + entry.length ∧
    ∀ start, start ≤ log.totalBytes - lost →
      (tail after start).flatten = (log.tail (start + lost)).flatten ++ entry := by
  intro after displaced gone lost
  obtain ⟨staying, replaces⟩ := reached.replaces entry
  have goneLength : gone = displaced.toList.length := by
    simp only [gone]
    cases displaced <;> rfl
  have lostLength : lost = Bytes.totalLength displaced.toList := by
    simp only [lost]
    cases displaced <;> rfl
  have bytesBefore : log.totalBytes =
      Bytes.totalLength displaced.toList + Bytes.totalLength staying := replaces.totalBytes_before
  have bytesAfter : totalBytes after = Bytes.totalLength staying + entry.length :=
    replaces.totalBytes_after
  have counted : after.count = staying.length + 1 := replaces.count_after reached
  rw [goneLength, lostLength]
  refine ⟨?_, ?_, ?_, by omega, by omega, ?_⟩
  · intro index offset start resolved behind
    obtain ⟨nearer, less, rfl, rfl, lies⟩ := replaces.among_staying reached behind resolved
    obtain ⟨byte, here, there⟩ := replaces.byte_stays lies
    rw [Nat.add_sub_cancel, Nat.add_sub_cancel]
    exact ⟨Nat.le_add_left _ _, (replaces.resolve_after reached).mpr (Or.inl lies), byte, there, here⟩
  · intro offset inside
    apply (replaces.resolve_after reached).mpr
    exact Or.inr ⟨by omega, inside, by omega⟩
  · intro index offset start resolved
    rcases (replaces.resolve_after reached).mp resolved with lies | ⟨last, inside, _⟩
    · exact Or.inl ((replaces.resolve_before reached).mpr lies)
    · exact Or.inr ⟨by omega, inside⟩
  · intro start within
    rw [flatten_tail, flatten_tail]
    exact replaces.drop_content_after (by omega)

theorem append_moves_addresses_longer :
    let log : Log := ((Ring.empty 3).appendAll [[120, 10], [97, 97, 10], [], [98, 10]]).1
    let after := (log.append [99, 99, 99, 10]).1
    log.Reachable ∧ log.resolve 2 1 = .ok 4 ∧ resolve after 1 1 = .ok 1 ∧
      resolve after 2 3 = .ok 5 ∧ totalBytes after = 6 ∧
      (tail after 1).flatten = [10, 99, 99, 99, 10] := by
  intro log after
  have reached : log.Reachable := (Reachable.fresh (ofCapacity_eq_ok (by decide))).appendAll _
  have resolved : log.resolve 2 1 = .ok 4 := by decide +kernel
  have displaced : (log.append [99, 99, 99, 10]).2 = some [97, 97, 10] := by decide +kernel
  have bytes : log.totalBytes = 5 := by decide +kernel
  have counted : (log.append [99, 99, 99, 10]).1.count = 3 := by decide +kernel
  have last : (log.tail 4).flatten = [10] := by decide +kernel
  obtain ⟨stays, comes, _, _, total, suffix⟩ := append_moves_addresses reached [99, 99, 99, 10]
  simp only [displaced, Option.elim_some, List.length_cons, List.length_nil, bytes, counted]
    at stays comes total suffix
  have moved := stays 2 1 4 resolved (by decide)
  have behind := comes 3 (by decide)
  have rest := suffix 1 (by decide)
  rw [total] at behind
  rw [last] at rest
  exact ⟨reached, resolved, moved.2.1, behind, total, rest⟩

end Log

end CommandLog
