import CommandLog.Proofs.Log.Content

/-!
The two addresses of a byte: its offset in the content of the log, and an entry together with an offset
in it. Each determines the other, both name the same byte, and both put the bytes in the same order.
-/

namespace CommandLog

namespace Position

open Log (startOf)

variable {entries : List Bytes} {entry : Bytes} {index offset start : Nat} {found : Position}

theorem startOf_succ (first : Bytes) (entries : List Bytes) (index offset : Nat) :
    startOf (first :: entries) (index + 1) offset = first.length + startOf entries index offset := by
  simp only [startOf, List.take_succ_cons, Bytes.totalLength, List.foldr_cons]
  omega

theorem startOf_take {other : Nat} (before : index < other) :
    startOf (entries.take other) index offset = startOf entries index offset := by
  simp only [startOf, List.take_take, Nat.min_eq_left (Nat.le_of_lt before)]

theorem startOf_lt (kept : entries[index]? = some entry) (inside : offset < entry.length) :
    startOf entries index offset < Bytes.totalLength entries := by
  have lengths := congrArg List.length (Log.drop_startOf kept inside)
  simp only [List.length_drop, List.length_append, Bytes.length_flatten] at lengths
  omega

/-- The position is inside one of the entries, and `start` bytes come before it. -/
def LiesAt (entries : List Bytes) (position : Position) (start : Nat) : Prop :=
  ∃ entry, entries[position.index]? = some entry ∧ position.offset < entry.length ∧
    startOf entries position.index position.offset = start

theorem LiesAt.inside (lies : LiesAt entries found start) : start < Bytes.totalLength entries := by
  obtain ⟨entry, kept, inside, rfl⟩ := lies
  exact startOf_lt kept inside

theorem LiesAt.byte (lies : LiesAt entries found start) :
    ∃ entry byte, entries[found.index]? = some entry ∧ found.offset < entry.length ∧
      entry[found.offset]? = some byte ∧ entries.flatten[start]? = some byte := by
  obtain ⟨entry, kept, inside, rfl⟩ := lies
  have named := List.getElem?_eq_getElem inside
  refine ⟨entry, _, kept, inside, named, ?_⟩
  have rest := congrArg (fun bytes => bytes[0]?) (Log.drop_startOf kept inside)
  simp only [List.getElem?_drop, Nat.add_zero] at rest
  rw [rest, List.getElem?_append_left (by simp; omega), List.getElem?_drop, Nat.add_zero, named]

theorem locateIn_startOf (kept : entries[index]? = some entry) (inside : offset < entry.length) :
    locateIn entries (startOf entries index offset) = some ⟨index, offset⟩ := by
  induction entries generalizing index with
  | nil => simp at kept
  | cons first entries ih =>
      cases index with
      | zero =>
          rw [List.getElem?_cons_zero, Option.some.injEq] at kept
          subst first
          simp [startOf, locateIn, inside, Bytes.totalLength]
      | succ index =>
          rw [List.getElem?_cons_succ] at kept
          rw [locateIn, startOf_succ, if_neg (by omega), Nat.add_sub_cancel_left, ih kept]
          rfl

theorem locateIn_eq_some_iff :
    locateIn entries start = some found ↔ LiesAt entries found start := by
  constructor
  · intro located
    obtain ⟨before, entry, after, rfl, length, inside, rfl⟩ := locateIn_eq_some located
    refine ⟨entry, ?_, inside, ?_⟩
    · rw [← length, List.getElem?_append_right (Nat.le_refl _), Nat.sub_self, List.getElem?_cons_zero]
    · rw [startOf, ← length, List.take_left, Bytes.length_flatten]
  · rintro ⟨entry, kept, inside, rfl⟩
    exact locateIn_startOf kept inside

theorem isSome_locateIn : (locateIn entries start).isSome = true ↔ start < Bytes.totalLength entries := by
  constructor
  · intro some_found
    obtain ⟨found, located⟩ := Option.isSome_iff_exists.mp some_found
    exact (locateIn_eq_some_iff.mp located).inside
  · intro bound
    cases located : locateIn entries start with
    | none =>
        have past := locateIn_eq_none located
        rw [Bytes.length_flatten] at past
        omega
    | some found => rfl

/-- `whole` less `part`; a part that is larger than the whole underflows, and has no result. -/
def takeAway (whole part : Nat) : Option Nat := if part ≤ whole then some (whole - part) else none

/-- The walk of `locateIn` by a subtraction that can underflow. -/
def checkedWalk : List Bytes → (left : Nat) → Option (Option Position)
  | [], _ => some none
  | entry :: entries, left =>
      if left < entry.length then some (some ⟨0, left⟩)
      else do
        let less ← takeAway left entry.length
        let found ← checkedWalk entries less
        return found.map fun found => { found with index := found.index + 1 }

theorem checkedWalk_eq (entries : List Bytes) (left : Nat) :
    checkedWalk entries left = some (locateIn entries left) := by
  induction entries generalizing left with
  | nil => rfl
  | cons entry entries ih =>
      by_cases inside : left < entry.length
      · simp only [checkedWalk, locateIn, if_pos inside]
      · have enough : entry.length ≤ left := by omega
        simp only [checkedWalk, locateIn, if_neg inside, takeAway, if_pos enough]
        simp [ih]

theorem before_or_eq_or_before (first second : Position) :
    first.Before second ∨ first = second ∨ second.Before first := by
  cases first
  cases second
  simp only [Before, Position.mk.injEq]
  omega

theorem startOf_lt_of_before {second : Position} (kept : entries[found.index]? = some entry)
    (inside : found.offset < entry.length) (before : found.Before second) :
    startOf entries found.index found.offset < startOf entries second.index second.offset := by
  rcases before with earlier | ⟨same, less⟩
  · -- Entry `found.index` ends where the entries before `second.index` do, or earlier.
    have keptBefore : (entries.take second.index)[found.index]? = some entry := by
      rw [List.getElem?_take_of_lt earlier, kept]
    have bound := startOf_lt keptBefore inside
    rw [startOf_take earlier] at bound
    have later : Bytes.totalLength (entries.take second.index) ≤
        startOf entries second.index second.offset := Nat.le_add_right _ _
    omega
  · rw [same, startOf, startOf]
    omega

theorem lt_iff_before {first second : Nat} {before after : Position}
    (liesFirst : LiesAt entries before first) (liesSecond : LiesAt entries after second) :
    first < second ↔ before.Before after := by
  obtain ⟨_, keptFirst, insideFirst, rfl⟩ := liesFirst
  obtain ⟨_, keptSecond, insideSecond, rfl⟩ := liesSecond
  constructor
  · intro less
    rcases before_or_eq_or_before before after with earlier | same | later
    · exact earlier
    · rw [same] at less
      omega
    · have greater := startOf_lt_of_before keptSecond insideSecond later
      omega
  · exact startOf_lt_of_before keptFirst insideFirst

end Position

namespace Log

variable {log : Log} {index offset start : Nat} {entry : Bytes} {found : Position}

theorem get?_eq (reached : log.Reachable) (index : Nat) : log.get? index = log.toList[index]? :=
  reached.holds.get?_eq index

theorem index_lt_count (reached : log.Reachable) (kept : log.get? index = some entry) :
    index < log.count := by
  rw [get?_eq reached] at kept
  rw [reached.holds.count_eq]
  exact (List.getElem?_eq_some_iff.mp kept).1

theorem exists_get? (reached : log.Reachable) (bound : index < log.count) :
    ∃ entry, log.get? index = some entry := by
  rw [reached.holds.count_eq] at bound
  rw [get?_eq reached]
  exact ⟨_, List.getElem?_eq_getElem bound⟩

theorem resolve_eq_ok_iff (reached : log.Reachable) :
    log.resolve index offset = .ok start ↔ Position.LiesAt log.toList ⟨index, offset⟩ start := by
  rw [resolve_eq reached, Position.LiesAt]
  cases kept : log.toList[index]? with
  | none => simp
  | some entry =>
      by_cases inside : offset < entry.length
      · simp [inside]
      · simp [inside]

theorem locate_eq_some_iff_resolve (reached : log.Reachable) :
    log.locate start = some found ↔ log.resolve found.index found.offset = .ok start := by
  rw [resolve_eq_ok_iff reached]
  exact Position.locateIn_eq_some_iff

theorem resolve_inside (reached : log.Reachable) (resolved : log.resolve index offset = .ok start) :
    start < log.totalBytes :=
  ((resolve_eq_ok_iff reached).mp resolved).inside

theorem resolve_missing (missing : log.get? index = none) :
    log.resolve index offset = .error (.entry index log.count) := by
  rw [resolve, missing]

theorem resolve_outside (kept : log.get? index = some entry) (outside : entry.length ≤ offset) :
    log.resolve index offset = .error (.byte index offset entry.length) := by
  rw [resolve, kept]
  exact if_neg (by omega)

/-- `locate` and `resolve` are inverse to each other between the offsets below the number of bytes and the
positions inside the entries; what lies outside is refused by its reason. Nothing is ever taken from less
than itself on the way. -/
theorem locate_resolve_inverse (reached : log.Reachable) :
    log.content.length = log.totalBytes ∧
    (∀ start, (log.locate start).isSome = true ↔ start < log.totalBytes) ∧
    (∀ start found, log.locate start = some found →
      found.index < log.count ∧ log.resolve found.index found.offset = .ok start ∧
      ∃ entry byte, log.get? found.index = some entry ∧ found.offset < entry.length ∧
        entry[found.offset]? = some byte ∧ log.content[start]? = some byte) ∧
    (∀ index offset start, log.resolve index offset = .ok start →
      start < log.totalBytes ∧ log.locate start = some ⟨index, offset⟩) ∧
    (∀ index offset,
      (log.count ≤ index → log.resolve index offset = .error (.entry index log.count)) ∧
      (index < log.count → ∃ entry, log.get? index = some entry ∧
        (entry.length ≤ offset →
          log.resolve index offset = .error (.byte index offset entry.length)) ∧
        (offset < entry.length → ∃ start, log.resolve index offset = .ok start))) ∧
    (∀ first second before after, log.locate first = some before → log.locate second = some after →
      (first < second ↔ before.Before after)) ∧
    ∀ start, Position.checkedWalk log.toList start = some (log.locate start) := by
  refine ⟨length_content log, ?_, ?_, ?_, ?_, ?_, Position.checkedWalk_eq log.toList⟩
  · intro start
    exact Position.isSome_locateIn
  · intro start found located
    have lies := Position.locateIn_eq_some_iff.mp located
    obtain ⟨entry, byte, kept, inside, same⟩ := lies.byte
    rw [← get?_eq reached] at kept
    exact ⟨index_lt_count reached kept, (resolve_eq_ok_iff reached).mpr lies, entry, byte, kept, inside,
      same⟩
  · intro index offset start resolved
    constructor
    · exact resolve_inside reached resolved
    · exact (locate_eq_some_iff_resolve reached).mpr resolved
  · intro index offset
    constructor
    · intro past
      apply resolve_missing
      cases kept : log.get? index with
      | none => rfl
      | some entry =>
          have bound := index_lt_count reached kept
          omega
    · intro bound
      obtain ⟨entry, kept⟩ := exists_get? reached bound
      refine ⟨entry, kept, resolve_outside kept, ?_⟩
      intro inside
      rw [get?_eq reached] at kept
      exact ⟨_, (resolve_eq_ok_iff reached).mpr ⟨entry, kept, inside, rfl⟩⟩
  · intro first second before after locatedFirst locatedSecond
    exact Position.lt_iff_before (Position.locateIn_eq_some_iff.mp locatedFirst)
      (Position.locateIn_eq_some_iff.mp locatedSecond)

def wrapped : Log := ((Ring.empty 4).appendAll [[120, 10], [], [97, 97, 10], [], [98, 10]]).1

theorem wrapped_reachable : wrapped.Reachable :=
  (Reachable.fresh (ofCapacity_eq_ok (by decide))).appendAll _

theorem locate_resolve_inverse_emptyEntries :
    wrapped.Reachable ∧ wrapped.locate 2 = some ⟨1, 2⟩ ∧ wrapped.resolve 1 2 = .ok 2 ∧
      wrapped.locate 3 = some ⟨3, 0⟩ ∧ wrapped.resolve 3 0 = .ok 3 ∧
      (⟨1, 2⟩ : Position).Before ⟨3, 0⟩ ∧ (wrapped.locate 5).isSome = false ∧
      wrapped.resolve 2 0 = .error (.byte 2 0 0) := by
  have here : wrapped.locate 2 = some ⟨1, 2⟩ := by decide +kernel
  have there : wrapped.locate 3 = some ⟨3, 0⟩ := by decide +kernel
  have past : ¬ 5 < wrapped.totalBytes := by decide +kernel
  have empty : wrapped.get? 2 = some [] := by decide +kernel
  obtain ⟨_, bounds, inverse, _, refused, order, _⟩ := locate_resolve_inverse wrapped_reachable
  refine ⟨wrapped_reachable, here, (inverse 2 _ here).2.1, there, (inverse 3 _ there).2.1,
    (order 2 3 _ _ here there).mp (by decide), ?_, ?_⟩
  · rwa [← bounds 5, Bool.not_eq_true] at past
  · obtain ⟨entry, kept, outside, _⟩ := (refused 2 0).2 (by decide +kernel)
    rw [empty, Option.some.injEq] at kept
    subst entry
    exact outside (by decide)

end Log

end CommandLog
