/-!
Byte strings, and the two cuts the line protocol makes in them: behind the first line feed, and at a
fixed beginning or end. The cuts lose nothing: what they return, put back together, is the input.
-/

namespace CommandLog

abbrev Bytes := List UInt8

def lineFeed : UInt8 := 10

def carriageReturn : UInt8 := 13

namespace Bytes

def dropPrefix? : (start bytes : Bytes) → Option Bytes
  | [], bytes => some bytes
  | _ :: _, [] => none
  | expected :: start, byte :: bytes => if expected = byte then dropPrefix? start bytes else none

theorem dropPrefix?_eq_some_iff {start bytes rest : Bytes} :
    dropPrefix? start bytes = some rest ↔ bytes = start ++ rest := by
  induction start generalizing bytes with
  | nil => simp [dropPrefix?]
  | cons expected start ih =>
      cases bytes with
      | nil => simp [dropPrefix?]
      | cons byte bytes =>
          by_cases same : expected = byte
          · simp [dropPrefix?, same, ih]
          · simp [dropPrefix?, same, Ne.symm same]

theorem dropPrefix?_append (start rest : Bytes) : dropPrefix? start (start ++ rest) = some rest :=
  dropPrefix?_eq_some_iff.mpr rfl

def dropFinal (final : UInt8) (bytes : Bytes) : Bytes :=
  if bytes.getLast? = some final then bytes.dropLast else bytes

theorem dropFinal_append (final : UInt8) (bytes : Bytes) :
    dropFinal final (bytes ++ [final]) = bytes := by
  simp [dropFinal]

theorem dropFinal_of_getLast? {final : UInt8} {bytes : Bytes} (other : bytes.getLast? ≠ some final) :
    dropFinal final bytes = bytes := by
  simp [dropFinal, other]

/-- The bytes up to and including the first line feed, and the bytes behind it. -/
def cutLine? (bytes : Bytes) : Option (Bytes × Bytes) :=
  match bytes.dropWhile (· != lineFeed) with
  | [] => none
  | feed :: behind => some (bytes.takeWhile (· != lineFeed) ++ [feed], behind)

theorem cutLine?_eq_none_iff {bytes : Bytes} : cutLine? bytes = none ↔ lineFeed ∉ bytes := by
  induction bytes with
  | nil => simp [cutLine?]
  | cons byte bytes ih =>
      by_cases feed : byte = lineFeed
      · simp [cutLine?, feed]
      · have other : (byte != lineFeed) = true := by simp [feed]
        have apart : ¬ lineFeed = byte := fun same => feed same.symm
        simp only [cutLine?, List.dropWhile_cons, other, ↓reduceIte, List.takeWhile_cons,
          List.mem_cons, apart, false_or] at ih ⊢
        rw [← ih]
        cases bytes.dropWhile (· != lineFeed) <;> simp

theorem cutLine?_append {line behind : Bytes} (clean : lineFeed ∉ line) :
    cutLine? (line ++ lineFeed :: behind) = some (line ++ [lineFeed], behind) := by
  have passed : ∀ byte ∈ line, (byte != lineFeed) = true := fun byte member =>
    bne_iff_ne.mpr fun same => clean (same ▸ member)
  simp [cutLine?, List.takeWhile_append_of_pos passed, List.dropWhile_append_of_pos passed]

theorem eq_append_of_cutLine? {bytes line behind : Bytes} (cut : cutLine? bytes = some (line, behind)) :
    ∃ text, lineFeed ∉ text ∧ line = text ++ [lineFeed] ∧ bytes = text ++ lineFeed :: behind := by
  induction bytes generalizing line with
  | nil => simp [cutLine?] at cut
  | cons byte bytes ih =>
      by_cases feed : byte = lineFeed
      · subst feed
        simp only [cutLine?, bne_self_eq_false, List.dropWhile_cons, Bool.false_eq_true,
          ↓reduceIte, List.takeWhile_cons, List.nil_append, Option.some.injEq, Prod.mk.injEq] at cut
        exact ⟨[], List.not_mem_nil, cut.1.symm, congrArg _ cut.2⟩
      · have other : (byte != lineFeed) = true := by simpa using feed
        simp only [cutLine?, List.dropWhile_cons, other, ↓reduceIte, List.takeWhile_cons] at cut
        cases rest : bytes.dropWhile (· != lineFeed) with
        | nil => simp [rest] at cut
        | cons first after =>
            simp only [rest, Option.some.injEq, Prod.mk.injEq] at cut
            have shorter : cutLine? bytes =
                some (bytes.takeWhile (· != lineFeed) ++ [first], behind) := by
              simp [cutLine?, rest, cut.2]
            obtain ⟨text, clean, endsWith, whole⟩ := ih shorter
            refine ⟨byte :: text, ?_, ?_, ?_⟩
            · simp only [List.mem_cons, not_or]
              exact ⟨fun same => feed same.symm, clean⟩
            · simp [← cut.1, endsWith]
            · simp [whole]

def totalLength (entries : List Bytes) : Nat :=
  entries.foldr (fun entry later => entry.length + later) 0

theorem length_flatten (entries : List Bytes) : entries.flatten.length = totalLength entries := by
  induction entries with
  | nil => rfl
  | cons entry entries ih =>
      rw [List.flatten_cons, List.length_append, ih]
      rfl

theorem totalLength_append (front back : List Bytes) :
    totalLength (front ++ back) = totalLength front + totalLength back := by
  simp only [← length_flatten, List.flatten_append, List.length_append]

end Bytes

end CommandLog
