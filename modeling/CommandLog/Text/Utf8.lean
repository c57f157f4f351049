import CommandLog.Bytes

/-!
Text as UTF-8 bytes. Decoding accepts exactly the bytes that encoding produces; `lossy` reads any
bytes, with U+FFFD for each piece that no text can contain.
-/

namespace CommandLog.Text.Utf8

def encode (text : List Char) : Bytes := text.flatMap String.utf8EncodeChar

def decode? (bytes : Bytes) : Option (List Char) :=
  (String.fromUTF8? bytes.toByteArray).map String.toList

theorem decode?_eq_some_iff {bytes : Bytes} {text : List Char} :
    decode? bytes = some text ↔ bytes = encode text := by
  simp only [decode?, String.fromUTF8?]
  constructor
  · intro decoded
    split at decoded
    · rename_i valid
      simp only [Option.map_some, Option.some.injEq] at decoded
      have same := String.utf8Encode_toList (b := String.fromUTF8 bytes.toByteArray valid)
      rw [decoded] at same
      exact (List.toByteArray_inj.mp same).symm
    · simp at decoded
  · rintro rfl
    have valid : (encode text).toByteArray.IsValidUTF8 := ⟨text, rfl⟩
    have whole : String.fromUTF8 (encode text).toByteArray valid = String.ofList text :=
      String.toByteArray_inj.mp rfl
    simp [valid, whole]

theorem decode?_encode (text : List Char) : decode? (encode text) = some text :=
  decode?_eq_some_iff.mpr rfl

theorem encode_append (first second : List Char) :
    encode (first ++ second) = encode first ++ encode second := by
  simp [encode]

theorem encode_injective {first second : List Char} (same : encode first = encode second) :
    first = second := by
  have decoded := decode?_encode first
  rw [same, decode?_encode] at decoded
  exact (Option.some.inj decoded).symm

/-- The bytes that may follow `lead` inside one character, as one range for each of them. -/
def continuation (lead : UInt8) : List (UInt8 × UInt8) :=
  if lead < 0xC2 then []
  else if lead < 0xE0 then [(0x80, 0xBF)]
  else if lead = 0xE0 then [(0xA0, 0xBF), (0x80, 0xBF)]
  else if lead = 0xED then [(0x80, 0x9F), (0x80, 0xBF)]
  else if lead < 0xF0 then [(0x80, 0xBF), (0x80, 0xBF)]
  else if lead = 0xF0 then [(0x90, 0xBF), (0x80, 0xBF), (0x80, 0xBF)]
  else if lead < 0xF4 then [(0x80, 0xBF), (0x80, 0xBF), (0x80, 0xBF)]
  else if lead = 0xF4 then [(0x80, 0x8F), (0x80, 0xBF), (0x80, 0xBF)]
  else []

def within : List (UInt8 × UInt8) → Bytes → Bytes
  | (low, high) :: ranges, byte :: bytes =>
      if low ≤ byte ∧ byte ≤ high then byte :: within ranges bytes else []
  | _, _ => []

def replacement : Char := '\uFFFD'

/-- Reads one character or one damaged piece at a time; `fuel` bounds the number of pieces. -/
def lossyFrom : (fuel : Nat) → Bytes → List Char
  | fuel + 1, lead :: bytes =>
      let tail := within (continuation lead) bytes
      (decode? (lead :: tail)).getD [replacement] ++ lossyFrom fuel (bytes.drop tail.length)
  | _, _ => []

/-- The text of any bytes: a piece that starts no character becomes one replacement character,
and it is as long as some character agrees with it. -/
def lossy (bytes : Bytes) : List Char := lossyFrom bytes.length bytes

end CommandLog.Text.Utf8
