import CommandLog.Command
import Mathlib.Algebra.Group.Nat.Defs
import Mathlib.Data.List.Induction
import Mathlib.Data.List.TakeWhile

/-!
The grammar of a line. The arguments of a seek are two decimal numerals with a comma between them; a
line with the tag of a seek is never written, and is refused for the first of its faults. Main
statement: `parse` reads a line as this grammar does, and in no other way.
-/

namespace CommandLog

/-- A decimal numeral and its value. Zeros in front are allowed, and change nothing. -/
inductive Numeral : Bytes → Nat → Prop
  | digit {value} : value < 10 → Numeral [.ofNat (48 + value)] value
  | append {text value last} : Numeral text value → last < 10 →
      Numeral (text ++ [.ofNat (48 + last)]) (10 * value + last)

def Numeral.Fits (text : Bytes) (value : Nat) : Prop := Numeral text value ∧ value < 2 ^ 64

def Bytes.Trims (final : UInt8) (bytes shorter : Bytes) : Prop :=
  bytes = shorter ++ [final] ∨ bytes = shorter ∧ ¬ [final] <:+ bytes

namespace Command

open Text.Utf8 (encode)

/-- What is left of a seek line behind its tag when it has lost one line feed, and then one carriage
return. -/
def Arguments (rest text : Bytes) : Prop :=
  ∃ line, Bytes.Trims lineFeed rest line ∧ Bytes.Trims carriageReturn line text

def comma : UInt8 := 44

inductive Reading : Bytes → Except SeekError Command → Prop
  | write {line} : ¬ seekTag <+: line → Reading line (.ok (.write line))
  | seek {rest first second index offset} : Arguments rest (first ++ comma :: second) →
      Numeral.Fits first index → Numeral.Fits second offset →
      Reading (seekTag ++ rest) (.ok (.seek index offset))
  | notUtf8 {rest bytes} : Arguments rest bytes → (∀ text, bytes ≠ encode text) →
      Reading (seekTag ++ rest) (.error .notUtf8)
  | missingSeparator {rest text} : Arguments rest (encode text) → ',' ∉ text →
      Reading (seekTag ++ rest) (.error (.missingSeparator (String.ofList text)))
  | entryIndex {rest first second} : Arguments rest (encode (first ++ ',' :: second)) →
      ',' ∉ first → (∀ index, ¬ Numeral.Fits (encode first) index) →
      Reading (seekTag ++ rest) (.error (.invalidNumber .entryIndex (String.ofList first)))
  | byteOffset {rest first second index} : Arguments rest (encode (first ++ ',' :: second)) →
      Numeral.Fits (encode first) index → (∀ offset, ¬ Numeral.Fits (encode second) offset) →
      Reading (seekTag ++ rest) (.error (.invalidNumber .byteOffset (String.ofList second)))

end Command

namespace Bytes

theorem trims_iff {final : UInt8} {bytes shorter : Bytes} :
    Trims final bytes shorter ↔ shorter = dropFinal final bytes := by
  have ends : [final] <:+ bytes ↔ bytes.getLast? = some final :=
    List.singleton_suffix_iff_getLast?_eq_some
  constructor
  · rintro (rfl | ⟨rfl, other⟩)
    · exact (dropFinal_append final shorter).symm
    · exact (dropFinal_of_getLast? fun last => other (ends.mpr last)).symm
  · rintro rfl
    by_cases last : bytes.getLast? = some final
    · obtain ⟨front, rfl⟩ := List.getLast?_eq_some_iff.mp last
      exact Or.inl (by rw [dropFinal_append])
    · exact Or.inr ⟨(dropFinal_of_getLast? last).symm, fun suffix => last (ends.mp suffix)⟩

end Bytes

theorem Text.Utf8.encode_digitChar {digit : Nat} (small : digit < 10) :
    encode [Nat.digitChar digit] = [.ofNat (48 + digit)] := by
  have all : ∀ digit < 10, encode [Nat.digitChar digit] = [.ofNat (48 + digit)] := by decide
  exact all digit small

theorem eq_digitChar_of_isDigit {c : Char} (digit : c.isDigit = true) :
    c.toNat - '0'.toNat < 10 ∧ c = Nat.digitChar (c.toNat - '0'.toNat) := by
  obtain ⟨least, most⟩ := Char.isDigit_iff_toNat.mp digit
  have zero : '0'.toNat = 48 := rfl
  have nine : '9'.toNat = 57 := rfl
  have small : c.toNat - '0'.toNat < 10 := by omega
  refine ⟨small, Char.toNat_inj.mp ?_⟩
  rw [Nat.toNat_digitChar_of_lt_ten small]
  omega

namespace Numeral

open Text.Utf8 (encode encode_append encode_digitChar encode_injective)

theorem exists_digits {bytes : Bytes} {value : Nat} (numeral : Numeral bytes value) :
    ∃ text : List Char, bytes = encode text ∧ text ≠ [] ∧ (∀ c ∈ text, c.isDigit = true) ∧
      Nat.ofDigitChars 10 text 0 = value := by
  have digit {value : Nat} (small : value < 10) : (Nat.digitChar value).isDigit = true ∧
      (Nat.digitChar value).toNat - '0'.toNat = value := by
    have zero : '0'.toNat = 48 := rfl
    rw [Nat.isDigit_digitChar, Nat.toNat_digitChar_of_lt_ten small, zero]
    exact ⟨decide_eq_true small, by omega⟩
  induction numeral with
  | @digit value small =>
      refine ⟨[Nat.digitChar value], (encode_digitChar small).symm, by simp, ?_, ?_⟩
      · simpa using (digit small).1
      · simpa [Nat.ofDigitChars] using (digit small).2
  | @append bytes value last _ small ih =>
      obtain ⟨text, rfl, filled, digits, rfl⟩ := ih
      refine ⟨text ++ [Nat.digitChar last], ?_, by simp, ?_, ?_⟩
      · rw [encode_append, encode_digitChar small]
      · intro c member
        rcases List.mem_append.mp member with earlier | final
        · exact digits c earlier
        · rw [List.mem_singleton.mp final]
          exact (digit small).1
      · rw [Nat.ofDigitChars_append, Nat.ofDigitChars_cons, (digit small).2]
        rfl

theorem of_digits {text : List Char} (filled : text ≠ []) (digits : ∀ c ∈ text, c.isDigit = true) :
    Numeral (encode text) (Nat.ofDigitChars 10 text 0) := by
  induction text using List.reverseRecOn with
  | nil => exact absurd rfl filled
  | append_singleton text last ih =>
      obtain ⟨small, same⟩ := eq_digitChar_of_isDigit (digits last List.mem_concat_self)
      rw [Nat.ofDigitChars_append, Nat.ofDigitChars_cons, encode_append]
      have bytes := encode_digitChar small
      rw [← same] at bytes
      rw [bytes]
      cases text with
      | nil => simpa [Nat.ofDigitChars, Text.Utf8.encode] using Numeral.digit small
      | cons first text =>
          refine .append (ih (List.cons_ne_nil first text) fun c member => ?_) small
          exact digits c (List.mem_append_left _ member)

theorem encode_iff {text : List Char} {value : Nat} : Numeral (encode text) value ↔
    text ≠ [] ∧ (∀ c ∈ text, c.isDigit = true) ∧ Nat.ofDigitChars 10 text 0 = value := by
  constructor
  · intro numeral
    obtain ⟨other, same, facts⟩ := numeral.exists_digits
    rwa [encode_injective same]
  · rintro ⟨filled, digits, rfl⟩
    exact of_digits filled digits

theorem getLast?_eq {bytes : Bytes} {value : Nat} (numeral : Numeral bytes value) :
    ∃ digit, digit < 10 ∧ bytes.getLast? = some (.ofNat (48 + digit)) := by
  cases numeral with
  | digit small => exact ⟨_, small, rfl⟩
  | append _ small => exact ⟨_, small, List.getLast?_concat⟩

theorem fits_toDigits {value : Nat} (bound : value < 2 ^ 64) :
    Fits (encode (Nat.toDigits 10 value)) value := by
  refine ⟨encode_iff.mpr ⟨Nat.toDigits_ne_nil, ?_, Nat.ofDigitChars_ten_toDigits⟩, bound⟩
  exact fun c member => Nat.isDigit_of_mem_toDigits (by decide) (by decide) member

end Numeral

namespace Command

open Text.Utf8 (encode)

variable {field : SeekField} {text first second : List Char} {value : Nat} {rest args line : Bytes}

theorem isNumber_iff : isNumber text = true ↔
    Numeral.Fits (encode text) (Nat.ofDigitChars 10 text 0) := by
  simp only [isNumber, Bool.and_eq_true, Bool.not_eq_true', List.isEmpty_eq_false_iff,
    List.all_eq_true, decide_eq_true_eq, Numeral.Fits, Numeral.encode_iff, and_true]
  rfl

theorem parseNumber_of_fits (fits : Numeral.Fits (encode text) value) :
    parseNumber field text = .ok value := by
  obtain ⟨_, _, rfl⟩ := Numeral.encode_iff.mp fits.1
  rw [parseNumber, if_pos (isNumber_iff.mpr fits)]

theorem parseNumber_of_unfit (unfit : ∀ value, ¬ Numeral.Fits (encode text) value) :
    parseNumber field text = .error (.invalidNumber field (String.ofList text)) := by
  rw [parseNumber, if_neg fun number => unfit _ (isNumber_iff.mp number)]

theorem arguments_iff : Arguments rest args ↔ args = arguments rest := by
  simp only [Arguments, Bytes.trims_iff, exists_eq_left, arguments]

theorem parse_tagged (split : Arguments rest args) : parse (seekTag ++ rest) =
    match Text.Utf8.decode? args with
    | none => .error .notUtf8
    | some text => parseArguments text := by
  cases decoded : Text.Utf8.decode? args <;>
    simp only [parse, Bytes.dropPrefix?_append, ← arguments_iff.mp split, decoded]

theorem parse_untagged (untagged : ¬ seekTag <+: line) : parse line = .ok (.write line) := by
  cases dropped : Bytes.dropPrefix? seekTag line with
  | none => simp only [parse, dropped]
  | some rest =>
      exact absurd ⟨rest, (Bytes.dropPrefix?_eq_some_iff.mp dropped).symm⟩ untagged

theorem parse_text (split : Arguments rest (encode text)) :
    parse (seekTag ++ rest) = parseArguments text := by
  rw [parse_tagged split, Text.Utf8.decode?_encode]

theorem parseArguments_of_missing (missing : ',' ∉ text) :
    parseArguments text = .error (.missingSeparator (String.ofList text)) := by
  have passed : text.dropWhile (· != separator) = [] := by
    rw [List.dropWhile_eq_nil_iff]
    intro c member
    exact bne_iff_ne.mpr fun same => missing (same.subst (motive := (· ∈ text)) member)
  simp only [parseArguments, passed]

theorem parseArguments_of_separated (clean : ',' ∉ first) :
    parseArguments (first ++ ',' :: second) = do
      let index ← parseNumber .entryIndex first
      let offset ← parseNumber .byteOffset second
      return .seek index offset := by
  have passed : ∀ c ∈ first, (c != separator) = true := fun c member =>
    bne_iff_ne.mpr fun same => clean (same.subst (motive := (· ∈ first)) member)
  have stops : (',' != separator) = false := rfl
  simp only [parseArguments, List.dropWhile_append_of_pos passed, List.takeWhile_append_of_pos passed,
    List.dropWhile_cons, List.takeWhile_cons, stops, Bool.false_eq_true, ↓reduceIte, List.append_nil]

theorem not_mem_of_numeral (numeral : Numeral (encode first) value) : ',' ∉ first := by
  intro member
  have digit := (Numeral.encode_iff.mp numeral).2.1 ',' member
  exact absurd digit (by decide)

theorem encode_separated : encode (first ++ ',' :: second) = encode first ++ comma :: encode second := by
  rw [Text.Utf8.encode_append]
  rfl

theorem Reading.parse_eq {outcome : Except SeekError Command} (reading : Reading line outcome) :
    parse line = outcome := by
  cases reading with
  | write untagged => exact parse_untagged untagged
  | seek split index offset =>
      obtain ⟨first, rfl, _⟩ := index.1.exists_digits
      obtain ⟨second, rfl, _⟩ := offset.1.exists_digits
      rw [← encode_separated] at split
      rw [parse_text split, parseArguments_of_separated (not_mem_of_numeral index.1),
        parseNumber_of_fits index, parseNumber_of_fits offset]
      rfl
  | notUtf8 split broken =>
      rw [parse_tagged split]
      cases decoded : Text.Utf8.decode? _ with
      | none => rfl
      | some text => exact absurd (Text.Utf8.decode?_eq_some_iff.mp decoded) (broken text)
  | missingSeparator split missing => rw [parse_text split, parseArguments_of_missing missing]
  | entryIndex split clean unfit =>
      rw [parse_text split, parseArguments_of_separated clean, parseNumber_of_unfit unfit]
      rfl
  | byteOffset split index unfit =>
      rw [parse_text split, parseArguments_of_separated (not_mem_of_numeral index.1),
        parseNumber_of_fits index, parseNumber_of_unfit unfit]
      rfl

theorem exists_reading (line : Bytes) : ∃ outcome, Reading line outcome := by
  by_cases tagged : seekTag <+: line
  · obtain ⟨rest, rfl⟩ := tagged
    have split : Arguments rest (arguments rest) := arguments_iff.mpr rfl
    by_cases valid : ∃ text, arguments rest = encode text
    · obtain ⟨text, same⟩ := valid
      rw [same] at split
      by_cases separated : ',' ∈ text
      · obtain ⟨first, second, rfl, clean⟩ := List.eq_append_cons_of_mem separated
        by_cases index : ∃ value, Numeral.Fits (encode first) value
        · obtain ⟨index, fits⟩ := index
          by_cases offset : ∃ value, Numeral.Fits (encode second) value
          · obtain ⟨offset, alsoFits⟩ := offset
            rw [encode_separated] at split
            exact ⟨_, .seek split fits alsoFits⟩
          · exact ⟨_, .byteOffset split fits (not_exists.mp offset)⟩
        · exact ⟨_, .entryIndex split clean (not_exists.mp index)⟩
      · exact ⟨_, .missingSeparator split separated⟩
    · exact ⟨_, .notUtf8 split (not_exists.mp valid)⟩
  · exact ⟨_, .write tagged⟩

theorem arguments_append {ending : Bytes} (unfed : args.getLast? ≠ some lineFeed)
    (unreturned : args.getLast? ≠ some carriageReturn)
    (listed : ending ∈ [[], [lineFeed], [carriageReturn], [carriageReturn, lineFeed]]) :
    Arguments (args ++ ending) args := by
  have other : (args ++ [carriageReturn]).getLast? ≠ some lineFeed := by
    rw [List.getLast?_concat]
    decide
  rw [arguments_iff, arguments]
  simp only [List.mem_cons, List.not_mem_nil, or_false] at listed
  rcases listed with rfl | rfl | rfl | rfl
  · rw [List.append_nil, Bytes.dropFinal_of_getLast? unfed, Bytes.dropFinal_of_getLast? unreturned]
  · rw [Bytes.dropFinal_append, Bytes.dropFinal_of_getLast? unreturned]
  · rw [Bytes.dropFinal_of_getLast? other, Bytes.dropFinal_append]
  · rw [← List.singleton_append, ← List.append_assoc, Bytes.dropFinal_append, Bytes.dropFinal_append]

theorem reading_render {index offset : Nat} {ending : Bytes} (indexFits : index < 2 ^ 64)
    (offsetFits : offset < 2 ^ 64)
    (listed : ending ∈ [[], [lineFeed], [carriageReturn], [carriageReturn, lineFeed]]) :
    Reading (render ending (.seek index offset)) (.ok (.seek index offset)) := by
  have second := Numeral.fits_toDigits offsetFits
  have printed : encode (argumentText index offset) =
      encode (Nat.toDigits 10 index) ++ comma :: encode (Nat.toDigits 10 offset) := encode_separated
  obtain ⟨digit, small, last⟩ := second.1.getLast?_eq
  have ends : (encode (argumentText index offset)).getLast? = some (.ofNat (48 + digit)) := by
    rw [printed, List.getLast?_append, List.getLast?_cons, last]
    rfl
  have apart : ∀ digit < 10, some (UInt8.ofNat (48 + digit)) ≠ some lineFeed ∧
      some (UInt8.ofNat (48 + digit)) ≠ some carriageReturn := by decide
  have split : Arguments (encode (argumentText index offset) ++ ending)
      (encode (argumentText index offset)) := by
    refine arguments_append ?_ ?_ listed
    · rw [ends]
      exact (apart digit small).1
    · rw [ends]
      exact (apart digit small).2
  rw [render, List.append_assoc]
  rw [printed] at split ⊢
  exact .seek split (Numeral.fits_toDigits indexFits) second

/-- A line is read as the grammar reads it, whether as a write, as a seek or as a fault, and a line with
the tag of a seek is never written. A seek that is printed is read back, with any of the endings of a
line or none. -/
theorem parse_eq_iff_reading :
    (∀ line outcome, parse line = outcome ↔ Reading line outcome) ∧
    (∀ rest bytes, parse (seekTag ++ rest) ≠ .ok (.write bytes)) ∧
    ∀ index offset ending, index < 2 ^ 64 → offset < 2 ^ 64 →
      ending ∈ [[], [lineFeed], [carriageReturn], [carriageReturn, lineFeed]] →
      parse (render ending (.seek index offset)) = .ok (.seek index offset) := by
  have reads (line : Bytes) (outcome : Except SeekError Command) :
      parse line = outcome ↔ Reading line outcome := by
    refine ⟨?_, Reading.parse_eq⟩
    rintro rfl
    obtain ⟨outcome, reading⟩ := exists_reading line
    rwa [reading.parse_eq]
  refine ⟨reads, ?_, ?_⟩
  · intro rest bytes parsed
    generalize whole : seekTag ++ rest = line at parsed
    cases (reads _ _).mp parsed with
    | write untagged => exact untagged (whole ▸ List.prefix_append seekTag rest)
  · intro index offset ending indexFits offsetFits listed
    exact (reading_render indexFits offsetFits listed).parse_eq

theorem parse_eq_iff_reading_twoCommas :
    18446744073709551615 < 2 ^ 64 ∧
    parse (render [carriageReturn, lineFeed] (.seek 18446744073709551615 0)) =
      .ok (.seek 18446744073709551615 0) ∧
    parse (seekTag ++ encode "007,1,2".toList) = .error (.invalidNumber .byteOffset "1,2") := by
  obtain ⟨reads, _, printed⟩ := parse_eq_iff_reading
  refine ⟨by decide, printed _ _ _ (by decide) (by decide) (by decide), (reads _ _).mpr ?_⟩
  have index : Numeral.Fits (encode ['0', '0', '7']) 7 := isNumber_iff.mp (by decide)
  have split : Arguments (encode "007,1,2".toList) (encode (['0', '0', '7'] ++ ',' :: ['1', ',', '2'])) :=
    arguments_iff.mpr (by decide +kernel)
  refine .byteOffset split index ?_
  intro offset fits
  exact not_mem_of_numeral fits.1 (by decide)

end Command

end CommandLog
