import CommandLog.Duration
import CommandLog.Text.Quoted
import Mathlib.Algebra.Group.Nat.Defs
import Mathlib.Data.List.Basic
import Mathlib.Data.List.DropRight

/-!
Texts that determine what was written. A number ends where its digits end, an escaped character can be
told from all that follows it, and a span of time shows its unit. Main statements: quoted texts and the
texts of spans are each written in one way only, and no quoted text has a control character in it.
-/

namespace CommandLog

theorem append_cons_inj {α : Type} (test : α → Bool) {front back early late : List α} {x y : α}
    (passed : ∀ a ∈ front, test a = true) (alsoPassed : ∀ a ∈ back, test a = true)
    (stops : test x = false) (alsoStops : test y = false)
    (same : front ++ x :: early = back ++ y :: late) : front = back ∧ x :: early = y :: late := by
  have taken := congrArg (List.takeWhile test) same
  have dropped := congrArg (List.dropWhile test) same
  simp only [List.takeWhile_append_of_pos passed, List.takeWhile_append_of_pos alsoPassed,
    List.takeWhile_cons_of_neg (Bool.not_eq_true _ ▸ stops),
    List.takeWhile_cons_of_neg (Bool.not_eq_true _ ▸ alsoStops), List.append_nil] at taken
  simp only [List.dropWhile_append_of_pos passed, List.dropWhile_append_of_pos alsoPassed,
    List.dropWhile_cons_of_neg (Bool.not_eq_true _ ▸ stops),
    List.dropWhile_cons_of_neg (Bool.not_eq_true _ ▸ alsoStops)] at dropped
  exact ⟨taken, dropped⟩

namespace Text

/-- The control characters: those below the space, and those from U+007F up to U+009F. -/
def IsControl (c : Char) : Prop := c.toNat < 0x20 ∨ 0x7F ≤ c.toNat ∧ c.toNat < 0xA0

instance : DecidablePred IsControl := fun c =>
  inferInstanceAs (Decidable (c.toNat < 0x20 ∨ 0x7F ≤ c.toNat ∧ c.toNat < 0xA0))

def IsPlain (text : List Char) : Prop := ∀ c ∈ text, ¬ IsControl c

instance : DecidablePred IsPlain := List.decidableBAll fun c => ¬ IsControl c

variable {base first second : Nat} {front back early late : List Char}

theorem isPlain_append : IsPlain (front ++ back) ↔ IsPlain front ∧ IsPlain back :=
  List.forall_mem_append

theorem exists_digit {c : Char} (binary : 1 < base) (member : c ∈ Nat.toDigits base first) :
    ∃ digit < base, c = Nat.digitChar digit := by
  induction first using Nat.strongRecOn with
  | ind first ih =>
      rw [Nat.toDigits_eq_if binary] at member
      split at member
      · exact ⟨first, by assumption, List.mem_singleton.mp member⟩
      · rcases List.mem_append.mp member with earlier | last
        · exact ih (first / base) (Nat.div_lt_self (by omega) binary) earlier
        · exact ⟨first % base, Nat.mod_lt _ (by omega), List.mem_singleton.mp last⟩

theorem digitChar_inj (least : first < 16) (most : second < 16)
    (same : Nat.digitChar first = Nat.digitChar second) : first = second := by
  have all : ∀ first < 16, ∀ second < 16,
      Nat.digitChar first = Nat.digitChar second → first = second := by decide
  exact all first least second most same

theorem toDigits_inj (binary : 1 < base) (small : base ≤ 16)
    (same : Nat.toDigits base first = Nat.toDigits base second) : first = second := by
  induction first using Nat.strongRecOn generalizing second with
  | ind first ih =>
      have below (number : Nat) : number % base < 16 := (Nat.mod_lt _ (by omega)).trans_le small
      have filled (number : Nat) : Nat.toDigits base number ≠ [] := Nat.toDigits_ne_nil
      have written : Nat.toDigits base second = _ := Nat.toDigits_eq_if binary
      rw [Nat.toDigits_eq_if binary, written] at same
      split at same <;> split at same
      · exact digitChar_inj (by omega) (by omega) (List.singleton_inj.mp same)
      · simpa [filled] using congrArg List.length same
      · simpa [filled] using congrArg List.length same
      · obtain ⟨earlier, last⟩ := List.append_inj' same rfl
        have quotient := ih (first / base) (Nat.div_lt_self (by omega) binary) earlier
        have remainder := digitChar_inj (below first) (below second) (List.singleton_inj.mp last)
        rw [← Nat.div_add_mod first base, ← Nat.div_add_mod second base, quotient, remainder]

theorem isPlain_toDigits (binary : 1 < base) (small : base ≤ 16) : IsPlain (Nat.toDigits base first) := by
  intro c member
  obtain ⟨digit, below, rfl⟩ := exists_digit binary member
  have all : ∀ digit < 16, ¬ IsControl (Nat.digitChar digit) := by decide
  exact all digit (below.trans_le small)

theorem isDigit_of_mem {c : Char} (member : c ∈ Nat.toDigits 10 first) : c.isDigit = true :=
  Nat.isDigit_of_mem_toDigits (by decide) (by decide) member

theorem toDigits_append_inj {x y : Char} (stops : x.isDigit = false) (alsoStops : y.isDigit = false)
    (same : Nat.toDigits 10 first ++ x :: early = Nat.toDigits 10 second ++ y :: late) :
    first = second ∧ x :: early = y :: late := by
  obtain ⟨digits, rest⟩ := append_cons_inj Char.isDigit (fun _ => isDigit_of_mem) (fun _ => isDigit_of_mem)
    stops alsoStops same
  exact ⟨toDigits_inj (by decide) (by decide) digits, rest⟩

namespace Quoted

def marks : List (Char × Char) :=
  [('"', '"'), ('\\', '\\'), ('\t', 't'), ('\r', 'r'), ('\n', 'n'), ('\x00', '0')]

inductive Escape : Char → List Char → Prop
  | mark {c mark} : (c, mark) ∈ marks → Escape c ['\\', mark]
  | code {c} : Escape c ('\\' :: 'u' :: '\x7b' :: (Nat.toDigits 16 c.toNat ++ ['\x7d']))
  | self {c} : c ≠ '\\' → c ≠ '"' → isUnprintable c = false → Escape c [c]

theorem escape_escapes (c : Char) : Escape c (escape c) := by
  unfold escape
  split_ifs with quote backslash tab carriage feed null unprintable
  · exact .mark (by simp [marks, quote])
  · exact .mark (by simp [marks, backslash])
  · exact .mark (by simp [marks, tab])
  · exact .mark (by simp [marks, carriage])
  · exact .mark (by simp [marks, feed])
  · exact .mark (by simp [marks, null])
  · exact .code
  · exact .self backslash quote (Bool.eq_false_iff.mpr unprintable)

theorem marks_inj {c d mark : Char} (named : (c, mark) ∈ marks) (alsoNamed : (d, mark) ∈ marks) :
    c = d := by
  have all : ∀ named ∈ marks, ∀ alsoNamed ∈ marks, named.2 = alsoNamed.2 → named.1 = alsoNamed.1 := by
    decide
  exact all _ named _ alsoNamed rfl

theorem not_mem_marks {c : Char} : (c, 'u') ∉ marks := by
  have all : ∀ named ∈ marks, named.2 ≠ 'u' := by decide
  exact fun named => all _ named rfl

theorem ne_brace {c : Char} (member : c ∈ Nat.toDigits 16 first) : (c != '\x7d') = true := by
  obtain ⟨digit, below, rfl⟩ := exists_digit (by decide) member
  have all : ∀ digit < 16, (Nat.digitChar digit != '\x7d') = true := by decide
  exact all digit below

theorem Escape.append_inj {c d : Char} (escape : Escape c front) (other : Escape d back)
    (same : front ++ early = back ++ late) : c = d ∧ early = late := by
  cases escape with
  | mark named =>
      cases other with
      | mark alsoNamed =>
          simp only [List.cons_append, List.nil_append, List.cons.injEq, true_and] at same
          exact ⟨marks_inj named (same.1 ▸ alsoNamed), same.2⟩
      | code =>
          simp only [List.cons_append, List.nil_append, List.cons.injEq, true_and] at same
          exact absurd (same.1 ▸ named) not_mem_marks
      | self backslash => exact absurd (List.cons.inj same).1.symm backslash
  | code =>
      cases other with
      | mark named =>
          simp only [List.cons_append, List.nil_append, List.cons.injEq, true_and] at same
          exact absurd (same.1 ▸ named) not_mem_marks
      | code =>
          simp only [List.cons_append, List.append_assoc, List.nil_append, List.cons.injEq,
            true_and] at same
          obtain ⟨digits, rest⟩ := append_cons_inj (· != '\x7d') (fun _ => ne_brace)
            (fun _ => ne_brace) rfl rfl same
          have code := toDigits_inj (by decide) (by decide) digits
          exact ⟨Char.toNat_inj.mp code, (List.cons.inj rest).2⟩
      | self backslash => exact absurd (List.cons.inj same).1.symm backslash
  | self backslash =>
      cases other with
      | mark => exact absurd (List.cons.inj same).1 backslash
      | code => exact absurd (List.cons.inj same).1 backslash
      | self => exact List.cons.inj same

theorem Escape.ne_quote {c : Char} (escape : Escape c front) : front ++ early ≠ '"' :: late := by
  intro same
  cases escape with
  | mark => exact absurd (List.cons.inj same).1 (by decide)
  | code => exact absurd (List.cons.inj same).1 (by decide)
  | self _ quote => exact quote (List.cons.inj same).1

theorem flatMap_escape_inj {text other : List Char}
    (same : text.flatMap escape ++ '"' :: early = other.flatMap escape ++ '"' :: late) :
    text = other ∧ early = late := by
  induction text generalizing other with
  | nil =>
      cases other with
      | nil => exact ⟨rfl, (List.cons.inj same).2⟩
      | cons d other =>
          rw [List.flatMap_cons, List.append_assoc] at same
          exact absurd same.symm (escape_escapes d).ne_quote
  | cons c text ih =>
      rw [List.flatMap_cons, List.append_assoc] at same
      cases other with
      | nil => exact absurd same (escape_escapes c).ne_quote
      | cons d other =>
          rw [List.flatMap_cons, List.append_assoc] at same
          obtain ⟨rfl, rest⟩ := (escape_escapes c).append_inj (escape_escapes d) same
          obtain ⟨rfl, after⟩ := ih rest
          exact ⟨rfl, after⟩

theorem Escape.isPlain {c : Char} (escape : Escape c front) : IsPlain front := by
  cases escape with
  | mark named =>
      have all : ∀ named ∈ marks, IsPlain ['\\', named.2] := by decide
      exact all _ named
  | code =>
      have open_brace : IsPlain ['\\', 'u', '\x7b'] := by decide
      have close_brace : IsPlain ['\x7d'] := by decide
      have digits : IsPlain (Nat.toDigits 16 c.toNat) := isPlain_toDigits (by decide) (by decide)
      exact isPlain_append.mpr ⟨open_brace, isPlain_append.mpr ⟨digits, close_brace⟩⟩
  | self _ _ printable =>
      intro d member control
      rw [List.mem_singleton.mp member] at control
      rw [isUnprintable_of_control c control] at printable
      cases printable

end Quoted

end Text

open Text (IsPlain isPlain_append)

theorem quoted_injective : Function.Injective quoted := by
  intro first second same
  have texts := String.ofList_injective same
  simp only [Text.Quoted.encode, List.cons_append, List.cons.injEq, true_and] at texts
  exact String.toList_inj.mp (Text.Quoted.flatMap_escape_inj texts).1

theorem isPlain_quoted (text : String) : IsPlain (quoted text).toList := by
  have inner : IsPlain (text.toList.flatMap Text.Quoted.escape) := by
    intro c member
    obtain ⟨d, _, among⟩ := List.mem_flatMap.mp member
    exact (Text.Quoted.escape_escapes d).isPlain c among
  have quote : IsPlain ['"'] := by decide
  rw [quoted, String.toList_ofList, Text.Quoted.encode]
  have opened : IsPlain (['"'] ++ text.toList.flatMap Text.Quoted.escape) := isPlain_append.mpr ⟨quote, inner⟩
  exact isPlain_append.mpr ⟨opened, quote⟩

namespace Duration

open Text (IsControl isDigit_of_mem toDigits_append_inj toDigits_inj isPlain_toDigits)

def padded (places part : Nat) : List Char :=
  List.replicate (places - (Nat.toDigits 10 part).length) '0' ++ Nat.toDigits 10 part

variable {places part other : Nat}

theorem decimals_eq : decimals places part = (padded places part).rdropWhile (· == '0') := rfl

theorem length_padded (below : part < 10 ^ places) (some : 0 < places) :
    (padded places part).length = places := by
  have fits := (Nat.length_toDigits_le_iff (by decide) some).mpr below
  simp only [padded, List.length_append, List.length_replicate]
  omega

theorem isDigit_of_padded {c : Char} (member : c ∈ padded places part) : c.isDigit = true := by
  rcases List.mem_append.mp member with zero | digit
  · rw [List.eq_of_mem_replicate zero]
    rfl
  · exact isDigit_of_mem digit

theorem isDigit_of_decimals {c : Char} (member : c ∈ decimals places part) : c.isDigit = true :=
  isDigit_of_padded ((List.rdropWhile_prefix _ _).subset member)

theorem append_zeros (digits : List Char) :
    digits.rdropWhile (· == '0') ++
      List.replicate (digits.length - (digits.rdropWhile (· == '0')).length) '0' = digits := by
  induction digits using List.reverseRecOn with
  | nil => rfl
  | append_singleton digits last ih =>
      by_cases zero : last = '0'
      · subst zero
        have shorter := (List.rdropWhile_prefix (· == '0') digits).length_le
        rw [List.rdropWhile_concat_pos _ _ _ rfl, List.length_append, List.length_singleton,
          Nat.sub_add_comm shorter, List.replicate_succ', ← List.append_assoc, ih]
      · rw [List.rdropWhile_concat_neg _ _ _ (by simpa using zero), Nat.sub_self,
          List.replicate_zero, List.append_nil]

theorem decimals_inj (below : part < 10 ^ places) (alsoBelow : other < 10 ^ places)
    (same : decimals places part = decimals places other) : part = other := by
  rcases Nat.eq_zero_or_pos places with none | some
  · simp only [none, Nat.pow_zero, Nat.lt_one_iff] at below alsoBelow
    rw [below, alsoBelow]
  · have whole : padded places part = padded places other := by
      rw [← append_zeros (padded places part), ← append_zeros (padded places other),
        length_padded below some, length_padded alsoBelow some, ← decimals_eq, ← decimals_eq, same]
    have value := congrArg (Nat.ofDigitChars 10 · 0) whole
    simpa [padded, Nat.ofDigitChars_append, Nat.ofDigitChars_replicate_zero] using value

def units : List (Nat × String) := [(9, "s"), (6, "ms"), (3, "µs"), (0, "ns")]

theorem exists_unit (span : Duration) : ∃ scale ∈ units,
    span.text = inUnit scale.1 scale.2 span.nanoseconds := by
  unfold text
  dsimp only
  split_ifs with seconds milliseconds microseconds
  · exact ⟨(9, "s"), by decide, rfl⟩
  · exact ⟨(6, "ms"), by decide, rfl⟩
  · exact ⟨(3, "µs"), by decide, rfl⟩
  · exact ⟨(0, "ns"), by decide, rfl⟩

def fraction (places amount : Nat) : List Char :=
  let digits := decimals places (amount % 10 ^ places)
  if digits.isEmpty then [] else '.' :: digits

theorem toList_inUnit (places amount : Nat) (unit : String) : (inUnit places unit amount).toList =
    Nat.toDigits 10 (amount / 10 ^ places) ++ (fraction places amount ++ unit.toList) := by
  simp only [inUnit, fraction, Nat.pow_eq, String.toList_append, String.toList_ofList,
    List.append_assoc]

variable {scale other : Nat × String} {amount otherAmount : Nat}

theorem exists_letter (listed : scale ∈ units) : ∃ letter more,
    scale.2.toList = letter :: more ∧ letter.isDigit = false ∧ letter ≠ '.' := by
  simp only [units, List.mem_cons, List.not_mem_nil, or_false] at listed
  rcases listed with rfl | rfl | rfl | rfl
  · exact ⟨'s', [], rfl, by decide⟩
  · exact ⟨'m', ['s'], rfl, by decide⟩
  · exact ⟨'µ', ['s'], rfl, by decide⟩
  · exact ⟨'n', ['s'], rfl, by decide⟩

theorem units_inj (listed : scale ∈ units) (alsoListed : other ∈ units)
    (same : scale.2.toList = other.2.toList) : scale = other := by
  have all : ∀ scale ∈ units, ∀ other ∈ units, scale.2 = other.2 → scale = other := by decide
  exact all _ listed _ alsoListed (String.toList_inj.mp same)

theorem exists_fraction (listed : scale ∈ units) (amount : Nat) : ∃ first rest,
    fraction scale.1 amount ++ scale.2.toList = first :: rest ∧ first.isDigit = false := by
  obtain ⟨letter, more, unit, noDigit, _⟩ := exists_letter listed
  unfold fraction
  dsimp only
  split_ifs
  · exact ⟨letter, more, unit, noDigit⟩
  · exact ⟨'.', _, rfl, rfl⟩

theorem fraction_append_inj (listed : scale ∈ units) (alsoListed : other ∈ units)
    (same : fraction scale.1 amount ++ scale.2.toList = fraction other.1 otherAmount ++ other.2.toList) :
    decimals scale.1 (amount % 10 ^ scale.1) = decimals other.1 (otherAmount % 10 ^ other.1) ∧
      scale.2.toList = other.2.toList := by
  obtain ⟨letter, more, unit, noDigit, noPoint⟩ := exists_letter listed
  obtain ⟨otherLetter, otherMore, otherUnit, otherNoDigit, otherNoPoint⟩ := exists_letter alsoListed
  rw [unit, otherUnit] at same ⊢
  unfold fraction at same
  cases digits : decimals scale.1 (amount % 10 ^ scale.1) with
  | nil =>
      cases otherDigits : decimals other.1 (otherAmount % 10 ^ other.1) with
      | nil => exact ⟨rfl, by simpa [digits, otherDigits] using same⟩
      | cons =>
          rw [digits, otherDigits] at same
          exact absurd (List.cons.inj same).1 noPoint
  | cons digit rest =>
      cases otherDigits : decimals other.1 (otherAmount % 10 ^ other.1) with
      | nil =>
          rw [digits, otherDigits] at same
          exact absurd (List.cons.inj same).1.symm otherNoPoint
      | cons otherDigit otherRest =>
          rw [digits, otherDigits] at same
          have behind : (digit :: rest) ++ letter :: more =
              (otherDigit :: otherRest) ++ otherLetter :: otherMore := (List.cons.inj same).2
          refine append_cons_inj Char.isDigit ?_ ?_ noDigit otherNoDigit behind
          · exact fun c member => isDigit_of_decimals (digits ▸ member)
          · exact fun c member => isDigit_of_decimals (otherDigits ▸ member)

theorem inUnit_inj (listed : scale ∈ units) (alsoListed : other ∈ units)
    (same : inUnit scale.1 scale.2 amount = inUnit other.1 other.2 otherAmount) :
    amount = otherAmount := by
  have texts := congrArg String.toList same
  rw [toList_inUnit, toList_inUnit] at texts
  obtain ⟨first, rest, starts, noDigit⟩ := exists_fraction listed amount
  obtain ⟨otherFirst, otherRest, otherStarts, otherNoDigit⟩ := exists_fraction alsoListed otherAmount
  rw [starts, otherStarts] at texts
  obtain ⟨whole, behind⟩ := toDigits_append_inj noDigit otherNoDigit texts
  rw [← starts, ← otherStarts] at behind
  obtain ⟨digits, unit⟩ := fraction_append_inj listed alsoListed behind
  obtain rfl := units_inj listed alsoListed unit
  have size : 0 < 10 ^ scale.1 := Nat.pow_pos (by decide)
  have part := decimals_inj (Nat.mod_lt _ size) (Nat.mod_lt _ size) digits
  rw [← Nat.div_add_mod amount (10 ^ scale.1), ← Nat.div_add_mod otherAmount (10 ^ scale.1), whole, part]

theorem text_injective : Function.Injective text := by
  intro first second same
  obtain ⟨scale, listed, written⟩ := exists_unit first
  obtain ⟨other, alsoListed, alsoWritten⟩ := exists_unit second
  rw [written, alsoWritten] at same
  exact Duration.ext (inUnit_inj listed alsoListed same)

theorem isPlain_of_digits {text : List Char} (digits : ∀ c ∈ text, c.isDigit = true) : IsPlain text := by
  intro c member control
  obtain ⟨least, most⟩ := Char.isDigit_iff_toNat.mp (digits c member)
  have zero : '0'.toNat = 48 := rfl
  have nine : '9'.toNat = 57 := rfl
  unfold IsControl at control
  omega

theorem isPlain_text (span : Duration) : IsPlain span.text.toList := by
  obtain ⟨scale, listed, written⟩ := exists_unit span
  have unit : ∀ scale ∈ units, IsPlain scale.2.toList := by decide
  have point : IsPlain ['.'] := by decide
  have decimals : IsPlain (decimals scale.1 (span.nanoseconds % 10 ^ scale.1)) :=
    isPlain_of_digits fun _ => isDigit_of_decimals
  rw [written, toList_inUnit]
  refine isPlain_append.mpr ⟨isPlain_toDigits (by decide) (by decide), isPlain_append.mpr ⟨?_, unit _ listed⟩⟩
  unfold fraction
  dsimp only
  split_ifs
  · exact List.forall_mem_nil _
  · exact List.forall_mem_cons.mpr ⟨point '.' (by decide), decimals⟩

end Duration

end CommandLog
