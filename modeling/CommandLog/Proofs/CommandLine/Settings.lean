import CommandLog.Proofs.Command.Grammar
import CommandLog.Proofs.CommandLine.Flags
import CommandLog.Server
import Mathlib.Data.List.Nodup

/-!
The five numbers that the command line of a server can give. Main statement: a command line with some
of them, each once and in any order, is accepted just when every number is within the bounds of its
flag; the settings then are the default settings but for the numbers that are given; and whatever
command line is accepted, a server can be made from its settings.
-/

namespace CommandLog.CommandLine

theorem le_ofDigitChars (text : List Char) (value : Nat) : value ≤ Nat.ofDigitChars 10 text value := by
  rw [Nat.ofDigitChars_eq_ofDigitChars_zero]
  exact Nat.le_add_right_of_le (Nat.le_mul_of_pos_left value (Nat.pow_pos (by decide)))

theorem readDigits_of_digits {text : List Char} {value : Nat} (digits : ∀ c ∈ text, c.isDigit = true)
    (fits : value < numberLimit) : readDigits value text =
      if Nat.ofDigitChars 10 text value < numberLimit then .ok (Nat.ofDigitChars 10 text value)
      else .error .tooLarge := by
  induction text generalizing value with
  | nil => simp only [readDigits, Nat.ofDigitChars_nil, if_pos fits]
  | cons c text ih =>
      rw [List.forall_mem_cons] at digits
      have next : value * 10 + (c.toNat - '0'.toNat) = 10 * value + (c.toNat - '0'.toNat) := by
        rw [Nat.mul_comm]
      simp only [readDigits, digits.1, Bool.not_true, Bool.false_eq_true, ↓reduceIte, next,
        Nat.ofDigitChars_cons]
      by_cases more : 10 * value + (c.toNat - '0'.toNat) < numberLimit
      · rw [if_pos more, ih digits.2 more]
      · have grown := le_ofDigitChars text (10 * value + (c.toNat - '0'.toNat))
        rw [if_neg more, if_neg (by omega)]

theorem readNumber_of_digits {text : List Char} (filled : text ≠ [])
    (digits : ∀ c ∈ text, c.isDigit = true) : readNumber text = readDigits 0 text := by
  cases text with
  | nil => exact absurd rfl filled
  | cons c text =>
      have unsigned : c ≠ '+' := by
        rintro rfl
        exact absurd (digits '+' List.mem_cons_self) (by decide)
      unfold readNumber
      split <;> simp_all

theorem Bounds.admits_some {least greatest number : Nat} :
    (Bounds.mk least (some greatest)).admits number = true ↔ least ≤ number ∧ number ≤ greatest := by
  simp [Bounds.admits]

theorem Bounds.admits_none {least number : Nat} :
    (Bounds.mk least none).admits number = true ↔ least ≤ number ∧ number < numberLimit := by
  simp [Bounds.admits]

theorem readBounded_numeral {raw : Bytes} {bounds : Bounds} {value number : Nat}
    (numeral : Numeral raw value) : readBounded bounds raw = .ok number ↔
      value = number ∧ value < numberLimit ∧ bounds.admits value = true := by
  obtain ⟨text, rfl, filled, digits, rfl⟩ := numeral.exists_digits
  have none : 0 < numberLimit := by decide
  simp only [readBounded, Text.Utf8.decode?_encode, readNumber_of_digits filled digits,
    readDigits_of_digits digits none]
  by_cases fits : Nat.ofDigitChars 10 text 0 < numberLimit
  · by_cases admitted : bounds.admits (Nat.ofDigitChars 10 text 0) = true
    · simp [fits, admitted]
    · simp [fits, admitted]
  · simp [fits]

theorem admits_of_readBounded {raw : Bytes} {bounds : Bounds} {number : Nat}
    (read : readBounded bounds raw = .ok number) : bounds.admits number = true := by
  unfold readBounded at read
  split at read
  · cases read
  · split at read
    · cases read
    · split at read
      · cases read
        assumption
      · cases read

theorem head?_numeral {raw : Bytes} {value : Nat} (numeral : Numeral raw value) :
    ∃ digit < 10, raw.head? = some (.ofNat (48 + digit)) := by
  induction numeral with
  | @digit digit small => exact ⟨digit, small, rfl⟩
  | @append raw _ _ _ _ ih =>
      obtain ⟨digit, small, first⟩ := ih
      exact ⟨digit, small, by rw [List.head?_append, first, Option.some_or]⟩

theorem head?_numeral_ne_dash {raw : Bytes} {value : Nat} (numeral : Numeral raw value) :
    raw.head? ≠ some Matching.dash := by
  have apart : ∀ digit < 10, some (UInt8.ofNat (48 + digit)) ≠ some Matching.dash := by decide
  obtain ⟨digit, small, first⟩ := head?_numeral numeral
  exact first ▸ apart digit small

end CommandLog.CommandLine

namespace CommandLog

open CommandLine
open Text.Utf8 (encode)

namespace Options

inductive Flag where
  | capacity
  | readBuffer
  | reapInterval
  | lockTimeout
  | shutdownGrace
deriving DecidableEq, Repr

namespace Flag

def name : Flag → String
  | .capacity => "capacity"
  | .readBuffer => "read-buffer"
  | .reapInterval => "reap-interval-ms"
  | .lockTimeout => "lock-timeout-ms"
  | .shutdownGrace => "shutdown-grace-ms"

def Admits (value : Nat) : Flag → Prop
  | .capacity => 1 ≤ value ∧ value ≤ 2 ^ 20
  | .readBuffer => 1 ≤ value ∧ value ≤ 2 ^ 24
  | .reapInterval => 1 ≤ value ∧ value ≤ 2 ^ 64 - 1
  | .lockTimeout | .shutdownGrace => value ≤ 2 ^ 64 - 1

instance (value : Nat) : (flag : Flag) → Decidable (flag.Admits value)
  | .capacity | .readBuffer | .reapInterval => inferInstanceAs (Decidable (_ ∧ _))
  | .lockTimeout | .shutdownGrace => inferInstanceAs (Decidable (_ ≤ _))

def Value : Flag → Type
  | .capacity | .readBuffer => Nat
  | .reapInterval | .lockTimeout | .shutdownGrace => Duration

/-- What a number means as the value of a flag: a count, or so many milliseconds. -/
def amount (number : Nat) : (flag : Flag) → flag.Value
  | .capacity | .readBuffer => number
  | .reapInterval | .lockTimeout | .shutdownGrace => Duration.ofMilliseconds number

def field (settings : Settings) : (flag : Flag) → flag.Value
  | .capacity => settings.capacity
  | .readBuffer => settings.readBuffer
  | .reapInterval => settings.reapInterval
  | .lockTimeout => settings.lockTimeout
  | .shutdownGrace => settings.shutdownGrace

def get (options : Options) : Flag → Nat
  | .capacity => options.capacity
  | .readBuffer => options.readBuffer
  | .reapInterval => options.reapInterval
  | .lockTimeout => options.lockTimeout
  | .shutdownGrace => options.shutdownGrace

def put (number : Nat) (options : Options) : Flag → Options
  | .capacity => { options with capacity := number }
  | .readBuffer => { options with readBuffer := number }
  | .reapInterval => { options with reapInterval := number }
  | .lockTimeout => { options with lockTimeout := number }
  | .shutdownGrace => { options with shutdownGrace := number }

def bounds : Flag → Bounds
  | .capacity => capacityBounds
  | .readBuffer => readBufferBounds
  | .reapInterval => reapIntervalBounds
  | .lockTimeout | .shutdownGrace => .any

def parameter (flag : Flag) : Parameter Options :=
  (grammar.flags.lookup flag.name).getD ⟨"", "", fun _ => .error .missing⟩

variable {flag other : Flag} {value : Nat} {options : Options}

theorem amount_inj {first second : Nat} (below : first < 2 ^ 64) (alsoBelow : second < 2 ^ 64)
    (same : flag.amount first = flag.amount second) : first = second := by
  cases flag with
  | capacity | readBuffer => exact same
  | reapInterval | lockTimeout | shutdownGrace =>
      have spans : Duration.ofMilliseconds first = .ofMilliseconds second := same
      rw [← Duration.milliseconds_ofMilliseconds below, spans,
        Duration.milliseconds_ofMilliseconds alsoBelow]

theorem lookup_name : grammar.flags.lookup flag.name = some flag.parameter := by
  cases flag <;> rfl

theorem read_parameter (raw : Bytes) : flag.parameter.read raw =
    (readBounded flag.bounds raw).map fun number options => flag.put number options := by
  cases flag <;> rfl

theorem read_eq_ok {raw : Bytes} {change : Options → Options} :
    flag.parameter.read raw = .ok change ↔ ∃ number, readBounded flag.bounds raw = .ok number ∧
      (fun options => flag.put number options) = change := by
  rw [read_parameter]
  exact map_eq_ok

theorem label_injective (same : flag.parameter.label = other.parameter.label) : flag = other := by
  cases flag <;> cases other <;> first | rfl | exact absurd same (by decide)

theorem get_put_same : flag.get (flag.put value options) = value := by
  cases flag <;> rfl

theorem get_put_other (apart : flag ≠ other) : flag.get (other.put value options) = flag.get options := by
  cases flag <;> cases other <;> first | rfl | exact absurd rfl apart

theorem field_settings : flag.field options.settings = flag.amount (flag.get options) := by
  cases flag <;> rfl

theorem field_initial : flag.field initial.settings = flag.field {} := by
  cases flag <;> rfl

theorem admits_iff : flag.bounds.admits value = true ↔ flag.Admits value := by
  have limit : numberLimit = 2 ^ 64 := rfl
  have capacity : maxCapacity = 2 ^ 20 := rfl
  have readBuffer : maxReadBuffer = 2 ^ 24 := rfl
  cases flag <;>
    simp only [bounds, capacityBounds, readBufferBounds, reapIntervalBounds, Bounds.any, Bounds.admits_some,
      Bounds.admits_none, Admits] <;>
    omega

theorem Admits.lt_numberLimit (admitted : flag.Admits value) : value < numberLimit := by
  have limit : numberLimit = 2 ^ 64 := rfl
  cases flag <;> simp only [Admits] at admitted <;> omega

end Flag

/-- A flag with a numeral as its value, behind it or joined to it by an equals sign. -/
structure Given where
  flag : Flag
  digits : Bytes
  value : Nat
  numeral : Numeral digits value
  isJoined : Bool

namespace Given

def ofText (flag : Flag) (text : List Char) (digits : text ≠ [] ∧ text.all Char.isDigit = true)
    (isJoined : Bool) : Given where
  flag := flag
  digits := encode text
  value := Nat.ofDigitChars 10 text 0
  numeral := .of_digits digits.1 (List.all_eq_true.mp digits.2)
  isJoined := isJoined

def setting (given : Given) : Setting := ⟨given.flag.name, given.digits, given.isJoined⟩

def arguments (given : Given) : List Bytes := given.setting.arguments

theorem sets (given : Given) : given.setting.Sets grammar given.flag.parameter where
  listed := Flag.lookup_name
  notHelp := by
    change given.flag.name ≠ _
    cases given.flag <;> decide
  notVersion := by
    change given.flag.name ≠ _
    cases given.flag <;> decide
  named := by
    change encode given.flag.name.toList ≠ []
    cases given.flag <;> decide
  unequal := by
    change _ ∉ encode given.flag.name.toList
    cases given.flag <;> decide
  apart := fun _ => head?_numeral_ne_dash given.numeral

theorem readBounded_iff (given : Given) {number : Nat} :
    readBounded given.flag.bounds given.setting.value = .ok number ↔
      given.value = number ∧ given.flag.Admits given.value := by
  refine (readBounded_numeral given.numeral).trans (and_congr_right fun _ => ?_)
  rw [Flag.admits_iff]
  exact and_iff_right_of_imp Flag.Admits.lt_numberLimit

theorem reads_iff (given : Given) :
    (∃ change, given.flag.parameter.read given.setting.value = .ok change) ↔
      given.flag.Admits given.value := by
  simp only [Flag.read_eq_ok, readBounded_iff]
  constructor
  · rintro ⟨_, _, ⟨-, admitted⟩, -⟩
    exact admitted
  · exact fun admitted => ⟨_, _, ⟨rfl, admitted⟩, rfl⟩

def apply (options : Options) (given : Given) : Options := given.flag.put given.value options

theorem change_eq {given : Given} (admitted : given.flag.Admits given.value) (options : Options) :
    given.flag.parameter.change given.setting.value options = apply options given := by
  have read : given.flag.parameter.read given.setting.value = .ok fun options => apply options given :=
    Flag.read_eq_ok.mpr ⟨given.value, given.readBounded_iff.mpr ⟨rfl, admitted⟩, rfl⟩
  rw [Parameter.change_of_read read]

variable {given : List Given} {options : Options} {flag : Flag}

theorem get_foldl_of_notMem (absent : flag ∉ given.map Given.flag) :
    flag.get (given.foldl apply options) = flag.get options := by
  induction given generalizing options with
  | nil => rfl
  | cons first given ih =>
      rw [List.map_cons, List.mem_cons, not_or] at absent
      rw [List.foldl_cons, ih absent.2, apply, Flag.get_put_other absent.1]

theorem get_foldl_of_mem (distinct : (given.map Given.flag).Nodup) :
    ∀ number ∈ given, number.flag.get (given.foldl apply options) = number.value := by
  induction given generalizing options with
  | nil => nofun
  | cons first given ih =>
      rw [List.map_cons, List.nodup_cons] at distinct
      refine List.forall_mem_cons.mpr ⟨?_, ih distinct.2⟩
      rw [List.foldl_cons, get_foldl_of_notMem distinct.1, apply, Flag.get_put_same]

end Given

variable {given : List Given} {options : Options} {flag : Flag}

theorem parse_eq_ok (distinct : (given.map Given.flag).Nodup) :
    parse (given.flatMap Given.arguments) = .ok options ↔
      (∀ number ∈ given, number.flag.Admits number.value) ∧
        given.foldl Given.apply initial = options := by
  let settings := given.map fun number => (number.setting, number.flag.parameter)
  have sets : ∀ setting ∈ settings, setting.1.Sets grammar setting.2 :=
    List.forall_mem_map.mpr fun number _ => number.sets
  have labels : (settings.map fun setting => setting.2.label).Nodup := by
    have injective : Function.Injective fun flag : Flag => flag.parameter.label :=
      fun _ _ same => Flag.label_injective same
    have mapped := List.Nodup.map injective distinct
    rw [List.map_map] at mapped ⊢
    exact mapped
  have arguments : (settings.flatMap fun setting => setting.1.arguments) = given.flatMap Given.arguments :=
    List.flatMap_map _ _ _
  have parsed : parse (settings.flatMap fun setting => setting.1.arguments) = .ok options ↔
      (∀ setting ∈ settings, ∃ change, setting.2.read setting.1.value = .ok change) ∧
        settings.foldl (fun options setting => setting.2.change setting.1.value options) initial = options :=
    Grammar.parse_settings_eq_ok sets rfl labels
  rw [arguments, List.forall_mem_map, List.foldl_map] at parsed
  simp only [Given.reads_iff] at parsed
  refine parsed.trans (and_congr_right fun admitted => Eq.congr_left ?_)
  exact List.foldl_ext _ _ _ fun options number member => Given.change_eq (admitted number member) options

def WithinBounds (options : Options) : Prop := ∀ flag : Flag, flag.Admits (flag.get options)

theorem withinBounds_initial : initial.WithinBounds := by
  intro flag
  cases flag <;> decide

theorem WithinBounds.put {number : Nat} (within : options.WithinBounds) (admitted : flag.Admits number) :
    (flag.put number options).WithinBounds := by
  intro other
  by_cases same : other = flag
  · rw [same, Flag.get_put_same]
    exact admitted
  · rw [Flag.get_put_other same]
    exact within other

theorem keeps_withinBounds : grammar.Keeps WithinBounds := by
  have number (flag : Flag) (raw : Bytes) (change : Options → Options)
      (read : flag.parameter.read raw = .ok change) (options : Options) (within : options.WithinBounds) :
      (change options).WithinBounds := by
    obtain ⟨number, found, rfl⟩ := Flag.read_eq_ok.mp read
    exact within.put (Flag.admits_iff.mp (admits_of_readBounded found))
  rintro parameter (⟨name, member⟩ | member)
  · simp only [grammar, List.mem_cons, Prod.mk.injEq, List.not_mem_nil, or_false] at member
    rcases member with ⟨-, rfl⟩ | ⟨-, rfl⟩ | ⟨-, rfl⟩ | ⟨-, rfl⟩ | ⟨-, rfl⟩ | ⟨-, rfl⟩
    · intro raw change read options within flag
      obtain ⟨address, _, rfl⟩ := map_eq_ok.mp read
      exact within flag
    · exact number .capacity
    · exact number .readBuffer
    · exact number .reapInterval
    · exact number .lockTimeout
    · exact number .shutdownGrace
  · cases member

theorem ofSettings_isOk {arguments : List Bytes} (parsed : parse arguments = .ok options) :
    ∃ server, Server.ofSettings options.settings = .ok server := by
  have within : options.WithinBounds := Grammar.parse_keeps keeps_withinBounds withinBounds_initial parsed
  have filled : options.capacity ≠ 0 := Nat.one_le_iff_ne_zero.mp (within .capacity).1
  have log : Log.ofCapacity options.settings.capacity = .ok (Ring.empty options.capacity) := if_neg filled
  exact ⟨_, by rw [Server.ofSettings, log, Except.map]⟩

/-- Numbers for some of the flags are accepted when each is within its bounds, and the settings are as
they say and otherwise the default ones; no two numbers of 64 bits make the same setting. Whatever the
arguments are, when they are accepted there is a server for them. -/
theorem parse_given (given : List Given) (distinct : (given.map Given.flag).Nodup) :
    ((∃ options, parse (given.flatMap Given.arguments) = .ok options) ↔
      ∀ number ∈ given, number.flag.Admits number.value) ∧
    (∀ options, parse (given.flatMap Given.arguments) = .ok options →
      (∀ number ∈ given, number.flag.field options.settings = number.flag.amount number.value) ∧
      ∀ flag ∉ given.map Given.flag, flag.field options.settings = flag.field {}) ∧
    (∀ (flag : Flag) first second, first < 2 ^ 64 → second < 2 ^ 64 →
      flag.amount first = flag.amount second → first = second) ∧
    ∀ arguments options, parse arguments = .ok options →
      ∃ server, Server.ofSettings options.settings = .ok server := by
  refine ⟨?_, ?_, fun _ _ _ => Flag.amount_inj, fun _ _ => ofSettings_isOk⟩
  · constructor
    · rintro ⟨options, parsed⟩
      exact ((parse_eq_ok distinct).mp parsed).1
    · intro admitted
      exact ⟨_, (parse_eq_ok distinct).mpr ⟨admitted, rfl⟩⟩
  · intro options parsed
    obtain ⟨_, rfl⟩ := (parse_eq_ok distinct).mp parsed
    constructor
    · intro number member
      rw [Flag.field_settings, Given.get_foldl_of_mem distinct number member]
    · intro flag absent
      rw [Flag.field_settings, Given.get_foldl_of_notMem absent, ← Flag.field_settings, Flag.field_initial]

theorem parse_given_at_bounds :
    [Flag.shutdownGrace, .capacity].Nodup ∧
    (∃ options,
      parse (["--shutdown-grace-ms=0", "--capacity", "001048576"].map (encode ·.toList)) = .ok options ∧
      options.settings.capacity = 2 ^ 20 ∧ options.settings.shutdownGrace = .ofMilliseconds 0 ∧
      options.settings.lockTimeout = .ofSeconds 5) ∧
    ¬ ∃ options, parse (["--capacity", "1048577"].map (encode ·.toList)) = .ok options := by
  let grace := Given.ofText .shutdownGrace "0".toList (by decide) true
  let largest := Given.ofText .capacity "001048576".toList (by decide) false
  let larger := Given.ofText .capacity "1048577".toList (by decide) false
  have arguments : [grace, largest].flatMap Given.arguments =
      ["--shutdown-grace-ms=0", "--capacity", "001048576"].map (encode ·.toList) := by decide
  have beyond : [larger].flatMap Given.arguments =
      ["--capacity", "1048577"].map (encode ·.toList) := by decide
  have distinct : [Flag.shutdownGrace, .capacity].Nodup := by decide
  obtain ⟨accepted, exact, _⟩ := parse_given [grace, largest] distinct
  obtain ⟨refused, _⟩ := parse_given [larger] (List.nodup_singleton _)
  refine ⟨distinct, ?_, ?_⟩
  · obtain ⟨options, parsed⟩ := accepted.mpr (by decide)
    obtain ⟨values, defaults⟩ := exact options parsed
    rw [arguments] at parsed
    exact ⟨options, parsed, values largest (by simp), values grace (by simp),
      defaults .lockTimeout (by decide)⟩
  · rw [← beyond, refused]
    exact fun admitted => absurd (admitted larger List.mem_cons_self) (by decide)

end Options

end CommandLog
