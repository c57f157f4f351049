import CommandLog.CommandLine.Matching
import Mathlib.Data.List.TakeWhile

/-!
Command lines as they are matched. Flags with a value each are read from left to right, whether a value
stands on its own or behind an equals sign. Main statements: such a command line is read as its values
one after the other, and what every value keeps, every command line keeps.
-/

namespace CommandLog.CommandLine

theorem bind_eq_ok {ε α β : Type} {first : Except ε α} {next : α → Except ε β} {result : β} :
    first.bind next = .ok result ↔ ∃ value, first = .ok value ∧ next value = .ok result := by
  cases first <;> simp [Except.bind]

theorem map_eq_ok {ε α β : Type} {first : Except ε α} {change : α → β} {result : β} :
    first.map change = .ok result ↔ ∃ value, first = .ok value ∧ change value = result := by
  cases first <;> simp [Except.map]

theorem bind_congr_ok {ε α β : Type} {first : Except ε α} {next other : α → Except ε β}
    (same : ∀ value, first = .ok value → next value = other value) : first.bind next = first.bind other := by
  cases first with
  | error => rfl
  | ok value => exact same value rfl

structure Setting where
  name : String
  value : Bytes
  isJoined : Bool

def Parameter.change {α : Type} (parameter : Parameter α) (raw : Bytes) : α → α :=
  match parameter.read raw with
  | .ok change => change
  | .error _ => id

theorem Parameter.change_of_read {α : Type} {parameter : Parameter α} {raw : Bytes} {change : α → α}
    (reads : parameter.read raw = .ok change) : parameter.change raw = change := by
  rw [Parameter.change, reads]

namespace Setting

open Matching (dash equalsSign)

def flagBytes (setting : Setting) : Bytes := Text.Utf8.encode setting.name.toList

def arguments (setting : Setting) : List Bytes :=
  if setting.isJoined then [[dash, dash] ++ (setting.flagBytes ++ equalsSign :: setting.value)]
  else [[dash, dash] ++ setting.flagBytes, setting.value]

/-- What a setting needs to be matched with a parameter: the grammar has its flag, whose name is not that
of a request for help, and a value of its own does not begin like a flag. -/
structure Sets {α : Type} (grammar : Grammar α) (setting : Setting) (parameter : Parameter α) : Prop where
  listed : grammar.flags.lookup setting.name = some parameter
  notHelp : setting.name ≠ "help"
  notVersion : setting.name ≠ "version"
  named : setting.flagBytes ≠ []
  unequal : equalsSign ∉ setting.flagBytes
  apart : setting.isJoined = false → setting.value.head? ≠ some dash

end Setting

namespace Matching

variable {α : Type} {grammar : Grammar α} {state next : Matching α} {parameter : Parameter α}
variable {setting : Setting} {raw : Bytes}

theorem arguments_append (grammar : Grammar α) (state : Matching α) (first second : List Bytes) :
    arguments grammar state (first ++ second) =
      (arguments grammar state first).bind fun next => arguments grammar next second := by
  induction first generalizing state with
  | nil => rfl
  | cons raw first ih =>
      simp only [List.cons_append, arguments]
      cases argument grammar state raw with
      | error => rfl
      | ok next => exact ih next

theorem flag_listed (sets : setting.Sets grammar parameter) (attached : Option Bytes) :
    flag grammar state setting.flagBytes attached = state.resolve.bind fun next =>
      match attached with
      | some raw => next.read parameter raw
      | none => .ok { next with pending := some (parameter, none) } := by
  have name : (Text.Utf8.decode? setting.flagBytes |>.map String.ofList |>.getD (shown setting.flagBytes)) =
      setting.name := by
    simp [Setting.flagBytes, Text.Utf8.decode?_encode]
  unfold flag
  simp only [name]
  split
  · exact absurd ‹_› sets.notHelp
  · exact absurd ‹_› sets.notVersion
  · exact absurd ‹_› sets.notHelp
  · exact absurd ‹_› sets.notVersion
  · rw [sets.listed]
    rfl

theorem read_eq_ok : state.read parameter raw = .ok next ↔
    parameter.label ∉ state.seen ∧ ∃ change, parameter.read raw = .ok change ∧
      next = { state with value := change state.value, seen := state.seen ++ [parameter.label] } := by
  by_cases seen : parameter.label ∈ state.seen
  · simp [read, seen]
  · cases outcome : parameter.read raw with
    | ok change => simp [read, seen, outcome, eq_comm]
    | error fault => cases fault <;> simp [read, seen, outcome]

theorem resolve_eq_ok (resolved : state.resolve = .ok next) :
    next.pending = none ∧ next.isTrailing = state.isTrailing ∧ next.positionals = state.positionals := by
  unfold resolve at resolved
  split at resolved
  · cases resolved
    exact ⟨by assumption, rfl, rfl⟩
  · cases resolved
  · obtain ⟨_, _, _, rfl⟩ := read_eq_ok.mp resolved
    exact ⟨rfl, rfl, rfl⟩

theorem resolve_of_none (waits : state.pending = none) : state.resolve = .ok state := by
  rw [resolve, waits]

theorem argument_flag (sets : setting.Sets grammar parameter) (going : state.isTrailing = false) :
    argument grammar state ([dash, dash] ++ setting.flagBytes) = state.resolve.bind fun next =>
      .ok { next with pending := some (parameter, none) } := by
  have longer : [dash, dash] ++ setting.flagBytes ≠ [dash, dash] := by
    simpa using sets.named
  have passed : ∀ byte ∈ setting.flagBytes, (byte != equalsSign) = true := fun byte member =>
    bne_iff_ne.mpr fun same => sets.unequal (same ▸ member)
  have whole : setting.flagBytes.takeWhile (· != equalsSign) = setting.flagBytes :=
    List.takeWhile_eq_self_iff.mpr passed
  have nothing : setting.flagBytes.dropWhile (· != equalsSign) = [] :=
    List.dropWhile_eq_nil_iff.mpr passed
  simp only [argument, going, Bool.false_eq_true, ↓reduceIte, if_neg longer, Bytes.dropPrefix?_append,
    whole, nothing, flag_listed sets]

theorem argument_joined (sets : setting.Sets grammar parameter) (going : state.isTrailing = false) :
    argument grammar state ([dash, dash] ++ (setting.flagBytes ++ equalsSign :: setting.value)) =
      state.resolve.bind fun next => next.read parameter setting.value := by
  have longer : [dash, dash] ++ (setting.flagBytes ++ equalsSign :: setting.value) ≠ [dash, dash] := by
    simp
  have passed : ∀ byte ∈ setting.flagBytes, (byte != equalsSign) = true := fun byte member =>
    bne_iff_ne.mpr fun same => sets.unequal (same ▸ member)
  have stops : (equalsSign != equalsSign) = false := rfl
  simp only [argument, going, Bool.false_eq_true, ↓reduceIte, if_neg longer, Bytes.dropPrefix?_append,
    List.takeWhile_append_of_pos passed, List.dropWhile_append_of_pos passed, List.takeWhile_cons,
    List.dropWhile_cons, stops, List.append_nil, flag_listed sets]

theorem argument_value (apart : raw.head? ≠ some dash) : argument grammar state raw = state.plain raw := by
  cases raw with
  | nil => simp [argument, Bytes.dropPrefix?]
  | cons byte raw =>
      have other : dash ≠ byte := fun same => apart (congrArg some same.symm)
      simp [argument, Bytes.dropPrefix?, other, Ne.symm other]

theorem arguments_eq (sets : setting.Sets grammar parameter) (going : state.isTrailing = false) :
    arguments grammar state setting.arguments = state.resolve.bind fun next =>
      if setting.isJoined then next.read parameter setting.value
      else .ok { next with pending := some (parameter, some setting.value) } := by
  cases joined : setting.isJoined with
  | true =>
      simp only [Setting.arguments, joined, ↓reduceIte, arguments, argument_joined sets going]
      exact bind_pure _
  | false =>
      simp only [Setting.arguments, joined, Bool.false_eq_true, ↓reduceIte, arguments,
        argument_flag sets going, argument_value (sets.apart joined)]
      cases resolved : state.resolve with
      | error => rfl
      | ok next =>
          have trailing := (resolve_eq_ok resolved).2.1.trans going
          simp only [Except.bind, bind, plain, trailing]

theorem arguments_setting (sets : setting.Sets grammar parameter) (going : state.isTrailing = false) :
    (arguments grammar state setting.arguments).bind resolve =
      state.resolve.bind fun next => next.read parameter setting.value := by
  rw [arguments_eq sets going]
  refine (bind_assoc (m := Except UsageError) _ _ _).trans (bind_congr_ok fun next resolved => ?_)
  obtain ⟨waits, _⟩ := resolve_eq_ok resolved
  cases setting.isJoined with
  | true =>
      have settled (last : Matching α) (read : next.read parameter setting.value = .ok last) :
          last.resolve = .ok last := by
        obtain ⟨_, _, _, rfl⟩ := read_eq_ok.mp read
        exact resolve_of_none waits
      exact (bind_congr_ok settled).trans (bind_pure (m := Except UsageError) _)
  | false =>
      obtain ⟨value, seen, pending, positionals, isTrailing⟩ := next
      cases waits
      rfl

theorem trailing_setting (sets : setting.Sets grammar parameter) (going : state.isTrailing = false)
    (matched : arguments grammar state setting.arguments = .ok next) : next.isTrailing = false := by
  rw [arguments_eq sets going] at matched
  obtain ⟨middle, resolved, taken⟩ := bind_eq_ok.mp matched
  have trailing := (resolve_eq_ok resolved).2.1.trans going
  split at taken
  · obtain ⟨_, _, _, rfl⟩ := read_eq_ok.mp taken
    exact trailing
  · cases taken
    exact trailing

def readAll (state : Matching α) (settings : List (Setting × Parameter α)) :
    Except UsageError (Matching α) :=
  settings.foldlM (fun state setting => state.read setting.2 setting.1.value) state

theorem arguments_settings {settings : List (Setting × Parameter α)}
    (sets : ∀ setting ∈ settings, setting.1.Sets grammar setting.2) (going : state.isTrailing = false) :
    (arguments grammar state (settings.flatMap fun setting => setting.1.arguments)).bind resolve =
      state.resolve.bind fun next => next.readAll settings := by
  induction settings generalizing state with
  | nil => exact (bind_pure state.resolve).symm
  | cons setting settings ih =>
      obtain ⟨first, later⟩ := List.forall_mem_cons.mp sets
      have rest (next : Matching α) (matched : arguments grammar state setting.1.arguments = .ok next) :=
        ih later (trailing_setting first going matched)
      calc
        _ = (arguments grammar state setting.1.arguments).bind fun next =>
            (arguments grammar next (settings.flatMap fun setting => setting.1.arguments)).bind resolve := by
          rw [List.flatMap_cons, arguments_append]
          exact bind_assoc (m := Except UsageError) _ _ _
        _ = (arguments grammar state setting.1.arguments).bind fun next =>
            next.resolve.bind fun next => next.readAll settings := bind_congr_ok rest
        _ = ((arguments grammar state setting.1.arguments).bind resolve).bind fun next =>
            next.readAll settings := (bind_assoc (m := Except UsageError) _ _ _).symm
        _ = (state.resolve.bind fun next => next.read setting.2 setting.1.value).bind fun next =>
            next.readAll settings := by rw [arguments_setting first going]
        _ = state.resolve.bind fun next => next.readAll (setting :: settings) := bind_assoc (m := Except UsageError) _ _ _

theorem reads_of_readAll {settings : List (Setting × Parameter α)}
    (done : state.readAll settings = .ok next) :
    ∀ setting ∈ settings, ∃ change, setting.2.read setting.1.value = .ok change := by
  induction settings generalizing state with
  | nil => nofun
  | cons setting settings ih =>
      rw [readAll, List.foldlM_cons] at done
      obtain ⟨middle, first, rest⟩ := bind_eq_ok.mp done
      obtain ⟨_, change, reads, _⟩ := read_eq_ok.mp first
      exact List.forall_mem_cons.mpr ⟨⟨change, reads⟩, ih rest⟩

theorem readAll_of_reads {settings : List (Setting × Parameter α)}
    (reads : ∀ setting ∈ settings, ∃ change, setting.2.read setting.1.value = .ok change)
    (distinct : (settings.map fun setting => setting.2.label).Nodup)
    (unseen : ∀ setting ∈ settings, setting.2.label ∉ state.seen) :
    ∃ last, state.readAll settings = .ok last ∧
      last.value = settings.foldl (fun value setting => setting.2.change setting.1.value value) state.value ∧
      last.positionals = state.positionals := by
  induction settings generalizing state with
  | nil => exact ⟨state, rfl, rfl, rfl⟩
  | cons setting settings ih =>
      rw [List.forall_mem_cons] at reads unseen
      rw [List.map_cons, List.nodup_cons] at distinct
      obtain ⟨⟨change, reads⟩, later⟩ := reads
      let middle : Matching α := { state with
        value := change state.value
        seen := state.seen ++ [setting.2.label] }
      have first : state.read setting.2 setting.1.value = .ok middle :=
        read_eq_ok.mpr ⟨unseen.1, change, reads, rfl⟩
      have fresh : ∀ other ∈ settings, other.2.label ∉ middle.seen := by
        intro other member seen
        rcases List.mem_append.mp seen with earlier | same
        · exact unseen.2 other member earlier
        · exact distinct.1 (List.mem_map.mpr ⟨other, member, List.mem_singleton.mp same⟩)
      obtain ⟨last, done, value, positionals⟩ := ih later distinct.2 fresh
      refine ⟨last, ?_, ?_, positionals⟩
      · rw [readAll, List.foldlM_cons, first]
        exact done
      · rw [value, List.foldl_cons, Parameter.change_of_read reads]

end Matching

namespace Grammar

open Matching (readAll arguments_settings resolve_of_none reads_of_readAll readAll_of_reads)

variable {α : Type} {grammar : Grammar α} {initial : α} {settings : List (Setting × Parameter α)}

theorem parse_settings (sets : ∀ setting ∈ settings, setting.1.Sets grammar setting.2)
    (lone : grammar.positionals = []) :
    grammar.parse initial (settings.flatMap fun setting => setting.1.arguments) =
      (readAll { value := initial, positionals := [] } settings).bind fun state =>
        if state.positionals.isEmpty then .ok state.value else .error .missingArguments := by
  let start : Matching α := { value := initial, positionals := [] }
  have going : start.isTrailing = false := rfl
  have waits : start.pending = none := rfl
  have settled := arguments_settings sets going
  rw [resolve_of_none waits] at settled
  simp only [parse, lone]
  exact (bind_assoc _ _ _).symm.trans (congrArg (· >>= _) settled)

theorem parse_settings_eq_ok {result : α} (sets : ∀ setting ∈ settings, setting.1.Sets grammar setting.2)
    (lone : grammar.positionals = []) (distinct : (settings.map fun setting => setting.2.label).Nodup) :
    grammar.parse initial (settings.flatMap fun setting => setting.1.arguments) = .ok result ↔
      (∀ setting ∈ settings, ∃ change, setting.2.read setting.1.value = .ok change) ∧
        settings.foldl (fun value setting => setting.2.change setting.1.value value) initial = result := by
  let start : Matching α := { value := initial, positionals := [] }
  have unseen : ∀ setting ∈ settings, setting.2.label ∉ start.seen := fun _ _ => List.not_mem_nil
  have read (reads : ∀ setting ∈ settings, ∃ change, setting.2.read setting.1.value = .ok change) :
      grammar.parse initial (settings.flatMap fun setting => setting.1.arguments) =
        .ok (settings.foldl (fun value setting => setting.2.change setting.1.value value) initial) := by
    obtain ⟨last, done, value, positionals⟩ := readAll_of_reads reads distinct unseen
    have matched : last.positionals.isEmpty = true := congrArg List.isEmpty positionals
    rw [parse_settings sets lone, done, Except.bind, if_pos matched, value]
  constructor
  · intro parsed
    have reads : ∀ setting ∈ settings, ∃ change, setting.2.read setting.1.value = .ok change := by
      rw [parse_settings sets lone] at parsed
      obtain ⟨last, done, _⟩ := bind_eq_ok.mp parsed
      exact reads_of_readAll done
    exact ⟨reads, Except.ok.inj ((read reads).symm.trans parsed)⟩
  · rintro ⟨reads, rfl⟩
    exact read reads

end Grammar

def Grammar.Has {α : Type} (grammar : Grammar α) (parameter : Parameter α) : Prop :=
  (∃ name, (name, parameter) ∈ grammar.flags) ∨ parameter ∈ grammar.positionals

def Grammar.Keeps {α : Type} (grammar : Grammar α) (P : α → Prop) : Prop :=
  ∀ parameter, grammar.Has parameter → ∀ raw change, parameter.read raw = .ok change →
    ∀ value, P value → P (change value)

namespace Matching

variable {α : Type} {grammar : Grammar α} {state next : Matching α} {parameter : Parameter α}
variable {P : α → Prop} {raw : Bytes}

structure Within (grammar : Grammar α) (P : α → Prop) (state : Matching α) : Prop where
  holds : P state.value
  pending : ∀ waiting ∈ state.pending, grammar.Has waiting.1
  ahead : ∀ parameter ∈ state.positionals, grammar.Has parameter

theorem Within.read (within : state.Within grammar P) (keeps : grammar.Keeps P) (has : grammar.Has parameter)
    (done : state.read parameter raw = .ok next) : next.Within grammar P := by
  obtain ⟨_, change, reads, rfl⟩ := read_eq_ok.mp done
  exact ⟨keeps parameter has raw change reads state.value within.holds, within.pending, within.ahead⟩

theorem Within.resolve (within : state.Within grammar P) (keeps : grammar.Keeps P)
    (resolved : state.resolve = .ok next) : next.Within grammar P := by
  unfold Matching.resolve at resolved
  split at resolved
  · cases resolved
    exact within
  · cases resolved
  · rename_i parameter raw waiting
    have settled : Within grammar P { state with pending := none } := ⟨within.holds, nofun, within.ahead⟩
    exact settled.read keeps (within.pending _ waiting) resolved

theorem Within.plain (within : state.Within grammar P) (keeps : grammar.Keeps P)
    (taken : state.plain raw = .ok next) : next.Within grammar P := by
  unfold Matching.plain at taken
  split at taken
  · rename_i parameter waiting _
    cases taken
    have has : grammar.Has parameter := within.pending _ waiting
    exact ⟨within.holds, by simpa using has, within.ahead⟩
  · split at taken
    · cases taken
    · rename_i parameter positionals ahead
      obtain ⟨middle, resolved, taken⟩ := bind_eq_ok.mp taken
      cases taken
      have settled := within.resolve keeps resolved
      have all := within.ahead
      rw [ahead, List.forall_mem_cons] at all
      exact ⟨settled.holds, by simpa using all.1, all.2⟩

theorem request_ne_ok (state : Matching α) (answer : UsageError) : state.request answer ≠ .ok next := by
  intro answered
  obtain ⟨_, _, refused⟩ := bind_eq_ok.mp answered
  cases refused

theorem Within.flag {name : Bytes} {attached : Option Bytes} (within : state.Within grammar P)
    (keeps : grammar.Keeps P) (taken : flag grammar state name attached = .ok next) :
    next.Within grammar P := by
  simp only [Matching.flag] at taken
  split at taken
  · exact absurd taken (request_ne_ok state _)
  · exact absurd taken (request_ne_ok state _)
  · cases taken
  · cases taken
  · split at taken
    · cases taken
    · rename_i parameter listed
      obtain ⟨_, _, flags, _⟩ := List.lookup_eq_some_iff.mp listed
      have has : grammar.Has parameter := Or.inl ⟨_, flags ▸ List.mem_append_right _ List.mem_cons_self⟩
      obtain ⟨middle, resolved, taken⟩ := bind_eq_ok.mp taken
      have settled := within.resolve keeps resolved
      split at taken
      · exact settled.read keeps has taken
      · cases taken
        exact ⟨settled.holds, by simpa using has, settled.ahead⟩

theorem letters_ne_ok (grammar : Grammar α) (state : Matching α) (bytes : Bytes) :
    letters grammar state bytes ≠ .ok next := by
  simp only [letters]
  split
  · exact request_ne_ok state _
  · exact request_ne_ok state _
  · nofun
  · nofun

theorem Within.argument (within : state.Within grammar P) (keeps : grammar.Keeps P)
    (taken : argument grammar state raw = .ok next) : next.Within grammar P := by
  unfold Matching.argument at taken
  split at taken
  · exact within.plain keeps taken
  · split at taken
    · cases taken
      exact ⟨within.holds, within.pending, within.ahead⟩
    · split at taken
      · exact within.flag keeps taken
      · split at taken
        · exact within.plain keeps taken
        · exact within.plain keeps taken
        · exact absurd taken (letters_ne_ok grammar state _)

theorem Within.arguments {all : List Bytes} (within : state.Within grammar P) (keeps : grammar.Keeps P)
    (taken : arguments grammar state all = .ok next) : next.Within grammar P := by
  induction all generalizing state with
  | nil =>
      cases taken
      exact within
  | cons raw all ih =>
      obtain ⟨middle, first, rest⟩ := bind_eq_ok.mp taken
      exact ih (within.argument keeps first) rest

end Matching

theorem Grammar.parse_keeps {α : Type} {grammar : Grammar α} {P : α → Prop} {initial result : α}
    {arguments : List Bytes} (keeps : grammar.Keeps P) (holds : P initial)
    (parsed : grammar.parse initial arguments = .ok result) : P result := by
  have start : Matching.Within grammar P { value := initial, positionals := grammar.positionals } :=
    ⟨holds, nofun, fun _ => Or.inr⟩
  obtain ⟨state, matched, parsed⟩ := bind_eq_ok.mp parsed
  obtain ⟨last, resolved, parsed⟩ := bind_eq_ok.mp parsed
  split at parsed
  · cases parsed
    exact ((start.arguments keeps matched).resolve keeps resolved).holds
  · cases parsed

end CommandLog.CommandLine
