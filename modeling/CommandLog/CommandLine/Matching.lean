import CommandLog.CommandLine.Grammar

/-!
Matching arguments against a grammar, from left to right. A value is read as late as possible: when
the next flag or value begins, or at the end. An argument that fits nowhere is therefore reported
before a bad value just ahead of it, and a bad value before any help that is asked for behind it.
-/

namespace CommandLog.CommandLine

structure Matching (α : Type) where
  value : α
  seen : List String := []
  pending : Option (Parameter α × Option Bytes) := none
  positionals : List (Parameter α)
  /-- Behind `--` no argument is a flag. -/
  isTrailing : Bool := false

namespace Matching

variable {α : Type}

def shown (bytes : Bytes) : String := String.ofList (Text.Utf8.lossy bytes)

def read (state : Matching α) (parameter : Parameter α) (raw : Bytes) :
    Except UsageError (Matching α) :=
  if state.seen.contains parameter.label then .error (.repeated parameter.label)
  else match parameter.read raw with
    | .ok change =>
        .ok { state with value := change state.value, seen := state.seen ++ [parameter.label] }
    | .error .notUtf8 => .error .invalidUtf8
    | .error .missing => .error (.missingValue parameter.label)
    | .error (.invalid reason) => .error (.invalidValue parameter.label (shown raw) reason)

def resolve (state : Matching α) : Except UsageError (Matching α) :=
  match state.pending with
  | none => .ok state
  | some (parameter, none) => .error (.missingValue parameter.label)
  | some (parameter, some raw) => { state with pending := none }.read parameter raw

def request (state : Matching α) (answer : UsageError) : Except UsageError (Matching α) :=
  state.resolve.bind fun _ => .error answer

def flag (grammar : Grammar α) (state : Matching α) (name : Bytes) (attached : Option Bytes) :
    Except UsageError (Matching α) :=
  let name := Text.Utf8.decode? name |>.map String.ofList |>.getD (shown name)
  match name, attached with
  | "help", none => state.request (.help grammar.help)
  | "version", none => state.request (.version grammar.version)
  | "help", some value => .error (.unneededValue "--help" (shown value))
  | "version", some value => .error (.unneededValue "--version" (shown value))
  | _, _ =>
      match grammar.flags.lookup name with
      | none => .error (.unknownArgument ("--" ++ name))
      | some parameter => do
          let state ← state.resolve
          match attached with
          | some raw => state.read parameter raw
          | none => return { state with pending := some (parameter, none) }

/-- Letters behind one dash. The first of them decides, because no letter takes a value. -/
def letters (grammar : Grammar α) (state : Matching α) (bytes : Bytes) :
    Except UsageError (Matching α) :=
  let whole := Text.Utf8.within (Text.Utf8.continuation (bytes.headD 0)) (bytes.drop 1)
  match Text.Utf8.decode? (bytes.take 1 ++ whole) with
  | some ['h'] => state.request (.help grammar.help)
  | some ['V'] => state.request (.version grammar.version)
  | some text => .error (.unknownArgument ("-" ++ String.ofList text))
  | none => .error (.unknownArgument ("-" ++ shown bytes))

def plain (state : Matching α) (raw : Bytes) : Except UsageError (Matching α) :=
  match state.pending, state.isTrailing with
  | some (parameter, none), false => .ok { state with pending := some (parameter, some raw) }
  | _, _ =>
      match state.positionals with
      | [] => .error (.unknownArgument (shown raw))
      | parameter :: positionals => do
          let state ← state.resolve
          return { state with pending := some (parameter, some raw), positionals }

def dash : UInt8 := 45

def equalsSign : UInt8 := 61

def argument (grammar : Grammar α) (state : Matching α) (raw : Bytes) :
    Except UsageError (Matching α) :=
  if state.isTrailing then state.plain raw
  else if raw = [dash, dash] then .ok { state with isTrailing := true }
  else match Bytes.dropPrefix? [dash, dash] raw with
    | some rest =>
        let attached := match rest.dropWhile (· != equalsSign) with
          | [] => none
          | _ :: value => some value
        flag grammar state (rest.takeWhile (· != equalsSign)) attached
    | none =>
        match Bytes.dropPrefix? [dash] raw with
        | none | some [] => state.plain raw
        | some bytes => letters grammar state bytes

def arguments (grammar : Grammar α) (state : Matching α) :
    List Bytes → Except UsageError (Matching α)
  | [] => .ok state
  | raw :: rest => do arguments grammar (← argument grammar state raw) rest

end Matching

namespace Grammar

variable {α : Type}

def parse (grammar : Grammar α) (initial : α) (arguments : List Bytes) : Except UsageError α := do
  let start : Matching α := { value := initial, positionals := grammar.positionals }
  let state ← (← Matching.arguments grammar start arguments).resolve
  if state.positionals.isEmpty then return state.value
  else throw .missingArguments

end Grammar

end CommandLog.CommandLine
