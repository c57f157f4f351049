import CommandLog.Text.Terminal
import CommandLog.Text.Utf8

/-!
What a command line may hold: flags that take one value each, values that stand alone, and the two
flags that ask for help and for the version. A parameter reads its value and says what that changes in
the result. Everything that can be wrong with a command line has one line of text.
-/

namespace CommandLog.CommandLine

inductive ValueFault where
  | notUtf8
  | missing
  | invalid (reason : String)
deriving DecidableEq, Repr

structure Parameter (α : Type) where
  label : String
  description : String
  read : Bytes → Except ValueFault (α → α)

structure Grammar (α : Type) where
  about : String
  usage : String
  version : String
  flags : List (String × Parameter α)
  positionals : List (Parameter α)
  /-- Whether the help gives each description a line of its own. -/
  stacksHelp : Bool

inductive UsageError where
  | help (text : String)
  | version (text : String)
  | unknownArgument (shown : String)
  | missingValue (label : String)
  | invalidValue (label value reason : String)
  | invalidUtf8
  | unneededValue (flag value : String)
  | repeated (label : String)
  | missingArguments
deriving DecidableEq, Repr

def visible (text : String) : String := String.ofList (Text.Terminal.visible text.toList)

def UsageError.message : UsageError → String
  | .help text => text
  | .version text => text
  | .unknownArgument shown => "error: unexpected argument '" ++ visible shown ++ "' found"
  | .missingValue label => "error: a value is required for '" ++ label ++ "' but none was supplied"
  | .invalidValue label value reason =>
      "error: invalid value '" ++ visible value ++ "' for '" ++ label ++ "': " ++ reason
  | .invalidUtf8 => "error: invalid UTF-8 was detected in one or more arguments"
  | .unneededValue flag value =>
      "error: unexpected value '" ++ visible value ++ "' for '" ++ flag ++ "' found; no more were expected"
  | .repeated label => "error: the argument '" ++ label ++ "' cannot be used multiple times"
  | .missingArguments => "error: the following required arguments were not provided:"

def UsageError.isRequest : UsageError → Bool
  | .help _ | .version _ => true
  | _ => false

namespace Grammar

variable {α : Type}

def spaces (count : Nat) : String := String.ofList (List.replicate count ' ')

def helpLines (stacked : Bool) (entries : List (String × String)) : String :=
  let width := (entries.map fun (name, _) => name.length).foldl max 0
  String.join <| entries.map fun (name, description) =>
    if stacked then "  " ++ name ++ "\n          " ++ description ++ "\n"
    else "  " ++ name ++ spaces (width + 2 - name.length) ++ description ++ "\n"

def help (grammar : Grammar α) : String :=
  let arguments := grammar.positionals.map fun parameter => (parameter.label, parameter.description)
  let options := (grammar.flags.map fun (_, parameter) =>
      ("    " ++ parameter.label, parameter.description)) ++
    [("-h, --help", "Print help"), ("-V, --version", "Print version")]
  grammar.about ++ "\n\nUsage: " ++ grammar.usage ++ "\n\n" ++
    (if arguments.isEmpty then ""
      else "Arguments:\n" ++ helpLines grammar.stacksHelp arguments ++ "\n") ++
    "Options:\n" ++ helpLines grammar.stacksHelp options

end Grammar

end CommandLog.CommandLine
