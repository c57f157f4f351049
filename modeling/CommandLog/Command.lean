import CommandLog.Failure
import CommandLog.Text.Utf8

/-!
What a line asks for. A line that starts with the seek tag moves the client's cursor, or is refused;
any other line is an entry to be written. `render` writes the line of a command.
-/

namespace CommandLog

inductive Command where
  | write (bytes : Bytes)
  | seek (index offset : Nat)
deriving DecidableEq, Repr

namespace Command

def seekTag : Bytes :=
  [65, 69, 83, 68, 67, 72, 65, 82, 95, 73, 79, 67, 83, 69, 69, 75, 84, 79, 58]

theorem seekTag_eq_encode : seekTag = Text.Utf8.encode "AESDCHAR_IOCSEEKTO:".toList := by
  decide +kernel

def wordLimit : Nat := UInt64.size

def separator : Char := ','

def isNumber (text : List Char) : Bool :=
  !text.isEmpty && text.all Char.isDigit && Nat.ofDigitChars 10 text 0 < wordLimit

def parseNumber (field : SeekField) (text : List Char) : Except SeekError Nat :=
  if isNumber text then .ok (Nat.ofDigitChars 10 text 0)
  else .error (.invalidNumber field (String.ofList text))

/-- The arguments of a seek line: what follows the tag, without the end of the line. -/
def arguments (rest : Bytes) : Bytes :=
  Bytes.dropFinal carriageReturn (Bytes.dropFinal lineFeed rest)

def parseArguments (text : List Char) : Except SeekError Command :=
  match text.dropWhile (· != separator) with
  | [] => .error (.missingSeparator (String.ofList text))
  | _ :: second => do
      let index ← parseNumber .entryIndex (text.takeWhile (· != separator))
      let offset ← parseNumber .byteOffset second
      return .seek index offset

def parse (line : Bytes) : Except SeekError Command :=
  match Bytes.dropPrefix? seekTag line with
  | none => .ok (.write line)
  | some rest =>
      match Text.Utf8.decode? (arguments rest) with
      | none => .error .notUtf8
      | some text => parseArguments text

def argumentText (index offset : Nat) : List Char :=
  Nat.toDigits 10 index ++ separator :: Nat.toDigits 10 offset

/-- The line of a command, with `ending` behind a seek. -/
def render (ending : Bytes) : Command → Bytes
  | .write bytes => bytes
  | .seek index offset => seekTag ++ Text.Utf8.encode (argumentText index offset) ++ ending

end Command

end CommandLog
