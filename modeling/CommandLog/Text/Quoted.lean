import CommandLog.Text.Unprintable

/-!
Text between double quotes, fit for one line of a log: quotes and backslashes are escaped, and so is
every character that could not be seen. No control character survives, whatever the text.
-/

namespace CommandLog.Text.Quoted

def escape (c : Char) : List Char :=
  if c = '"' then ['\\', '"']
  else if c = '\\' then ['\\', '\\']
  else if c = '\t' then ['\\', 't']
  else if c = '\r' then ['\\', 'r']
  else if c = '\n' then ['\\', 'n']
  else if c = '\x00' then ['\\', '0']
  else if isUnprintable c then ['\\', 'u', '\x7b'] ++ Nat.toDigits 16 c.toNat ++ ['\x7d']
  else [c]

def encode (text : List Char) : List Char := '"' :: text.flatMap escape ++ ['"']

end CommandLog.Text.Quoted

namespace CommandLog

def quoted (text : String) : String := String.ofList (Text.Quoted.encode text.toList)

end CommandLog
