import CommandLog.Duration
import CommandLog.Text.Quoted

/-!
Why a command or an operation on the log can fail, and the text that reports it. No failure concerns
any client but the one it is reported to, and only a wait that was too long is worth another try.
-/

namespace CommandLog

inductive SeekField where
  | entryIndex
  | byteOffset
deriving DecidableEq, Repr

def SeekField.name : SeekField → String
  | .entryIndex => "entry index"
  | .byteOffset => "byte offset"

inductive SeekError where
  | missingSeparator (text : String)
  | invalidNumber (field : SeekField) (text : String)
  | notUtf8
deriving DecidableEq, Repr

inductive RangeError where
  | entry (index count : Nat)
  | byte (index offset length : Nat)
deriving DecidableEq, Repr

inductive LogError where
  | range (error : RangeError)
  | allocation (requested : Nat)
  | lockTimeout (waited : Duration)
deriving DecidableEq, Repr

inductive CommandError where
  | seek (error : SeekError)
  | log (error : LogError)
deriving DecidableEq, Repr

def SeekError.message : SeekError → String
  | .missingSeparator text => "seek arguments must be `<index>,<offset>`, got " ++ quoted text
  | .invalidNumber field text => "invalid " ++ field.name ++ " in seek command: " ++ quoted text
  | .notUtf8 => "seek arguments are not valid UTF-8"

def RangeError.message : RangeError → String
  | .entry index count =>
      "entry index " ++ index.repr ++ " out of range (" ++ count.repr ++ " entries retained)"
  | .byte index offset length =>
      "byte offset " ++ offset.repr ++ " out of range for entry " ++ index.repr ++ " of " ++
        length.repr ++ " bytes"

def LogError.message : LogError → String
  | .range error => error.message
  | .allocation requested => "could not allocate " ++ requested.repr ++ " bytes for log storage"
  | .lockTimeout waited => "timed out after " ++ waited.text ++ " waiting for the log lock"

def LogError.isRetryable : LogError → Bool
  | .lockTimeout _ => true
  | .range _ | .allocation _ => false

def CommandError.message : CommandError → String
  | .seek error => error.message
  | .log error => error.message

def CommandError.isRetryable : CommandError → Bool
  | .seek _ => false
  | .log error => error.isRetryable

end CommandLog
