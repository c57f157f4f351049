import CommandLog.CommandLine.Grammar

/-!
Numbers on a command line: decimal digits, with a plus sign before them if one likes, that fit into 64
bits and into the bounds of their parameter.
-/

namespace CommandLog.CommandLine

inductive NumberFault where
  | empty
  | invalidDigit
  | tooLarge
deriving DecidableEq, Repr

def NumberFault.message : NumberFault → String
  | .empty => "cannot parse integer from empty string"
  | .invalidDigit => "invalid digit found in string"
  | .tooLarge => "number too large to fit in target type"

def numberLimit : Nat := UInt64.size

def readDigits (value : Nat) : List Char → Except NumberFault Nat
  | [] => .ok value
  | c :: rest =>
      if !c.isDigit then .error .invalidDigit
      else
        let next := value * 10 + (c.toNat - '0'.toNat)
        if next < numberLimit then readDigits next rest else .error .tooLarge

def readNumber : List Char → Except NumberFault Nat
  | [] => .error .empty
  | ['+'] => .error .invalidDigit
  | '+' :: digits => readDigits 0 digits
  | digits => readDigits 0 digits

/-- The least and the greatest number that a parameter takes; without a greatest, any that fits. -/
structure Bounds where
  least : Nat
  greatest : Option Nat
deriving DecidableEq, Repr

namespace Bounds

def any : Bounds := ⟨0, none⟩

def admits (bounds : Bounds) (number : Nat) : Bool :=
  bounds.least ≤ number && match bounds.greatest with
    | some greatest => number ≤ greatest
    | none => number < numberLimit

def text (bounds : Bounds) : String :=
  match bounds.greatest with
  | some greatest => bounds.least.repr ++ "..=" ++ greatest.repr
  | none => bounds.least.repr ++ ".." ++ (numberLimit - 1).repr

end Bounds

def readBounded (bounds : Bounds) (raw : Bytes) : Except ValueFault Nat :=
  match Text.Utf8.decode? raw with
  | none => .error .notUtf8
  | some text =>
      match readNumber text with
      | .error fault => .error (.invalid fault.message)
      | .ok number =>
          if bounds.admits number then .ok number
          else .error (.invalid (number.repr ++ " is not in " ++ bounds.text))

end CommandLog.CommandLine
