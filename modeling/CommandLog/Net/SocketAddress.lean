/-!
Socket addresses and their text. An IPv6 address is written with its first longest run of two or more
zero groups left out, and with an IPv4 tail when it stands for an IPv4 address; reading also takes
leading zeros, capitals, any one run left out and an IPv4 tail anywhere it fits.
-/

namespace CommandLog.Net

inductive SocketAddress where
  | v4 (octets : List Nat) (port : Nat)
  | v6 (groups : List Nat) (scope : Nat) (port : Nat)
deriving DecidableEq, Repr

namespace SocketAddress

/-! Writing -/

def octetsText (octets : List Nat) : List Char :=
  ['.'].intercalate (octets.map (Nat.toDigits 10))

def groupsText (groups : List Nat) : List Char :=
  [':'].intercalate (groups.map (Nat.toDigits 16))

def zeroRuns : List Nat → List Nat
  | [] => []
  | group :: groups =>
      let runs := zeroRuns groups
      (if group = 0 then runs.headD 0 + 1 else 0) :: runs

def longestZeros (groups : List Nat) : Nat × Nat :=
  (zeroRuns groups).zipIdx.foldl
    (fun best (length, start) => if best.2 < length then (start, length) else best) (0, 0)

def addressText (groups : List Nat) : List Char :=
  match groups with
  | [0, 0, 0, 0, 0, 0xFFFF, high, low] =>
      "::ffff:".toList ++ octetsText [high / 256, high % 256, low / 256, low % 256]
  | _ =>
      let (start, length) := longestZeros groups
      if 1 < length then
        groupsText (groups.take start) ++ "::".toList ++ groupsText (groups.drop (start + length))
      else groupsText groups

def scopeText (scope : Nat) : List Char :=
  if scope = 0 then [] else '%' :: Nat.toDigits 10 scope

def text : SocketAddress → String
  | .v4 octets port => String.ofList (octetsText octets ++ ':' :: Nat.toDigits 10 port)
  | .v6 groups scope port =>
      String.ofList ('[' :: addressText groups ++ scopeText scope ++ "]:".toList ++ Nat.toDigits 10 port)

/-! Reading: each reader returns what it has read and the text behind it. -/

def digitValue (base : Nat) (c : Char) : Option Nat :=
  let value :=
    if '0' ≤ c ∧ c ≤ '9' then c.toNat - '0'.toNat
    else if 'a' ≤ c ∧ c ≤ 'f' then c.toNat - 'a'.toNat + 10
    else if 'A' ≤ c ∧ c ≤ 'F' then c.toNat - 'A'.toNat + 10
    else base
  if value < base then some value else none

def skip (c : Char) : List Char → Option (List Char)
  | first :: rest => if first = c then some rest else none
  | [] => none

def number (base limit : Nat) (input : List Char) : Option (Nat × List Char) :=
  let isDigit := fun c => (digitValue base c).isSome
  let digits := input.takeWhile isDigit
  let value := digits.foldl (fun value c => value * base + (digitValue base c).getD 0) 0
  if digits.isEmpty || limit ≤ value then none else some (value, input.dropWhile isDigit)

/-- A number of an IPv4 address: no zero before other digits. -/
def octet (input : List Char) : Option (Nat × List Char) :=
  match number 10 256 input with
  | none => none
  | some (value, rest) =>
      if input.length - rest.length = (Nat.toDigits 10 value).length then some (value, rest) else none

def octets (input : List Char) : Option (List Nat × List Char) := do
  let (first, input) ← octet input
  let (second, input) ← octet (← skip '.' input)
  let (third, input) ← octet (← skip '.' input)
  let (fourth, input) ← octet (← skip '.' input)
  return ([first, second, third, fourth], input)

def group (input : List Char) : Option (Nat × List Char) :=
  match number 16 0x10000 input with
  | none => none
  | some (value, rest) => if input.length - rest.length ≤ 4 then some (value, rest) else none

def separate (isFirst : Bool) (input : List Char) : Option (List Char) :=
  if isFirst then some input else skip ':' input

/-- As many groups as follow, at most `room`, and whether the last two came from an IPv4 tail. -/
def groups : (room : Nat) → (isFirst : Bool) → List Char → List Nat × Bool × List Char
  | 0, _, input => ([], false, input)
  | room + 1, isFirst, input =>
      let start := separate isFirst input
      match (if room = 0 then none else start.bind octets) with
      | some ([first, second, third, fourth], rest) =>
          ([first * 256 + second, third * 256 + fourth], true, rest)
      | _ =>
          match start.bind group with
          | none => ([], false, input)
          | some (value, rest) =>
              let (later, embedded, rest) := groups room false rest
              (value :: later, embedded, rest)

def address (input : List Char) : Option (List Nat × List Char) :=
  let (head, embedded, rest) := groups 8 true input
  if head.length = 8 then some (head, rest)
  else if embedded then none
  else do
    let (back, _, rest) := groups (7 - head.length) true (← skip ':' (← skip ':' rest))
    return (head ++ List.replicate (8 - head.length - back.length) 0 ++ back, rest)

def scope (input : List Char) : Nat × List Char :=
  ((skip '%' input).bind (number 10 UInt32.size)).getD (0, input)

def port (input : List Char) : Option (Nat × List Char) :=
  (skip ':' input).bind (number 10 UInt16.size)

def readV4 (input : List Char) : Option (SocketAddress × List Char) := do
  let (octets, input) ← octets input
  let (port, input) ← port input
  return (.v4 octets port, input)

def readV6 (input : List Char) : Option (SocketAddress × List Char) := do
  let (groups, input) ← address (← skip '[' input)
  let (scope, input) := scope input
  let (port, input) ← port (← skip ']' input)
  return (.v6 groups scope port, input)

def parse? (input : List Char) : Option SocketAddress :=
  match (readV4 input).or (readV6 input) with
  | some (found, []) => some found
  | _ => none

end SocketAddress

end CommandLog.Net
