/-!
Spans of time, counted in nanoseconds, and their text: a decimal in the largest unit that is not
above the span, as short as it can be written exactly. A clock tells moments, up to a last one.
-/

namespace CommandLog

/-- A span has fewer seconds than 64 bits can count. -/
def Duration.limit : Nat := UInt64.size * 1000000000

@[ext]
structure Duration where
  nanoseconds : Nat
  isBelow : nanoseconds < Duration.limit
deriving DecidableEq, Repr

namespace Duration

def longest : Duration := ⟨limit - 1, by decide⟩

/-- So many nanoseconds, or the longest span when they are more than it has. -/
def ofNanoseconds (count : Nat) : Duration where
  nanoseconds := min count longest.nanoseconds
  isBelow := Nat.lt_of_le_of_lt (Nat.min_le_right ..) longest.isBelow

def ofMicroseconds (count : Nat) : Duration := .ofNanoseconds (count * 1000)

def ofMilliseconds (count : Nat) : Duration := .ofNanoseconds (count * 1000000)

def ofSeconds (count : Nat) : Duration := .ofNanoseconds (count * 1000000000)

def milliseconds (span : Duration) : Nat := span.nanoseconds / 1000000

theorem nanoseconds_ofNanoseconds {count : Nat} (below : count < limit) :
    (ofNanoseconds count).nanoseconds = count :=
  Nat.min_eq_left (Nat.le_sub_one_of_lt below)

theorem milliseconds_ofMilliseconds {count : Nat} (below : count < UInt64.size) :
    (ofMilliseconds count).milliseconds = count := by
  have inside : count * 1000000 < limit := by
    simp only [limit, UInt64.size] at below ⊢
    omega
  rw [milliseconds, ofMilliseconds, nanoseconds_ofNanoseconds inside]
  omega

/-- The `places` decimals of `part`, without the zeros at their end. -/
def decimals (places part : Nat) : List Char :=
  let digits := Nat.toDigits 10 part
  let padded := List.replicate (places - digits.length) '0' ++ digits
  (padded.reverse.dropWhile (· == '0')).reverse

def inUnit (places : Nat) (unit : String) (amount : Nat) : String :=
  let size := Nat.pow 10 places
  let fraction := decimals places (amount % size)
  let point := if fraction.isEmpty then [] else '.' :: fraction
  String.ofList (Nat.toDigits 10 (amount / size) ++ point) ++ unit

def text (span : Duration) : String :=
  let amount := span.nanoseconds
  if 1000000000 ≤ amount then inUnit 9 "s" amount
  else if 1000000 ≤ amount then inUnit 6 "ms" amount
  else if 1000 ≤ amount then inUnit 3 "µs" amount
  else inUnit 0 "ns" amount

end Duration

namespace Clock

/-- A clock counts its seconds in 64 bits, one of them for the sign. -/
def limit : Nat := UInt64.size / 2 * 1000000000

def later? (moment : Nat) (span : Duration) : Option Nat :=
  let later := moment + span.nanoseconds
  if later < limit then some later else none

def overflow : String := "overflow when adding duration to instant"

variable {moment : Nat} {span : Duration}

theorem later?_of_lt (told : moment + span.nanoseconds < limit) :
    later? moment span = some (moment + span.nanoseconds) :=
  if_pos told

theorem later?_of_le (beyond : limit ≤ moment + span.nanoseconds) : later? moment span = none :=
  if_neg (Nat.not_lt.mpr beyond)

end Clock

end CommandLog
