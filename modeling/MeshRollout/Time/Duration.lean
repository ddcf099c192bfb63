import MeshRollout.Number.Numeral
import MeshRollout.Text.Blank

/-!
Durations as a sequence of numbers with units, such as `1m30s`. They are written back as whole
seconds, or in milliseconds if seconds are too coarse. Sums stop at the longest duration.
-/
set_option autoImplicit false

namespace MeshRollout

structure Duration where
  seconds : Nat
  nanos : Nat
  deriving DecidableEq, Repr

inductive DurationError where
  | empty
  | noNumber
  | tooLarge
  | noUnit
  | badUnit (unit : String)
  | zero
  deriving DecidableEq, Repr

def DurationError.message (input : String) : DurationError → String
  | .empty => "empty duration"
  | .noNumber => about ++ "expected a number"
  | .tooLarge => about ++ "number out of range"
  | .noUnit => about ++ "missing unit"
  | .badUnit unit => about ++ "unknown unit '" ++ unit ++ "', expected h, m, s or ms"
  | .zero => about ++ "must be positive"
where
  about : String := "invalid duration '" ++ input ++ "': "

namespace Duration

def maxSeconds : Nat := Nat.pow 2 64 - 1

def longest : Duration := ⟨maxSeconds, 999999999⟩

def ofSeconds (n : Nat) : Duration := ⟨min n maxSeconds, 0⟩

def ofMillis (n : Nat) : Duration := ⟨n / 1000, n % 1000 * 1000000⟩

def add (a b : Duration) : Duration :=
  let nanos := a.nanos + b.nanos
  let seconds := a.seconds + b.seconds + nanos / 1000000000
  if seconds > maxSeconds then longest else ⟨seconds, nanos % 1000000000⟩

def millis (d : Duration) : Nat :=
  d.seconds * 1000 + d.nanos / 1000000

def isLetter (c : Char) : Bool :=
  ('a' ≤ c && c ≤ 'z') || ('A' ≤ c && c ≤ 'Z')

def ofUnit (n : Nat) (unit : List Char) : Except DurationError Duration :=
  if unit = ['h'] then .ok (ofSeconds (n * 3600))
  else if unit = ['m'] then .ok (ofSeconds (n * 60))
  else if unit = ['s'] then .ok (ofSeconds n)
  else if unit = ['m', 's'] then .ok (ofMillis n)
  else if unit = [] then .error .noUnit
  else .error (.badUnit (String.ofList unit))

def component (cs : List Char) : Except DurationError (Duration × List Char) := do
  let (digits, rest) := Numeral.spanDigits cs
  if digits.isEmpty then throw .noNumber
  let n := Numeral.ofDigits digits
  if n ≥ Nat.pow 2 64 then throw .tooLarge
  let d ← ofUnit n (rest.takeWhile isLetter)
  pure (d, rest.dropWhile isLetter)

/-- The sum of the components. Each takes at least one character, which bounds `fuel`. -/
def sum : Nat → Duration → List Char → Except DurationError Duration
  | _, total, [] => .ok total
  | 0, total, _ => .ok total
  | fuel + 1, total, cs => do
    let (d, rest) ← component cs
    sum fuel (total.add d) rest

def readTrimmed (cs : List Char) : Except DurationError Duration := do
  if cs.isEmpty then throw .empty
  let total ← sum cs.length ⟨0, 0⟩ cs
  if total = ⟨0, 0⟩ then throw .zero
  pure total

def read (s : String) : Except DurationError Duration :=
  readTrimmed (Text.trim s.toList)

def text (d : Duration) : String :=
  if d.nanos = 0 then toString d.seconds ++ "s" else toString d.millis ++ "ms"

def normalize (s : String) : Except DurationError String :=
  (read s).map text

def errorMessage (s : String) (e : DurationError) : String :=
  e.message (String.ofList (Text.trim s.toList))

end Duration

end MeshRollout
