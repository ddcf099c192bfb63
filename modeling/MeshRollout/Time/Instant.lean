import MeshRollout.Number.Numeral
import MeshRollout.Text.Blank
import MeshRollout.Time.Calendar

/-!
Instants and their text. Reading follows RFC 3339 loosely: blanks may stand between the parts, a
blank may stand for the letter between date and time, and the offset may be named `UTC`. Written
text is in UTC.
-/
set_option autoImplicit false

namespace MeshRollout
open Calendar

/-- Seconds since 1970 and a fraction. During a leap second the fraction counts on beyond a second.
-/
structure Instant where
  seconds : Int
  nanos : Nat
  deriving DecidableEq, Repr, Inhabited

inductive InstantError where
  | tooShort
  | invalid
  | outOfRange
  | impossible
  | tooLong
  deriving DecidableEq, Repr

def InstantError.message : InstantError → String
  | .tooShort => "premature end of input"
  | .invalid => "input contains invalid characters"
  | .outOfRange => "input is out of range"
  | .impossible => "no possible date and time matching input"
  | .tooLong => "trailing input"

namespace Instant

def digits (width : Nat) (cs : List Char) : Except InstantError (Nat × List Char) :=
  match cs with
  | [] => .error .tooShort
  | _ =>
    let ds := (cs.take width).takeWhile Numeral.isDigit
    if ds.isEmpty then .error .invalid
    else
      let n := Numeral.ofDigits ds
      if n < Nat.pow 2 63 then .ok (n, cs.drop ds.length) else .error .outOfRange

/-- A number of one or two digits between `least` and `most`, with blanks in front. -/
def pair (least most : Nat) (cs : List Char) : Except InstantError (Nat × List Char) := do
  let (n, r) ← digits 2 (Text.trimStart cs)
  if least ≤ n && n ≤ most then pure (n, r) else throw .outOfRange

/-- A year of up to four digits, or one of any length after a sign. -/
def year (cs : List Char) : Except InstantError (Int × List Char) := do
  let (n, r) ← (match Text.trimStart cs with
    | '-' :: r => (digits r.length r).map fun (n, r) => (-(n : Int), r)
    | '+' :: r => (digits r.length r).map fun (n, r) => ((n : Int), r)
    | r => (digits 4 r).map fun (n, r) => ((n : Int), r))
  if -(Int.pow 2 31) ≤ n && n < Int.pow 2 31 then pure (n, r) else throw .outOfRange

def mark (c : Char) (cs : List Char) : Except InstantError (List Char) :=
  match Text.trimStart cs with
  | [] => .error .tooShort
  | d :: r => if d = c then .ok r else .error .invalid

/-- The digits after a point as billionths; digits after the ninth do not count. -/
def fraction (cs : List Char) : Except InstantError (Nat × List Char) :=
  match cs with
  | '.' :: r => do
    let (n, rest) ← digits 9 r
    let used := r.length - rest.length
    pure (n * Nat.pow 10 (9 - used), rest.dropWhile Numeral.isDigit)
  | r => .ok (0, r)

def byteLength (cs : List Char) : Nat :=
  cs.foldl (fun n c => n + c.utf8Size) 0

def twoDigits (cs : List Char) : Except InstantError (Nat × Nat × List Char) :=
  if byteLength cs < 2 then .error .tooShort
  else
    match cs with
    | a :: b :: r =>
      if Numeral.isDigit a && Numeral.isDigit b then
        .ok (a.toNat - '0'.toNat, b.toNat - '0'.toNat, r)
      else .error .invalid
    | _ => .error .invalid

def offset (cs : List Char) : Except InstantError (Int × List Char) := do
  let named := (cs.take 3).map Char.toUpper == ['U', 'T', 'C']
  if named then return (0, cs.drop 3)
  match cs with
  | [] => throw .tooShort
  | c :: r =>
    if c = 'Z' || c = 'z' then return (0, r)
    let negative := c = '-' || c = '\u2212'
    if !negative && c ≠ '+' then throw .invalid
    let (h1, h2, r) ← twoDigits r
    let (m1, m2, r) ← twoDigits (r.dropWhile fun c => c = ':' || Text.isBlank c)
    if m1 > 5 then throw .outOfRange
    let n : Int := ((h1 * 10 + h2) * 3600 + (m1 * 10 + m2) * 60 : Nat)
    return (if negative then -n else n, r)

def ofParts (d : Date) (hour minute second nanos : Nat) (offset : Int) :
    Except InstantError Instant := do
  if !d.valid then throw .outOfRange
  if offset.natAbs ≥ 86400 then throw .outOfRange
  let leap := second == 60
  let local_ : Int := d.toDays * 86400 + (hour * 3600 + minute * 60 : Nat)
    + (if leap then 59 else second : Nat)
  let seconds := local_ - offset
  let first := (Date.mk firstYear 1 1).toDays * 86400
  let afterLast := (Date.mk (lastYear + 1) 1 1).toDays * 86400
  if seconds < first || afterLast ≤ seconds then throw .impossible
  return ⟨seconds, if leap then nanos + 1000000000 else nanos⟩

def read (s : String) : Except InstantError Instant := do
  let (y, r) ← year s.toList
  let (m, r) ← pair 1 12 (← mark '-' r)
  let (d, r) ← pair 1 31 (← mark '-' r)
  let r ← (match r with
    | [] => .error .tooShort
    | c :: r => if c = 't' || c = 'T' || c = ' ' then .ok r else .error .invalid)
  let (hour, r) ← pair 0 23 r
  let (minute, r) ← pair 0 59 (← mark ':' r)
  let (second, r) ← pair 0 60 (← mark ':' r)
  let (nanos, r) ← fraction r
  let (off, r) ← offset (Text.trimStart r)
  if !(Text.trimStart r).isEmpty then throw .tooLong
  ofParts ⟨y, m, d⟩ hour minute second nanos off

def padded (width n : Nat) : String :=
  let ds := Nat.toDigits 10 n
  String.ofList (List.replicate (width - ds.length) '0' ++ ds)

/-- Years outside of four digits carry a sign. -/
def yearText (y : Int) : String :=
  if 0 ≤ y && y ≤ 9999 then padded 4 y.toNat
  else (if y < 0 then "-" else "+") ++ padded 4 y.natAbs

def wholeText (t : Instant) : String :=
  let d := Date.ofDays (t.seconds / 86400)
  let s := (t.seconds % 86400).toNat
  let second := if t.nanos ≥ 1000000000 then s % 60 + 1 else s % 60
  yearText d.year ++ "-" ++ padded 2 d.month ++ "-" ++ padded 2 d.day ++ "T"
    ++ padded 2 (s / 3600) ++ ":" ++ padded 2 (s / 60 % 60) ++ ":" ++ padded 2 second

def secondsText (t : Instant) : String :=
  t.wholeText ++ "Z"

/-- Text with as many digits of the fraction as it needs, in groups of three. -/
def text (t : Instant) : String :=
  let n := t.nanos % 1000000000
  let frac :=
    if n = 0 then ""
    else if n % 1000000 = 0 then "." ++ padded 3 (n / 1000000)
    else if n % 1000 = 0 then "." ++ padded 6 (n / 1000)
    else "." ++ padded 9 n
  t.wholeText ++ frac ++ "Z"

end Instant

end MeshRollout
