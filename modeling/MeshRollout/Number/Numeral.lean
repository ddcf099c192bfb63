import MeshRollout.Number.Binary64

/-!
Reading numerals: whole numbers with an optional sign in a given base, and decimal numerals with a
fraction and an exponent.
-/
set_option autoImplicit false

namespace MeshRollout.Numeral

def isDigit (c : Char) : Bool :=
  '0' ≤ c && c ≤ '9'

def digitValue? (c : Char) : Option Nat :=
  if '0' ≤ c && c ≤ '9' then some (c.toNat - '0'.toNat)
  else if 'a' ≤ c && c ≤ 'z' then some (c.toNat - 'a'.toNat + 10)
  else if 'A' ≤ c && c ≤ 'Z' then some (c.toNat - 'A'.toNat + 10)
  else none

def digitsFrom? (base acc : Nat) : List Char → Option Nat
  | [] => some acc
  | c :: r =>
    match digitValue? c with
    | some d => if d < base then digitsFrom? base (acc * base + d) r else none
    | none => none

def digits? (base : Nat) : List Char → Option Nat
  | [] => none
  | cs => digitsFrom? base 0 cs

def signed? (base : Nat) : List Char → Option Int
  | '+' :: r => (digits? base r).map fun n => (n : Int)
  | '-' :: r => (digits? base r).map fun n => -(n : Int)
  | cs => (digits? base cs).map fun n => (n : Int)

def unsigned? (base : Nat) : List Char → Option Nat
  | '+' :: r => digits? base r
  | cs => digits? base cs

def int64? (base : Nat) (cs : List Char) : Option Int :=
  (signed? base cs).filter fun n => decide (-(Int.pow 2 63) ≤ n) && decide (n < Int.pow 2 63)

def nat64? (cs : List Char) : Option Nat :=
  (unsigned? 10 cs).filter fun n => decide (n < Nat.pow 2 64)

/-- The digits in front of something else, and the rest. -/
def spanDigits (cs : List Char) : List Char × List Char :=
  (cs.takeWhile isDigit, cs.dropWhile isDigit)

def ofDigits (cs : List Char) : Nat :=
  (digitsFrom? 10 0 cs).getD 0

/-- An exponent mark with its digits, up to the end of the text. -/
def exponent? : List Char → Option Int
  | [] => some 0
  | c :: r => if c = 'e' || c = 'E' then signed? 10 r else none

/-- A decimal numeral without its sign: digits with a point before, between or after them, and an
optional exponent. -/
def magnitude? (negative : Bool) (cs : List Char) : Option Binary64 :=
  let (whole, r) := spanDigits cs
  let (frac, r) :=
    match r with
    | '.' :: r => spanDigits r
    | r => ([], r)
  if whole.isEmpty && frac.isEmpty then none
  else (exponent? r).map fun e =>
    Binary64.ofDecimal negative (ofDigits (whole ++ frac)) (e - frac.length)

def binary64? : List Char → Option Binary64
  | '+' :: r => magnitude? false r
  | '-' :: r => magnitude? true r
  | cs => magnitude? false cs

end MeshRollout.Numeral
