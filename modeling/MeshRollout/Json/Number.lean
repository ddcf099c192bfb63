import MeshRollout.Json.Fault
import MeshRollout.Number.Numeral
import MeshRollout.Value

/-!
Numbers of JSON. Whole numbers of 64 bits stay exact, and larger ones turn into floating-point
numbers.
-/
set_option autoImplicit false

namespace MeshRollout.Json

/-- The significand gathered so far, the power of ten that belongs to it, and whether a digit did
not fit any more. -/
structure Significand where
  value : Nat
  exponent : Int
  full : Bool

namespace Significand

/-- Takes one digit; after the first one that does not fit in 64 bits no digit is kept. -/
def push (fraction : Bool) (s : Significand) (c : Char) : Significand :=
  let v := s.value * 10 + (c.toNat - '0'.toNat)
  if s.full || Nat.pow 2 64 ≤ v then
    { s with full := true, exponent := if fraction then s.exponent else s.exponent + 1 }
  else if fraction then { s with value := v, exponent := s.exponent - 1 }
  else { s with value := v }

/-- Significand times a power of ten in two roundings, in steps of at most `10 ^ 308`. -/
def scale : Nat → Binary64 → Int → Option Binary64
  | 0, x, _ => some x
  | fuel + 1, x, e =>
    let power (n : Nat) := Binary64.ofDecimal false 1 n
    if x.isZero then some x
    else if e > 308 then none
    else if e ≥ 0 then
      let y := x.times (power e.toNat)
      if y.isFinite then some y else none
    else if e < -308 then scale fuel (x.dividedBy (power 308)) (e + 308)
    else some (x.dividedBy (power (-e).toNat))

def float? (negative : Bool) (s : Significand) (exponent : Int) : Option Value :=
  let e := if exponent > 100000 then 100000 else if exponent < -100000 then -100000 else exponent
  (scale 400 (Binary64.ofRatio false s.value 1) (s.exponent + e)).map fun x =>
    .float (Binary64.ofMagnitude negative x.magnitude)

/-- A whole number that has no fraction and no exponent. -/
def whole? (negative : Bool) (s : Significand) : Option Value :=
  if s.full then s.float? negative 0
  else if !negative then some (.int s.value)
  else if s.value = 0 || s.value > Nat.pow 2 63 then s.float? true 0
  else some (.int (-(s.value : Int)))

end Significand

def exponent (cs : List Char) : Except Stop (Int × List Char) :=
  let (negative, cs) :=
    match cs with
    | '+' :: r => (false, r)
    | '-' :: r => (true, r)
    | cs => (false, cs)
  let (digits, r) := Numeral.spanDigits cs
  match digits, r with
  | [], [] => fail .endInValue []
  | [], _ :: r => fail .badNumber r
  | digits, r =>
    let n : Int := Numeral.ofDigits digits
    .ok (if negative then -n else n, r)

def inRange (v : Option Value) (r : List Char) : Except Stop (Value × List Char) :=
  match v with
  | some v => .ok (v, r)
  | none => fail .tooLarge r

def finish (negative fraction : Bool) (s : Significand) (cs : List Char) :
    Except Stop (Value × List Char) :=
  let ended := inRange (if fraction then s.float? negative 0 else s.whole? negative) cs
  match cs with
  | c :: r =>
    if c = 'e' || c = 'E' then do
      let (e, r) ← exponent r
      inRange (s.float? negative e) r
    else ended
  | [] => ended

def fraction (negative : Bool) (s : Significand) (cs : List Char) :
    Except Stop (Value × List Char) :=
  let (digits, r) := Numeral.spanDigits cs
  match digits, r with
  | [], [] => refuse .endInValue []
  | [], r => refuse .badNumber r
  | digits, r => finish negative true (digits.foldl (Significand.push true) s) r

def number (negative : Bool) (cs : List Char) : Except Stop (Value × List Char) :=
  let (digits, r) := Numeral.spanDigits cs
  match digits, cs with
  | [], [] => fail .endInValue []
  | [], _ :: r => fail .badNumber r
  | '0' :: _ :: _, cs => refuse .badNumber (cs.drop 1)
  | digits, _ =>
    let s := digits.foldl (Significand.push false) ⟨0, 0, false⟩
    match r with
    | '.' :: r => fraction negative s r
    | r => finish negative false s r

end MeshRollout.Json
