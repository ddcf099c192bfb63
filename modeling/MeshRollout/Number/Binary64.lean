/-!
Double-precision numbers as their 64 bits, with correct rounding from fractions and decimals.
Powers have their names here and below, for `^` stands for the power of a monoid once proofs bring
one into scope.
-/
set_option autoImplicit false

namespace MeshRollout

/-- A number of 64 bits: a sign, 11 bits of exponent and 52 bits of fraction. -/
structure Binary64 where
  bits : UInt64
  deriving DecidableEq, Repr

namespace Binary64

def signBit : Nat := Nat.pow 2 63

/-- The bits of infinity, which lie above those of every finite number of the same sign. -/
def infinityBits : Nat := 0x7ff0000000000000

def ofMagnitude (negative : Bool) (magnitude : Nat) : Binary64 :=
  ⟨UInt64.ofNat (if negative then signBit + magnitude else magnitude)⟩

def negative (x : Binary64) : Bool :=
  decide (signBit ≤ x.bits.toNat)

def magnitude (x : Binary64) : Nat :=
  x.bits.toNat % signBit

def isFinite (x : Binary64) : Bool :=
  decide (x.magnitude < infinityBits)

def isZero (x : Binary64) : Bool :=
  x.magnitude == 0

/-- Whole part and binary exponent: a finite number is `significand * 2 ^ exponent`. -/
def significand (x : Binary64) : Nat :=
  let e := x.magnitude / Nat.pow 2 52
  if e = 0 then x.magnitude else x.magnitude % Nat.pow 2 52 + Nat.pow 2 52

def exponent (x : Binary64) : Int :=
  let e : Nat := x.magnitude / Nat.pow 2 52
  (max e 1 : Nat) - 1075

/-- Numeric equality: the two zeros are equal. -/
def same (x y : Binary64) : Bool :=
  x.bits == y.bits || (x.isZero && y.isZero)

/-- The quotient rounded to the nearest whole number, a half to the even one. -/
def roundQuotient (num den : Nat) : Nat :=
  let q := num / den
  let r := num % den
  if 2 * r < den then q
  else if den < 2 * r then q + 1
  else q + q % 2

/-- The number nearest to `num / den`. It is a whole count of units in the last place; the unit is a
power of two and at least `2 ^ (-1074)`. -/
def ofRatio (negative : Bool) (num den : Nat) : Binary64 :=
  if num = 0 || den = 0 then ofMagnitude negative 0
  else
    let rough : Int := (Nat.log2 num : Int) - (Nat.log2 den : Int)
    let top : Int :=
      if (if rough ≥ 0 then decide (num < den * Nat.pow 2 rough.toNat)
          else decide (num * Nat.pow 2 (-rough).toNat < den))
      then rough - 1 else rough
    let unit : Int := max (top - 52) (-1074)
    let q :=
      if unit ≥ 0 then roundQuotient num (den * Nat.pow 2 unit.toNat)
      else roundQuotient (num * Nat.pow 2 (-unit).toNat) den
    let m := (unit + 1074).toNat * Nat.pow 2 52 + q
    ofMagnitude negative (min m infinityBits)

/-- The number nearest to `digits * 10 ^ exponent`. Far outside the range the answer is zero or
infinity, whatever the digits. -/
def ofDecimal (negative : Bool) (digits : Nat) (exponent : Int) : Binary64 :=
  if digits = 0 then ofMagnitude negative 0
  else
    let size : Int := (Nat.toDigits 10 digits).length + exponent
    if size > 400 then ofMagnitude negative infinityBits
    else if size < -400 then ofMagnitude negative 0
    else if exponent ≥ 0 then ofRatio negative (digits * Nat.pow 10 exponent.toNat) 1
    else ofRatio negative digits (Nat.pow 10 (-exponent).toNat)

def times (x y : Binary64) : Binary64 :=
  let e := x.exponent + y.exponent
  let m := x.significand * y.significand
  let sign := x.negative != y.negative
  if e ≥ 0 then ofRatio sign (m * Nat.pow 2 e.toNat) 1 else ofRatio sign m (Nat.pow 2 (-e).toNat)

def dividedBy (x y : Binary64) : Binary64 :=
  let e := x.exponent - y.exponent
  let sign := x.negative != y.negative
  if e ≥ 0 then ofRatio sign (x.significand * Nat.pow 2 e.toNat) y.significand
  else ofRatio sign x.significand (y.significand * Nat.pow 2 (-e).toNat)

end Binary64

end MeshRollout
