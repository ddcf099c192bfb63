import MeshRollout.Number.Binary64

/-!
The shortest decimal that reads back as a given number, and its text. Decimals between two halfway
points around a number are nearer to it than to any other; the ends count when the number is even.
-/
set_option autoImplicit false

namespace MeshRollout

structure Decimal where
  digits : Nat
  exponent : Int
  deriving DecidableEq, Repr

namespace Binary64

def ratioLt (a b c d : Nat) : Bool :=
  decide (a * d < c * b)

/-- The numbers that round to `x` as two fractions over one denominator, with `x` itself between
them: lower end, value, upper end, denominator. -/
def interval (x : Binary64) : Nat × Nat × Nat × Nat :=
  let m := x.significand
  let e := x.exponent
  let narrow := m == Nat.pow 2 52 && decide (e > -1074)
  let lower := if narrow then 4 * m - 1 else 4 * m - 2
  let up := if e ≥ 2 then Nat.pow 2 (e - 2).toNat else 1
  let down := if e ≥ 2 then 1 else Nat.pow 2 (2 - e).toNat
  (lower * up, 4 * m * up, (4 * m + 2) * up, down)

def readsAs (x : Binary64) (d : Decimal) : Bool :=
  let (lo, _, hi, den) := x.interval
  let num := if d.exponent ≥ 0 then d.digits * Nat.pow 10 d.exponent.toNat else d.digits
  let scale := if d.exponent ≥ 0 then 1 else Nat.pow 10 (-d.exponent).toNat
  if x.significand % 2 == 0 then
    !ratioLt num scale lo den && !ratioLt hi den num scale
  else
    ratioLt lo den num scale && ratioLt num scale hi den

/-- The two neighbours of `x` on the decimal grid of the given exponent, the nearer one first. -/
def neighbours (x : Binary64) (exponent : Int) : Decimal × Decimal :=
  let (_, v, _, den) := x.interval
  let num := if exponent ≥ 0 then v else v * Nat.pow 10 (-exponent).toNat
  let scale := if exponent ≥ 0 then den * Nat.pow 10 exponent.toNat else den
  let q := num / scale
  let r := num % scale
  if 2 * r < scale || (2 * r == scale && q % 2 == 0) then (⟨q, exponent⟩, ⟨q + 1, exponent⟩)
  else (⟨q + 1, exponent⟩, ⟨q, exponent⟩)

def leadingExponent (x : Binary64) : Int :=
  let (_, v, _, den) := x.interval
  let guess : Int := (Nat.toDigits 10 v).length - (Nat.toDigits 10 den).length
  let below := if guess ≥ 0 then ratioLt v den (Nat.pow 10 guess.toNat) 1
    else ratioLt v den 1 (Nat.pow 10 (-guess).toNat)
  if below then guess - 1 else guess

def shortestFrom (x : Binary64) (top : Int) : Nat → Nat → Decimal
  | 0, count => (x.neighbours (top - count)).1
  | fuel + 1, count =>
    let (near, far) := x.neighbours (top - count)
    if x.readsAs near then near
    else if x.readsAs far then far
    else shortestFrom x top fuel (count + 1)

/-- The shortest decimal that rounds to `x`; among those of one length the nearest. -/
def shortest (x : Binary64) : Decimal :=
  if x.isZero then ⟨0, 0⟩ else shortestFrom x x.leadingExponent 17 0

/-- Digits without the zeros at their end, and the exponent that belongs to them. -/
def trimZeros : Nat → Decimal → Decimal
  | 0, d => d
  | fuel + 1, d =>
    if d.digits % 10 == 0 && d.digits != 0 then trimZeros fuel ⟨d.digits / 10, d.exponent + 1⟩
    else d

/-- The text of a finite number: positional from 10⁻⁵ up to below 10¹⁶, with a digit after the
point; otherwise with an exponent that carries its sign. -/
def text (x : Binary64) : String :=
  let d := trimZeros 20 x.shortest
  let digits := Nat.toDigits 10 d.digits
  let point : Int := digits.length + d.exponent
  let zeros (n : Int) : List Char := List.replicate n.toNat '0'
  let body : List Char :=
    if x.isZero then ['0', '.', '0']
    else if 0 < point && point ≤ 16 then
      if d.exponent ≥ 0 then digits ++ zeros d.exponent ++ ['.', '0']
      else digits.take point.toNat ++ ['.'] ++ digits.drop point.toNat
    else if -5 < point && point ≤ 0 then
      ['0', '.'] ++ zeros (-point) ++ digits
    else
      let lead := digits.take 1 ++ (if digits.length > 1 then '.' :: digits.drop 1 else [])
      let e := point - 1
      lead ++ ['e', if e ≥ 0 then '+' else '-'] ++ Nat.toDigits 10 e.natAbs
  String.ofList (if x.negative then '-' :: body else body)

end Binary64

end MeshRollout
