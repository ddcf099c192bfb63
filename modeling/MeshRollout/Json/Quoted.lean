import MeshRollout.Json.Fault
import MeshRollout.Number.Numeral

/-!
Strings of JSON: a backslash starts an escape, and controls must be escaped.
-/
set_option autoImplicit false

namespace MeshRollout.Json

def lettered? (c : Char) : Option Char :=
  match c with
  | '"' => some '"'
  | '\\' => some '\\'
  | '/' => some '/'
  | 'b' => some '\x08'
  | 'f' => some '\x0c'
  | 'n' => some '\n'
  | 'r' => some '\r'
  | 't' => some '\t'
  | _ => none

def hexUnit : List Char → Except Stop (Nat × List Char)
  | a :: b :: c :: d :: r =>
    match Numeral.digits? 16 [a, b, c, d] with
    | some n => .ok (n, r)
    | none => fail .badEscape r
  | _ => fail .endInString []

/-- The mark of the escape that has to follow a leading surrogate. -/
def escapeMark : List Char → Except Stop (List Char)
  | [] => fail .endInString []
  | '\\' :: [] => fail .endInString []
  | '\\' :: 'u' :: r => .ok r
  | '\\' :: _ :: r => fail .cutEscape r
  | _ :: r => fail .cutEscape r

/-- What follows the mark of a numbered escape: one unit, or a leading and a trailing surrogate. -/
def numbered (cs : List Char) : Except Stop (Char × List Char) := do
  let (n, r) ← hexUnit cs
  if 0xDC00 ≤ n && n < 0xE000 then fail .loneSurrogate r
  else if 0xD800 ≤ n && n < 0xDC00 then do
    let r ← escapeMark r
    let (m, r) ← hexUnit r
    if 0xDC00 ≤ m && m < 0xE000 then
      return (Char.ofNat (0x10000 + (n - 0xD800) * 0x400 + (m - 0xDC00)), r)
    else fail .loneSurrogate r
  else return (Char.ofNat n, r)

/-- The rest of a string after its opening quotation mark, gathered in reverse in `acc`. Each step
takes a character at least, which bounds `fuel`. -/
def stringFrom : Nat → List Char → List Char → Except Stop (String × List Char)
  | 0, _, cs => fail .endInString cs
  | fuel + 1, acc, cs =>
    match cs with
    | [] => fail .endInString []
    | '"' :: r => .ok (String.ofList acc.reverse, r)
    | '\\' :: [] => fail .endInString []
    | '\\' :: 'u' :: r => do
      let (c, r) ← numbered r
      stringFrom fuel (c :: acc) r
    | '\\' :: e :: r =>
      match lettered? e with
      | some c => stringFrom fuel (c :: acc) r
      | none => fail .badEscape r
    | c :: r => if c.toNat < 0x20 then fail .control r else stringFrom fuel (c :: acc) r

def stringRest (cs : List Char) : Except Stop (String × List Char) :=
  stringFrom (cs.length + 1) [] cs

end MeshRollout.Json
