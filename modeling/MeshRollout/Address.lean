import MeshRollout.Number.Numeral

/-!
Texts of internet addresses. Version 4 has four decimal numbers without zeros in front; version 6
has eight hexadecimal groups, of which a run may be left out once and the last two may be written as
an address of version 4.
-/
set_option autoImplicit false

namespace MeshRollout.Address

def digits? (base width : Nat) (cs : List Char) : Option (List Char × List Char) :=
  let isDigit (c : Char) : Bool :=
    ((Numeral.digitValue? c).map fun d => decide (d < base)).getD false
  let ds := cs.takeWhile isDigit
  if ds.isEmpty || ds.length > width then none else some (ds, cs.drop ds.length)

def octet? (cs : List Char) : Option (List Char) :=
  (digits? 10 3 cs).bind fun (ds, r) =>
    if (ds.length > 1 && ds.head? == some '0') || Numeral.ofDigits ds > 255 then none else some r

/-- Octets at the front, each after a point. -/
def octets? : Nat → List Char → Option (List Char)
  | 0, cs => some cs
  | n + 1, '.' :: cs => (octet? cs).bind (octets? n)
  | _, _ => none

def version4? (cs : List Char) : Option (List Char) :=
  (octet? cs).bind (octets? 3)

/-- Groups at the front, at most `limit` of them. Gives their number, whether an address of version
4 ended them, and the rest. -/
def groups : Nat → Bool → List Char → Nat × Bool × List Char
  | 0, _, cs => (0, false, cs)
  | limit + 1, first, cs =>
    let body :=
      match first, cs with
      | true, cs => some cs
      | false, ':' :: r => some r
      | false, _ => none
    match body with
    | none => (0, false, cs)
    | some r =>
      match (if limit = 0 then none else version4? r) with
      | some rest => (2, true, rest)
      | none =>
        match digits? 16 4 r with
        | none => (0, false, cs)
        | some (_, rest) =>
          let (n, closed, rest) := groups limit false rest
          (n + 1, closed, rest)

def version6? (cs : List Char) : Option (List Char) :=
  let (n, closed, rest) := groups 8 true cs
  if n = 8 then some rest
  else if closed then none
  else
    match rest with
    | ':' :: ':' :: r => some (groups (7 - n) true r).2.2
    | _ => none

def valid (s : String) : Bool :=
  match version4? s.toList with
  | some rest => rest.isEmpty
  | none => version6? s.toList == some []

end MeshRollout.Address
