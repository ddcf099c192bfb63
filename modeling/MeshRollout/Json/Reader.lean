import MeshRollout.Json.Number
import MeshRollout.Json.Quoted

/-!
Reading JSON text. A later field replaces an earlier one of the same name.
-/
set_option autoImplicit false

namespace MeshRollout.Json

def word : List Char → List Char → Except Stop (List Char)
  | [], cs => .ok cs
  | _ :: _, [] => fail .endInValue []
  | w :: ws, c :: r => if c = w then word ws r else fail .noWord r

def constant (v : Value) (rest : String) (cs : List Char) : Except Stop (Value × List Char) := do
  let r ← word rest.toList cs
  return (v, r)

mutual

/-- A value of at most `depth` levels of lists and records. Each step takes a character at least,
and `fuel` allows two steps for each. -/
def value : Nat → Nat → List Char → Except Stop (Value × List Char)
  | 0, _, cs => refuse .tooDeep cs
  | fuel + 1, depth, cs =>
    match skipBlanks cs with
    | [] => refuse .endInValue []
    | 'n' :: r => constant .null "ull" r
    | 't' :: r => constant (.bool true) "rue" r
    | 'f' :: r => constant (.bool false) "alse" r
    | '"' :: r => do
      let (s, r) ← stringRest r
      return (.str s, r)
    | '-' :: r => number true r
    | '[' :: r =>
      if depth = 0 then refuse .tooDeep ('[' :: r)
      else
        match skipBlanks r with
        | [] => refuse .endInList []
        | ']' :: r => return (.list [], r)
        | r => do
          let (vs, r) ← items fuel (depth - 1) r
          return (.list vs, r)
    | '{' :: r =>
      if depth = 0 then refuse .tooDeep ('{' :: r)
      else
        match skipBlanks r with
        | [] => refuse .endInRecord []
        | '}' :: r => return (.record [], r)
        | r => do
          let (fs, r) ← fields fuel (depth - 1) r
          return (.record (Dict.ofList fs), r)
    | c :: r => if Numeral.isDigit c then number false (c :: r) else refuse .noValue (c :: r)

def items : Nat → Nat → List Char → Except Stop (List Value × List Char)
  | 0, _, cs => refuse .tooDeep cs
  | fuel + 1, depth, cs => do
    let (v, r) ← value fuel depth cs
    match skipBlanks r with
    | [] => refuse .endInList []
    | ']' :: r => return ([v], r)
    | ',' :: r =>
      match skipBlanks r with
      | [] => refuse .endInValue []
      | ']' :: r => refuse .trailingComma (']' :: r)
      | r => do
        let (vs, r) ← items fuel depth r
        return (v :: vs, r)
    | r => refuse .noCommaInList r

def fields : Nat → Nat → List Char → Except Stop (List (String × Value) × List Char)
  | 0, _, cs => refuse .tooDeep cs
  | fuel + 1, depth, cs =>
    match cs with
    | '"' :: r => do
      let (k, r) ← stringRest r
      match skipBlanks r with
      | [] => refuse .endInRecord []
      | ':' :: r => do
        let (v, r) ← value fuel depth r
        match skipBlanks r with
        | [] => refuse .endInRecord []
        | '}' :: r => return ([(k, v)], r)
        | ',' :: r =>
          match skipBlanks r with
          | [] => refuse .endInValue []
          | '}' :: r => refuse .trailingComma ('}' :: r)
          | r => do
            let (fs, r) ← fields fuel depth r
            return ((k, v) :: fs, r)
        | r => refuse .noCommaInRecord r
      | r => refuse .noColon r
    | cs => refuse .keyNotText cs

end

def maxDepth : Nat := 127

def front (cs : List Char) : Except Stop (Value × List Char) :=
  value (2 * cs.length + 2) maxDepth cs

def whole (cs : List Char) : Except Stop Value := do
  let (v, r) ← front cs
  match skipBlanks r with
  | [] => return v
  | r => refuse .trailing r

def read? (s : String) : Option Value :=
  (whole s.toList).toOption

end MeshRollout.Json
