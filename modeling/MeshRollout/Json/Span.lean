import MeshRollout.Json.Reader
import MeshRollout.Shape.Mismatch

/-!
Where the parts of a value stand in its JSON text. A mismatch is located where its part ends, or
where it starts if it is seen ahead.
-/
set_option autoImplicit false

namespace MeshRollout.Json

/-- What is left after one value at the front, and after a comma that may follow it. -/
def skipValue? (cs : List Char) : Option (List Char) :=
  match front cs with
  | .ok (_, r) =>
    match skipBlanks r with
    | ',' :: r => some r
    | r => some r
  | .error _ => none

/-- The value of the first field named `k` among the fields that follow. Each field takes a
character at least, which bounds `fuel`. -/
def fieldStart? (k : String) : Nat → List Char → Option (List Char)
  | 0, _ => none
  | fuel + 1, cs =>
    match skipBlanks cs with
    | '"' :: r =>
      match stringRest r with
      | .ok (l, r) =>
        match skipBlanks r with
        | ':' :: r => if k = l then some r else (skipValue? r).bind (fieldStart? k fuel)
        | _ => none
      | .error _ => none
    | _ => none

/-- The start of the part to which the moves lead, where `inside` tells whether the text starts
within a list. -/
def start? (inside : Bool) : List Step → List Char → Option (List Char)
  | [], cs => some (skipBlanks cs)
  | .field k :: p, cs =>
    match skipBlanks cs with
    | '\x7b' :: r => (fieldStart? k r.length r).bind (start? false p)
    | _ => none
  | .head :: p, cs =>
    (enter? inside cs).bind (start? false p)
  | .tail :: p, cs =>
    ((enter? inside cs).bind skipValue?).bind (start? true p)
where
  /-- The items of a list. -/
  enter? (inside : Bool) (cs : List Char) : Option (List Char) :=
    if inside then some cs
    else
      match skipBlanks cs with
      | '[' :: r => some r
      | _ => none

def locate (text : List Char) (m : Mismatch) : String :=
  match start? false m.path text with
  | none => m.message
  | some r =>
    let rest := if m.isAhead then r else ((front r).toOption.map Prod.snd).getD r
    (Place.before text rest).located m.message

end MeshRollout.Json
