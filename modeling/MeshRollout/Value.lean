import MeshRollout.Dict
import MeshRollout.Number.Binary64

/-!
Values of documents: the common shape of YAML documents, JSON text and objects of the cluster. Whole
numbers and floating-point numbers are different values even where they denote the same number.
-/
set_option autoImplicit false

namespace MeshRollout

inductive Value where
  | null
  | bool (b : Bool)
  | int (n : Int)
  | float (x : Binary64)
  | str (s : String)
  | list (items : List Value)
  | record (fields : List (String × Value))
  deriving Repr, Inhabited

namespace Value

mutual

/-- Equality of values, where the two floating-point zeros are equal. -/
def same : Value → Value → Bool
  | .null, .null => true
  | .bool a, .bool b => a == b
  | .int m, .int n => m == n
  | .float x, .float y => x.same y
  | .str s, .str t => s == t
  | .list xs, .list ys => sameItems xs ys
  | .record fs, .record gs => sameFields fs gs
  | _, _ => false

def sameItems : List Value → List Value → Bool
  | [], [] => true
  | x :: xs, y :: ys => same x y && sameItems xs ys
  | _, _ => false

def sameFields : List (String × Value) → List (String × Value) → Bool
  | [], [] => true
  | (k, x) :: fs, (l, y) :: gs => k == l && same x y && sameFields fs gs
  | _, _ => false

end

def sameOption : Option Value → Option Value → Bool
  | none, none => true
  | some x, some y => same x y
  | _, _ => false

/-- A record with the fields that are there, given in the order of their keys. -/
def object (fields : List (String × Option Value)) : Value :=
  .record (fields.filterMap fun (k, v) => v.map fun v => (k, v))

def field (k : String) : Value → Option Value
  | .record fs => Dict.get k fs
  | _ => none

def text? : Value → Option String
  | .str s => some s
  | _ => none

def strings (xs : List String) : Value :=
  .list (xs.map .str)

def ofTexts (d : Dict String) : Value :=
  .record (d.map fun (k, s) => (k, .str s))

def nat (n : Nat) : Value :=
  .int n

end Value

end MeshRollout
