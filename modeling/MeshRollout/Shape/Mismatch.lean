import MeshRollout.Text.Quoted
import MeshRollout.Number.Shortest
import MeshRollout.Text.Split
import MeshRollout.Time.Instant
import MeshRollout.Value

/-!
Why a value does not have the shape that its reader asks for.
-/
set_option autoImplicit false

namespace MeshRollout

/-- A move from a value to one of its parts: to a field of a record, to the first item of a list, or
to the items after it. -/
inductive Step where
  | field (k : String)
  | head
  | tail
  deriving DecidableEq, Repr

inductive Mismatch where
  | missing (name : String)
  | duplicate (name : String)
  | unknownVariant (given : String) (known : List String)
  | wrongType (found : Value) (expected : String)
  | outOfRange (n : Int) (expected : String)
  | notOneKey
  | bareVariant
  | wrongLength (n : Nat) (expected : String)
  | badInstant (e : InstantError)
  | under (s : Step) (m : Mismatch)
  deriving Repr

namespace Mismatch

def ticked (s : String) : String :=
  "`" ++ s ++ "`"

def alternatives : List String → String
  | [] => "there are no variants"
  | [a] => "expected " ++ ticked a
  | [a, b] => "expected " ++ ticked a ++ " or " ++ ticked b
  | names => "expected one of " ++ Text.joinWith ", " (names.map ticked)

/-- A value named by its kind, with its content where that is short. -/
def found : Value → String
  | .null => "null"
  | .bool b => "boolean " ++ ticked (if b then "true" else "false")
  | .int n => "integer " ++ ticked (toString n)
  | .float x => "floating point " ++ ticked x.text
  | .str s => "string " ++ Text.quoted s
  | .list _ => "sequence"
  | .record _ => "map"

def message : Mismatch → String
  | .missing name => "missing field " ++ ticked name
  | .duplicate name => "duplicate field " ++ ticked name
  | .unknownVariant given known =>
    "unknown variant " ++ ticked given ++ ", " ++ alternatives known
  | .wrongType v expected => "invalid type: " ++ found v ++ ", expected " ++ expected
  | .outOfRange n expected =>
    "invalid value: integer " ++ ticked (toString n) ++ ", expected " ++ expected
  | .notOneKey => "invalid value: map, expected map with a single key"
  | .bareVariant => "invalid type: unit variant, expected newtype variant"
  | .wrongLength n expected => "invalid length " ++ toString n ++ ", expected " ++ expected
  | .badInstant e => e.message
  | .under _ m => m.message

def path : Mismatch → List Step
  | .under s m => s :: m.path
  | _ => []

/-- Whether a list or a record stands where something else should, which is seen before it is read.
-/
def isAhead : Mismatch → Bool
  | .under _ m => m.isAhead
  | .wrongType (.list _) _ => true
  | .wrongType (.record _) _ => true
  | _ => false

end Mismatch

end MeshRollout
