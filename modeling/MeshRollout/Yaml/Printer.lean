import MeshRollout.Number.Shortest
import MeshRollout.Value
import MeshRollout.Yaml.Writing

/-!
Values as YAML documents in block style. The fields of a record stand one below the other; the items
of a list under a field stand as far left as the field itself.
-/
set_option autoImplicit false

namespace MeshRollout.Yaml

/-- The most bytes of a key that stands before its colon; a longer one has a line of its own. -/
def maxSimpleKey : Nat := 128

def isSimpleKey (k : String) : Bool :=
  k.utf8ByteSize ≤ maxSimpleKey && !k.toList.any isBreakMark

def realText (x : Binary64) : String :=
  if x.isFinite then x.text
  else if x.magnitude = Binary64.infinityBits then (if x.negative then "-.inf" else ".inf")
  else ".nan"

def leafText (n : Nat) : Value → List Char
  | .null => "null\n".toList
  | .bool b => (if b then "true\n" else "false\n").toList
  | .int i => (toString i ++ "\n").toList
  | .float x => (realText x ++ "\n").toList
  | .str s => scalarText n s
  | .list _ => "[]\n".toList
  | .record _ => "\x7b\x7d\n".toList

mutual

/-- A value that starts on a line already begun, `n` characters from the left. -/
def nodeText (n : Nat) : Value → List Char
  | .list (v :: vs) => itemsText n (v :: vs)
  | .record (f :: fs) => fieldsText n (f :: fs)
  | v => leafText n v

def itemsText (n : Nat) : List Value → List Char
  | [] => []
  | [v] => '-' :: ' ' :: nodeText (n + 2) v
  | v :: vs => '-' :: ' ' :: nodeText (n + 2) v ++ spaces n ++ itemsText n vs

def contentText (n : Nat) : Value → List Char
  | .list (v :: vs) => '\n' :: spaces n ++ itemsText n (v :: vs)
  | .record (f :: fs) => '\n' :: spaces (n + 2) ++ fieldsText (n + 2) (f :: fs)
  | v => ' ' :: leafText (n + 2) v

def fieldsText (n : Nat) : List (String × Value) → List Char
  | [] => []
  | (k, v) :: fs =>
    let entry :=
      if isSimpleKey k then (scalarText n k).dropLast ++ ':' :: contentText n v
      else '?' :: ' ' :: scalarText (n + 2) k ++ spaces n ++ ':' :: ' ' :: nodeText (n + 2) v
    match fs with
    | [] => entry
    | fs => entry ++ spaces n ++ fieldsText n fs

end

def text (v : Value) : String :=
  String.ofList (nodeText 0 v)

end MeshRollout.Yaml
