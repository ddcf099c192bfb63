import MeshRollout.Number.Numeral

/-!
Nodes of YAML documents. Plain scalars stand for numbers, truth values or nothing where their text
reads so; a floating-point number keeps its text. A scalar whose tag contradicts its text, or a
reference to a node that is not complete, leaves a hole.
-/
set_option autoImplicit false

namespace MeshRollout.Yaml

inductive Node where
  | null
  | bool (b : Bool)
  | int (n : Int)
  | real (text : String)
  | str (s : String)
  | list (items : List Node)
  | mapping (pairs : List (Node × Node))
  /-- A reference left as it stands. Composition puts the node that is referred to in its place. -/
  | reference (anchor : Nat)
  | hole
  deriving Repr, Inhabited

namespace Node

mutual

def same : Node → Node → Bool
  | .null, .null => true
  | .bool a, .bool b => a == b
  | .int m, .int n => m == n
  | .real s, .real t => s == t
  | .str s, .str t => s == t
  | .list xs, .list ys => sameItems xs ys
  | .mapping ps, .mapping qs => samePairs ps qs
  | .reference a, .reference b => a == b
  | .hole, .hole => true
  | _, _ => false

def sameItems : List Node → List Node → Bool
  | [], [] => true
  | x :: xs, y :: ys => same x y && sameItems xs ys
  | _, _ => false

def samePairs : List (Node × Node) → List (Node × Node) → Bool
  | [], [] => true
  | (k, x) :: ps, (l, y) :: qs => same k l && same x y && samePairs ps qs
  | _, _ => false

end

def coreHandle : String := "tag:yaml.org,2002:"

def infinities : List String :=
  [".inf", ".Inf", ".INF", "+.inf", "+.Inf", "+.INF", "-.inf", "-.Inf", "-.INF"]

def notNumbers : List String :=
  [".nan", ".NaN", ".NAN"]

def isReal (s : String) : Bool :=
  infinities.contains s || notNumbers.contains s
    || (s.toList.any Numeral.isDigit && (Numeral.binary64? s.toList).isSome)

/-- A whole number with a mark for its base, or one with a plus sign. -/
def markedInt? : List Char → Option Int
  | '0' :: 'x' :: r => Numeral.int64? 16 r
  | '0' :: 'o' :: r => Numeral.int64? 8 r
  | '+' :: r => Numeral.int64? 10 r
  | _ => none

def ofPlain (s : String) : Node :=
  match markedInt? s.toList with
  | some n => .int n
  | none =>
    if s == "" || s == "~" || s == "null" then .null
    else if s == "true" || s == "True" || s == "TRUE" then .bool true
    else if s == "false" || s == "False" || s == "FALSE" then .bool false
    else
      match Numeral.int64? 10 s.toList with
      | some n => .int n
      | none => if isReal s then .real s else .str s

/-- What a plain scalar with a tag of the core schema stands for. -/
def ofCore (type s : String) : Node :=
  if type == "bool" then
    if s == "true" then .bool true else if s == "false" then .bool false else .hole
  else if type == "int" then ((Numeral.int64? 10 s.toList).map .int).getD .hole
  else if type == "float" then if isReal s then .real s else .hole
  else if type == "null" then if s == "~" || s == "null" then .null else .hole
  else .str s

def ofScalar (plain : Bool) (tag : Option (String × String)) (s : String) : Node :=
  if !plain then .str s
  else
    match tag with
    | none => ofPlain s
    | some (handle, type) => if handle == coreHandle then ofCore type s else .str s

def isHole : Node → Bool
  | .hole => true
  | _ => false

/-- Pairs keys and values of a mapping that come in turn. A hole is no key: the next node takes its
place. Two equal keys are refused. -/
def pairUp? : List (Node × Node) → Option Node → List Node → Option (List (Node × Node))
  | done, _, [] => some done.reverse
  | done, none, n :: ns => pairUp? done (if n.isHole then none else some n) ns
  | done, some k, n :: ns =>
    if done.any fun p => p.1.same k then none else pairUp? ((k, n) :: done) none ns

def ofTurns? (ns : List Node) : Option Node :=
  (pairUp? [] none ns).map .mapping

end Node

end MeshRollout.Yaml
