import MeshRollout.Failure
import MeshRollout.Text.Blank
import MeshRollout.Value
import MeshRollout.Yaml.Composition

/-!
Documents of a manifest. The text is cut at the lines that hold nothing but three hyphens, and every
piece that says something is read on its own; one bad document fails the whole manifest.
-/
set_option autoImplicit false

namespace MeshRollout.Yaml

/-- Why YAML text has no value. The place of a fault in the text is left open. -/
inductive Fault where
  | text
  | hole
  | unresolved
  | keyKind
  | realText
  deriving DecidableEq, Repr

def Fault.message : Fault → String
  | .text => "<yaml>"
  | .hole => "bad YAML value"
  | .unresolved => "YAML aliases not supported"
  | .keyKind => "unsupported YAML key type"
  | .realText => "invalid float literal"

namespace Node

def keyText? : Node → Option String
  | .str s => some s
  | .int n => some (toString n)
  | .real s => some s
  | .bool b => some (if b then "true" else "false")
  | .null => some "null"
  | _ => none

/-- Whether a text is a word for what is no finite number. A sign may stand in front of it. -/
def isEndless (s : String) : Bool :=
  let word :=
    match s.toList with
    | '+' :: r | '-' :: r => r
    | cs => cs
  ["inf", "infinity", "nan"].contains (String.ofList (word.map Char.toLower))

/-- The number that a text denotes. One out of range becomes nothing. -/
def realValue (s : String) : Except Fault Value :=
  match Numeral.binary64? s.toList with
  | some x => .ok (if x.isFinite then .float x else .null)
  | none => if isEndless s then .ok .null else .error .realText

mutual

/-- The value of a node. Keys become text, and of two keys with one text the later one wins. -/
def toValue : Node → Except Fault Value
  | .null => .ok .null
  | .bool b => .ok (.bool b)
  | .int n => .ok (.int n)
  | .real s => realValue s
  | .str s => .ok (.str s)
  | .list ns => (itemValues ns).map .list
  | .mapping ps => (pairValues ps).map fun fs => .record (Dict.ofList fs)
  | .hole => .error .hole
  | .reference _ => .error .unresolved

def itemValues : List Node → Except Fault (List Value)
  | [] => .ok []
  | n :: ns => do
    let v ← toValue n
    let vs ← itemValues ns
    pure (v :: vs)

def pairValues : List (Node × Node) → Except Fault (List (String × Value))
  | [] => .ok []
  | (k, n) :: ps => do
    match keyText? k with
    | none => throw .keyKind
    | some key =>
      let v ← toValue n
      let fs ← pairValues ps
      pure ((key, v) :: fs)

end

end Node

def read (text : String) : Except Fault Value :=
  match documents? text with
  | none => .error .text
  | some [] => .ok .null
  | some (n :: _) => n.toValue

/-- A line that separates documents. -/
def isSeparator (line : List Char) : Bool :=
  Text.trim line == ['-', '-', '-']

/-- A line that is neither blank nor a comment. -/
def saysSomething (line : List Char) : Bool :=
  !Text.isBlankText line && (Text.trimStart line).head? != some '#'

def sections : List (List Char) → List (List (List Char))
  | [] => [[]]
  | line :: rest =>
    if isSeparator line then [] :: sections rest
    else
      match sections rest with
      | [] => [[line]]
      | s :: ss => (line :: s) :: ss

def unlines (ls : List (List Char)) : String :=
  String.ofList (ls.flatMap fun l => l ++ ['\n'])

/-- The documents of a manifest that say something. -/
def split (text : String) : List String :=
  ((sections (Text.lines text.toList)).filter fun s => s.any saysSomething).map unlines

def serialization (f : Fault) : Failure :=
  .serialization f.message none

def decodeAt (i : Nat) (document : String) : Except Failure Value := do
  let v ← (read document).mapError fun f => .decode i (serialization f).message
  match v with
  | .record _ => pure v
  | _ => throw (.decode i "document is not a mapping")

def decodeFrom (i : Nat) : List String → Except Failure (List Value)
  | [] => .ok []
  | d :: ds => do
    let v ← decodeAt i d
    let vs ← decodeFrom (i + 1) ds
    pure (v :: vs)

def decode (text : String) : Except Failure (List Value) :=
  decodeFrom 0 (split text)

end MeshRollout.Yaml
