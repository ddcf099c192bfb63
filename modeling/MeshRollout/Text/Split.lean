/-!
Text in pieces: splitting at a character, lines, and joining.
-/
set_option autoImplicit false

namespace MeshRollout.Text

/-- The pieces between the separators; there is one piece more than there are separators. -/
def splitOn (sep : Char) : List Char → List (List Char)
  | [] => [[]]
  | c :: r =>
    if c = sep then [] :: splitOn sep r
    else
      match splitOn sep r with
      | [] => [[c]]
      | p :: ps => (c :: p) :: ps

def splitOnce (sep : Char) : List Char → Option (List Char × List Char)
  | [] => none
  | c :: r =>
    if c = sep then some ([], r)
    else (splitOnce sep r).map fun (a, b) => (c :: a, b)

/-- Drops a carriage return that stands right before the line feed. -/
def dropReturn (line : List Char) : List Char :=
  match line.reverse with
  | '\r' :: r => r.reverse
  | _ => line

/-- Lines end with a line feed or with a carriage return and a line feed; the end of the text ends
a last line that is not empty. -/
def linesOf : List (List Char) → List (List Char)
  | [] => []
  | [last] => if last.isEmpty then [] else [last]
  | line :: rest => dropReturn line :: linesOf rest

def lines (cs : List Char) : List (List Char) :=
  linesOf (splitOn '\n' cs)

def dropLead? : List Char → List Char → Option (List Char)
  | [], cs => some cs
  | _ :: _, [] => none
  | l :: ls, c :: cs => if l = c then dropLead? ls cs else none

def startsWith (lead cs : List Char) : Bool :=
  (dropLead? lead cs).isSome

def endsWith (tail cs : List Char) : Bool :=
  startsWith tail.reverse cs.reverse

def contains (needle : List Char) : List Char → Bool
  | [] => needle.isEmpty
  | c :: r => startsWith needle (c :: r) || contains needle r

def split (sep : Char) (s : String) : List String :=
  (splitOn sep s.toList).map String.ofList

def joinWith (sep : String) : List String → String
  | [] => ""
  | [s] => s
  | s :: r => s ++ sep ++ joinWith sep r

end MeshRollout.Text
