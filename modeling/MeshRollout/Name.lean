import MeshRollout.Text.Quoted

/-!
Names in the cluster: labels of the domain name system, and names of revisions.
-/
set_option autoImplicit false

namespace MeshRollout

/-- The most bytes that a label or a revision has. -/
def maxLabelLength : Nat := 63

def isLowerOrDigit (c : Char) : Bool :=
  ('a' ≤ c && c ≤ 'z') || ('0' ≤ c && c ≤ '9')

def isLabelChar (c : Char) : Bool :=
  isLowerOrDigit c || c = '-'

def isRevisionChar (c : Char) : Bool :=
  isLowerOrDigit c || ('A' ≤ c && c ≤ 'Z') || c = '.' || c = '_' || c = '-'

inductive LabelFault where
  | empty
  | tooLong
  | badChar
  | hyphenAtEnd
  deriving DecidableEq, Repr

def LabelFault.message (what s : String) : LabelFault → String
  | .empty => what ++ " cannot be empty"
  | .tooLong => what ++ " must be at most " ++ toString maxLabelLength ++ " characters: " ++ s
  | .badChar => what ++ " must be lowercase alphanumeric with hyphens: " ++ s
  | .hyphenAtEnd => what ++ " cannot start or end with a hyphen: " ++ s

def labelFault? (s : String) : Option LabelFault :=
  let cs := s.toList
  if cs.isEmpty then some .empty
  else if s.utf8ByteSize > maxLabelLength then some .tooLong
  else if !cs.all isLabelChar then some .badChar
  else if cs.head? == some '-' || cs.getLast? == some '-' then some .hyphenAtEnd
  else none

inductive RevisionFault where
  | empty
  | tooLong
  | badChar (c : Char)
  deriving DecidableEq, Repr

def RevisionFault.message (s : String) : RevisionFault → String
  | .empty => "revision cannot be empty"
  | .tooLong => "revision must be at most " ++ toString maxLabelLength ++ " characters: " ++ s
  | .badChar c => "revision contains invalid character " ++ Text.quotedSingle c ++ ": " ++ s

def revisionFault? (s : String) : Option RevisionFault :=
  let cs := s.toList
  if cs.isEmpty then some .empty
  else if s.utf8ByteSize > maxLabelLength then some .tooLong
  else (cs.find? fun c => !isRevisionChar c).map .badChar

end MeshRollout
