/-!
Tokens of YAML documents and the classes of characters that tell them apart. The end of a text is
seen as the character NUL, which also ends a text that contains it.
-/
set_option autoImplicit false

namespace MeshRollout.Yaml

inductive Token where
  | version
  | tagDirective (handle lead : String)
  | documentStart
  | documentEnd
  | blockSequenceStart
  | blockMappingStart
  | blockEnd
  | flowSequenceStart
  | flowSequenceEnd
  | flowMappingStart
  | flowMappingEnd
  | blockEntry
  | flowEntry
  | key
  | value
  | alias (name : String)
  | anchor (name : String)
  | tag (handle suffix : String)
  | scalar (plain : Bool) (text : String)
  deriving DecidableEq, Repr

def isEnd (c : Char) : Bool :=
  c.toNat == 0

def isSpace (c : Char) : Bool :=
  c = ' ' || c = '\t'

def isBreak (c : Char) : Bool :=
  c = '\n' || c = '\r'

def isBreakOrEnd (c : Char) : Bool :=
  isBreak c || isEnd c

/-- Nothing that could go on with a word. -/
def isGap (c : Char) : Bool :=
  isSpace c || isBreakOrEnd c

def isFlow (c : Char) : Bool :=
  c = ',' || c = '[' || c = ']' || c = '{' || c = '}'

def isByteOrderMark (c : Char) : Bool :=
  c.toNat == 0xFEFF

def isAnchorChar (c : Char) : Bool :=
  !isGap c && !isByteOrderMark c && !isFlow c

def isWordChar (c : Char) : Bool :=
  ('0' ≤ c && c ≤ '9') || ('a' ≤ c && c ≤ 'z') || ('A' ≤ c && c ≤ 'Z') || c = '-'

def isNameChar (c : Char) : Bool :=
  isWordChar c || c = '_'

def isUriChar (c : Char) : Bool :=
  isWordChar c || "#;/?:@&=+$,_.!~*'()[]%".toList.contains c

def isTagChar (c : Char) : Bool :=
  isUriChar c && !isFlow c && c ≠ '!'

end MeshRollout.Yaml
