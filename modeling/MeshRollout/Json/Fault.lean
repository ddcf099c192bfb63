/-!
Where and why a text is not JSON. A fault stands at a place, which is told as a line and the number
of bytes on that line up to the place.
-/
set_option autoImplicit false

namespace MeshRollout.Json

inductive Fault where
  | endInValue
  | endInString
  | endInList
  | endInRecord
  | noValue
  | noWord
  | noColon
  | noCommaInList
  | noCommaInRecord
  | keyNotText
  | trailingComma
  | trailing
  | badNumber
  | tooLarge
  | badEscape
  | cutEscape
  | loneSurrogate
  | control
  | tooDeep
  deriving DecidableEq, Repr

def Fault.message : Fault → String
  | .endInValue => "EOF while parsing a value"
  | .endInString => "EOF while parsing a string"
  | .endInList => "EOF while parsing a list"
  | .endInRecord => "EOF while parsing an object"
  | .noValue => "expected value"
  | .noWord => "expected ident"
  | .noColon => "expected \x60:\x60"
  | .noCommaInList => "expected \x60,\x60 or \x60]\x60"
  | .noCommaInRecord => "expected \x60,\x60 or \x60\x7d\x60"
  | .keyNotText => "key must be a string"
  | .trailingComma => "trailing comma"
  | .trailing => "trailing characters"
  | .badNumber => "invalid number"
  | .tooLarge => "number out of range"
  | .badEscape => "invalid escape"
  | .cutEscape => "unexpected end of hex escape"
  | .loneSurrogate => "lone leading surrogate in hex escape"
  | .control => "control character (\\u0000-\\u001F) found while parsing a string"
  | .tooDeep => "recursion limit exceeded"

/-- A line and the bytes passed on it. -/
structure Place where
  line : Nat
  column : Nat
  deriving DecidableEq, Repr

namespace Place

def first : Place := ⟨1, 0⟩

def after (p : Place) (c : Char) : Place :=
  if c = '\n' then ⟨p.line + 1, 0⟩ else ⟨p.line, p.column + c.utf8Size⟩

/-- The place reached in `text` when only `rest` is left of it. -/
def before (text rest : List Char) : Place :=
  (text.take (text.length - rest.length)).foldl after first

/-- The place one byte further on, if there is a character. -/
def into (p : Place) : List Char → Place
  | [] => p
  | c :: _ => if c = '\n' then p.after c else ⟨p.line, p.column + 1⟩

def located (p : Place) (message : String) : String :=
  message ++ " at line " ++ toString p.line ++ " column " ++ toString p.column

end Place

/-- A fault where only `rest` is left of the text. A fault that `looks` concerns the next character
and stands one byte into it. -/
structure Stop where
  fault : Fault
  rest : List Char
  looks : Bool
  deriving Repr

namespace Stop

def place (text : List Char) (s : Stop) : Place :=
  let p := Place.before text s.rest
  if s.looks then p.into s.rest else p

def message (text : List Char) (s : Stop) : String :=
  (s.place text).located s.fault.message

end Stop

/-- The fault lies in what was just passed. -/
def fail {α : Type} (f : Fault) (rest : List Char) : Except Stop α :=
  .error ⟨f, rest, false⟩

/-- The fault lies in the next character. -/
def refuse {α : Type} (f : Fault) (rest : List Char) : Except Stop α :=
  .error ⟨f, rest, true⟩

def isBlank (c : Char) : Bool :=
  c = ' ' || c = '\n' || c = '\r' || c = '\t'

def skipBlanks (cs : List Char) : List Char :=
  cs.dropWhile isBlank

end MeshRollout.Json
