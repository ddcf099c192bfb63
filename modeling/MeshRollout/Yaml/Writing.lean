import MeshRollout.Number.Numeral
import MeshRollout.Text.Quoted
import MeshRollout.Text.Split
import MeshRollout.Yaml.Scalar

/-!
How a text is written as a scalar: plain where it can be, in quotes where plain text would be read
as something else, and as a literal block if it has several lines.
-/
set_option autoImplicit false

namespace MeshRollout.Yaml

namespace Plain

def based? (cs : List Char) : Option Nat :=
  match cs with
  | '0' :: 'x' :: r => Numeral.digits? 16 r
  | '0' :: 'o' :: r => Numeral.digits? 8 r
  | '0' :: 'b' :: r => Numeral.digits? 2 r
  | _ => none

/-- Several digits of which the first is zero; they are no number. -/
def isZeroLed (cs : List Char) : Bool :=
  let digits :=
    match cs with
    | '-' :: r | '+' :: r => r
    | cs => cs
  digits.length > 1 && digits.head? == some '0' && digits.all Numeral.isDigit

/-- A whole number that is not negative, of at most 128 bits. -/
def isNatural (cs : List Char) : Bool :=
  let body :=
    match cs with
    | '+' :: r => r
    | cs => cs
  let fits (n : Option Nat) : Bool := (n.map fun n => decide (n < Nat.pow 2 128)).getD false
  fits (based? body) || (!isZeroLed cs && fits (Numeral.digits? 10 body))

def isNegative (cs : List Char) : Bool :=
  match cs with
  | '-' :: body =>
    let fits (n : Option Nat) : Bool := (n.map fun n => decide (n ≤ Nat.pow 2 127)).getD false
    fits (based? body) || (!isZeroLed cs && fits (Numeral.digits? 10 body))
  | _ => false

def isSigned (cs : List Char) : Bool :=
  cs.head? == some '+' || cs.head? == some '-'

/-- A number with a fraction or an exponent, or one of the words for what is no finite number. -/
def isReal (cs : List Char) : Bool :=
  let body :=
    match cs with
    | '+' :: r => if isSigned r then [] else r
    | cs => cs
  let isWord (words : List String) (cs : List Char) : Bool := words.contains (String.ofList cs)
  isWord [".inf", ".Inf", ".INF"] body
    || isWord ["-.inf", "-.Inf", "-.INF", ".nan", ".NaN", ".NAN"] cs
    || ((Numeral.binary64? body).map Binary64.isFinite).getD false

def isNull (s : String) : Bool :=
  ["", "~", "null", "Null", "NULL"].contains s

def isTruth (s : String) : Bool :=
  ["true", "True", "TRUE", "false", "False", "FALSE"].contains s

/-- Whether plain text would not be read as text, or not as this text. -/
def isTaken (s : String) : Bool :=
  let cs := s.toList
  isNull s || isTruth s || isNatural cs || isNegative cs || isZeroLed cs || isReal cs

end Plain

def isBreakMark (c : Char) : Bool :=
  c == '\n' || c == '\r' || c == '\u0085' || c == '\u2028' || c == '\u2029'

/-- Characters that are written as they are. Controls, the byte order mark and the last two places
of the first 65536 are not among them. -/
def isPlainlyWritten (c : Char) : Bool :=
  let n := c.toNat
  c == '\n' || (0x20 ≤ n && n ≤ 0x7e)
    || (0xa0 ≤ n && n != 0xfeff && n != 0xfffe && n != 0xffff)

def isBlankEnd : Option Char → Bool
  | none => true
  | some c => c == ' ' || c == '\t' || c.toNat == 0 || isBreakMark c

/-- A character that cannot start plain text, seen with the one after it. -/
def isLeadMark (c : Char) (next : Option Char) : Bool :=
  "#,[]{}&*!|>\"%@`".toList.contains c || c == apostrophe
    || ((c == '?' || c == ':' || c == '-') && isBlankEnd next)

/-- A mark inside of plain text that would end it: a colon before a blank, or a hash after one. -/
def hasMark (previous : Char) : List Char → Bool
  | [] => false
  | c :: r =>
    (c == ':' && isBlankEnd r.head?) || (c == '#' && isBlankEnd (some previous)) || hasMark c r

def hasIndicator (cs : List Char) : Bool :=
  Text.startsWith "---".toList cs || Text.startsWith "...".toList cs
    || (match cs with
      | [] => false
      | c :: r => isLeadMark c r.head? || hasMark c r)

def hasPair (first second : Char → Bool) : List Char → Bool
  | a :: b :: r => (first a && second b) || hasPair first second (b :: r)
  | _ => false

def isSpaceMark (c : Char) : Bool :=
  c == ' '

def needsEscape (cs : List Char) : Bool :=
  cs.any (fun c => !isPlainlyWritten c) || hasPair isSpaceMark isBreakMark cs

inductive ScalarStyle where
  | plain
  | single
  | double
  | literal
  deriving DecidableEq, Repr

namespace ScalarStyle

def ofLine (s : String) : ScalarStyle :=
  let cs := s.toList
  let edge (c : Option Char) : Bool := (c.map fun c => isSpaceMark c || isBreakMark c).getD false
  if needsEscape cs || hasPair isBreakMark isSpaceMark cs then .double
  else if Plain.isTaken s || edge cs.head? || edge cs.getLast? || cs.any isBreakMark
    || hasIndicator cs then .single
  else .plain

def of (s : String) : ScalarStyle :=
  let cs := s.toList
  if !cs.contains '\n' then ofLine s
  else if needsEscape cs || cs.getLast? == some ' ' then .double
  else .literal

end ScalarStyle

def spaces (n : Nat) : List Char :=
  List.replicate n ' '

/-- Text whose further lines are indented; `fresh` tells that the line has nothing on it yet. -/
def indented (n : Nat) (fresh : Bool) : List Char → List Char
  | [] => []
  | c :: r =>
    if isBreakMark c then c :: indented n true r
    else (if fresh then spaces n else []) ++ c :: indented n false r

/-- Text in single quotes, where a quote is written twice. -/
def singleQuoted (n : Nat) (cs : List Char) : List Char :=
  let doubled := cs.flatMap fun c => if c == apostrophe then [c, c] else [c]
  let tail := if (cs.getLast?.map isBreakMark).getD false then spaces n else []
  apostrophe :: indented n false doubled ++ tail ++ [apostrophe]

def escapeLetterOf? (c : Char) : Option Char :=
  "0abtnvfre\"\\N_LP".toList.find? fun l => escapeLetter? l == some c

def hexNumeral (width n : Nat) : List Char :=
  let ds := (Nat.toDigits 16 n).map Char.toUpper
  List.replicate (width - ds.length) '0' ++ ds

def escapedChar (c : Char) : List Char :=
  if isPlainlyWritten c && !isBreakMark c && c != '"' && c != '\\' then [c]
  else
    match escapeLetterOf? c with
    | some l => ['\\', l]
    | none =>
      let n := c.toNat
      if n ≤ 0xff then '\\' :: 'x' :: hexNumeral 2 n
      else if n ≤ 0xffff then '\\' :: 'u' :: hexNumeral 4 n
      else '\\' :: 'U' :: hexNumeral 8 n

def doubleQuoted (cs : List Char) : List Char :=
  '"' :: cs.flatMap escapedChar ++ ['"']

/-- The head of a literal block: how far it is indented if that cannot be seen, and what becomes of
the line breaks at its end. -/
def literalHead (cs : List Char) : List Char :=
  let isEdge (c : Char) : Bool := c == ' ' || isBreakMark c
  let width := if (cs.head?.map isEdge).getD false then ['2'] else []
  let chomp :=
    match cs.reverse with
    | a :: r =>
      if !isBreakMark a then ['-']
      else if (r.head?.map isBreakMark).getD true then ['+'] else []
    | [] => ['-']
  '|' :: width ++ chomp

def scalarText (n : Nat) (s : String) : List Char :=
  let cs := s.toList
  match ScalarStyle.of s with
  | .plain => cs ++ ['\n']
  | .single => singleQuoted n cs ++ ['\n']
  | .double => doubleQuoted cs ++ ['\n']
  | .literal =>
    let ended := (cs.getLast?.map isBreakMark).getD false
    literalHead cs ++ ['\n'] ++ indented n true cs ++ (if ended then [] else ['\n'])

end MeshRollout.Yaml
