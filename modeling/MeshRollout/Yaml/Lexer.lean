import MeshRollout.Yaml.Token

/-!
The state of a pass over YAML text: the rest of the text and where it stands, the tokens found so
far, the columns of the open blocks, and the places where a key without its own mark may stand.
A step that meets text outside the grammar has no result.
-/
set_option autoImplicit false

namespace MeshRollout.Yaml

structure Mark where
  index : Nat
  line : Nat
  column : Nat
  deriving DecidableEq, Repr

/-- A place where a key may turn out to have begun; `token` is the number that its mark would get.
-/
structure KeyPlace where
  possible : Bool
  required : Bool
  token : Nat
  mark : Mark
  deriving Repr

/-- An outer column that a deeper one has replaced. Only a block ends with a token of its own. -/
structure OuterIndent where
  column : Int
  isBlock : Bool
  deriving Repr

structure Lexer where
  rest : List Char
  mark : Mark
  /-- The newest token comes first. -/
  tokens : List Token
  count : Nat
  /-- Where a value may follow a quoted key without a space. -/
  adjacentValueAt : Nat
  keyAllowed : Bool
  /-- One place for each level of brackets and one for the blocks around them, innermost first. -/
  keyPlaces : List KeyPlace
  indent : Int
  outerIndents : List OuterIndent
  flowLevel : Nat
  /-- Nothing but blanks since the last line break. -/
  atLineStart : Bool
  flowMappingStarted : Bool
  /-- For each open sequence in brackets, whether a mapping of one pair is open in it. -/
  pairOpen : List Bool
  deriving Repr

abbrev Scan (α : Type) := StateT Lexer Option α

namespace Lexer

def noKey : KeyPlace :=
  ⟨false, false, 0, ⟨0, 0, 0⟩⟩

def start (text : List Char) : Lexer where
  rest := text.takeWhile fun c => !isEnd c
  mark := ⟨0, 1, 0⟩
  tokens := []
  count := 0
  adjacentValueAt := 0
  keyAllowed := true
  keyPlaces := [noKey]
  indent := -1
  outerIndents := []
  flowLevel := 0
  atLineStart := true
  flowMappingStarted := false
  pairOpen := []

def peek (l : Lexer) (n : Nat) : Char :=
  (l.rest[n]?).getD (Char.ofNat 0)

def column (l : Lexer) : Int :=
  l.mark.column

/-- Three equal marks followed by a gap. -/
def threeMarks (l : Lexer) (c : Char) : Bool :=
  l.peek 0 == c && l.peek 1 == c && l.peek 2 == c && isGap (l.peek 3)

def documentMark (l : Lexer) : Bool :=
  l.mark.column == 0 && (l.threeMarks '-' || l.threeMarks '.')

def advance (n : Nat) (l : Lexer) : Lexer :=
  { l with
    rest := l.rest.drop n
    mark := { l.mark with index := l.mark.index + n, column := l.mark.column + n } }

def advanceWord (n : Nat) (l : Lexer) : Lexer :=
  if n = 0 then l else { l.advance n with atLineStart := false }

def advanceBreak (l : Lexer) : Lexer :=
  let n := if l.peek 0 == '\r' && l.peek 1 == '\n' then 2 else if isBreak (l.peek 0) then 1 else 0
  if n = 0 then l
  else
    { l with
      rest := l.rest.drop n
      mark := ⟨l.mark.index + n, l.mark.line + 1, 0⟩
      atLineStart := true }

def advanceComment (l : Lexer) : Lexer :=
  l.advanceWord (l.rest.takeWhile fun c => !isBreakOrEnd c).length

def push (t : Token) (l : Lexer) : Lexer :=
  { l with tokens := t :: l.tokens, count := l.count + 1 }

def insertAt (n : Nat) (t : Token) (l : Lexer) : Lexer :=
  let newer := l.count - n
  { l with tokens := l.tokens.take newer ++ t :: l.tokens.drop newer, count := l.count + 1 }

def lastIndentIsBlock (l : Lexer) : Bool :=
  match l.outerIndents with
  | i :: _ => i.isBlock
  | [] => false

def closeBlocks (column : Int) (l : Lexer) : Lexer :=
  if l.flowLevel > 0 then l else go l.outerIndents l
where
  go : List OuterIndent → Lexer → Lexer
    | [], l => l
    | i :: is, l =>
      if l.indent > column then
        let l := { l with indent := i.column, outerIndents := is }
        go is (if i.isBlock then l.push .blockEnd else l)
      else l

/-- Opens a block at a column, unless one is open there; its first token goes to the given number or
to the end. -/
def openBlock (column : Int) (number : Option Nat) (t : Token) (l : Lexer) : Lexer :=
  if l.flowLevel > 0 then l
  else
    let l :=
      match l.outerIndents with
      | i :: is =>
        if l.indent ≤ column && !i.isBlock then { l with indent := i.column, outerIndents := is }
        else l
      | [] => l
    if l.indent < column then
      let l := { l with outerIndents := ⟨l.indent, true⟩ :: l.outerIndents, indent := column }
      match number with
      | some n => l.insertAt n t
      | none => l.push t
    else l

/-- Content of a block must stand at least one column further right. -/
def indentByOne (l : Lexer) : Lexer :=
  if l.flowLevel = 0 && l.lastIndentIsBlock then
    { l with outerIndents := ⟨l.indent, false⟩ :: l.outerIndents, indent := l.indent + 1 }
  else l

def dropPlainIndents (l : Lexer) : Lexer :=
  go l.outerIndents l
where
  go : List OuterIndent → Lexer → Lexer
    | [], l => l
    | i :: is, l =>
      if i.isBlock then l else go is { l with indent := i.column, outerIndents := is }

def notePlace (l : Lexer) : Lexer :=
  if l.keyAllowed then
    let required := l.flowLevel = 0 && l.indent == l.column && l.lastIndentIsBlock
    { l with keyPlaces := ⟨true, required, l.count, l.mark⟩ :: l.keyPlaces.drop 1 }
  else l

def keyPlace (l : Lexer) : KeyPlace :=
  l.keyPlaces.headD noKey

def forgetPlace? (l : Lexer) : Option Lexer :=
  match l.keyPlaces with
  | [] => some l
  | p :: ps =>
    if p.possible && p.required then none
    else some { l with keyPlaces := { p with possible := false } :: ps }

/-- Outside of brackets a key lies within one line and within 1024 characters. -/
def forgetStale? (l : Lexer) : Option Lexer :=
  if l.flowLevel > 0 then some l
  else
    let stale (p : KeyPlace) : Bool :=
      p.possible && (p.mark.line < l.mark.line || p.mark.index + 1024 < l.mark.index)
    if l.keyPlaces.any fun p => stale p && p.required then none
    else
      some { l with
        keyPlaces := l.keyPlaces.map fun p => if stale p then { p with possible := false } else p }

/-- Ends the mapping of one pair that is open in the innermost sequence. -/
def closePair (l : Lexer) : Lexer :=
  match l.pairOpen with
  | true :: r => { l with flowMappingStarted := false, pairOpen := false :: r }.push .flowMappingEnd
  | _ => l

end Lexer

namespace Scan

def require (b : Bool) : Scan Unit :=
  if b then pure () else failure

def peek (n : Nat) : Scan Char := do
  return (← get).peek n

def allowKey (b : Bool) : Scan Unit :=
  modify fun l => { l with keyAllowed := b }

def tryModify (f : Lexer → Option Lexer) : Scan Unit := do
  match f (← get) with
  | some l => set l
  | none => failure

def takeWord (p : Char → Bool) : Scan (List Char) := do
  let cs := (← get).rest.takeWhile p
  modify (Lexer.advanceWord cs.length)
  return cs

def skipSpaces : Scan Unit :=
  modify fun l => l.advance (l.rest.takeWhile isSpace).length

/-- Passes over blanks and a comment, which needs a blank in front of it. Tells whether tabs and
whether spaces were met. -/
def skipToLineEnd (tabs : Bool) : Scan (Bool × Bool) := do
  let blanks := (← get).rest.takeWhile fun c => c = ' ' || (tabs && c = '\t')
  modify (Lexer.advance blanks.length)
  if (← peek 0) == '#' then
    require !blanks.isEmpty
    modify Lexer.advanceComment
  return (blanks.contains '\t', blanks.contains ' ')

def skipToToken : Nat → Scan Unit
  | 0 => pure ()
  | fuel + 1 => do
    let l ← get
    let c := l.peek 0
    if c == '\t' && !l.outerIndents.isEmpty && l.atLineStart && l.column < l.indent then
      let _ ← skipToLineEnd true
      require (isBreakOrEnd (← peek 0))
      skipToToken fuel
    else if isSpace c then
      modify (Lexer.advance 1)
      skipToToken fuel
    else if isBreak c then
      modify Lexer.advanceBreak
      if l.flowLevel = 0 then allowKey true
      skipToToken fuel
    else if c == '#' then
      modify Lexer.advanceComment
      skipToToken fuel
    else pure ()

/-- Passes over spaces, line breaks and comments; tells whether a space or a line break was met. -/
def skipLayout : Nat → Bool → Scan Bool
  | 0, met => pure met
  | fuel + 1, met => do
    let c ← peek 0
    if c == ' ' then
      modify (Lexer.advance 1)
      skipLayout fuel true
    else if isBreak c then
      modify Lexer.advanceBreak
      if (← get).flowLevel = 0 then allowKey true
      skipLayout fuel true
    else if c == '#' then
      modify Lexer.advanceComment
      skipLayout fuel met
    else pure met

def fuel : Scan Nat := do
  return (← get).rest.length + 1

end Scan

end MeshRollout.Yaml
