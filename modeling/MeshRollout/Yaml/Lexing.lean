import MeshRollout.Text.Alphanumeric
import MeshRollout.Yaml.Scalar

/-!
From YAML text to tokens. Marks for blocks and for keys are not written in the text: they follow
from the columns of lines and from the values that come after a key, and are put where the key
began.
-/
set_option autoImplicit false

namespace MeshRollout.Yaml
open Scan

def push (t : Token) : Scan Unit :=
  modify (Lexer.push t)

def endBlocks : Scan Unit := do
  modify (Lexer.closeBlocks (-1))
  tryModify Lexer.forgetPlace?
  allowKey false

def documentMark (t : Token) : Scan Unit := do
  endBlocks
  modify (Lexer.advanceWord 3)
  push t

def versionNumber : Scan Unit := do
  let digits ← takeWord Numeral.isDigit
  require (!digits.isEmpty && digits.length ≤ 9)

/-- One character of a tag written as the hexadecimal numbers of its bytes, as many as the first
byte announces. -/
def uriEscape : Scan Char := do
  let l ← get
  let byte? (i : Nat) : Option Nat :=
    if l.peek (3 * i) == '%' then Numeral.digits? 16 [l.peek (3 * i + 1), l.peek (3 * i + 2)]
    else none
  match byte? 0 with
  | none => failure
  | some first =>
    let width :=
      if first < 0x80 then 1
      else if first / 0x20 = 6 then 2
      else if first / 0x10 = 14 then 3
      else if first / 8 = 30 then 4
      else 0
    require (width > 0)
    let trailing := (List.range width).drop 1 |>.map byte?
    require (trailing.all fun b => (b.map fun b => b / 0x40 == 2).getD false)
    let code := trailing.foldl (fun n b => n * 0x100 + b.getD 0) first
    match charOfNat? (code % Nat.pow 2 32) with
    | some c =>
      modify (Lexer.advanceWord (3 * width))
      return c
    | none => failure

def uriText (p : Char → Bool) : Nat → List Char → Scan (List Char)
  | 0, acc => pure acc.reverse
  | fuel + 1, acc => do
    let c ← peek 0
    if !p c then return acc.reverse
    if c == '%' then
      let e ← uriEscape
      uriText p fuel (e :: acc)
    else
      modify (Lexer.advanceWord 1)
      uriText p fuel (c :: acc)

/-- An exclamation mark, a name, and a closing mark, which a directive must have. -/
def tagHandle (directive : Bool) : Scan String := do
  require ((← peek 0) == '!')
  modify (Lexer.advanceWord 1)
  let name ← takeWord isNameChar
  if (← peek 0) == '!' then
    modify (Lexer.advanceWord 1)
    return String.ofList ('!' :: name ++ ['!'])
  else
    require (!directive || name.isEmpty)
    return String.ofList ('!' :: name)

def tagLead : Scan String := do
  let c ← peek 0
  require (c == '!' || isTagChar c)
  let first ←
    if c == '%' then uriEscape
    else do
      modify (Lexer.advanceWord 1)
      pure c
  let r ← uriText isUriChar (← Scan.fuel) []
  return String.ofList (first :: r)

def directive : Scan Unit := do
  endBlocks
  modify (Lexer.advanceWord 1)
  let name ← takeWord isNameChar
  require (!name.isEmpty && isGap (← peek 0))
  let t ←
    if name == "YAML".toList then do
      skipSpaces
      versionNumber
      require ((← peek 0) == '.')
      modify (Lexer.advanceWord 1)
      versionNumber
      pure Token.version
    else if name == "TAG".toList then do
      skipSpaces
      let handle ← tagHandle true
      skipSpaces
      let lead ← tagLead
      require (isGap (← peek 0))
      pure (Token.tagDirective handle lead)
    else do
      modify Lexer.advanceComment
      pure (Token.tagDirective "" "")
  let _ ← skipToLineEnd true
  require (isBreakOrEnd (← peek 0))
  modify Lexer.advanceBreak
  push t

def tag : Scan Token := do
  let t ←
    if (← peek 1) == '<' then do
      modify (Lexer.advanceWord 2)
      let suffix ← uriText isUriChar (← Scan.fuel) []
      require ((← peek 0) == '>')
      modify (Lexer.advanceWord 1)
      pure (Token.tag "" (String.ofList suffix))
    else do
      let handle ← tagHandle false
      let h := handle.toList
      let suffix ← uriText isTagChar (← Scan.fuel) []
      if h.length ≥ 2 && h.getLast? == some '!' then
        require !suffix.isEmpty
        pure (Token.tag handle (String.ofList suffix))
      else
        let suffix := h.drop 1 ++ suffix
        if suffix.isEmpty then pure (Token.tag "" "!")
        else pure (Token.tag "!" (String.ofList suffix))
  let c ← peek 0
  require (isGap c || ((← get).flowLevel > 0 && isFlow c))
  return t

def anchorName : Scan String := do
  modify (Lexer.advanceWord 1)
  let name ← takeWord isAnchorChar
  require !name.isEmpty
  return String.ofList name

def content (m : Scan Token) : Scan Unit := do
  modify Lexer.notePlace
  allowKey false
  let t ← m
  push t

def openFlow (mapping : Bool) : Scan Unit := do
  modify Lexer.notePlace
  modify Lexer.indentByOne
  require ((← get).flowLevel < 255)
  modify fun l => { l with
    keyPlaces := Lexer.noKey :: l.keyPlaces
    flowLevel := l.flowLevel + 1
    keyAllowed := true
    flowMappingStarted := l.flowMappingStarted || mapping
    pairOpen := if mapping then l.pairOpen else false :: l.pairOpen }
  modify (Lexer.advanceWord 1)
  let _ ← skipToLineEnd true
  push (if mapping then .flowMappingStart else .flowSequenceStart)

def closeFlow (mapping : Bool) : Scan Unit := do
  tryModify Lexer.forgetPlace?
  modify fun l =>
    if l.flowLevel > 0 then
      { l with flowLevel := l.flowLevel - 1, keyPlaces := l.keyPlaces.drop 1 }
    else l
  allowKey false
  if !mapping then
    modify fun l =>
      let l := l.closePair
      { l with pairOpen := l.pairOpen.drop 1 }
  modify (Lexer.advanceWord 1)
  let _ ← skipToLineEnd true
  modify fun l => if l.flowLevel > 0 then { l with adjacentValueAt := l.mark.index } else l
  push (if mapping then .flowMappingEnd else .flowSequenceEnd)

def flowEntry : Scan Unit := do
  tryModify Lexer.forgetPlace?
  allowKey true
  modify Lexer.closePair
  modify (Lexer.advanceWord 1)
  let _ ← skipToLineEnd true
  push .flowEntry

def blockEntry : Scan Unit := do
  let l ← get
  require (l.flowLevel = 0 && l.keyAllowed)
  modify (Lexer.advanceWord 1)
  modify (Lexer.openBlock l.column none .blockSequenceStart)
  let (tabs, _) ← skipToLineEnd true
  require !(tabs && (← peek 0) == '-' && isGap (← peek 1))
  let _ ← skipToLineEnd false
  let c ← peek 0
  if isBreak c || isFlow c then modify Lexer.indentByOne
  tryModify Lexer.forgetPlace?
  allowKey true
  push .blockEntry

def markedKey : Scan Unit := do
  let l ← get
  if l.flowLevel = 0 then
    require l.keyAllowed
    modify (Lexer.openBlock l.column none .blockMappingStart)
  else modify fun l => { l with flowMappingStarted := true }
  tryModify Lexer.forgetPlace?
  allowKey (l.flowLevel = 0)
  modify (Lexer.advanceWord 1)
  let met ← skipLayout (← Scan.fuel) false
  require met
  require ((← peek 0) ≠ '\t')
  push .key

/-- The mark of a value. The key in front of it gets its mark now, and if it is the first key of a
block, so does the block. -/
def value : Scan Unit := do
  let l ← get
  let place := l.keyPlace
  let pair := !l.pairOpen.isEmpty && !l.flowMappingStarted
  if pair then modify fun l => { l with pairOpen := true :: l.pairOpen.drop 1 }
  modify (Lexer.advanceWord 1)
  if (← peek 0) == '\t' then
    let (_, spaces) ← skipToLineEnd true
    let c ← peek 0
    require !(!spaces && (c == '-' || Text.alphanumeric.holds c))
  if place.possible then
    modify (Lexer.insertAt place.token .key)
    if pair then
      require !(place.mark.line < l.mark.line)
      modify (Lexer.insertAt place.token .flowMappingStart)
    modify (Lexer.openBlock place.mark.column (some place.token) .blockMappingStart)
    modify Lexer.indentByOne
    modify fun l => { l with
      keyPlaces := { place with possible := false } :: l.keyPlaces.drop 1
      keyAllowed := false }
  else
    if pair then push .flowMappingStart
    if l.flowLevel = 0 then
      require l.keyAllowed
      modify (Lexer.openBlock l.column none .blockMappingStart)
    modify Lexer.indentByOne
    allowKey (l.flowLevel = 0)
  push .value

/-- Whether a colon marks a value here. -/
def Lexer.marksValue (l : Lexer) : Bool :=
  let d := l.peek 1
  isGap d || (l.flowLevel > 0 && (isFlow d || l.mark.index == l.adjacentValueAt))

/-- Passes over what stands between tokens. A line further left ends the blocks right of it. -/
def settle : Scan Unit := do
  skipToToken (← Scan.fuel)
  tryModify Lexer.forgetStale?
  modify fun l => l.closeBlocks l.column

/-- The token that begins here; false at the end of the text. -/
def takeToken : Scan Bool := do
  let l ← get
  let c := l.peek 0
  let d := l.peek 1
  if isEnd c then
    require !(l.keyPlaces.any fun p => p.required && p.possible)
    modify (Lexer.closeBlocks (-1))
    return false
  require !(l.column < l.indent)
  if l.mark.column = 0 && c == '%' then directive
  else if l.mark.column = 0 && l.threeMarks '-' then documentMark .documentStart
  else if l.mark.column = 0 && l.threeMarks '.' then
    documentMark .documentEnd
    let _ ← skipToLineEnd true
    require (isBreakOrEnd (← peek 0))
  else if c == '[' then openFlow false
  else if c == '{' then openFlow true
  else if c == ']' then closeFlow false
  else if c == '}' then closeFlow true
  else if c == ',' then flowEntry
  else if c == '-' && isGap d then blockEntry
  else if c == '?' && isGap d then markedKey
  else if c == ':' && l.marksValue then
    require !(!isGap d && l.mark.index ≠ l.adjacentValueAt && (d == '[' || d == '{'))
    value
  else if c == '*' then content (Token.alias <$> anchorName)
  else if c == '&' then content (Token.anchor <$> anchorName)
  else if c == '!' then content tag
  else if (c == '|' || c == '>') && l.flowLevel = 0 then
    modify Lexer.notePlace
    allowKey true
    let t ← blockScalar (c == '|')
    push t
  else if c == '"' || c == apostrophe then
    modify Lexer.notePlace
    allowKey false
    let t ← quotedScalar (c == apostrophe)
    skipToToken (← Scan.fuel)
    modify fun l => { l with adjacentValueAt := l.mark.index }
    push t
  else
    require !(c == '%' || c == '@' || c.toNat == 0x60)
    content plainScalar
  return true

def next : Scan Bool := do
  settle
  takeToken

def scanLoop : Nat → Scan Unit
  | 0 => pure ()
  | fuel + 1 => do
    if ← next then scanLoop fuel

/-- The tokens of a text, where every token takes at least one character. -/
def tokens? (text : List Char) : Option (List Token) :=
  ((scanLoop (text.length + 1)).run (Lexer.start text)).map fun (_, l) =>
    l.tokens.reverse

end MeshRollout.Yaml
