import MeshRollout.Number.Numeral
import MeshRollout.Yaml.Lexer

/-!
The text of scalars: quoted, plain, and in blocks. A single line break between words becomes a space
and every further one stays, except in literal blocks.
-/
set_option autoImplicit false

namespace MeshRollout.Yaml
open Scan

def apostrophe : Char := Char.ofNat 39

/-- Text gathered so far in reverse, and the gap after it that counts only if more text follows. -/
structure Folding where
  text : List Char
  blanks : List Char
  lineBreak : Bool
  moreBreaks : Nat

namespace Folding

def empty : Folding := ⟨[], [], false, 0⟩

def add (c : Char) (f : Folding) : Folding :=
  { f with text := c :: f.text }

def addBlank (c : Char) (f : Folding) : Folding :=
  { f with blanks := c :: f.blanks }

/-- A line break; `more` tells that another one came before it in the same gap. -/
def addBreak (more : Bool) (f : Folding) : Folding :=
  if more then { f with moreBreaks := f.moreBreaks + 1 }
  else { f with blanks := [], lineBreak := true }

def join (newLine : Bool) (f : Folding) : Folding :=
  if newLine then
    let gap := if f.lineBreak && f.moreBreaks = 0 then [' '] else List.replicate f.moreBreaks '\n'
    { f with text := gap ++ f.text, lineBreak := false, moreBreaks := 0 }
  else { f with text := f.blanks ++ f.text, blanks := [] }

def result (f : Folding) : String :=
  String.ofList f.text.reverse

end Folding

def escapeLetter? (c : Char) : Option Char :=
  match c with
  | '0' => some (Char.ofNat 0)
  | 'a' => some '\x07'
  | 'b' => some '\x08'
  | 't' | '\t' => some '\t'
  | 'n' => some '\n'
  | 'v' => some '\x0b'
  | 'f' => some '\x0c'
  | 'r' => some '\r'
  | 'e' => some '\x1b'
  | ' ' => some ' '
  | '"' => some '"'
  | '/' => some '/'
  | '\\' => some '\\'
  | 'N' => some '\u0085'
  | '_' => some '\u00a0'
  | 'L' => some '\u2028'
  | 'P' => some '\u2029'
  | _ => none

def escapeWidth? (c : Char) : Option Nat :=
  match c with
  | 'x' => some 2
  | 'u' => some 4
  | 'U' => some 8
  | _ => none

def charOfNat? (n : Nat) : Option Char :=
  if h : n.isValidChar then some (Char.ofNatAux n h) else none

def escape : Scan Char := do
  let c ← peek 1
  match escapeLetter? c, escapeWidth? c with
  | some e, _ =>
    modify (Lexer.advanceWord 2)
    return e
  | none, some width =>
    modify (Lexer.advanceWord 2)
    let digits := (← get).rest.take width
    require (digits.length == width)
    match (Numeral.digits? 16 digits).bind charOfNat? with
    | some e =>
      modify (Lexer.advanceWord width)
      return e
    | none => failure
  | none, none => failure

/-- Characters up to a gap or the closing mark. Tells whether an escaped line break ended them. -/
def quotedWord (single : Bool) : Nat → Folding → Scan (Folding × Bool)
  | 0, f => pure (f, false)
  | fuel + 1, f => do
    let c ← peek 0
    let d ← peek 1
    if isGap c then return (f, false)
    else if single then
      if c == apostrophe && d == apostrophe then
        modify (Lexer.advanceWord 2)
        quotedWord single fuel (f.add apostrophe)
      else if c == apostrophe then return (f, false)
      else
        modify (Lexer.advanceWord 1)
        quotedWord single fuel (f.add c)
    else if c == '"' then return (f, false)
    else if c == '\\' && isBreak d then
      modify (Lexer.advanceWord 1)
      modify Lexer.advanceBreak
      return (f, true)
    else if c == '\\' then
      let e ← escape
      quotedWord single fuel (f.add e)
    else
      modify (Lexer.advanceWord 1)
      quotedWord single fuel (f.add c)

def quotedGap : Nat → Folding → Bool → Scan (Folding × Bool)
  | 0, f, newLine => pure (f, newLine)
  | fuel + 1, f, newLine => do
    let l ← get
    let c := l.peek 0
    if isSpace c then
      if newLine then
        require !(c == '\t' && l.column < l.indent)
        modify (Lexer.advance 1)
        quotedGap fuel f newLine
      else
        modify (Lexer.advance 1)
        quotedGap fuel (f.addBlank c) newLine
    else if isBreak c then
      modify Lexer.advanceBreak
      quotedGap fuel (f.addBreak newLine) true
    else return (f, newLine)

def quotedLoop (single : Bool) : Nat → Folding → Scan Folding
  | 0, _ => failure
  | fuel + 1, f => do
    let l ← get
    require !l.documentMark
    require !(isEnd (l.peek 0))
    require !(l.column < l.indent)
    let (f, newLine) ← quotedWord single (← Scan.fuel) f
    let c ← peek 0
    if c == (if single then apostrophe else '"') then return f
    let (f, newLine) ← quotedGap (← Scan.fuel) f newLine
    quotedLoop single fuel (f.join newLine)

/-- Text in quotation marks. Only a separator, a mark of a value or the end of the line may follow.
-/
def quotedScalar (single : Bool) : Scan Token := do
  let line := (← get).mark.line
  modify (Lexer.advanceWord 1)
  let f ← quotedLoop single (← Scan.fuel) .empty
  modify (Lexer.advanceWord 1)
  let _ ← skipToLineEnd true
  let l ← get
  let c := l.peek 0
  require <| isBreakOrEnd c
    || (l.flowLevel > 0 && (c == ',' || c == '}' || c == ']' || c == ':'))
    || (c == ':' && l.flowLevel = 0 && line == l.mark.line)
  return .scalar false f.result

/-- Whether the next character can go on with plain text. -/
def Lexer.plainGoesOn (l : Lexer) : Bool :=
  plainAt l.flowLevel l.rest
where
  plainAt (flowLevel : Nat) : List Char → Bool
    | [] => false
    | c :: r =>
      if c == ':' then
        let d := r.headD (Char.ofNat 0)
        !(isGap d || (flowLevel > 0 && isFlow d))
      else !(flowLevel > 0 && isFlow c)

def plainWord (flowLevel : Nat) : List Char → List Char
  | [] => []
  | c :: r =>
    if isGap c || !Lexer.plainGoesOn.plainAt flowLevel (c :: r) then []
    else c :: plainWord flowLevel r

def plainGap (indent : Int) : Nat → Folding → Scan Folding
  | 0, f => pure f
  | fuel + 1, f => do
    let l ← get
    let c := l.peek 0
    if isSpace c then
      if !l.atLineStart then
        modify (Lexer.advance 1)
        plainGap indent fuel (f.addBlank c)
      else if c == '\t' && l.column < indent then
        let _ ← skipToLineEnd true
        require (isBreakOrEnd (← peek 0))
        plainGap indent fuel f
      else
        modify (Lexer.advance 1)
        plainGap indent fuel f
    else if isBreak c then
      modify Lexer.advanceBreak
      plainGap indent fuel (f.addBreak l.atLineStart)
    else return f

def plainLoop (indent : Int) : Nat → Folding → Scan Folding
  | 0, f => pure f
  | fuel + 1, f => do
    let l ← get
    if l.documentMark || l.peek 0 == '#' then return f
    require !(l.flowLevel > 0 && l.peek 0 == '-' && isFlow (l.peek 1))
    let word := plainWord l.flowLevel l.rest
    let f :=
      if word.isEmpty then f
      else
        let f := f.join l.atLineStart
        { f with text := word.reverse ++ f.text }
    modify (Lexer.advanceWord word.length)
    let c ← peek 0
    if !(isSpace c || isBreak c) then return f
    let f ← plainGap indent (← Scan.fuel) f
    let l ← get
    if l.flowLevel = 0 && l.column < indent then return f
    plainLoop indent fuel f

/-- Text without quotation marks, which goes on over deeper lines. -/
def plainScalar : Scan Token := do
  modify Lexer.dropPlainIndents
  let l ← get
  let indent := l.indent + 1
  require !(l.flowLevel > 0 && l.column < indent)
  let f ← plainLoop indent (← Scan.fuel) .empty
  if (← get).atLineStart then allowKey true
  require !f.text.isEmpty
  return .scalar true f.result

/-- What happens to the line breaks at the end of a block: all go, one stays, or all stay. -/
inductive Chomping where
  | strip
  | clip
  | keep
  deriving DecidableEq

def chomping? (c : Char) : Option Chomping :=
  if c == '+' then some .keep else if c == '-' then some .strip else none

def blockIncrement : Scan Nat := do
  let c ← peek 0
  if Numeral.isDigit c then
    require (c ≠ '0')
    modify (Lexer.advanceWord 1)
    return c.toNat - '0'.toNat
  else return 0

def blockHeader : Scan (Chomping × Nat) := do
  match chomping? (← peek 0) with
  | some k =>
    modify (Lexer.advanceWord 1)
    let n ← blockIncrement
    return (k, n)
  | none =>
    let n ← blockIncrement
    match chomping? (← peek 0) with
    | some k =>
      modify (Lexer.advanceWord 1)
      return (k, n)
    | none => return (.clip, n)

/-- Passes over empty lines and the indentation of the next line; counts the empty lines. -/
def blockIndent (indent : Nat) : Nat → Nat → Scan Nat
  | 0, breaks => pure breaks
  | fuel + 1, breaks => do
    let l ← get
    let spaces := (l.rest.takeWhile fun c => c = ' ').length
    modify (Lexer.advance (min spaces (indent - l.mark.column)))
    if isBreak (← peek 0) then
      modify Lexer.advanceBreak
      blockIndent indent fuel (breaks + 1)
    else return breaks

/-- Passes over the empty lines in front of a block; gives the deepest column met and their number.
-/
def blockFirstIndent : Nat → Nat → Nat → Scan (Nat × Nat)
  | 0, deepest, breaks => pure (deepest, breaks)
  | fuel + 1, deepest, breaks => do
    let l ← get
    modify (Lexer.advance (l.rest.takeWhile fun c => c = ' ').length)
    let deepest := max deepest (← get).mark.column
    if isBreak (← peek 0) then
      modify Lexer.advanceBreak
      blockFirstIndent fuel deepest (breaks + 1)
    else return (deepest, breaks)

/-- Text of a block in reverse, with the line break after it and the empty lines that follow. -/
structure BlockText where
  text : List Char
  lineBreak : Bool
  breaks : Nat
  /-- The last line begins with a blank. -/
  blankFirst : Bool

def BlockText.addLine (literal : Bool) (b : BlockText) (line : List Char) : BlockText :=
  let blank := isSpace (line.headD 'x')
  let gap :=
    if !literal && b.lineBreak && !b.blankFirst && !blank then
      if b.breaks = 0 then [' '] else List.replicate b.breaks '\n'
    else List.replicate (b.breaks + (if b.lineBreak then 1 else 0)) '\n'
  ⟨line.reverse ++ gap ++ b.text, false, 0, blank⟩

def blockLoop (literal : Bool) (indent : Nat) : Nat → BlockText → Scan BlockText
  | 0, b => pure b
  | fuel + 1, b => do
    let l ← get
    if l.mark.column ≠ indent || isEnd (l.peek 0) then return b
    if indent = 0 && l.threeMarks '.' then return b
    let line := l.rest.takeWhile fun c => !isBreakOrEnd c
    modify (Lexer.advance line.length)
    let b := b.addLine literal line
    if isEnd (← peek 0) then return b
    modify Lexer.advanceBreak
    let breaks ← blockIndent indent (← Scan.fuel) 0
    blockLoop literal indent fuel { b with lineBreak := true, breaks }

/-- What a block without content stands for at the end of the text. -/
def emptyBlock (chomping : Chomping) (sameLine lineBreak : Bool) (breaks : Nat) : String :=
  let one := if lineBreak then "\n" else ""
  match chomping with
  | .strip => ""
  | .clip => if sameLine then "" else one
  | .keep =>
    if sameLine then "" else if breaks = 0 then one else String.ofList (List.replicate breaks '\n')

def blockScalar (literal : Bool) : Scan Token := do
  let startLine := (← get).mark.line
  modify (Lexer.advanceWord 1)
  modify Lexer.dropPlainIndents
  let (chomping, increment) ← blockHeader
  let _ ← skipToLineEnd true
  require (isBreakOrEnd (← peek 0))
  let lineBreak := isBreak (← peek 0)
  modify Lexer.advanceBreak
  require ((← peek 0) ≠ '\t')
  let outer := (← get).indent
  let fixed := if increment = 0 then 0 else (max outer 0).toNat + increment
  let (indent, breaks) ←
    if fixed = 0 then do
      let (deepest, breaks) ← blockFirstIndent (← Scan.fuel) 0 0
      let indent := max deepest (outer + 1).toNat
      pure (indent, breaks)
    else do
      let breaks ← blockIndent fixed (← Scan.fuel) 0
      pure (fixed, breaks)
  let l ← get
  if isEnd (l.peek 0) then
    return .scalar false (emptyBlock chomping (l.mark.line == startLine) lineBreak breaks)
  require !(l.mark.column < indent && l.column > outer)
  let b ← blockLoop literal indent (← Scan.fuel) ⟨[], false, breaks, false⟩
  let l ← get
  let final :=
    if chomping = .strip then []
    else
      (if b.lineBreak then ['\n'] else [])
        ++ (if isEnd (l.peek 0) && l.mark.column ≥ max indent 1 then ['\n'] else [])
  let kept := if chomping = .keep then List.replicate b.breaks '\n' else []
  return .scalar false (String.ofList (b.text.reverse ++ final ++ kept))

end MeshRollout.Yaml
