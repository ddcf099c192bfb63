import MeshRollout.Yaml.Lexing
import MeshRollout.Yaml.Node

/-!
From tokens to the nodes of documents. Each function takes the tokens of one construct; tokens that
no construct can begin or go on with have no reading.
-/
set_option autoImplicit false

namespace MeshRollout.Yaml

/-- The tokens that are left, the tag handles of the document, and its anchors: a name leads to the
newest anchor of that name, and an anchor to its node once that is complete. -/
structure Composer where
  rest : List Token
  tags : List (String × String)
  anchors : List (String × Nat)
  nodes : List (Nat × Node)
  nextAnchor : Nat

abbrev Compose (α : Type) := StateT Composer Option α

namespace Compose

def peek : Compose (Option Token) := do
  return (← get).rest.head?

def skip : Compose Unit :=
  modify fun c => { c with rest := c.rest.drop 1 }

def take (t : Token) : Compose Bool := do
  if (← peek) == some t then
    skip
    return true
  else return false

def meets (ts : List Token) : Compose Bool := do
  match ← peek with
  | some t => return ts.contains t
  | none => return false

def require (b : Bool) : Compose Unit :=
  if b then pure () else failure

def isHandle (s : String) : Bool :=
  let cs := s.toList
  decide (cs.length ≥ 2) && cs.head? == some '!' && cs.getLast? == some '!'

def resolveTag (handle suffix : String) : Compose (String × String) := do
  match (← get).tags.lookup handle with
  | some lead => return (lead, suffix)
  | none =>
    if handle == "!!" then return (Node.coreHandle, suffix)
    require !(isHandle handle)
    return (handle, suffix)

def registerAnchor (name : String) : Compose Nat := do
  let c ← get
  set { c with anchors := (name, c.nextAnchor) :: c.anchors, nextAnchor := c.nextAnchor + 1 }
  return c.nextAnchor

def anchor? : Compose (Option Nat) := do
  match ← peek with
  | some (.anchor name) =>
    skip
    some <$> registerAnchor name
  | _ => return none

def tag? : Compose (Option (String × String)) := do
  match ← peek with
  | some (.tag handle suffix) =>
    skip
    some <$> resolveTag handle suffix
  | _ => return none

/-- An anchor and a tag in either order, each of which may be absent. -/
def properties : Compose (Option Nat × Option (String × String)) := do
  match ← anchor? with
  | some a => return (some a, ← tag?)
  | none =>
    match ← tag? with
    | some t => return (← anchor?, some t)
    | none => return (none, none)

def referred (name : String) : Compose Node := do
  let c ← get
  match c.anchors.lookup name with
  | none => failure
  | some a => return (c.nodes.lookup a).getD .hole

def complete (anchor : Option Nat) (n : Node) : Compose Node := do
  match anchor with
  | none => return n
  | some a =>
    modify fun c => { c with nodes := (a, n) :: c.nodes }
    return n

def mapping (turns : List Node) : Compose Node :=
  match Node.ofTurns? turns with
  | some n => pure n
  | none => failure

mutual

/-- A node. Blocks may begin only where `block` holds, and a sequence without indentation of its own
only where `indentless` holds. -/
def node (block indentless : Bool) : Nat → Compose Node
  | 0 => failure
  | fuel + 1 => do
    if let some (.alias name) ← peek then
      skip
      return ← referred name
    let (anchor, tag) ← properties
    match ← peek with
    | some (.scalar plain s) =>
      skip
      complete anchor (Node.ofScalar plain tag s)
    | some .flowSequenceStart =>
      skip
      complete anchor (.list (← flowItems true fuel))
    | some .flowMappingStart =>
      skip
      complete anchor (← mapping (← flowPairs true fuel))
    | t =>
      if t == some .blockEntry && indentless then
        complete anchor (.list (← looseItems fuel))
      else if t == some .blockSequenceStart && block then
        skip
        complete anchor (.list (← blockItems fuel))
      else if t == some .blockMappingStart && block then
        skip
        complete anchor (← mapping (← blockPairs fuel))
      else
        require (anchor.isSome || tag.isSome)
        complete anchor (Node.ofScalar true tag "")

def nodeUnless (ts : List Token) (block indentless : Bool) : Nat → Compose Node
  | 0 => failure
  | fuel + 1 => do
    if ← meets ts then return .null
    node block indentless fuel

def blockItems : Nat → Compose (List Node)
  | 0 => failure
  | fuel + 1 => do
    if ← take .blockEnd then return []
    require (← take .blockEntry)
    let n ← nodeUnless [.blockEntry, .blockEnd] true false fuel
    return n :: (← blockItems fuel)

def looseItems : Nat → Compose (List Node)
  | 0 => failure
  | fuel + 1 => do
    if !(← take .blockEntry) then return []
    let n ← nodeUnless [.blockEntry, .key, .value, .blockEnd] true false fuel
    return n :: (← looseItems fuel)

def blockPairs : Nat → Compose (List Node)
  | 0 => failure
  | fuel + 1 => do
    if ← take .blockEnd then return []
    let k ←
      if ← take .key then nodeUnless [.key, .value, .blockEnd] true true fuel
      else do
        require (← meets [.value])
        pure .null
    let v ←
      if ← take .value then nodeUnless [.key, .value, .blockEnd] true true fuel
      else pure .null
    return k :: v :: (← blockPairs fuel)

def flowPairs (first : Bool) : Nat → Compose (List Node)
  | 0 => failure
  | fuel + 1 => do
    if ← take .flowMappingEnd then return []
    if !first then require (← take .flowEntry)
    if ← take .flowMappingEnd then return []
    let marked ← take .key
    if !marked && !(← meets [.value]) then
      let k ← node false false fuel
      return k :: .null :: (← flowPairs false fuel)
    let k ←
      if marked then nodeUnless [.value, .flowEntry, .flowMappingEnd] false false fuel
      else pure .null
    let v ←
      if ← take .value then nodeUnless [.flowEntry, .flowMappingEnd] false false fuel
      else pure .null
    return k :: v :: (← flowPairs false fuel)

def flowItems (first : Bool) : Nat → Compose (List Node)
  | 0 => failure
  | fuel + 1 => do
    if ← take .flowSequenceEnd then return []
    if !first then require (← take .flowEntry)
    if ← take .flowSequenceEnd then return []
    let n ← if ← take .key then flowPair fuel else node false false fuel
    return n :: (← flowItems false fuel)

/-- A mapping of one pair inside a sequence in brackets. An empty key swallows the token after it.
-/
def flowPair : Nat → Compose Node
  | 0 => failure
  | fuel + 1 => do
    let k ←
      if ← meets [.value, .flowEntry, .flowSequenceEnd] then do
        skip
        pure .null
      else node false false fuel
    let v ←
      if ← take .value then nodeUnless [.flowEntry, .flowSequenceEnd] false false fuel
      else pure .null
    mapping [k, v]

end

def skipDocumentEnds : Nat → Compose Unit
  | 0 => pure ()
  | fuel + 1 => do
    if ← take .documentEnd then skipDocumentEnds fuel

def meetsDirective : Compose Bool := do
  match ← peek with
  | some .version | some (.tagDirective _ _) => return true
  | _ => return false

/-- The directives in front of a document. Of the handles only the last one counts. -/
def directives : Nat → Bool → Compose Unit
  | 0, _ => pure ()
  | fuel + 1, versioned => do
    match ← peek with
    | some .version =>
      require !versioned
      modify fun c => { c with tags := [] }
      skip
      directives fuel true
    | some (.tagDirective handle lead) =>
      modify fun c => { c with tags := [(handle, lead)] }
      skip
      directives fuel versioned
    | _ => pure ()

/-- The documents of a text. A document may begin without a mark at the start and after an end mark
only. -/
def documents : Nat → Bool → Compose (List Node)
  | 0, _ => failure
  | fuel + 1, bare => do
    skipDocumentEnds fuel
    if (← peek).isNone then return []
    modify fun c => { c with anchors := [] }
    let marked := (← meetsDirective) || (← meets [.documentStart]) || !bare
    if marked then
      directives fuel false
      require (← take .documentStart)
    let empty := marked
      && ((← peek).isNone || (← meetsDirective) || (← meets [.documentStart, .documentEnd]))
    let n ← if empty then pure .null else node true false fuel
    modify fun c => { c with tags := [] }
    let ended ← take .documentEnd
    if !ended then require !(← meetsDirective)
    return n :: (← documents fuel ended)

end Compose

/-- The documents of a text, where every step takes a token or goes down one of a few levels. -/
def documents? (text : String) : Option (List Node) :=
  (tokens? text.toList).bind fun ts =>
    ((Compose.documents (4 * ts.length + 8) true).run ⟨ts, [], [], [], 1⟩).map Prod.fst

end MeshRollout.Yaml
