import MeshRollout.Number.Numeral
import MeshRollout.Command.Settings

/-!
Reading of command lines. Options come in any order, with their value after an equals sign or as the
next word; a word that starts with a hyphen is never taken for a value. The first error in the order
of words counts, where the value of an option is looked at when the next option begins.
-/
set_option autoImplicit false

namespace MeshRollout

inductive Flag where
  | agentName
  | desiredStateUrl
  | syncInterval
  | edgeSpace
  | fieldManager
  | crd
  | file
  | help
  | version
  deriving DecidableEq, Repr

namespace Flag

def long : Flag → String
  | .agentName => "agent-name"
  | .desiredStateUrl => "desired-state-url"
  | .syncInterval => "sync-interval-secs"
  | .edgeSpace => "edge-namespace"
  | .fieldManager => "field-manager"
  | .crd => "crd"
  | .file => "file"
  | .help => "help"
  | .version => "version"

def short? : Flag → Option Char
  | .file => some 'f'
  | .help => some 'h'
  | .version => some 'V'
  | _ => none

def takesValue : Flag → Bool
  | .crd | .help | .version => false
  | _ => true

def envName? : Flag → Option String
  | .agentName => some "AGENT_NAME"
  | .desiredStateUrl => some "DESIRED_STATE_URL"
  | .syncInterval => some "SYNC_INTERVAL_SECS"
  | .edgeSpace => some "EDGE_NAMESPACE"
  | .fieldManager => some "FIELD_MANAGER"
  | _ => none

def settings : List Flag :=
  [.agentName, .desiredStateUrl, .syncInterval, .edgeSpace, .fieldManager]

end Flag

/-- What keeps a command line from being run. Asking for help or for the version is among them. -/
inductive UsageError where
  | unknownArgument (word : String)
  | unknownCommand (word : String)
  | missingValue (f : Flag)
  | badValue (f : Flag) (value : String)
  | repeated (f : Flag)
  | unneededValue (f : Flag)
  | missingOption (f : Flag)
  | help
  | version
  deriving DecidableEq, Repr

/-- The options and commands that a command line may hold. -/
structure Grammar where
  flags : List Flag
  commands : List String

/-- Options read so far, and one whose value may still come. -/
structure Words where
  given : List (Flag × String) := []
  pending : Option (Flag × Option String) := none
  deriving DecidableEq, Repr

namespace Words

def value? (f : Flag) (w : Words) : Option String :=
  w.given.lookup f

def check (f : Flag) (value : String) : Except UsageError Unit :=
  match f with
  | .syncInterval =>
    if (Numeral.nat64? value.toList).isSome then .ok () else .error (.badValue f value)
  | .file => if value.isEmpty then .error (.missingValue f) else .ok ()
  | _ => .ok ()

def give (f : Flag) (value : String) (w : Words) : Except UsageError Words := do
  if (w.value? f).isSome then throw (.repeated f)
  check f value
  pure { w with given := w.given ++ [(f, value)] }

/-- Closes the option whose value might still come. -/
def settle (w : Words) : Except UsageError Words :=
  match w.pending with
  | none => .ok w
  | some (f, none) => .error (.missingValue f)
  | some (f, some value) => give f value { w with pending := none }

def awaitsValue (w : Words) : Bool :=
  match w.pending with
  | some (_, none) => true
  | _ => false

def fill (value : String) (w : Words) : Words :=
  { w with pending := w.pending.map fun p => (p.1, some value) }

def switch (f : Flag) (w : Words) : Except UsageError Words := do
  let w ← w.settle
  match f with
  | .help => throw .help
  | .version => throw .version
  | f => give f "true" w

def option (f : Flag) (attached : Option String) (w : Words) : Except UsageError Words := do
  let w ← w.settle
  match attached with
  | some value => give f value w
  | none => pure { w with pending := some (f, none) }

end Words

namespace Grammar

def ofLong? (g : Grammar) (name : String) : Option Flag :=
  g.flags.find? fun f => f.long == name

def ofShort? (g : Grammar) (c : Char) : Option Flag :=
  g.flags.find? fun f => f.short? == some c

/-- A word of two hyphens, a name, and maybe an equals sign with a value. -/
def longWord (g : Grammar) (word : String) (body : List Char) (w : Words) :
    Except UsageError Words :=
  let (name, attached) :=
    match Text.splitOnce '=' body with
    | some (name, value) => (String.ofList name, some (String.ofList value))
    | none => (String.ofList body, none)
  match g.ofLong? name with
  | none => .error (.unknownArgument word)
  | some f =>
    if f.takesValue then w.option f attached
    else if attached.isSome then .error (.unneededValue f)
    else w.switch f

/-- Letters after one hyphen. The first one that takes a value takes the rest of the word. -/
def shortWord (g : Grammar) (word : String) : List Char → Words → Except UsageError Words
  | [], w => .ok w
  | c :: r, w =>
    match g.ofShort? c with
    | none => .error (.unknownArgument word)
    | some f =>
      if f.takesValue then
        match r with
        | [] => w.option f none
        | '=' :: value => w.option f (some (String.ofList value))
        | value => w.option f (some (String.ofList value))
      else do
        let w ← w.switch f
        shortWord g word r w

def strayWord (g : Grammar) (word : String) : UsageError :=
  if g.commands.isEmpty then .unknownArgument word else .unknownCommand word

/-- Reads words up to a command. Gives what was read, and the command with the words after it. -/
def read (g : Grammar) (w : Words) :
    List String → Except UsageError (Words × Option (String × List String))
  | [] => do
    let w ← w.settle
    pure (w, none)
  | word :: rest =>
    if !w.awaitsValue && g.commands.contains word then do
      let w ← w.settle
      pure (w, some (word, rest))
    else
      match word.toList with
      | ['-', '-'] =>
        match rest with
        | [] => do
          let w ← w.settle
          pure (w, none)
        | next :: _ => .error (g.strayWord next)
      | '-' :: '-' :: body => do
        let w ← g.longWord word body w
        read g w rest
      | '-' :: c :: body => do
        let w ← g.shortWord word (c :: body) w
        read g w rest
      | _ => if w.awaitsValue then read g (w.fill word) rest else .error (g.strayWord word)

end Grammar

abbrev Environment := List (String × String)

namespace Words

def complete (env : Environment) : List Flag → Words → Except UsageError Words
  | [], w => .ok w
  | f :: fs, w =>
    match w.value? f, f.envName?.bind fun v => env.lookup v with
    | none, some value => do
      let w ← give f value w
      complete env fs w
    | _, _ => complete env fs w

def settings (w : Words) : Settings :=
  let usual : Settings := {}
  { agentName := w.value? .agentName
    desiredStateUrl := w.value? .desiredStateUrl
    syncIntervalSeconds :=
      ((w.value? .syncInterval).bind fun s => Numeral.nat64? s.toList).getD
        usual.syncIntervalSeconds
    edgeSpace := (w.value? .edgeSpace).getD usual.edgeSpace
    fieldManager := (w.value? .fieldManager).getD usual.fieldManager }

end Words

namespace Settings

def grammar : Grammar :=
  ⟨Flag.settings ++ [.help], []⟩

def ofWords (env : Environment) (words : List String) : Except UsageError Settings := do
  let (w, _) ← grammar.read {} words
  let w ← w.complete env Flag.settings
  pure w.settings

end Settings

end MeshRollout
