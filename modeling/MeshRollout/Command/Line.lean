import MeshRollout.Command.Arguments
import MeshRollout.Command.Preview
import MeshRollout.Route.Schema

/-!
The commands of the agent: what a command line asks for, and how the commands end that need no
cluster.
-/
set_option autoImplicit false

namespace MeshRollout

inductive Command where
  /-- Watches routes and keeps their objects in place. -/
  | controller
  /-- Makes one pass over the desired state. -/
  | syncOnce
  /-- Prints what the manifest in a file would bring into the cluster. -/
  | render (file : String)
  deriving DecidableEq, Repr

structure Invocation where
  /-- Whether only the definition of routes is printed. -/
  definition : Bool
  settings : Settings
  command : Command
  deriving DecidableEq, Repr

namespace Invocation

def controllerName : String := "controller"
def syncOnceName : String := "sync-once"
def renderName : String := "render"
def helpName : String := "help"

def commandNames : List String :=
  [controllerName, syncOnceName, renderName, helpName]

def grammar : Grammar :=
  ⟨Flag.settings ++ [.crd, .help, .version], commandNames⟩

def readCommand (name : String) (words : List String) : Except UsageError Command := do
  if name == helpName then
    match words with
    | [] => throw .help
    | word :: _ => throw (if commandNames.contains word then .help else .unknownCommand word)
  else if name == renderName then
    let g : Grammar := ⟨[.file, .help], []⟩
    let (w, _) ← g.read {} words
    match w.value? .file with
    | some file => pure (.render file)
    | none => throw (.missingOption .file)
  else
    let g : Grammar := ⟨[.help], []⟩
    let _ ← g.read {} words
    pure (if name == syncOnceName then .syncOnce else .controller)

def read (env : Environment) (words : List String) : Except UsageError Invocation := do
  let (w, rest) ← grammar.read {} words
  let command ←
    match rest with
    | some (name, words) => readCommand name words
    | none => pure .controller
  let w ← w.complete env Flag.settings
  pure { definition := (w.value? .crd).isSome, settings := w.settings, command }

end Invocation

structure Ending where
  code : Nat
  out : String := ""
  err : String := ""
  deriving DecidableEq, Repr

namespace Ending

def fault (message : String) : Ending :=
  { code := 1, err := "Error: " ++ message ++ "\n" }

def ofResult (r : Except Failure String) : Ending :=
  match r with
  | .ok out => { code := 0, out }
  | .error f => fault f.message

end Ending

inductive Plan where
  | ended (e : Ending)
  /-- Reads a file, and ends by its text or by the account of why there is none. -/
  | withFile (path : String) (next : Except String String → Ending)
  /-- Works on a cluster. -/
  | onCluster (c : Command) (s : Settings)

namespace Plan

def title : String := "mesh-agent"
def versionText : String := "0.1.0"

def usage : String :=
  "Usage: " ++ title ++ " [OPTIONS] [COMMAND]\n"

def ofUsageError : UsageError → Ending
  | .help => { code := 0, out := usage }
  | .version => { code := 0, out := title ++ " " ++ versionText ++ "\n" }
  | _ => { code := 2, err := usage }

def renderFile (s : Settings) (path : String) (text : Except String String) : Ending :=
  match text with
  | .ok text => .ofResult (Preview.manifest s.edgeSpace text)
  | .error account => .fault ("Failed to read " ++ path ++ ": " ++ account)

/-- The definition of routes is printed whatever the settings are; all else needs good ones. -/
def ofInvocation (i : Invocation) : Plan :=
  if i.definition then .ended { code := 0, out := Yaml.text Schema.definition ++ "\n" }
  else
    match i.settings.validate with
    | .error f => .ended (.fault f.message)
    | .ok () =>
      match i.command with
      | .render path => .withFile path (renderFile i.settings path)
      | c => .onCluster c i.settings

def ofWords (env : Environment) (words : List String) : Plan :=
  match Invocation.read env words with
  | .ok i => ofInvocation i
  | .error e => .ended (ofUsageError e)

end Plan

end MeshRollout
