import MeshRollout.Command.Line

/-!
The agent as a program: it reads its command line and its environment, and prints how the run ends.
It has no connection to a cluster of its own.
-/
set_option autoImplicit false

namespace MeshRollout

def environment : IO Environment := do
  let found ← Flag.settings.filterMapM fun f => do
    match f.envName? with
    | none => pure none
    | some v => pure ((← IO.getEnv v).map fun s => (v, s))
  pure found

def fileAccount : IO.Error → String
  | .noFileOrDirectory _ code _ => "No such file or directory (os error " ++ toString code ++ ")"
  | .permissionDenied _ code _ => "Permission denied (os error " ++ toString code ++ ")"
  | .inappropriateType _ code _ => "Is a directory (os error " ++ toString code ++ ")"
  | e => toString e

def readText (path : String) : IO (Except String String) := do
  try
    return .ok (← IO.FS.readFile path)
  catch e => return .error (fileAccount e)

def Plan.carryOut : Plan → IO Ending
  | .ended e => pure e
  | .withFile path next => do return next (← readText path)
  | .onCluster _ _ => pure (.fault "no cluster can be reached")

end MeshRollout

open MeshRollout in
def main (words : List String) : IO UInt32 := do
  let e ← (Plan.ofWords (← environment) words).carryOut
  IO.print e.out
  IO.eprint e.err
  return e.code.toUInt32
