import MeshRollout.Desired.Convergence
import MeshRollout.Route.Basic

/-!
A pass over the desired state: the manifest is fetched and read, routes are brought to the desired
ones, and objects of other kinds are applied. A manifest without routes deletes every route.
-/
set_option autoImplicit false

namespace MeshRollout.Alignment

/-- Adds the outcome of a part of a pass. That the cluster was not ready is kept for the end. -/
def takeIn (p : Progress) : Except Failure Report → Except Failure Progress
  | .ok r => .ok { p with report := p.report.merge r }
  | .error f =>
    if f.awaitsPrerequisite then .ok { p with rejection := p.rejection.or (some f) } else .error f

def takingIn (p : Progress) (part : Pass Report) : Pass Progress := do
  let outcome ← part.attempt
  Pass.ofExcept (takeIn p outcome)

def pass (manager : String) : Pass Report := do
  let text ← Pass.fetch
  let ds ← Pass.ofExcept (Manifest.read text)
  let p ← takingIn {} (Convergence.converge manager Route.resource
    (Manifest.managed Route.resource ds))
  let p ← takingIn p (Convergence.applyOthers manager (Manifest.others Route.resource ds))
  Pass.ofExcept p.finish

/-- Passes one after another until the program is asked to stop, at most `limit` of them. A pass
that fails is no reason to stop. Gives the number of passes. -/
def loop (manager : String) : Nat → Pass Nat
  | 0 => pure 0
  | limit + 1 => do
    if ← Pass.cancelled then return 0
    let _ ← (pass manager).attempt
    let n ← loop manager limit
    return n + 1

/-- Where the manifest of an agent is found. Slashes at the end of the base do not count. -/
def manifestAddress (base agent : String) : String :=
  String.ofList (base.toList.reverse.dropWhile (· == '/')).reverse ++ "/" ++ agent

end MeshRollout.Alignment
