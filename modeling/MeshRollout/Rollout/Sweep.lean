import MeshRollout.Cluster.Program
import MeshRollout.Desired.Convergence
import MeshRollout.Traffic.Bundle

/-!
Deleting the objects of a route that it no longer produces, in every namespace. They are found by
the mark that they carry, because a route cannot own objects in other namespaces.
-/
set_option autoImplicit false

namespace MeshRollout

structure Identity where
  kind : String
  space : String
  name : String
  deriving DecidableEq, Repr

def Identity.of (r : Resource) (o : Object) : Identity :=
  ⟨r.kind, o.space, o.name⟩

def producedKinds : List Resource :=
  [VirtualServiceSpec.kind.resource, GatewaySpec.kind.resource, DestinationRuleSpec.kind.resource,
    EnvoyFilterSpec.kind.resource]

namespace Sweep

def isStale (o : Owner) (keep : List Identity) (r : Resource) (live : Object) : Bool :=
  o.owns live.labels && !keep.contains (.of r live)

/-- Deletes objects one after another and gives the ones that were still there. -/
def deleteAll (r : Resource) : List Object → Pass (List String)
  | [] => pure []
  | live :: rest => do
    Pass.checkpoint "sweep delete"
    let gone ← Pass.delete r live.spaceArg live.name
    let deleted ← deleteAll r rest
    return if gone then (r.kind ++ " " ++ live.key) :: deleted else deleted

def sweepKind (o : Owner) (keep : List Identity) (r : Resource) : Pass (List String) := do
  Pass.checkpoint "sweep list"
  let live ← Pass.list r none (some o.selector)
  deleteAll r (live.filter (isStale o keep r))

def sweepKinds (o : Owner) (keep : List Identity) : List Resource → Pass (List String)
  | [] => pure []
  | r :: rest => do
    let deleted ← sweepKind o keep r
    let more ← sweepKinds o keep rest
    return deleted ++ more

end Sweep

/-- Deletes every object that carries the mark of a route and is not to be kept. Gives what was
deleted. -/
def sweep (o : Owner) (keep : List Identity) : Pass (List String) :=
  Sweep.sweepKinds o keep producedKinds

end MeshRollout
