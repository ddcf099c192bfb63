import MeshRollout.Desired.Manifest
import MeshRollout.Route.Basic
import MeshRollout.Traffic.Bundle
import MeshRollout.Yaml.Printer

/-!
What a manifest would bring into the cluster, as text. The objects are those that a pass over the
routes writes, in the same order; there is no route yet that could own them.
-/
set_option autoImplicit false

namespace MeshRollout.Preview

def serviceObjects (o : Owner) (edgeSpace : String) :
    List Service → Except Failure (List PlannedObject)
  | [] => .ok []
  | s :: ss => do
    let b ← s.routing edgeSpace
    let objects ← (b.markedFor o none).serialized
    let rest ← serviceObjects o edgeSpace ss
    pure (objects ++ rest)

def owner (r : Route) : Owner :=
  ⟨r.metadata.name.getD "", r.spaceOrEmpty, r.uidOrEmpty⟩

def routeObjects (edgeSpace : String) (r : Route) : Except Failure (List PlannedObject) := do
  r.spec.validate
  serviceObjects (owner r) edgeSpace r.spec.services

/-- The objects of one document; a document that is no route has none. -/
def documentObjects (edgeSpace : String) (i : Nat) (v : Value) :
    Except Failure (List PlannedObject) := do
  if (v.field "kind").bind Value.text? = some Route.kind then
    let r ← (Route.read v).mapError fun m => .decode i m.message
    routeObjects edgeSpace r
  else pure []

def objectsFrom (edgeSpace : String) (i : Nat) : List Value → Except Failure (List PlannedObject)
  | [] => .ok []
  | v :: vs => do
    let os ← documentObjects edgeSpace i v
    let rest ← objectsFrom edgeSpace (i + 1) vs
    pure (os ++ rest)

def objects (edgeSpace text : String) : Except Failure (List PlannedObject) := do
  objectsFrom edgeSpace 0 (← Yaml.decode text)

def manifest (edgeSpace text : String) : Except Failure String :=
  (objects edgeSpace text).map fun os =>
    Text.joinWith "---\n" (os.map fun o => Yaml.text o.object.toValue)

end MeshRollout.Preview
